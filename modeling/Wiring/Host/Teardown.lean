import Wiring.Host.Construction

/-!
# Teardown

A container is torn down once. Every kept value is taken away and disposed of, the latest
registration first; a failure does not stop the visit, and the first one is reported.
-/

namespace Wiring.Host

variable {C : Client}

/-- Disposes of a value the way its source says. -/
def disposeBySource (h : Host C) (d : Definition C) (v : Value C) : Attempt C Unit :=
  match d.source with
  | .ready _ => return ()
  | .producer _ none => return ()
  | .producer _ (some dispose) =>
    h.invoke (Label.member d.implementation.name "destroy") (h.code.dispose dispose v)
  | .component =>
    match v with
    | .object o => preDestroy h d.implementation o
    | .container _ =>
      throw (.invocation (Label.member d.implementation.name "destroy") (.said "type mismatch"))

/-- Disposes of a value: by its source, then by what the registration added, in any case. -/
def disposeOf (h : Host C) (d : Definition C) (v : Value C) : Attempt C Unit := do
  let own ← resultOf (disposeBySource h d v)
  match d.onDestroy with
  | none => settle own
  | some dispose =>
    let extra ← resultOf (h.invoke (Label.member d.implementation.name "on_destroy")
      (h.code.dispose dispose v))
    -- Both have run by now; the failure of the first one counts.
    settle own
    settle extra

/-- What a teardown has come to: how many values were visited, and the first failure. -/
structure TeardownResult where
  count : Nat := 0
  failure : Option Failure := none

/-- Visits providers in order and disposes of their kept values. -/
def disposeAll (h : Host C) (c : ContainerId) :
    List (Provider C) → TeardownResult → Machine C TeardownResult
  | [], result => return result
  | p :: rest, result => do
    match ← Machine.release? p.id with
    | none => disposeAll h c rest result
    | some v =>
      let r ← (disposeOf h p.definition v).run
      Machine.mark (.disposed p.id v)
      match r with
      | .ok () => disposeAll h c rest { result with count := result.count + 1 }
      | .error e =>
        Machine.report c (.teardownFailed p.definition.implementation e)
        disposeAll h c rest
          { count := result.count + 1, failure := some (result.failure.getD e) }

/-- Tears down the kept values of a container; a second time does nothing. -/
def destroy (h : Host C) (c : ContainerId) : Attempt C Unit := do
  -- The phase comes first, so that disposing code finds a container that resolves nothing.
  let previous ← step (Machine.swapPhase c .destroyed)
  if previous = .destroyed then
    return ()
  let providers := (← step (Machine.container c)).registry.providers
  let result ← step (disposeAll h c providers.reverse {})
  step (Machine.setRegistry c (← step (Machine.container c)).registry.forget)
  step (Machine.report c (.destroyed result.count previous))
  match result.failure with
  | none => return ()
  | some e => throw e

end Wiring.Host
