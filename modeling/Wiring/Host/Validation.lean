import Wiring.Host

/-!
# Validation

Before a container resolves anything it checks, once, that every object that its components
declare as needed has exactly one provider. The result is kept and given again ever after.
-/

namespace Wiring.Host

variable {C : Client}

/-- Fails unless a dependency on an object has exactly one provider. -/
def checkDemand (r : Registry C) (member : String) (d : Dependency) : Attempted Unit :=
  match d.want with
  | .object type =>
    let failing (mismatch : Mismatch) : Attempted Unit :=
      .error (.definition { mismatch, type, qualifiers := d.qualifiers, member := some member })
    match r.countExact (type, d.qualifiers) with
    | 1 => .ok ()
    | 0 => failing .unsatisfied
    | _ => failing .ambiguous
  | .container | .selection _ => .ok ()

/-- Checks labelled dependencies in order, up to the first that fails. -/
def checkDemands (r : Registry C) : List (String × Dependency) → Attempted Unit
  | [] => .ok ()
  | (member, d) :: rest =>
    match checkDemand r member d with
    | .ok () => checkDemands r rest
    | .error e => .error e

/-- Checks what a component declares. -/
def checkComponent (h : Host C) (c : ContainerId) (type : TypeKey) : Attempt C Unit := do
  let constructor ← step (h.run (h.code.component type).constructor)
  let points ← step (h.run (h.code.component type).points)
  -- The component's own code has run, so the definitions are read after it.
  let registry := (← step (Machine.container c)).registry
  settle (checkDemands registry (points.demands type.name constructor))

/-- Checks providers in order, up to the first that fails; only components declare anything. -/
def checkProviders (h : Host C) (c : ContainerId) : List (Provider C) → Attempt C Unit
  | [] => return ()
  | p :: rest => do
    if p.definition.isComponent then
      let type := p.definition.implementation
      match ← resultOf (checkComponent h c type) with
      | .ok () => pure ()
      | .error e =>
        step (Machine.report c (.rejected type e))
        throw e
    checkProviders h c rest

/-- Checks all providers and moves the container on; a teardown meanwhile has the last word. -/
def validateNow (h : Host C) (c : ContainerId) : Attempt C Unit := do
  step (Machine.advancePhase c .unconfigured .validating)
  step (Machine.report c (.validating (← step (Machine.container c)).registry.size))
  match ← resultOf (checkProviders h c (← step (Machine.container c)).registry.providers) with
  | .error e =>
    step (Machine.advancePhase c .validating .failed)
    throw e
  | .ok () =>
    step (Machine.advancePhase c .validating .ready)
    step (Machine.report c (.ready (← step (Machine.container c)).registry.size))

/-- Validates, unless that has been done. A validation that waits for itself has no answer. -/
def validate (h : Host C) (c : ContainerId) : Attempt C Unit := do
  let k ← step (Machine.container c)
  if k.phase = .destroyed then
    throw (.configuration .tornDown)
  match k.validation with
  | some r => settle r
  | none =>
    -- Without a result, this phase means that the call comes from within the validation.
    if k.phase = .validating then
      step (failure : Machine C Unit)
    let r ← resultOf (validateNow h c)
    step (Machine.settleValidation c r)
    settle r

/-- Fails unless the container resolves objects; validates it if need be. -/
def ensureReady (h : Host C) (c : ContainerId) : Attempt C Unit := do
  match (← step (Machine.container c)).phase with
  | .ready => return ()
  | .destroyed => throw (.configuration .resolvedTornDown)
  | _ => validate h c

end Wiring.Host
