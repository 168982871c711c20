import Wiring.Proofs.Coherence

/-!
# Invariants of courses

A property that every single change of a course keeps in coherent worlds is kept by the whole
course. The changes are given with what is known of the world in which they happen: whose value
is made, in which phase its container is, and what a validation has found by its end.

Main statement: `Course.invariant`.
-/

namespace Wiring

variable {C : Client} {D : Outline}

namespace World

/-- The validation of a container is about to end: it has begun and has no result yet, and the
container was torn down meanwhile or is still being validated. -/
structure Concluding (w : World C) (c : ContainerId) : Prop where
  has : w.Has c
  begun : ∃ n, .event c (.validating n) ∈ w.journal
  phase : (w.container c).phase = .validating ∨ (w.container c).phase = .destroyed
  validation : (w.container c).validation = none

/-- A value of a provider is being made, and no other one was begun after it. -/
structure Making (w : World C) (c : ContainerId) (p : Provider C) : Prop where
  holds : w.Holds c p
  isOpen : (w.container c).phase.IsOpen
  innermost : ∃ building, w.building = p.id :: building
  begun : w.history p.id ≠ []

end World

/-- Every change of a course keeps a property of coherent worlds. -/
structure Invariant (D : Outline) (I : World C → Prop) : Prop where
  quiet : ∀ {w v}, w.Coherent → I w → Quiet w v → I v
  begun : ∀ {w c p}, w.Coherent → I w → w.CanBegin c p → I (w.begun c p)
  ended : ∀ {w c p}, w.Coherent → I w → w.Making c p → I (w.ended p)
  completed : ∀ {w c p} (x : Value C), w.Coherent → I w → w.Making c p → w.Supplied D c p →
    I (w.completed p x)
  departed : ∀ {w}, w.Coherent → I w → I w.departed
  rejoined : ∀ {w v}, w.Coherent → v.Coherent → I w → I v → w.departed.Frame v → I (w.rejoined v)
  validating : ∀ {w c} (n : Nat), w.Coherent → I w → w.Has c →
    (w.container c).phase = .unconfigured → I (w.validating c n)
  accepted : ∀ {w c} (n : Nat), w.Coherent → I w → w.Concluding c → w.Checked D c →
    I (w.accepted c n)
  rejected : ∀ {w c} (type : TypeKey) (f : LookupFailure), w.Coherent → I w → w.Concluding c →
    I (w.rejected c type (.definition f))
  destroyed : ∀ {w c}, w.Coherent → I w → w.Has c → (w.container c).phase ≠ .destroyed →
    I (w.withPhase c .destroyed)
  closed : ∀ {w c} (n : Nat) (previous : Phase), w.Coherent → I w → w.Has c →
    (w.container c).phase = .destroyed → previous ≠ .destroyed → I (w.closed c n previous)
  releasing : ∀ {w c p x}, w.Coherent → I w → w.Holds c p → (w.container c).phase = .destroyed →
    w.kept.get? p.id = some x → I (w.releasing p x)
  disposed : ∀ {w c p} (x : Value C) (o : Attempted Unit), w.Coherent → I w → w.Holds c p →
    (w.container c).phase = .destroyed → w.history p.id ≠ [] → I (w.disposed c p x o)

open World

/-- What was begun is being made when all that began after it has ended. -/
theorem World.CanBegin.making {w v : World C} {c : ContainerId} {p : Provider C}
    (hb : w.CanBegin c p) (h : Course D .work true (w.begun c p) v) : v.Making c p := by
  obtain ⟨hp, ho⟩ := hb.later h.frame
  refine ⟨hp, ho, ⟨w.building, (h.level rfl).building⟩, h.frame.history_ne_nil ?_⟩
  unfold history World.begun enter
  rw [historyIn_milestone_self rfl]
  exact List.cons_ne_nil _ _

/-- A validation that began in a coherent world has no result until it ends. -/
theorem World.Coherent.concluding {w v : World C} {c : ContainerId} {n : Nat} (hw : w.Coherent)
    (hc : w.Has c) (hphase : (w.container c).phase = .unconfigured)
    (h : (w.validating c n).Frame v) : v.Concluding c := by
  have hcontainer := container_validating hphase n
  refine ⟨((Frame.validating w c n hphase).trans h).has c hc,
    ⟨n, h.journal.subset List.mem_cons_self⟩, h.validating_end hphase, ?_⟩
  rw [(h.container c).validation (by rw [hcontainer]; exact Phase.noConfusion), hcontainer]
  exact hw.validation_eq_none hphase

/-- What every change of a course keeps is kept by the whole course. -/
theorem Course.invariant {I : World C → Prop} (hI : Invariant D I) {a : Activity C} {b : Bool}
    {w v : World C} (h : Course D a b w v) (hw : w.Coherent) (hi : I w) : I v := by
  -- Induction on the course; whatever runs in between starts from a coherent world and ends in one.
  induction h with
  | refl | sweepNil => exact hi
  | trans hwu _ ihu ihv => exact ihv (hwu.coherent hw) (ihu hw hi)
  | quiet h => exact hI.quiet hw hi h
  | abandon c p hb hin ih =>
    have hu := ih (hw.begun hb) (hI.begun hw hi hb)
    exact hI.ended (hin.coherent (hw.begun hb)) hu (hb.making hin)
  | complete c p x hb hin hsupplied ih =>
    have hu := ih (hw.begun hb) (hI.begun hw hi hb)
    exact hI.completed x (hin.coherent (hw.begun hb)) hu (hb.making hin) hsupplied
  | constructing c p hb _ ih => exact ih (hw.begun hb) (hI.begun hw hi hb)
  | apart hin ih =>
    have hu := ih hw.departed (hI.departed hw hi)
    -- The caller's world held the invariant, and so does the one the other thread ends in.
    exact hI.rejoined hw (hin.coherent hw.departed) hi hu hin.frame
  | departing _ ih => exact ih hw.departed (hI.departed hw hi)
  | accept c n m hc hphase hin hchecked ih =>
    have hbegin := hw.validating n hc hphase
    have hu := ih hbegin (hI.validating n hw hi hc hphase)
    exact hI.accepted m (hin.coherent hbegin) hu (hw.concluding hc hphase hin.frame) hchecked
  | reject c n type f hc hphase hin ih =>
    have hbegin := hw.validating n hc hphase
    have hu := ih hbegin (hI.validating n hw hi hc hphase)
    exact hI.rejected type f (hin.coherent hbegin) hu (hw.concluding hc hphase hin.frame)
  | validating c n hc hphase _ ih =>
    exact ih (hw.validating n hc hphase) (hI.validating n hw hi hc hphase)
  | teardown c r hc hphase hin ih =>
    have hbegin := hw.withPhase_destroyed hc
    have hu := ih hbegin (hI.destroyed hw hi hc hphase)
    have hframe := (Frame.withPhase_destroyed _ c).trans hin.frame
    exact hI.closed _ _ (hin.coherent hbegin) hu (hframe.has c hc)
      (hin.frame.destroyed (phase_withPhase _ c .destroyed)) hphase
  | tearing c r hc hphase _ ih =>
    exact ih (hw.withPhase_destroyed hc) (hI.destroyed hw hi hc hphase)
  | sweepPass c p _ _ ih => exact ih hw hi
  | @sweepVisit b w u v c p x o rest r r' hp hphase hx hin _ ihu ihv =>
    have hreleased := hw.releasing hp hphase hx
    obtain ⟨hphaseu, hholdsu⟩ := Frame.of_releasing hphase hin.frame
    have hu := hin.coherent hreleased
    have hiu := ihu hreleased (hI.releasing hw hi hp hphase hx)
    -- The slot was just emptied, which is in the provider's history.
    have hhistory : (w.releasing p x).history p.id ≠ [] := by
      unfold history World.releasing enter
      rw [historyIn_milestone_self rfl]
      exact List.cons_ne_nil _ _
    exact ihv (hu.disposed x o (hholdsu p hp) hphaseu)
      (hI.disposed x o hu hiu (hholdsu p hp) hphaseu (hin.frame.history_ne_nil hhistory))
  | sweeping c p x hp hphase hx _ ih =>
    exact ih (hw.releasing hp hphase hx) (hI.releasing hw hi hp hphase hx)

end Wiring
