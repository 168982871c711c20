import Wiring.Proofs.Coherence

/-!
# What courses write

Facts about what the journal does not say are proved alike: as long as something holds of the
world, nothing else is written, and it goes on holding. A course writes what its rules write, so
it is enough to look at the entries, each in the world in which its bracket began.

Main statement: `Course.writes`.
-/

namespace Wiring

variable {C : Client} {D : Outline}

/-- An entry that is about no provider, no request and no finished teardown. -/
def Entry.IsPlain : Entry C → Prop
  | .note _ => True
  | .event _ (.unmatched ..) | .event _ (.reused _) | .event _ (.destroyed ..) => False
  | .event _ _ => True
  | .milestone m => m.provider? = none

/-- All that has been written from one world to a later one has a property. -/
def World.Writes (P : Entry C → Prop) (w v : World C) : Prop :=
  ∃ new, v.journal = new ++ w.journal ∧ ∀ e ∈ new, P e

namespace World.Writes

variable {P : Entry C → Prop} {w u v : World C}

theorem of_eq (h : v.journal = w.journal) : Writes P w v :=
  ⟨[], h, fun _ he => absurd he List.not_mem_nil⟩

theorem entry {e : Entry C} (h : v.journal = e :: w.journal) (he : P e) : Writes P w v :=
  ⟨[e], h, fun _ he' => List.mem_singleton.1 he' ▸ he⟩

/-- What is written in turn is written in all. -/
theorem trans (hwu : Writes P w u) (huv : Writes P u v) : Writes P w v := by
  obtain ⟨old, hold, hP⟩ := hwu
  obtain ⟨new, hnew, hP'⟩ := huv
  refine ⟨new ++ old, by rw [hnew, hold, List.append_assoc], fun e he => ?_⟩
  rcases List.mem_append.1 he with he | he
  · exact hP' e he
  · exact hP e he

theorem mono {Q : Entry C → Prop} (h : Writes P w v) (hPQ : ∀ e, P e → Q e) : Writes Q w v := by
  obtain ⟨new, hnew, hP⟩ := h
  exact ⟨new, hnew, fun e he => hPQ e (hP e he)⟩

/-- What was added to the journal is what was written. -/
theorem of_append (h : Writes P w v) {new : List (Entry C)} (hnew : v.journal = new ++ w.journal)
    {e : Entry C} (he : e ∈ new) : P e := by
  obtain ⟨new', hnew', hP⟩ := h
  obtain rfl : new = new' := List.append_cancel_right (hnew.symm.trans hnew')
  exact hP e he

end World.Writes

/-- As long as `I` holds of the world and the containers that are being visited are among `J`,
only entries with the property `P` are written. -/
structure Admits (I : World C → Prop) (J : ContainerId → Prop) (P : Entry C → Prop) : Prop where
  /-- The condition goes on holding while no construction ends. -/
  later : ∀ w v, I w → w.Frame v → w.underway ⊆ v.underway → I v
  plain : ∀ e, e.IsPlain → P e
  unmatched : ∀ w c type qualifiers e, I w →
    (w.container c).registry.scan (type, qualifiers) = .error e →
    P (.event c (.unmatched type qualifiers e))
  reused : ∀ w c p x, w.Coherent → I w → w.Holds c p → w.kept.get? p.id = some x →
    P (.event c (.reused p.definition.implementation))
  making : ∀ w c p, w.Coherent → I w → w.CanBegin c p →
    P (.milestone (.started p.id)) ∧
      ∀ x, P (.milestone (.made p.id x)) ∧ P (.milestone (.kept p.id x))
  tearing : ∀ w c, I w → (w.container c).phase ≠ .destroyed →
    J c ∧ ∀ count previous, P (.event c (.destroyed count previous))
  sweeping : ∀ w c p, w.Coherent → I w → J c → w.Holds c p →
    ∀ x, P (.milestone (.released p.id x)) ∧ P (.milestone (.disposed p.id x))

/-- The containers that a course begins by visiting are among some. -/
def Activity.Within (J : ContainerId → Prop) : Activity C → Prop
  | .work => True
  | .sweep c _ _ _ => J c

namespace Admits

open World

variable {I : World C → Prop} {J : ContainerId → Prop} {P : Entry C → Prop} {w v : World C}

/-- A quiet step writes only what is admitted. -/
theorem quiet (ha : Admits I J P) (h : Quiet w v) (hw : w.Coherent) (hI : I w) :
    Writes P w v := by
  cases h with
  | note | invoked | create | register | unregister => exact .entry rfl (ha.plain _ (by trivial))
  | client | remember => exact .of_eq rfl
  | @remark c e he =>
    refine .entry rfl (ha.plain _ ?_)
    cases e <;> first | exact True.intro | exact he.elim
  | unmatched c hscan => exact .entry rfl (ha.unmatched w c _ _ _ hI hscan)
  | reused c hp hx => exact .entry rfl (ha.reused w c _ _ hw hI hp hx)

theorem begun (ha : Admits I J P) {c : ContainerId} {p : Provider C} (hw : w.Coherent) (hI : I w)
    (hb : w.CanBegin c p) : Writes P w (w.begun c p) := by
  refine .trans (u := w.enter (.event c (.materializing p.definition.implementation
    p.definition.scope))) ?_ (.entry rfl (ha.making w c p hw hI hb).1)
  exact .entry rfl (ha.plain _ True.intro)

theorem completed (ha : Admits I J P) {c : ContainerId} {p : Provider C} (hw : w.Coherent)
    (hI : I w) (hb : w.CanBegin c p) (v : World C) (x : Value C) :
    Writes P v (v.completed p x) := by
  obtain ⟨hmade, hkept⟩ := (ha.making w c p hw hI hb).2 x
  refine .trans (u := v.enter (.milestone (.made p.id x))) (.entry rfl hmade) ?_
  rcases hs : p.definition.scope
  · rw [Coherent.completed_of_singleton hs]
    exact .entry rfl hkept
  · rw [Coherent.completed_of_prototype hs]
    exact .of_eq rfl

theorem disposed (ha : Admits I J P) {c : ContainerId} {p : Provider C} (hw : w.Coherent)
    (hI : I w) (hJ : J c) (hp : w.Holds c p) (v : World C) (x : Value C) (o : Attempted Unit) :
    Writes P v (v.disposed c p x o) := by
  have hmark : Writes P v (v.enter (.milestone (.disposed p.id x))) :=
    .entry rfl (ha.sweeping w c p hw hI hJ hp x).2
  rcases o with e | _
  · exact hmark.trans (.entry rfl (ha.plain _ True.intro))
  · exact hmark

theorem validating (ha : Admits I J P) (w : World C) (c : ContainerId) (n : Nat) :
    Writes P w (w.validating c n) :=
  .entry rfl (ha.plain (.event c (.validating n)) True.intro)

theorem accepted (ha : Admits I J P) (w : World C) (c : ContainerId) (n : Nat) :
    Writes P w (w.accepted c n) :=
  .entry rfl (ha.plain (.event c (.ready n)) True.intro)

theorem rejected (ha : Admits I J P) (w : World C) (c : ContainerId) (type : TypeKey)
    (e : Failure) : Writes P w (w.rejected c type e) :=
  .entry rfl (ha.plain (.event c (.rejected type e)) True.intro)

end Admits

open World

/-- A finished course leaves the same under construction. -/
theorem Course.underway {a : Activity C} {w v : World C} (h : Course D a true w v) :
    v.underway = w.underway := (h.level rfl).underway

section

variable {I : World C → Prop} {J : ContainerId → Prop} {P : Entry C → Prop} {w v : World C}

namespace Admits

theorem later_begun (ha : Admits I J P) (hI : I w) (c : ContainerId) (p : Provider C) :
    I (w.begun c p) :=
  ha.later w _ hI (.begun w c p) (List.subset_cons_self p.id w.underway)

theorem later_departed (ha : Admits I J P) (hI : I w) : I w.departed :=
  ha.later w _ hI (.departed w) (List.Subset.refl _)

theorem later_validating (ha : Admits I J P) (hI : I w) {c : ContainerId} (n : Nat)
    (hphase : (w.container c).phase = .unconfigured) : I (w.validating c n) :=
  ha.later w _ hI (.validating w c n hphase) (List.Subset.refl _)

theorem later_destroyed (ha : Admits I J P) (hI : I w) (c : ContainerId) :
    I (w.withPhase c .destroyed) :=
  ha.later w _ hI (.withPhase_destroyed w c) (List.Subset.refl _)

theorem later_releasing (ha : Admits I J P) (hI : I w) (p : Provider C) (x : Value C) :
    I (w.releasing p x) :=
  ha.later w _ hI (.releasing w p x) (List.Subset.refl _)

end Admits

/-- What a course writes is admitted where it begins. -/
theorem Course.writes (ha : Admits I J P) {a : Activity C} {b : Bool} (h : Course D a b w v)
    (hw : w.Coherent) (hI : I w) (hJ : a.Within J) : Writes P w v := by
  induction h with
  | refl | sweepNil => exact .of_eq rfl
  | trans hwu _ ihu ihv =>
    -- The first part is finished, so as much is under construction as before.
    have hIu := ha.later _ _ hI hwu.frame (hwu.underway ▸ List.Subset.refl _)
    exact (ihu hw hI True.intro).trans (ihv (hwu.coherent hw) hIu True.intro)
  | quiet h => exact ha.quiet h hw hI
  | abandon c p hb _ ih =>
    have hin := ih (hw.begun hb) (ha.later_begun hI c p) True.intro
    exact ((ha.begun hw hI hb).trans hin).trans (.of_eq rfl)
  | complete c p x hb _ _ ih =>
    have hin := ih (hw.begun hb) (ha.later_begun hI c p) True.intro
    exact ((ha.begun hw hI hb).trans hin).trans (ha.completed hw hI hb _ x)
  | constructing c p hb _ ih =>
    exact (ha.begun hw hI hb).trans (ih (hw.begun hb) (ha.later_begun hI c p) True.intro)
  | apart _ ih => exact (ih hw.departed (ha.later_departed hI) True.intro).trans (.of_eq rfl)
  | departing _ ih => exact ih hw.departed (ha.later_departed hI) True.intro
  | accept c n m hc hphase _ _ ih =>
    have hin := ih (hw.validating n hc hphase) (ha.later_validating hI n hphase) True.intro
    exact ((ha.validating _ c n).trans hin).trans (ha.accepted _ c m)
  | reject c n type f hc hphase _ ih =>
    have hin := ih (hw.validating n hc hphase) (ha.later_validating hI n hphase) True.intro
    exact ((ha.validating _ c n).trans hin).trans (ha.rejected _ c type (.definition f))
  | validating c n hc hphase _ ih =>
    have hin := ih (hw.validating n hc hphase) (ha.later_validating hI n hphase) True.intro
    exact (ha.validating _ c n).trans hin
  | teardown c r hc hphase _ ih =>
    -- The container was not torn down where the bracket began, which is what admits its last entry.
    obtain ⟨hJc, hevent⟩ := ha.tearing _ c hI hphase
    exact (ih (hw.withPhase_destroyed hc) (ha.later_destroyed hI c) hJc).trans
      (.entry rfl (hevent _ _))
  | tearing c r hc hphase _ ih =>
    exact ih (hw.withPhase_destroyed hc) (ha.later_destroyed hI c) (ha.tearing _ c hI hphase).1
  | sweepPass c p _ _ ih => exact ih hw hI hJ
  | @sweepVisit b w u v c p x o _ _ _ hp hphase hx hin _ ihu ihv =>
    have hreleased := hw.releasing hp hphase hx
    obtain ⟨hphaseu, hholdsu⟩ := Frame.of_releasing hphase hin.frame
    have hu := (hin.coherent hreleased).disposed x o (hholdsu p hp) hphaseu
    have hIu : I (u.disposed c p x o) := by
      refine ha.later _ _ (ha.later_releasing hI p x)
        (hin.frame.trans (.disposed u c p x o)) ?_
      rw [(Level.disposed u c p x o).underway, hin.underway]
      exact List.Subset.refl _
    refine .trans (.entry rfl (ha.sweeping w c p hw hI hJ hp x).1)
      ((ihu hreleased (ha.later_releasing hI p x) True.intro).trans ?_)
    exact (ha.disposed hw hI hJ hp u x o).trans (ihv hu hIu hJ)
  | sweeping c p x hp hphase hx _ ih =>
    exact .trans (.entry rfl (ha.sweeping _ c p hw hI hJ hp x).1)
      (ih (hw.releasing hp hphase hx) (ha.later_releasing hI p x) True.intro)

end

end Wiring
