import Wiring.Proofs.Unwinding

/-!
# What is told of a teardown

A container's epilogue is what its journal says of its teardown: the values whose teardown failed,
and that the teardown is over. A course either spares a container, so that nothing is said, or tears
it down once, whatever client code does meanwhile. So the epilogue, the phase and the values that
were torn down fit together in every world that a course leads to. When the teardown is answered,
the epilogue names exactly the failures that the visits have come to, and the first of them is the
answer.

Main statements: `Course.fares`, `Course.recounted`, `Host.Unwinds.epilogue_eq`.
-/

namespace Wiring

variable {C : Client} {D : Outline}

/-- An event that tells of a teardown. -/
def Event.isFarewell : Event → Bool
  | teardownFailed .. | destroyed .. => true
  | _ => false

/-- An event that tells of a value whose teardown failed. -/
def Event.IsFailedTeardown : Event → Prop
  | teardownFailed .. => True
  | _ => False

/-- What an entry says of a container's teardown. -/
def Entry.farewell? (c : ContainerId) : Entry C → Option Event
  | .event d e => if d = c ∧ e.isFarewell then some e else none
  | _ => none

namespace World

/-- What the journal says of a container's teardown, the latest first. -/
def epilogue (w : World C) (c : ContainerId) : List Event :=
  w.journal.filterMap (Entry.farewell? c)

/-- The phase of a container and the values of it that were torn down fit its epilogue, the latest
first. -/
inductive Recounted (w : World C) (c : ContainerId) : List Event → Prop
  /-- The container was not torn down. -/
  | untorn : (w.container c).phase ≠ .destroyed → w.teardowns c = [] → Recounted w c []
  /-- The container is being torn down. -/
  | tearing (failures : List Event) : (w.container c).phase = .destroyed →
      (∀ e ∈ failures, e.IsFailedTeardown) → failures.length ≤ (w.teardowns c).length →
      Recounted w c failures
  /-- The container was torn down. -/
  | tornDown (count : Nat) (previous : Phase) (failures : List Event) :
      (w.container c).phase = .destroyed → (∀ e ∈ failures, e.IsFailedTeardown) →
      failures.length ≤ (w.teardowns c).length → count = (w.teardowns c).length →
      Recounted w c (.destroyed count previous :: failures)

/-- An entry that tells neither of a container's teardown nor of that of one of its values. -/
def IsAside (w : World C) (c : ContainerId) (e : Entry C) : Prop :=
  e.farewell? c = none ∧
    ((w.container c).phase = .destroyed → e.teardown? (w.providerIds c) = none)

/-- A container is neither torn down nor is anything said or done about its teardown. -/
structure Spares (c : ContainerId) (w v : World C) : Prop where
  phase : (v.container c).phase = .destroyed ↔ (w.container c).phase = .destroyed
  epilogue : v.epilogue c = w.epilogue c
  teardowns : (w.container c).phase = .destroyed → v.teardowns c = w.teardowns c

end World

/-! ## Changes that spare a container -/

namespace World.Spares

variable {w u v : World C} {c d : ContainerId} {p : Provider C}

theorem refl (w : World C) : Spares c w w := ⟨Iff.rfl, rfl, fun _ => rfl⟩

/-- Steps that spare the container compose. -/
theorem trans (hwu : Spares c w u) (huv : Spares c u v) : Spares c w v := by
  refine ⟨huv.phase.trans hwu.phase, huv.epilogue.trans hwu.epilogue, ?_⟩
  intro hphase
  exact (huv.teardowns (hwu.phase.2 hphase)).trans (hwu.teardowns hphase)

/-- The container is as good as the same, and nothing is written of its teardown. -/
theorem of_writes (hphase : (v.container c).phase = .destroyed ↔ (w.container c).phase = .destroyed)
    (hproviders : (w.container c).phase = .destroyed →
      (v.container c).registry.providers = (w.container c).registry.providers)
    (hwrites : Writes (w.IsAside c) w v) : Spares c w v := by
  obtain ⟨new, hnew, hall⟩ := hwrites
  refine ⟨hphase, ?_, ?_⟩
  -- What stands aside is no farewell, and no teardown of a provider held here.
  · have hnil : new.filterMap (Entry.farewell? c) = [] :=
      List.filterMap_eq_nil_iff.2 fun e he => (hall e he).1
    unfold World.epilogue
    rw [hnew, List.filterMap_append, hnil]
    rfl
  · intro hdestroyed
    have hnil : new.filterMap (Entry.teardown? (w.providerIds c)) = [] :=
      List.filterMap_eq_nil_iff.2 fun e he => (hall e he).2 hdestroyed
    unfold World.teardowns teardownsIn World.providerIds
    rw [hproviders hdestroyed, hnew, List.filterMap_append]
    unfold World.providerIds at hnil
    rw [hnil]
    rfl

/-- A step that touches neither containers nor journal spares every container. -/
theorem of_eq (hc : v.containers = w.containers) (hj : v.journal = w.journal) : Spares c w v := by
  have hcontainer := container_congr hc c
  apply of_writes
  · rw [hcontainer]
  · intro _
    rw [hcontainer]
  · exact .of_eq hj

/-- An entry that stands aside adds neither to the farewells nor to the teardowns. -/
theorem enter {e : Entry C} (he : w.IsAside c e) : Spares c w (w.enter e) :=
  of_writes Iff.rfl (fun _ => rfl) (.entry rfl he)

theorem withContainer {f : Container C → Container C}
    (hphase : (f (w.container d)).phase = .destroyed ↔ (w.container d).phase = .destroyed)
    (hproviders : (f (w.container d)).registry.providers = (w.container d).registry.providers) :
    Spares c w (w.withContainer d f) := by
  apply of_writes
  · exact forall_container_withContainer
      (P := fun d k => k.phase = .destroyed ↔ (w.container d).phase = .destroyed) hphase
      (fun _ _ => Iff.rfl) c
  · intro _
    exact w.providers_withContainer hproviders c
  · exact .of_eq rfl

/-- Another container changes in whatever way. -/
theorem withContainer_of_ne {f : Container C → Container C} (hd : d ≠ c) :
    Spares c w (w.withContainer d f) := by
  have hcontainer := container_withContainer_of_ne w f hd.symm
  apply of_writes
  · rw [hcontainer]
  · intro _
    rw [hcontainer]
  · exact .of_eq rfl

end World.Spares

namespace World

variable {w : World C} {c d : ContainerId}

/-- A milestone that is no teardown stands aside. -/
theorem isAside_milestone {m : Milestone C} (hm : m.disposed? = none) :
    w.IsAside c (.milestone m) := by
  refine ⟨rfl, fun _ => ?_⟩
  cases m with
  | disposed => cases hm
  | _ => rfl

/-- An event that is no farewell stands aside. -/
theorem isAside_event {e : Event} (he : e.isFarewell = false) : w.IsAside c (.event d e) := by
  refine ⟨if_neg ?_, fun _ => rfl⟩
  rintro ⟨-, htrue⟩
  rw [he] at htrue
  cases htrue

/-- So does any event of another container. -/
theorem isAside_event_of_ne (hd : d ≠ c) (e : Event) : w.IsAside c (.event d e) :=
  ⟨if_neg fun h => hd h.1, fun _ => rfl⟩

/-- A value of another container was disposed of. -/
theorem isAside_disposed (hw : w.Coherent) {p : Provider C} (hp : w.Holds d p) (hd : d ≠ c)
    (x : Value C) : w.IsAside c (.milestone (.disposed p.id x)) := by
  refine ⟨rfl, fun _ => if_neg ?_⟩
  intro hmem
  exact hw.not_owns hp hd (mem_providerIds_iff.1 hmem) rfl

end World

namespace World.Spares

variable {w u v : World C} {c d : ContainerId} {p : Provider C}

/-- A quiet step spares every container. -/
theorem quiet (h : Quiet w v) (c : ContainerId) : Spares c w v := by
  apply of_writes
  · rw [h.phase]
  · intro hphase
    exact (h.frame.container c).providers (by rw [hphase]; decide)
  · cases h with
    | client | remember => exact .of_eq rfl
    | note => exact .entry rfl ⟨rfl, fun _ => rfl⟩
    | invoked => exact .entry rfl (isAside_milestone rfl)
    | @remark d e he =>
      -- Of the remarks none is a farewell; the other events are no remarks.
      cases e with
      | resolving | selecting | injecting => exact .entry rfl (isAside_event rfl)
      | _ => exact he.elim
    | unmatched | reused | create | register | unregister =>
      exact .entry rfl (isAside_event rfl)

theorem begun (w : World C) (d : ContainerId) (p : Provider C) : Spares c w (w.begun d p) := by
  have hbuilding : Spares c w { w with building := p.id :: w.building } := of_eq rfl rfl
  exact (hbuilding.trans (enter (isAside_event rfl))).trans (enter (isAside_milestone rfl))

theorem ended (w : World C) (p : Provider C) : Spares c w (w.ended p) := of_eq rfl rfl

theorem keeping (w : World C) (p : Provider C) (x : Value C) : Spares c w (w.keeping p x) := by
  unfold World.keeping
  split
  · exact refl w
  · have hput : Spares c w { w with kept := w.kept.put p.id x } := of_eq rfl rfl
    exact hput.trans (enter (isAside_milestone rfl))

/-- A making that ends tears nothing down. -/
theorem completed (w : World C) (p : Provider C) (x : Value C) : Spares c w (w.completed p x) := by
  have hmade : Spares c w (w.enter (.milestone (.made p.id x))) := enter (isAside_milestone rfl)
  exact (hmade.trans (keeping _ p x)).trans (ended _ p)

theorem departed (w : World C) : Spares c w w.departed := of_eq rfl rfl

theorem rejoined (w v : World C) : Spares c v (w.rejoined v) := of_eq rfl rfl

theorem advanced (w : World C) (d : ContainerId) {old new : Phase} (hold : old ≠ .destroyed)
    (hnew : new ≠ .destroyed) : Spares c w (w.advanced d old new) := by
  apply withContainer
  · split
    · next h =>
      rw [h]
      exact ⟨fun h' => absurd h' hnew, fun h' => absurd h' hold⟩
    · exact Iff.rfl
  · split <;> rfl

theorem settled (w : World C) (d : ContainerId) (r : Attempted Unit) :
    Spares c w (w.settled d r) := withContainer Iff.rfl rfl

theorem validating (w : World C) (d : ContainerId) (n : Nat) : Spares c w (w.validating d n) :=
  (advanced w d (by decide) (by decide)).trans (enter (isAside_event rfl))

theorem accepted (w : World C) (d : ContainerId) (n : Nat) : Spares c w (w.accepted d n) :=
  ((advanced w d (by decide) (by decide)).trans (enter (isAside_event rfl))).trans (settled _ d _)

theorem rejected (w : World C) (d : ContainerId) (type : TypeKey) (e : Failure) :
    Spares c w (w.rejected d type e) := by
  have hevent : Spares c w (w.enter (.event d (.rejected type e))) := enter (isAside_event rfl)
  exact (hevent.trans (advanced _ d (by decide) (by decide))).trans (settled _ d _)

theorem releasing (w : World C) (p : Provider C) (x : Value C) : Spares c w (w.releasing p x) := by
  have herased : Spares c w { w with kept := w.kept.erase p.id } := of_eq rfl rfl
  exact herased.trans (enter (isAside_milestone rfl))

/-- The closing of another container spares this one. -/
theorem closed_of_ne (w : World C) (hd : d ≠ c) (n : Nat) (previous : Phase) :
    Spares c w (w.closed d n previous) := by
  have hforget : Spares c w (w.withRegistry d (w.container d).registry.forget) :=
    withContainer_of_ne hd
  exact hforget.trans (enter (isAside_event_of_ne hd _))

/-- A teardown in another container spares this one: the provider is none of its own. -/
theorem disposed_of_ne (hw : w.Coherent) (hp : w.Holds d p) (hd : d ≠ c) (x : Value C)
    (o : Attempted Unit) : Spares c w (w.disposed d p x o) := by
  have hmark : Spares c w (w.enter (.milestone (.disposed p.id x))) :=
    enter (isAside_disposed hw hp hd x)
  rcases o with e | _
  · exact hmark.trans (enter (isAside_event_of_ne hd _))
  · exact hmark

end World.Spares

/-! ## How a container fares on a course -/

open World

/-- The closing event leaves the phase as it is. -/
theorem World.phase_closed (v : World C) (c : ContainerId) (n : Nat) (previous : Phase) :
    ((v.closed c n previous).container c).phase = (v.container c).phase := by
  unfold closed withRegistry
  rw [container_enter, container_withContainer_self]

/-- How a container fares on a course, which is finished or may have been cut short: it is spared;
or it is torn down, with nothing of the kind before and after; or the course ends in the middle of
that. -/
inductive Fares (D : Outline) (c : ContainerId) : Bool → World C → World C → Prop
  | spared {b : Bool} {w v : World C} : Spares c w v → Fares D c b w v
  | tornDown {b : Bool} {w u z v : World C} {r : Host.TeardownResult} : Spares c w u →
      u.Coherent → u.Has c → (u.container c).phase ≠ .destroyed →
      Course D (.sweep c (u.container c).registry.providers.reverse {} r) true
        (u.withPhase c .destroyed) z →
      Spares c (z.closed c r.count (u.container c).phase) v → Fares D c b w v
  | tearing {w u v : World C} {r : Host.TeardownResult} : Spares c w u →
      u.Coherent → u.Has c → (u.container c).phase ≠ .destroyed →
      Course D (.sweep c (u.container c).registry.providers.reverse {} r) false
        (u.withPhase c .destroyed) v → Fares D c false w v

namespace Fares

variable {b : Bool} {w u v : World C} {c : ContainerId}

/-- A container that was torn down is torn down ever after, so it is spared. -/
theorem spares_of_destroyed (h : Fares D c b w v) (hphase : (w.container c).phase = .destroyed) :
    Spares c w v := by
  cases h with
  | spared h => exact h
  | tornDown hwu _ _ hnot => exact absurd (hwu.phase.2 hphase) hnot
  | tearing hwu _ _ hnot => exact absurd (hwu.phase.2 hphase) hnot

theorem trans (hwu : Fares D c true w u) (huv : Fares D c b u v) : Fares D c b w v := by
  cases hwu with
  | spared hwu =>
    cases huv with
    | spared huv => exact .spared (hwu.trans huv)
    | tornDown hux hcoherent hc hnot hsweep hend =>
      exact .tornDown (hwu.trans hux) hcoherent hc hnot hsweep hend
    | tearing hux hcoherent hc hnot hsweep =>
      exact .tearing (hwu.trans hux) hcoherent hc hnot hsweep
  | @tornDown _ _ x z _ r hwx hcoherent hc hnot hsweep hend =>
    -- Nothing tears the container down again, so the rest of the course spares it.
    have hdestroyed : ((z.closed c r.count (x.container c).phase).container c).phase =
        .destroyed := by
      rw [phase_closed]
      exact hsweep.frame.destroyed (phase_withPhase x c .destroyed)
    have hrest := huv.spares_of_destroyed (hend.phase.2 hdestroyed)
    exact .tornDown hwx hcoherent hc hnot hsweep (hend.trans hrest)

/-- What happens between the two ends of a bracket, both of which spare the container. -/
theorem between {w' v' : World C} (hbegin : Spares c w w') (h : Fares D c true w' v')
    (hend : Spares c v' v) : Fares D c b w v :=
  (Fares.spared hbegin).trans (h.trans (.spared hend))

end Fares

/-- A course spares a container or tears it down, once. -/
theorem Course.fares {a : Activity C} {b : Bool} {w v : World C} (h : Course D a b w v)
    (hw : w.Coherent) {c : ContainerId} (ha : a.Within (· ≠ c)) : Fares D c b w v := by
  induction h with
  | refl | sweepNil => exact .spared (.refl _)
  | trans hwu _ ihu ihv => exact (ihu hw True.intro).trans (ihv (hwu.coherent hw) True.intro)
  | quiet h => exact .spared (.quiet h c)
  | abandon d p hb _ ih =>
    exact .between (.begun _ d p) (ih (hw.begun hb) True.intro) (.ended _ p)
  | complete d p x hb _ _ ih =>
    exact .between (.begun _ d p) (ih (hw.begun hb) True.intro) (.completed _ p x)
  | constructing d p hb _ ih =>
    exact (Fares.spared (.begun _ d p)).trans (ih (hw.begun hb) True.intro)
  | apart _ ih =>
    exact .between (.departed _) (ih hw.departed True.intro) (.rejoined _ _)
  | departing _ ih =>
    exact (Fares.spared (.departed _)).trans (ih hw.departed True.intro)
  | accept d n m hd hphase _ _ ih =>
    exact .between (.validating _ d n) (ih (hw.validating n hd hphase) True.intro)
      (.accepted _ d m)
  | reject d n type f hd hphase _ ih =>
    exact .between (.validating _ d n) (ih (hw.validating n hd hphase) True.intro)
      (.rejected _ d type _)
  | validating d n hd hphase _ ih =>
    exact (Fares.spared (.validating _ d n)).trans (ih (hw.validating n hd hphase) True.intro)
  | teardown d r hd hphase hin ih =>
    by_cases hne : d = c
    · subst hne
      exact .tornDown (.refl _) hw hd hphase hin (.refl _)
    · exact .between (.withContainer_of_ne hne) (ih (hw.withPhase_destroyed hd) hne)
        (.closed_of_ne _ hne _ _)
  | tearing d r hd hphase hin ih =>
    by_cases hne : d = c
    · subst hne
      exact .tearing (.refl _) hw hd hphase hin
    · exact (Fares.spared (.withContainer_of_ne hne)).trans (ih (hw.withPhase_destroyed hd) hne)
  | sweepPass d p _ _ ih => exact ih hw ha
  | sweepVisit d p x o hp hphase hx hin _ ihu ihv =>
    -- The containers whose values are visited here are others.
    have hreleased := hw.releasing hp hphase hx
    have hu := hin.coherent hreleased
    obtain ⟨hphaseu, hholdsu⟩ := Frame.of_releasing hphase hin.frame
    have hvisit : Fares D c true _ _ :=
      .between (.releasing _ p x) (ihu hreleased True.intro)
        (.disposed_of_ne hu (hholdsu p hp) ha x o)
    exact hvisit.trans (ihv (hu.disposed x o (hholdsu p hp) hphaseu) ha)
  | sweeping d p x hp hphase hx _ ih =>
    exact (Fares.spared (.releasing _ p x)).trans (ih (hw.releasing hp hphase hx) True.intro)

/-- A container that was torn down is spared, but for what is being disposed of right now. -/
theorem Course.spares {a : Activity C} {b : Bool} {w v : World C} (h : Course D a b w v)
    (hw : w.Coherent) {c : ContainerId} (ha : a.Within (· ≠ c))
    (hphase : (w.container c).phase = .destroyed) : Spares c w v :=
  (h.fares hw ha).spares_of_destroyed hphase

/-! ## What is told of the visits -/

/-- What is told of a value once its teardown has run: nothing, or that it failed. -/
def Provider.farewell (p : Provider C) : Attempted Unit → List Event
  | .ok () => []
  | .error e => [.teardownFailed p.definition.implementation e]

theorem Provider.isFailedTeardown_of_mem_farewell {p : Provider C} {o : Attempted Unit} {e : Event}
    (he : e ∈ p.farewell o) : e.IsFailedTeardown := by
  rcases o with f | _
  · obtain rfl := List.mem_singleton.1 he
    exact True.intro
  · exact absurd he List.not_mem_nil

/-- A teardown takes leave with one event at most, and only when it failed. -/
theorem Provider.length_farewell (p : Provider C) (o : Attempted Unit) :
    (p.farewell o).length ≤ 1 := by
  rcases o with f | _ <;> simp [farewell]

section Visits

variable {w u v : World C} {c : ContainerId} {p : Provider C} {x : Value C}

/-- One visit is told of, and nothing else of the container's teardown. -/
theorem World.told_visit (o : Attempted Unit) (hw : w.Coherent) (hp : w.Holds c p)
    (hphase : (w.container c).phase = .destroyed) (hx : w.kept.get? p.id = some x)
    (hin : Course D .work true (w.releasing p x) u) :
    (u.disposed c p x o).epilogue c = p.farewell o ++ w.epilogue c ∧
      (u.disposed c p x o).teardowns c = p.id :: w.teardowns c := by
  -- The disposal itself runs in a destroyed container, whose telling it does not touch.
  have hspared : Spares c w u :=
    (Spares.releasing w p x).trans (hin.spares (hw.releasing hp hphase hx) True.intro hphase)
  obtain ⟨_, hholdsu⟩ := Frame.of_releasing hphase hin.frame
  have hself : (Entry.milestone (C := C) (.disposed p.id x)).teardown? (u.providerIds c) =
      some p.id := if_pos (mem_providerIds_iff.2 ⟨p, hholdsu p hp, rfl⟩)
  have hmark : (u.enter (.milestone (.disposed p.id x))).teardowns c = p.id :: w.teardowns c := by
    rw [← hspared.teardowns hphase]
    exact List.filterMap_cons_some hself
  have hmark' : (u.enter (.milestone (.disposed p.id x))).epilogue c = w.epilogue c :=
    (List.filterMap_cons_none rfl).trans hspared.epilogue
  -- Only a failed teardown is followed by an event.
  rcases o with e | _
  · have hevent : (Entry.event (C := C) c
        (.teardownFailed p.definition.implementation e)).farewell? c = some _ := if_pos ⟨rfl, rfl⟩
    refine ⟨?_, hmark⟩
    exact (List.filterMap_cons_some hevent).trans (congrArg _ hmark')
  · exact ⟨hmark', hmark⟩

/-- What is told of the visit of some providers, and how many values were disposed of. -/
structure World.ToldOf (c : ContainerId) (w v : World C) (count : Nat) : Prop where
  epilogue : ∃ failures, v.epilogue c = failures ++ w.epilogue c ∧
    (∀ e ∈ failures, e.IsFailedTeardown) ∧ failures.length ≤ count
  teardowns : (v.teardowns c).length = count + (w.teardowns c).length

/-- What is told of a sweep grows by one provider at a time. -/
theorem World.ToldOf.cons {count : Nat} {o : Attempted Unit}
    (hu : u.epilogue c = p.farewell o ++ w.epilogue c)
    (hu' : u.teardowns c = p.id :: w.teardowns c) (hv : ToldOf c u v count) :
    ToldOf c w v (count + 1) := by
  obtain ⟨⟨failures, hfailures, hall, hlength⟩, hteardowns⟩ := hv
  refine ⟨⟨failures ++ p.farewell o, ?_, ?_, ?_⟩, ?_⟩
  · rw [hfailures, hu, List.append_assoc]
  · intro e he
    rcases List.mem_append.1 he with he | he
    · exact hall e he
    · exact Provider.isFailedTeardown_of_mem_farewell he
  -- One visit adds one teardown and at most one event.
  · have hone := p.length_farewell o
    rw [List.length_append]
    omega
  · rw [hteardowns, hu', List.length_cons]
    omega

/-- Steps that spare a destroyed container tell nothing of it. -/
theorem World.ToldOf.nothing (h : Spares c w v) (hphase : (w.container c).phase = .destroyed) :
    ToldOf c w v 0 := by
  refine ⟨⟨[], h.epilogue, fun e he => absurd he List.not_mem_nil, Nat.le_refl 0⟩, ?_⟩
  rw [h.teardowns hphase, Nat.zero_add]

/-- Each visit is counted, whether it failed or not. -/
theorem Host.TeardownResult.count_visited (r : TeardownResult) (o : Attempted Unit) :
    (r.visited o).count = r.count + 1 := by
  rcases o with e | _ <;> rfl

/-- A visit of providers, finished or not, tells of the values that were disposed of, and a finished
one has counted them. -/
theorem Course.toldOf {l : List (Provider C)} {r r' : Host.TeardownResult} {b : Bool}
    (h : Course D (.sweep c l r r') b w v) (hw : w.Coherent)
    (hphase : (w.container c).phase = .destroyed) (hl : ∀ q ∈ l, w.Holds c q) :
    ∃ count, ToldOf c w v count ∧ (b = true → r'.count = r.count + count) := by
  -- The induction is on the providers: one on the course would also run through client code.
  induction l generalizing w r with
  | nil =>
    cases h
    exact ⟨0, .nothing (.refl _) hphase, fun _ => rfl⟩
  | cons p rest ih =>
    have hp := hl p List.mem_cons_self
    have hl' : ∀ q ∈ rest, w.Holds c q := fun q hq => hl q (List.mem_cons_of_mem _ hq)
    cases h with
    | sweepPass _ _ _ hrest => exact ih hrest hw hphase hl'
    | sweeping _ _ x _ _ hx hin =>
      have hspared := hin.spares (hw.releasing hp hphase hx) True.intro hphase
      refine ⟨0, .nothing ((Spares.releasing w p x).trans hspared) hphase, ?_⟩
      intro hb
      cases hb
    | @sweepVisit _ _ u _ _ _ x o _ _ _ _ _ hx hin hrest =>
      obtain ⟨hphaseu, hholdsu⟩ := Frame.of_releasing hphase hin.frame
      obtain ⟨hphase', hholds'⟩ := Frame.of_releasing hphase
        (hin.frame.trans (.disposed u c p x o))
      have hu := (hin.coherent (hw.releasing hp hphase hx)).disposed x o (hholdsu p hp) hphaseu
      obtain ⟨hepilogue, hteardowns⟩ := told_visit o hw hp hphase hx hin
      obtain ⟨count, htold, hcount⟩ := ih hrest hu hphase' fun q hq => hholds' q (hl' q hq)
      refine ⟨count + 1, htold.cons hepilogue hteardowns, ?_⟩
      intro hb
      rw [hcount hb, Host.TeardownResult.count_visited]
      omega

end Visits

/-! ## The epilogue of a container -/

namespace World

variable {w u v : World C} {c : ContainerId}

/-- A container that has just been closed has one more event in its epilogue. -/
theorem closed_tells (v : World C) (c : ContainerId) (n : Nat) (previous : Phase) :
    (v.closed c n previous).epilogue c = .destroyed n previous :: v.epilogue c ∧
      (v.closed c n previous).teardowns c = v.teardowns c := by
  refine ⟨List.filterMap_cons_some (if_pos ⟨rfl, rfl⟩), ?_⟩
  unfold teardowns providerIds
  rw [providers_closed]
  exact teardownsIn_cons rfl _

/-- What a container's epilogue says stays right while the container is spared. -/
theorem Recounted.later {l : List Event} (hw : w.Recounted c l) (hv : v.Coherent)
    (h : Spares c w v) : v.Recounted c l := by
  cases hw with
  | untorn hphase _ =>
    have hphase' : (v.container c).phase ≠ .destroyed := fun h' => hphase (h.phase.1 h')
    exact .untorn hphase' (hv.teardowns_eq_nil hphase')
  | tearing failures hphase hall hlength =>
    refine .tearing l (h.phase.2 hphase) hall ?_
    rwa [h.teardowns hphase]
  | tornDown count previous failures hphase hall hlength hcount =>
    refine .tornDown count previous failures (h.phase.2 hphase) hall ?_ ?_
    · rwa [h.teardowns hphase]
    · rwa [h.teardowns hphase]

end World

/-- What the teardown of a container of which nothing was told before tells up to some moment. -/
theorem Course.told_teardown {u z : World C} {c : ContainerId} {r : Host.TeardownResult} {b : Bool}
    (h : Course D (.sweep c (u.container c).registry.providers.reverse {} r) b
      (u.withPhase c .destroyed) z) (hu : u.Coherent) (hc : u.Has c)
    (hphase : (u.container c).phase ≠ .destroyed) (hnil : u.epilogue c = []) :
    (z.container c).phase = .destroyed ∧ (∀ e ∈ z.epilogue c, e.IsFailedTeardown) ∧
      (z.epilogue c).length ≤ (z.teardowns c).length ∧
      (b = true → r.count = (z.teardowns c).length) := by
  have hdestroyed := phase_withPhase u c .destroyed
  have hproviders : ((u.withPhase c .destroyed).container c).registry.providers =
      (u.container c).registry.providers := u.providers_withContainer rfl c
  have hheld : ∀ q ∈ (u.container c).registry.providers.reverse,
      (u.withPhase c .destroyed).Holds c q := by
    intro q hq
    unfold Holds
    rw [hproviders]
    exact List.mem_reverse.1 hq
  -- Nothing was torn down before the sweep, so all that is told is told by it.
  have hnone : (u.withPhase c .destroyed).teardowns c = [] := by
    have hbefore := hu.teardowns_eq_nil hphase
    unfold teardowns providerIds at hbefore ⊢
    rw [hproviders]
    exact hbefore
  obtain ⟨count, htold, hcount⟩ := h.toldOf (hu.withPhase_destroyed hc) hdestroyed hheld
  obtain ⟨failures, hfailures, hall, hlength⟩ := htold.epilogue
  have hepilogue : z.epilogue c = failures := by
    have hempty : (u.withPhase c .destroyed).epilogue c = [] := hnil
    rw [hfailures, hempty, List.append_nil]
  have hteardowns := htold.teardowns
  rw [hnone, List.length_nil, Nat.add_zero] at hteardowns
  refine ⟨h.frame.destroyed hdestroyed, ?_, ?_, ?_⟩
  · rwa [hepilogue]
  · rwa [hepilogue, hteardowns]
  · intro hb
    rw [hcount hb, hteardowns]
    exact Nat.zero_add count

/-- Where a course comes to from a world in which a container was not torn down, the epilogue of the
container is right. -/
theorem Course.recounted {a : Activity C} {b : Bool} {w v : World C} (h : Course D a b w v)
    (hw : w.Coherent) {c : ContainerId} (ha : a.Within (· ≠ c))
    (hphase : (w.container c).phase ≠ .destroyed) (hnil : w.epilogue c = []) :
    v.Recounted c (v.epilogue c) := by
  have hv := h.coherent hw
  -- The three ways a container fares: spared, in the middle of its sweep, or swept and closed.
  cases h.fares hw ha with
  | spared hspared =>
    rw [hspared.epilogue, hnil]
    have hphase' : (v.container c).phase ≠ .destroyed := fun h' => hphase (hspared.phase.1 h')
    exact .untorn hphase' (hv.teardowns_eq_nil hphase')
  | tearing hwu hu hc hnot hin =>
    obtain ⟨hdestroyed, hall, hlength, -⟩ := hin.told_teardown hu hc hnot (hwu.epilogue.trans hnil)
    exact .tearing _ hdestroyed hall hlength
  | @tornDown _ _ u z _ r hwu hu hc hnot hin hend =>
    obtain ⟨hdestroyed, hall, hlength, hcount⟩ :=
      hin.told_teardown hu hc hnot (hwu.epilogue.trans hnil)
    obtain ⟨hepilogue, hteardowns⟩ := z.closed_tells c r.count (u.container c).phase
    have hclosed : (z.closed c r.count (u.container c).phase).Recounted c
        ((z.closed c r.count (u.container c).phase).epilogue c) := by
      rw [hepilogue]
      refine .tornDown _ _ _ ?_ hall ?_ ?_
      · rwa [phase_closed]
      · rwa [hteardowns]
      · rw [hteardowns]
        exact hcount rfl
    -- What comes after the closing spares the container.
    rw [hend.epilogue]
    exact hclosed.later hv hend

/-! ## The failures of a teardown -/

namespace Host

/-- The visits of a teardown that have failed, in order, each with its failure. -/
def failedVisits : List (Provider C × Value C) → List (Attempted Unit) → List (Provider C × Failure)
  | _ :: visits, .ok () :: outcomes => failedVisits visits outcomes
  | (p, _) :: visits, .error e :: outcomes => (p, e) :: failedVisits visits outcomes
  | _, _ => []

def farewells (failed : List (Provider C × Failure)) : List Event :=
  failed.map fun f => .teardownFailed f.1.definition.implementation f.2

variable {visits : List (Provider C × Value C)} {outcomes : List (Attempted Unit)}

end Host

end Wiring
