import Wiring.Proofs.Invariance

/-!
# What a validation decides

A container's docket is what its journal says of its validation: that it has begun, and that it
found nothing or what it rejected. The docket, the phase and the result of validation fit together
in every world that a course leads to. So a container is validated at most once, and what was
rejected once is the result ever after. No provider begins to make a value before the validation
of its container has found nothing.

Main statements: `World.Docketed.invariant`, `World.Licensed.invariant`.
-/

namespace Wiring

variable {C : Client} {D : Outline}

/-- An event that says how a validation goes. -/
def Event.isVerdict : Event → Bool
  | validating _ | rejected .. | ready _ => true
  | _ => false

/-- What an entry says of a container's validation. -/
def Entry.verdict? (c : ContainerId) : Entry C → Option Event
  | .event d e => if d = c ∧ e.isVerdict then some e else none
  | _ => none

/-- The phase and the result of a container fit what its docket says, the latest first. -/
inductive Container.Decided (k : Container C) : List Event → Prop
  /-- The container was not validated. -/
  | pending : k.phase = .unconfigured ∨ k.phase = .destroyed → k.validation = none → k.Decided []
  /-- The container is being validated. -/
  | begun (n : Nat) : k.phase = .validating ∨ k.phase = .destroyed → k.validation = none →
      k.Decided [.validating n]
  /-- Nothing was rejected. -/
  | accepted (n m : Nat) : k.phase = .ready ∨ k.phase = .destroyed →
      k.validation = some (.ok ()) → k.Decided [.ready m, .validating n]
  /-- A definition was rejected. -/
  | rejected (n : Nat) (type : TypeKey) (f : LookupFailure) :
      k.phase = .failed ∨ k.phase = .destroyed → k.validation = some (.error (.definition f)) →
      k.Decided [.rejected type (.definition f), .validating n]

/-- A teardown decides nothing. -/
theorem Container.Decided.destroyed {k : Container C} {l : List Event} (h : k.Decided l) :
    Container.Decided { k with phase := .destroyed } l := by
  cases h with
  | pending _ hv => exact .pending (.inr rfl) hv
  | begun n _ hv => exact .begun n (.inr rfl) hv
  | accepted n m _ hv => exact .accepted n m (.inr rfl) hv
  | rejected n type f _ hv => exact .rejected n type f (.inr rfl) hv

namespace World

/-- What the journal says of a container's validation, the latest first. -/
def docket (w : World C) (c : ContainerId) : List Event := w.journal.filterMap (Entry.verdict? c)

/-- How often a validation of a container has begun. -/
def validations (w : World C) (c : ContainerId) : Nat :=
  w.journal.countP fun
    | .event d (.validating _) => d = c
    | _ => false

/-- Every container fits its docket. -/
def Docketed (w : World C) : Prop := ∀ c, (w.container c).Decided (w.docket c)

variable {w v : World C} {c : ContainerId}

/-- An entry that is no verdict leaves the docket as it was. -/
theorem docket_enter {e : Entry C} (he : e.verdict? c = none) :
    (w.enter e).docket c = w.docket c := List.filterMap_cons_none he

/-- The validations of a container are the starts on its docket. -/
theorem validations_eq (w : World C) (c : ContainerId) :
    w.validations c = (w.docket c).countP fun
      | .validating _ => true
      | _ => false := by
  unfold validations docket
  -- Both count the same entries of the journal.
  induction w.journal with
  | nil => rfl
  | cons e rest ih =>
    rcases e with ⟨d, e⟩ | n | m
    · by_cases hd : d = c
      · cases e <;>
          simp [Entry.verdict?, Event.isVerdict, hd, ih]
      · have hnone : Entry.verdict? c (.event d e : Entry C) = none := if_neg fun h => hd h.1
        rw [List.filterMap_cons_none hnone, ← ih]
        cases e <;> simp [hd]
    · rw [List.filterMap_cons_none rfl, ← ih]
      simp
    · rw [List.filterMap_cons_none rfl, ← ih]
      simp

namespace Docketed

/-- A container is validated once at most. -/
theorem validations_le (hw : w.Docketed) (c : ContainerId) : w.validations c ≤ 1 := by
  rw [validations_eq]
  have hdecided := hw c
  generalize w.docket c = l at hdecided ⊢
  cases hdecided <;> simp

/-- A container that is ready or has failed was validated. -/
theorem validations_of_decided (hw : w.Docketed)
    (hphase : (w.container c).phase = .ready ∨ (w.container c).phase = .failed) :
    w.validations c = 1 := by
  rw [validations_eq]
  have hdecided := hw c
  generalize w.docket c = l at hdecided ⊢
  cases hdecided with
  | pending hp | begun _ hp => rcases hphase with h | h <;> simp [h] at hp
  | accepted | rejected => simp

/-- Neither the dockets change nor what is decided. -/
theorem congr (hw : w.Docketed) (hphase : ∀ c, (v.container c).phase = (w.container c).phase)
    (hvalidation : ∀ c, (v.container c).validation = (w.container c).validation)
    (hdocket : ∀ c, v.docket c = w.docket c) : v.Docketed := by
  intro c
  have hdecided := hw c
  rw [hdocket]
  generalize w.docket c = l at hdecided ⊢
  cases hdecided with
  | pending hp hv => exact .pending (by rwa [hphase]) (by rwa [hvalidation])
  | begun n hp hv => exact .begun n (by rwa [hphase]) (by rwa [hvalidation])
  | accepted n m hp hv => exact .accepted n m (by rwa [hphase]) (by rwa [hvalidation])
  | rejected n type f hp hv => exact .rejected n type f (by rwa [hphase]) (by rwa [hvalidation])

theorem of_eq (hw : w.Docketed) (hc : v.containers = w.containers)
    (hdocket : ∀ c, v.docket c = w.docket c) : v.Docketed := by
  have hcontainer := container_congr hc
  exact hw.congr (fun c => by rw [hcontainer]) (fun c => by rw [hcontainer]) hdocket

theorem quiet (hw : w.Docketed) (h : Quiet w v) : v.Docketed := by
  refine hw.congr h.phase h.validation fun c => ?_
  cases h with
  | client | remember => rfl
  | remark d he =>
    refine docket_enter (if_neg fun h => ?_)
    cases ‹Event› <;> first | exact he.elim | exact Bool.noConfusion h.2
  | note | invoked | unmatched | reused | create | register | unregister =>
    exact docket_enter (by simp [Entry.verdict?, Event.isVerdict])

theorem keeping (hw : w.Docketed) (p : Provider C) (x : Value C) : (w.keeping p x).Docketed := by
  unfold World.keeping
  split
  · exact hw
  · exact hw.of_eq rfl fun _ => docket_enter rfl

/-- One container is decided anew, and nothing is said of the others. -/
theorem update (hw : w.Docketed) (c : ContainerId) (hself : (v.container c).Decided (v.docket c))
    (hcontainer : ∀ d, d ≠ c → v.container d = w.container d)
    (hdocket : ∀ d, d ≠ c → v.docket d = w.docket d) : v.Docketed := by
  intro d
  by_cases hd : d = c
  · subst hd
    exact hself
  · rw [hcontainer d hd, hdocket d hd]
    exact hw d

/-- A container with an empty docket has begun its validation. -/
theorem validating (hw : w.Docketed) (n : Nat) (hphase : (w.container c).phase = .unconfigured) :
    (w.validating c n).Docketed := by
  have hcontainer := container_validating hphase n
  have hdocket : (w.validating c n).docket c = .validating n :: w.docket c :=
    List.filterMap_cons_some (if_pos ⟨rfl, rfl⟩)
  refine hw.update c ?_ (fun d hd => ?_) fun d hd => ?_
  · rw [hcontainer, hdocket]
    have hdecided := hw c
    generalize w.docket c = l at hdecided
    -- An unconfigured container has an empty docket.
    cases hdecided with
    | pending _ hv => exact .begun n (.inl rfl) hv
    | begun m hp _ => simp [hphase] at hp
    | accepted m m' hp _ => simp [hphase] at hp
    | rejected m type f hp _ => simp [hphase] at hp
  · unfold World.validating advanced
    rw [container_enter, container_withContainer_of_ne _ _ hd]
  · exact docket_enter (if_neg fun h => hd h.1.symm)

/-- A container whose validation is about to end has begun it, and nothing was rejected. -/
theorem docket_of_concluding (hw : w.Docketed) (hc : w.Concluding c) :
    ∃ n, w.docket c = [.validating n] := by
  obtain ⟨n, hn⟩ := hc.begun
  have hmem : Event.validating n ∈ w.docket c :=
    List.mem_filterMap.2 ⟨_, hn, if_pos ⟨rfl, rfl⟩⟩
  have hdecided := hw c
  -- Validation has begun and has no verdict, so the docket has its start and nothing else.
  generalize w.docket c = l at hdecided hmem ⊢
  cases hdecided with
  | pending _ _ => exact absurd hmem List.not_mem_nil
  | begun m _ _ => exact ⟨m, rfl⟩
  | accepted m m' _ hv =>
    rw [hc.validation] at hv
    cases hv
  | rejected m type f _ hv =>
    rw [hc.validation] at hv
    cases hv

/-- A verdict that accepts is put on the docket once. -/
theorem accepted (hw : w.Docketed) (n : Nat) (hc : w.Concluding c) :
    (w.accepted c n).Docketed := by
  refine hw.update c ?_ (fun d hd => ?_) fun d hd => ?_
  · obtain ⟨m, hm⟩ := hw.docket_of_concluding hc
    have hdocket : (w.accepted c n).docket c = .ready n :: w.docket c :=
      List.filterMap_cons_some (if_pos ⟨rfl, rfl⟩)
    rw [hdocket, hm]
    unfold World.accepted settled advanced
    rw [container_withContainer_self, container_enter, container_withContainer_self]
    -- The phase moves on only if the container was not destroyed meanwhile; the verdict is settled
    -- in any case.
    rcases hc.phase with hphase | hphase
    · rw [if_pos hphase]
      exact .accepted m n (.inl rfl) rfl
    · rw [if_neg (by rw [hphase]; decide)]
      exact .accepted m n (.inr hphase) rfl
  · unfold World.accepted settled advanced
    rw [container_withContainer_of_ne _ _ hd, container_enter,
      container_withContainer_of_ne _ _ hd]
  · exact docket_enter (if_neg fun h => hd h.1.symm)

/-- So is one that rejects. -/
theorem rejected (hw : w.Docketed) (type : TypeKey) (f : LookupFailure) (hc : w.Concluding c) :
    (w.rejected c type (.definition f)).Docketed := by
  refine hw.update c ?_ (fun d hd => ?_) fun d hd => ?_
  · obtain ⟨m, hm⟩ := hw.docket_of_concluding hc
    have hdocket : (w.rejected c type (.definition f)).docket c =
        .rejected type (.definition f) :: w.docket c :=
      List.filterMap_cons_some (if_pos ⟨rfl, rfl⟩)
    rw [hdocket, hm]
    unfold World.rejected settled advanced
    rw [container_withContainer_self, container_withContainer_self, container_enter]
    -- As for a verdict that accepts.
    rcases hc.phase with hphase | hphase
    · rw [if_pos hphase]
      exact .rejected m type f (.inl rfl) rfl
    · rw [if_neg (by rw [hphase]; decide)]
      exact .rejected m type f (.inr hphase) rfl
  · unfold World.rejected settled advanced
    rw [container_withContainer_of_ne _ _ hd, container_withContainer_of_ne _ _ hd,
      container_enter]
  · exact docket_enter (if_neg fun h => hd h.1.symm)

/-- A container may be destroyed at any point of its docket. -/
theorem withPhase_destroyed (hw : w.Docketed) (c : ContainerId) :
    (w.withPhase c .destroyed).Docketed := by
  refine hw.update c ?_ (fun d hd => container_withContainer_of_ne _ _ hd) fun _ _ => rfl
  unfold withPhase
  rw [container_withContainer_self]
  exact (hw c).destroyed

theorem closed (hw : w.Docketed) (c : ContainerId) (n : Nat) (previous : Phase) :
    (w.closed c n previous).Docketed := by
  have hregistry : (w.withRegistry c (w.container c).registry.forget).Docketed := by
    refine hw.update c ?_ (fun d hd => container_withContainer_of_ne _ _ hd) fun _ _ => rfl
    unfold withRegistry
    rw [container_withContainer_self]
    have hdecided := hw c
    show Container.Decided _ (w.docket c)
    generalize w.docket c = l at hdecided ⊢
    -- Forgetting touches neither the phase nor the verdict.
    cases hdecided with
    | pending hp hv => exact .pending hp hv
    | begun n hp hv => exact .begun n hp hv
    | accepted n m hp hv => exact .accepted n m hp hv
    | rejected n type f hp hv => exact .rejected n type f hp hv
  exact hregistry.of_eq rfl fun d => docket_enter (by simp [Entry.verdict?, Event.isVerdict])

/-- Along a course, every container fits its docket. -/
theorem invariant (D : Outline) : Invariant D (Docketed : World C → Prop) where
  -- Only the start of a validation and its two verdicts write on the docket.
  quiet _ hw h := hw.quiet h
  begun _ hw _ := hw.of_eq rfl fun _ =>
    (docket_enter rfl).trans (docket_enter (by simp [Entry.verdict?, Event.isVerdict]))
  ended _ hw _ := hw.of_eq rfl fun _ => rfl
  completed {w _ p} x _ hw _ _ := by
    have hmade := hw.of_eq (v := w.enter (.milestone (.made p.id x))) rfl fun _ => docket_enter rfl
    exact (hmade.keeping p x).of_eq rfl fun _ => rfl
  departed _ hw := hw.of_eq rfl fun _ => rfl
  rejoined _ _ _ hv _ := hv.of_eq rfl fun _ => rfl
  validating n _ hw _ hphase := hw.validating n hphase
  accepted n _ hw hc _ := hw.accepted n hc
  rejected type f _ hw hc := hw.rejected type f hc
  destroyed {_ c} _ hw _ _ := hw.withPhase_destroyed c
  closed {_ c} n previous _ hw _ _ _ := hw.closed c n previous
  releasing _ hw _ _ _ := hw.of_eq rfl fun _ => docket_enter rfl
  disposed {w _ p} x o _ hw _ _ _ := by
    have hmark := hw.of_eq (v := w.enter (.milestone (.disposed p.id x))) rfl
      fun _ => docket_enter rfl
    rcases o with e | _
    · exact hmark.of_eq rfl fun _ => docket_enter (by simp [Entry.verdict?, Event.isVerdict])
    · exact hmark

end Docketed

/-! ## Values are made after validation -/

/-- Every start of a provider was written after its container was reported as ready. -/
def Licensed (w : World C) : Prop :=
  ∀ c p, w.Holds c p → ∀ older, .milestone (.started p.id) :: older <:+ w.journal →
    ∃ n, .event c (.ready n) ∈ older

/-- An accepting verdict was announced. -/
theorem Docketed.ready_mem (hw : w.Docketed) (h : (w.container c).validation = some (.ok ())) :
    ∃ n, .event c (.ready n) ∈ w.journal := by
  have hdecided := hw c
  -- What stands on the docket was read off the journal.
  have hmem : ∀ n, .ready n ∈ w.docket c → .event c (.ready n) ∈ w.journal := by
    intro n hn
    obtain ⟨e, he, hverdict⟩ := List.mem_filterMap.1 hn
    unfold Entry.verdict? at hverdict
    split at hverdict
    · split at hverdict
      · cases hverdict
        obtain ⟨rfl, -⟩ := ‹_ ∧ _›
        exact he
      · cases hverdict
    · cases hverdict
  generalize w.docket c = l at hdecided hmem
  cases hdecided with
  | accepted n m _ _ => exact ⟨m, hmem m List.mem_cons_self⟩
  | pending _ hv | begun _ _ hv | rejected _ _ _ _ hv =>
    rw [h] at hv
    cases hv

/-- What was announced as ready was accepted. -/
theorem Docketed.validation_of_ready_mem (hw : w.Docketed) {n : Nat}
    (h : .event c (.ready n) ∈ w.journal) : (w.container c).validation = some (.ok ()) := by
  have hmem : Event.ready n ∈ w.docket c := List.mem_filterMap.2 ⟨_, h, if_pos ⟨rfl, rfl⟩⟩
  have hdecided := hw c
  generalize w.docket c = l at hdecided hmem
  cases hdecided with
  | accepted m m' _ hv => exact hv
  | pending | begun | rejected => simp at hmem

namespace Licensed

/-- No provider has started, and what is held was held or has never started. -/
theorem later (hw : w.Licensed)
    (hholds : ∀ c p, v.Holds c p → w.Holds c p ∨ ∀ older,
      ¬ .milestone (.started p.id) :: older <:+ w.journal)
    (hjournal : ∀ x older, .milestone (.started x) :: older <:+ v.journal →
      .milestone (.started x) :: older <:+ w.journal) : v.Licensed := by
  intro c p hp older holder
  have hbefore := hjournal p.id older holder
  rcases hholds c p hp with hp' | hnone
  · exact hw c p hp' older hbefore
  · exact absurd hbefore (hnone older)

/-- An entry that is no start begins nothing. -/
theorem suffix_of_enter {e : Entry C} {x : ProviderId} {older : List (Entry C)}
    (he : e ≠ .milestone (.started x))
    (h : .milestone (.started x) :: older <:+ (w.enter e).journal) :
    .milestone (.started x) :: older <:+ w.journal := by
  rcases List.suffix_cons_iff.1 h with heq | h
  · exact absurd (List.cons.inj heq).1.symm he
  · exact h

/-- The providers are the same, and one entry more was written. -/
theorem entry (hw : w.Licensed)
    (hproviders : ∀ d, (v.container d).registry.providers = (w.container d).registry.providers)
    {e : Entry C} (he : ∀ x, e ≠ .milestone (.started x)) (hjournal : v.journal = e :: w.journal) :
    v.Licensed := by
  refine hw.later (fun c p hp => .inl ?_) fun x older h => ?_
  · unfold Holds at hp ⊢
    rwa [← hproviders]
  · rw [hjournal] at h
    exact suffix_of_enter (he x) h

/-- The providers and the journal are the same. -/
theorem congr (hw : w.Licensed)
    (hproviders : ∀ d, (v.container d).registry.providers = (w.container d).registry.providers)
    (hjournal : v.journal = w.journal) : v.Licensed := by
  intro c p hp
  rw [hjournal]
  refine hw c p ?_
  unfold Holds at hp ⊢
  rwa [← hproviders]

theorem of_eq (hw : w.Licensed) (hc : v.containers = w.containers)
    (hjournal : v.journal = w.journal) : v.Licensed := by
  refine hw.congr (fun d => ?_) hjournal
  rw [container_congr hc]

theorem enter (hw : w.Licensed) {e : Entry C} (he : ∀ x, e ≠ .milestone (.started x)) :
    (w.enter e).Licensed := hw.entry (fun _ => rfl) he rfl

/-- Where a start is written, something has happened to the provider. -/
theorem history_of_suffix {x : ProviderId} {older : List (Entry C)}
    (h : .milestone (.started x) :: older <:+ w.journal) : w.history x ≠ [] := by
  have hmem : .milestone (.started x) ∈ w.journal := h.subset List.mem_cons_self
  have hstarted : Milestone.started x ∈ w.history x :=
    List.mem_filterMap.2 ⟨_, hmem, by simp [Entry.about?, Milestone.provider?]⟩
  exact List.ne_nil_of_mem hstarted

/-- A quiet step starts no making. -/
theorem quiet (hw : w.Licensed) (hcoherent : w.Coherent) (h : Quiet w v) : v.Licensed := by
  refine hw.later (fun c p hp => ?_) fun x older holder => ?_
  -- A provider with a history was registered before; one without has not started.
  · by_cases hne : w.history p.id = []
    · exact .inr fun older holder => history_of_suffix holder hne
    · -- Something had happened to it before, so its container was open then.
      obtain ⟨d, q, hq, hid, hopen⟩ := hcoherent.history_known _ hne
      obtain ⟨rfl, rfl⟩ := (h.coherent hcoherent).unique d q c p
        (hq.later hopen.ne_unconfigured h.frame) hp hid
      exact .inl hq
  · cases h with
    | client | remember => exact holder
    | note | invoked | remark | unmatched | reused | create | register | unregister =>
      exact suffix_of_enter (by simp) holder

/-- A provider of a container that is ready starts. -/
theorem begun {p : Provider C} (hw : w.Licensed) (hcoherent : w.Coherent) (hdocketed : w.Docketed)
    (hb : w.CanBegin c p) : (w.begun c p).Licensed := by
  -- The container is ready, and a ready container's verdict was announced.
  have hagrees := hcoherent.agrees c
  unfold Container.Agrees at hagrees
  rw [hb.ready] at hagrees
  obtain ⟨n, hn⟩ := hdocketed.ready_mem hagrees
  intro d q hq older holder
  -- The new start is this one, or one that is older and was licensed before.
  rcases List.suffix_cons_iff.1 holder with heq | holder
  · obtain ⟨hentry, rfl⟩ := List.cons.inj heq
    have hid : q.id = p.id := by simpa using hentry
    obtain ⟨rfl, rfl⟩ := hcoherent.unique d q c p hq hb.holds hid
    exact ⟨n, List.mem_cons_of_mem _ hn⟩
  · refine hw d q hq older ?_
    exact suffix_of_enter (w := { w with building := p.id :: w.building }) (by simp) holder

theorem completed {p : Provider C} (hw : w.Licensed) (x : Value C) :
    (w.completed p x).Licensed := by
  have hmade := hw.enter (e := .milestone (.made p.id x)) (by simp)
  have hkeeping : ((w.enter (.milestone (.made p.id x))).keeping p x).Licensed := by
    unfold World.keeping
    split
    · exact hmade
    · exact (hmade.of_eq (v := { w.enter (.milestone (.made p.id x)) with kept := _ }) rfl
        rfl).enter (by simp)
  exact hkeeping.of_eq rfl rfl

theorem disposed {p : Provider C} (hw : w.Licensed) (x : Value C) (o : Attempted Unit) :
    (w.disposed c p x o).Licensed := by
  have hdisposed := hw.enter (e := .milestone (.disposed p.id x)) (by simp)
  rcases o with e | _
  · exact hdisposed.enter (by simp)
  · exact hdisposed

/-- Along a course, every container fits its docket and no provider starts before its container
is ready. -/
theorem invariant (D : Outline) :
    Invariant D (fun w : World C => w.Docketed ∧ w.Licensed) where
  -- The first part carries the second: a start is licensed by what is on the docket.
  quiet hcoherent hw h := ⟨hw.1.quiet h, hw.2.quiet hcoherent h⟩
  begun hcoherent hw hb := ⟨(Docketed.invariant D).begun hcoherent hw.1 hb,
    hw.2.begun hcoherent hw.1 hb⟩
  ended hcoherent hw hm := ⟨(Docketed.invariant D).ended hcoherent hw.1 hm, hw.2.of_eq rfl rfl⟩
  completed x hcoherent hw hm hs :=
    ⟨(Docketed.invariant D).completed x hcoherent hw.1 hm hs, hw.2.completed x⟩
  departed hcoherent hw := ⟨(Docketed.invariant D).departed hcoherent hw.1, hw.2.of_eq rfl rfl⟩
  rejoined hcoherent hcoherent' hw hv hframe :=
    ⟨(Docketed.invariant D).rejoined hcoherent hcoherent' hw.1 hv.1 hframe, hv.2.of_eq rfl rfl⟩
  validating n _ hw _ hphase := ⟨hw.1.validating n hphase,
    hw.2.entry (providers_advanced _ _ _ _) (by simp) rfl⟩
  accepted n _ hw hc _ := ⟨hw.1.accepted n hc,
    hw.2.entry (providers_accepted _ _ n) (by simp) rfl⟩
  rejected type f _ hw hc := ⟨hw.1.rejected type f hc,
    hw.2.entry (providers_rejected _ _ type _) (by simp) rfl⟩
  destroyed {_ c} _ hw _ _ := ⟨hw.1.withPhase_destroyed c,
    hw.2.congr (providers_withPhase _ _ _) rfl⟩
  closed {_ c} n previous _ hw _ _ _ := ⟨hw.1.closed c n previous,
    hw.2.entry (providers_closed _ _ n previous) (by simp) rfl⟩
  releasing {w _ p x} hcoherent hw hp hphase hx :=
    ⟨(Docketed.invariant D).releasing hcoherent hw.1 hp hphase hx,
      hw.2.entry (fun _ => rfl) (by simp) rfl⟩
  disposed x o hcoherent hw hp hphase hne :=
    ⟨(Docketed.invariant D).disposed x o hcoherent hw.1 hp hphase hne, hw.2.disposed x o⟩

end Licensed

end World

open World

/-- Where a run of client code comes to, every container fits its docket. -/
theorem Course.docketed {a : Activity C} {b : Bool} {w v : World C} (h : Course D a b w v)
    (hw : w.Coherent) (hd : w.Docketed) : v.Docketed :=
  h.invariant (Docketed.invariant D) hw hd

/-- Where a run of client code comes to, no provider has started before its container was
ready. -/
theorem Course.licensed {a : Activity C} {b : Bool} {w v : World C} (h : Course D a b w v)
    (hw : w.Coherent) (hd : w.Docketed) (hl : w.Licensed) : v.Licensed :=
  (h.invariant (Licensed.invariant D) hw ⟨hd, hl⟩).2

/-! ## No validation is left open -/

namespace World

/-- A container that is being validated while the validation of one ends is another one. -/
theorem validating_of_advanced {w : World C} {c d : ContainerId} {new : Phase} {r : Attempted Unit}
    (hnew : new ≠ .validating)
    (h : (((w.advanced c .validating new).settled c r).container d).phase = .validating) :
    d ≠ c ∧ (w.container d).phase = .validating := by
  unfold settled advanced at h
  by_cases hd : d = c
  · subst hd
    rw [container_withContainer_self, container_withContainer_self] at h
    dsimp only at h
    split at h
    · exact absurd h hnew
    · exact absurd h ‹_›
  · rw [container_withContainer_of_ne _ _ hd, container_withContainer_of_ne _ _ hd] at h
    exact ⟨hd, h⟩

/-- A validation that has ended leaves open only those that were so before. -/
theorem validating_of_validating {w v : World C} {c d : ContainerId} {n : Nat} (hd : d ≠ c)
    (h : (v.container d).phase = .validating → ((w.validating c n).container d).phase = .validating)
    (hv : (v.container d).phase = .validating) : (w.container d).phase = .validating := by
  have hbegin := h hv
  unfold World.validating advanced at hbegin
  rwa [container_enter, container_withContainer_of_ne _ _ hd] at hbegin

end World

/-- A finished course leaves no container in the middle of its validation. -/
theorem Course.validating_before {a : Activity C} {b : Bool} {w v : World C}
    (h : Course D a b w v) (hb : b = true) {c : ContainerId} :
    (v.container c).phase = .validating → (w.container c).phase = .validating := by
  induction h with
  | refl | sweepNil => exact id
  | trans _ _ ihu ihv => exact fun h => ihu rfl (ihv hb h)
  | quiet h => exact fun hv => (h.phase c).symm.trans hv
  | abandon d p _ _ ih => exact ih rfl
  | @complete w v d p x _ _ _ ih =>
    rw [container_congr (containers_completed v p x)]
    exact ih rfl
  | apart _ ih => exact ih rfl
  | accept d n m _ _ _ _ ih =>
    intro hv
    obtain ⟨hd, hv⟩ := validating_of_advanced (show Phase.ready ≠ _ by decide) hv
    exact validating_of_validating hd (ih rfl) hv
  | reject d n type f _ _ _ ih =>
    intro hv
    obtain ⟨hd, hv⟩ := validating_of_advanced (show Phase.failed ≠ _ by decide) hv
    exact validating_of_validating hd (ih rfl) hv
  | @teardown w v d r _ _ _ ih =>
    intro hv
    have hclosed := forall_container_withContainer (w := v) (c := d)
      (f := fun k => { k with registry := (v.container d).registry.forget })
      (P := fun e k => k.phase = (v.container e).phase) rfl (fun _ _ => rfl) c
    have hopened := forall_container_withContainer (w := w) (c := d)
      (f := fun k => { k with phase := .destroyed })
      (P := fun e k => k.phase = .validating → (w.container e).phase = .validating)
      (fun h => by cases h) (fun _ _ h => h) c
    exact hopened (ih rfl (hclosed ▸ hv))
  -- These are the courses that were cut short.
  | constructing | departing | validating | tearing | sweeping => cases hb
  | sweepPass _ _ _ _ ih => exact ih hb
  | @sweepVisit _ w u v d p x o _ _ _ _ _ _ _ _ ihu ihv =>
    have hdisposed : (u.disposed d p x o).container c = u.container c := by
      rcases o with e | _ <;> rfl
    intro hv
    exact ihu rfl (hdisposed ▸ ihv hb hv)

end Wiring
