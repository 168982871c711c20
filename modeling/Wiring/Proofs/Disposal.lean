import Wiring.Proofs.Sample
import Wiring.Proofs.Writing

/-!
# What teardown disposes of

A container is torn down once. Up to the end of its teardown every kept value was taken away and
disposed of, once. A singleton whose construction goes on while the container is torn down is
kept after that, and then for good: no later teardown looks at it.

Main statements: `Course.tidy`, `Codebase.leavesNothing_iff`.
-/

namespace Wiring

variable {C : Client} {D : Outline}

/-! ## A container that was torn down is left alone -/

/-- An entry that does not say that a container was torn down. -/
def Entry.IsNoTeardown (c : ContainerId) (e : Entry C) : Prop :=
  ∀ count previous, e ≠ .event c (.destroyed count previous)

/-- An entry that is neither about some providers nor about a container's teardown. -/
def Entry.IsForeign (c : ContainerId) (S : ProviderId → Prop) (e : Entry C) : Prop :=
  (∀ x, S x → e.about? x = none) ∧ e.IsNoTeardown c

/-- The identities of a container's providers. -/
def World.Owns (w : World C) (c : ContainerId) (x : ProviderId) : Prop :=
  ∃ p, w.Holds c p ∧ p.id = x

theorem Entry.isNoTeardown_milestone (c : ContainerId) (m : Milestone C) :
    (Entry.milestone m).IsNoTeardown c := fun _ _ h => by cases h

theorem Entry.isForeign_milestone {c : ContainerId} {S : ProviderId → Prop} {m : Milestone C}
    (h : ∀ x, S x → m.provider? ≠ some x) : (Entry.milestone m).IsForeign c S := by
  exact ⟨fun x hx => about?_of_ne (h x hx), Entry.isNoTeardown_milestone c m⟩

/-- An identity belongs to one container only, so what another container owns is somebody else's. -/
theorem World.Coherent.not_owns {w : World C} (hw : w.Coherent) {c d : ContainerId}
    {p : Provider C} (hp : w.Holds d p) (hne : d ≠ c) {x : ProviderId} (hx : w.Owns c x) :
    p.id ≠ x := by
  obtain ⟨q, hq, rfl⟩ := hx
  intro h
  exact hne (hw.unique d p c q hp hq h).1

/-- Once a container was torn down, nothing is written about its providers any more. -/
theorem admits_isForeign (c : ContainerId) (S : ProviderId → Prop) :
    Admits (C := C) (fun w => (w.container c).phase = .destroyed ∧ ∀ x, S x → w.Owns c x) (· ≠ c)
      (Entry.IsForeign c S) where
  later w v hw hwv _ := by
    obtain ⟨hphase, howns⟩ := hw
    refine ⟨hwv.destroyed hphase, fun x hx => ?_⟩
    obtain ⟨p, hp, hpx⟩ := howns x hx
    exact ⟨p, hp.later (by rw [hphase]; decide) hwv, hpx⟩
  plain e he := by
    refine ⟨fun x _ => ?_, ?_⟩
    · cases e with
      | event | note => rfl
      | milestone m =>
        have hm : m.provider? = none := he
        exact Entry.about?_of_ne (by rw [hm]; exact nofun)
    · rintro count previous rfl
      exact he
  unmatched w d type qualifiers e _ _ := ⟨fun _ _ => rfl, fun _ _ h => by cases h⟩
  reused w d p x _ _ _ _ := ⟨fun _ _ => rfl, fun _ _ h => by cases h⟩
  making w d p hw hI hb := by
    -- Nothing is made in the destroyed container, so what is made belongs to another.
    have hne : d ≠ c := by
      rintro rfl
      exact absurd (hb.ready.symm.trans hI.1) (by decide)
    have hforeign : ∀ x, S x → some p.id ≠ some x := fun x hx h =>
      hw.not_owns hb.holds hne (hI.2 x hx) (Option.some.inj h)
    exact ⟨Entry.isForeign_milestone hforeign, fun x =>
      ⟨Entry.isForeign_milestone hforeign, Entry.isForeign_milestone hforeign⟩⟩
  tearing w d hI hphase := by
    -- Only a container that is not destroyed yet can be torn down, which is another one.
    have hne : d ≠ c := by
      rintro rfl
      exact hphase hI.1
    refine ⟨hne, fun count previous => ⟨fun _ _ => rfl, fun _ _ h => ?_⟩⟩
    cases h
    exact hne rfl
  sweeping w d p hw hI hne hp x := by
    have hforeign : ∀ y, S y → some p.id ≠ some y := fun y hy h =>
      hw.not_owns hp hne (hI.2 y hy) (Option.some.inj h)
    exact ⟨Entry.isForeign_milestone hforeign, Entry.isForeign_milestone hforeign⟩

/-- A container that was torn down is left alone, but for what is being disposed of right now. -/
theorem Course.foreign {a : Activity C} {b : Bool} {w v : World C} (h : Course D a b w v)
    (hw : w.Coherent) {c : ContainerId} (hphase : (w.container c).phase = .destroyed)
    (ha : a.Within (· ≠ c)) : World.Writes (Entry.IsForeign c (w.Owns c)) w v :=
  h.writes (admits_isForeign c (w.Owns c)) hw ⟨hphase, fun _ hx => hx⟩ ha

/-- A container that is being torn down or was is not torn down anew. -/
theorem admits_isNoTeardown (c : ContainerId) :
    Admits (C := C) (fun w => (w.container c).phase = .destroyed) (fun _ => True)
      (Entry.IsNoTeardown c) where
  later w v hphase hwv _ := hwv.destroyed hphase
  plain e he := by
    rintro count previous rfl
    exact he
  unmatched w d type qualifiers e _ _ := fun _ _ h => by cases h
  reused w d p x _ _ _ _ := fun _ _ h => by cases h
  making w d p _ _ _ := ⟨Entry.isNoTeardown_milestone c _, fun _ =>
    ⟨Entry.isNoTeardown_milestone c _, Entry.isNoTeardown_milestone c _⟩⟩
  tearing w d hphase hd := by
    refine ⟨True.intro, fun count previous count' previous' h => ?_⟩
    cases h
    exact hd hphase
  sweeping w d p _ _ _ _ x := ⟨Entry.isNoTeardown_milestone c _, Entry.isNoTeardown_milestone c _⟩

/-- What is not written about a provider does not change its history. -/
theorem World.Writes.history {P : Entry C → Prop} {w v : World C} (h : World.Writes P w v)
    {x : ProviderId} (hP : ∀ e, P e → e.about? x = none) : v.history x = w.history x := by
  obtain ⟨new, hnew, hall⟩ := h
  unfold World.history
  rw [hnew, historyIn_append]
  have hnil : historyIn x new = [] := by
    unfold historyIn
    exact List.filterMap_eq_nil_iff.2 fun e he => hP e (hall e he)
  rw [hnil]
  rfl

/-- The kept value is what the history says. -/
theorem World.Coherent.kept_eq {w v : World C} (hw : w.Coherent) (hv : v.Coherent)
    {c : ContainerId} {p : Provider C} (hp : w.Holds c p) (hp' : v.Holds c p)
    (h : v.history p.id = w.history p.id) : v.kept.get? p.id = w.kept.get? p.id := by
  have hbalance := (hw.account c p hp).balance
  have hbalance' := (hv.account c p hp').balance
  have hkeepings : v.keepings p.id = w.keepings p.id := congrArg _ h
  have hreleases : v.releases p.id = w.releases p.id := congrArg _ h
  -- Both balances have the same releases, so they agree on what is kept.
  rw [hkeepings, hbalance, hreleases] at hbalance'
  have hlist := List.append_cancel_right hbalance'
  rcases hkw : w.kept.get? p.id with _ | x
  · rw [hkw] at hlist
    exact Option.toList_eq_nil_iff.1 hlist.symm
  · rw [hkw] at hlist
    exact Option.toList_eq_singleton_iff.1 hlist.symm

/-! ## The visit of all providers -/

namespace World

variable (w : World C) (c : ContainerId) (p : Provider C) (x : Value C) (o : Attempted Unit)

/-- Emptying a slot adds one milestone to the history of its provider. -/
theorem history_releasing_self :
    (w.releasing p x).history p.id = .released p.id x :: w.history p.id :=
  historyIn_milestone_self rfl _

/-- The histories of all other providers stay as they are. -/
theorem history_releasing_of_ne {y : ProviderId} (h : p.id ≠ y) :
    (w.releasing p x).history y = w.history y := by
  have hne : (Milestone.released p.id x).provider? ≠ some y := fun he => h (Option.some.inj he)
  exact historyIn_milestone_of_ne hne _

/-- A teardown adds one milestone to the history of its provider. -/
theorem history_disposed_self :
    (w.disposed c p x o).history p.id = .disposed p.id x :: w.history p.id := by
  rcases o with e | _ <;> exact historyIn_milestone_self rfl _

theorem history_disposed_of_ne {y : ProviderId} (h : p.id ≠ y) :
    (w.disposed c p x o).history y = w.history y := by
  have hne : (Milestone.disposed p.id x).provider? ≠ some y := fun he => h (Option.some.inj he)
  rcases o with e | _ <;> exact historyIn_milestone_of_ne hne _

/-- The milestone of a teardown leaves the slots alone. -/
theorem kept_disposed : (w.disposed c p x o).kept = w.kept := by
  rcases o with e | _ <;> rfl

end World

/-- What a visit of providers has come to when it ends. -/
structure Swept (c : ContainerId) (l : List (Provider C)) (w v : World C) : Prop where
  released : ∀ p ∈ l, v.kept.get? p.id = none
  still : ∀ p, w.Holds c p → w.kept.get? p.id = none → v.kept.get? p.id = none
  keepings : ∀ p, w.Holds c p → v.keepings p.id = w.keepings p.id
  disposals : ∀ p, w.Holds c p → w.disposals p.id = w.releases p.id →
    v.disposals p.id = v.releases p.id
  writes : World.Writes (Entry.IsNoTeardown c) w v

/-- The visit of one provider whose value was kept. -/
theorem Swept.visit {c : ContainerId} {w u : World C} {p : Provider C} {x : Value C}
    (o : Attempted Unit) (hw : w.Coherent) (hp : w.Holds c p)
    (hphase : (w.container c).phase = .destroyed) (hx : w.kept.get? p.id = some x)
    (hin : Course D .work true (w.releasing p x) u) : Swept c [p] w (u.disposed c p x o) := by
  have hreleased := hw.releasing hp hphase hx
  have hu := hin.coherent hreleased
  have hforeign := hin.foreign hreleased (c := c) hphase True.intro
  obtain ⟨_, hholds⟩ := World.Frame.of_releasing hphase hin.frame
  -- The teardown itself writes nothing about the providers of the container.
  have hhistory : ∀ q, w.Holds c q → u.history q.id = (w.releasing p x).history q.id := by
    intro q hq
    exact hforeign.history fun e he => he.1 q.id ⟨q, hq, rfl⟩
  have hkept : ∀ q, w.Holds c q → (u.disposed c p x o).kept.get? q.id =
      (w.releasing p x).kept.get? q.id := by
    intro q hq
    rw [World.kept_disposed]
    exact hreleased.kept_eq hu hq (hholds q hq) (hhistory q hq)
  have hgone : (w.releasing p x).kept.get? p.id = none := Table.get?_erase_self _ _
  have hself : (u.disposed c p x o).history p.id =
      .disposed p.id x :: .released p.id x :: w.history p.id := by
    rw [World.history_disposed_self, hhistory p hp, World.history_releasing_self]
  have hother : ∀ q, w.Holds c q → p.id ≠ q.id →
      (u.disposed c p x o).history q.id = w.history q.id := by
    intro q hq hne
    rw [World.history_disposed_of_ne _ _ _ _ _ hne, hhistory q hq,
      World.history_releasing_of_ne _ _ _ hne]
  constructor
  · intro q hq
    obtain rfl := List.mem_singleton.1 hq
    rw [hkept q hp, hgone]
  · intro q hq hnone
    have hne : q.id ≠ p.id := by
      intro h
      rw [h, hx] at hnone
      cases hnone
    rw [hkept q hq]
    exact (Table.get?_erase_of_ne _ hne).trans hnone
  · intro q hq
    show (World.history _ _).filterMap _ = (World.history _ _).filterMap _
    by_cases hne : p.id = q.id
    · rw [← hne, hself, List.filterMap_cons_none rfl, List.filterMap_cons_none rfl]
    · rw [hother q hq hne]
  · intro q hq h
    show (World.history _ _).filterMap _ = (World.history _ _).filterMap _
    by_cases hne : p.id = q.id
    · rw [← hne] at h
      rw [← hne, hself]
      exact congrArg (List.cons x) h
    · rw [hother q hq hne]
      exact h
  · have hmark := Entry.isNoTeardown_milestone (C := C) c
    refine .trans (u := w.releasing p x) (.entry rfl (hmark _))
      ((hforeign.mono fun e he => he.2).trans ?_)
    rcases o with e | _
    · have hreport : (Entry.event (C := C) c
          (.teardownFailed p.definition.implementation e)).IsNoTeardown c := fun _ _ h => by cases h
      exact .trans (u := u.enter (.milestone (.disposed p.id x))) (.entry rfl (hmark _))
        (.entry rfl hreport)
    · exact .entry rfl (hmark _)

/-- A sweep of one provider and a sweep of the rest make one sweep. -/
theorem Swept.cons {c : ContainerId} {w u v : World C} {p : Provider C} {rest : List (Provider C)}
    (hp : Swept c [p] w u) (hrest : Swept c rest u v) (hw : w.Holds c p)
    (hholds : ∀ q, w.Holds c q → u.Holds c q) : Swept c (p :: rest) w v where
  released q hq := by
    rcases List.mem_cons.1 hq with rfl | hq
    · exact hrest.still q (hholds q hw) (hp.released q (List.mem_singleton_self q))
    · exact hrest.released q hq
  still q hq h := hrest.still q (hholds q hq) (hp.still q hq h)
  keepings q hq := (hrest.keepings q (hholds q hq)).trans (hp.keepings q hq)
  disposals q hq h := hrest.disposals q (hholds q hq) (hp.disposals q hq h)
  writes := hp.writes.trans hrest.writes

/-- A finished visit has disposed of all that was kept, and of nothing else. -/
theorem Course.swept {c : ContainerId} {l : List (Provider C)} {r r' : Host.TeardownResult}
    {w v : World C} (h : Course D (.sweep c l r r') true w v) (hw : w.Coherent)
    (hphase : (w.container c).phase = .destroyed) (hl : ∀ p ∈ l, w.Holds c p) :
    Swept c l w v := by
  -- Induction on the providers still to visit; the course follows the same list.
  induction l generalizing w r with
  | nil =>
    cases h
    exact ⟨fun p hp => absurd hp List.not_mem_nil, fun _ _ h => h, fun _ _ => rfl, fun _ _ h => h,
      .of_eq rfl⟩
  | cons p rest ih =>
    have hp := hl p List.mem_cons_self
    have hl' : ∀ q ∈ rest, w.Holds c q := fun q hq => hl q (List.mem_cons_of_mem _ hq)
    cases h with
    | sweepPass _ _ hx hrest =>
      have hpass : Swept c [p] w w := by
        refine ⟨fun q hq => ?_, fun _ _ h => h, fun _ _ => rfl, fun _ _ h => h, .of_eq rfl⟩
        rwa [List.mem_singleton.1 hq]
      exact hpass.cons (ih hrest hw hphase hl') hp fun _ h => h
    | @sweepVisit _ _ u _ _ _ x o _ _ _ _ _ hx hin hrest =>
      -- Neither the disposal nor the milestone behind it brings the container back or loses a
      -- provider of it.
      obtain ⟨hphaseu, hholdsu⟩ := World.Frame.of_releasing hphase hin.frame
      obtain ⟨hphase', hholds'⟩ := World.Frame.of_releasing hphase
        (hin.frame.trans (.disposed u c p x o))
      have hu := (hin.coherent (hw.releasing hp hphase hx)).disposed x o (hholdsu p hp) hphaseu
      exact (Swept.visit o hw hp hphase hx hin).cons
        (ih hrest hu hphase' fun q hq => hholds' q (hl' q hq)) hp hholds'

/-! ## Before and after a teardown -/

namespace World

/-- A container was not torn down. -/
structure Untorn (w : World C) (c : ContainerId) : Prop where
  phase : (w.container c).phase ≠ .destroyed
  journal : ∀ e ∈ w.journal, e.IsNoTeardown c

/-- A container is being torn down. -/
structure Tearing (w : World C) (c : ContainerId) : Prop where
  phase : (w.container c).phase = .destroyed
  journal : ∀ e ∈ w.journal, e.IsNoTeardown c

/-- A container was torn down; its journal goes apart into what came after that and what came
before. -/
structure TornDown (w : World C) (c : ContainerId) (after before : List (Entry C)) : Prop where
  phase : (w.container c).phase = .destroyed
  journal : ∃ count previous,
    w.journal = after ++ .event c (.destroyed count previous) :: before
  once : ∀ e, e ∈ after ∨ e ∈ before → e.IsNoTeardown c
  disposed : ∀ p, w.Holds c p → disposalsIn p.id before = keepingsIn p.id before
  untouched : ∀ p, w.Holds c p → disposalsIn p.id after = []
  kept : ∀ p, w.Holds c p → keepingsIn p.id after = (w.kept.get? p.id).toList

/-- A container was torn down, with all that was kept before, or was not. -/
def Tidy (w : World C) (c : ContainerId) : Prop :=
  w.Untorn c ∨ ∃ after before, w.TornDown c after before

variable {w v : World C} {c : ContainerId}

/-- The entries of a world without a teardown, and those written since, tell of none. -/
theorem Untorn.journal_later (hw : w.Untorn c) (hwv : Writes (Entry.IsNoTeardown c) w v) :
    ∀ e ∈ v.journal, e.IsNoTeardown c := by
  obtain ⟨new, hnew, hall⟩ := hwv
  intro e he
  rw [hnew] at he
  rcases List.mem_append.1 he with he | he
  · exact hall e he
  · exact hw.journal e he

/-- A container that has torn nothing down and is not destroyed still has nothing torn down. -/
theorem Untorn.later (hw : w.Untorn c) (hphase : (v.container c).phase ≠ .destroyed)
    (hwv : Writes (Entry.IsNoTeardown c) w v) : v.Untorn c :=
  ⟨hphase, hw.journal_later hwv⟩

/-- Nothing changes for a container that was torn down while nothing is written about it. -/
theorem TornDown.later {after before : List (Entry C)} (hw : w.TornDown c after before)
    (hphase : (v.container c).phase = .destroyed)
    (hproviders : (v.container c).registry.providers = (w.container c).registry.providers)
    (hkept : ∀ p, w.Holds c p → v.kept.get? p.id = w.kept.get? p.id)
    (hwv : Writes (Entry.IsForeign c (w.Owns c)) w v) : ∃ after', v.TornDown c after' before := by
  obtain ⟨new, hnew, hall⟩ := hwv
  obtain ⟨count, previous, hjournal⟩ := hw.journal
  have hholds : ∀ {p}, v.Holds c p → w.Holds c p := by
    intro p hp
    unfold Holds at hp ⊢
    rwa [← hproviders]
  -- All that is new came after the teardown, and none of it is about the container.
  have hnil : ∀ p, w.Holds c p → historyIn p.id new = [] := fun p hp =>
    List.filterMap_eq_nil_iff.2 fun e he => (hall e he).1 p.id ⟨p, hp, rfl⟩
  refine ⟨new ++ after, hphase, ⟨count, previous, ?_⟩, fun e he => ?_, fun p hp => ?_,
    fun p hp => ?_, fun p hp => ?_⟩
  · rw [hnew, hjournal, List.append_assoc]
  · rcases he with he | he
    · rcases List.mem_append.1 he with he | he
      · exact (hall e he).2
      · exact hw.once e (.inl he)
    · exact hw.once e (.inr he)
  · exact hw.disposed p (hholds hp)
  · rw [disposalsIn_append, disposalsIn, hnil p (hholds hp)]
    exact hw.untouched p (hholds hp)
  · rw [keepingsIn_append, keepingsIn, hnil p (hholds hp), hkept p (hholds hp)]
    exact hw.kept p (hholds hp)

/-- Nothing that leaves the container's phase, its providers and their slots alone can untidy it. -/
theorem Tidy.later (hw : w.Tidy c)
    (hphase : (v.container c).phase = .destroyed ↔ (w.container c).phase = .destroyed)
    (hproviders : (w.container c).phase = .destroyed →
      (v.container c).registry.providers = (w.container c).registry.providers)
    (hkept : ∀ p, w.Holds c p → v.kept.get? p.id = w.kept.get? p.id)
    (hwv : Writes (Entry.IsForeign c (w.Owns c)) w v) : v.Tidy c := by
  rcases hw with hw | ⟨after, before, hw⟩
  · exact .inl (hw.later (fun h => hw.phase (hphase.1 h)) (hwv.mono fun e he => he.2))
  · obtain ⟨after', hv⟩ := hw.later (hphase.2 hw.phase) (hproviders hw.phase) hkept hwv
    exact .inr ⟨after', before, hv⟩

end World

/-- A course leaves a container alone that was torn down. -/
theorem Course.tornDown {a : Activity C} {b : Bool} {w v : World C} (h : Course D a b w v)
    (hw : w.Coherent) {c : ContainerId} (ha : a.Within (· ≠ c)) {after before : List (Entry C)}
    (ht : w.TornDown c after before) : ∃ after', v.TornDown c after' before := by
  have hforeign := h.foreign hw ht.phase ha
  have hkeeps := h.frame.container c
  have hne : (w.container c).phase ≠ .unconfigured := by
    rw [ht.phase]
    decide
  refine ht.later (h.frame.destroyed ht.phase) (hkeeps.providers hne) (fun p hp => ?_) hforeign
  exact hw.kept_eq (h.coherent hw) hp (hp.later hne h.frame)
    (hforeign.history fun e he => he.1 p.id ⟨p, hp, rfl⟩)

theorem Entry.isForeign_event {c d : ContainerId} {S : ProviderId → Prop} {e : Event}
    (h : (Entry.event (C := C) d e).IsNoTeardown c) : (Entry.event (C := C) d e).IsForeign c S :=
  ⟨fun _ _ => rfl, h⟩

/-- A quiet step writes nothing that concerns the owners of a swept container. -/
theorem Quiet.foreign {w v : World C} (h : Quiet w v) (c : ContainerId) (S : ProviderId → Prop) :
    World.Writes (Entry.IsForeign c S) w v := by
  cases h with
  | note n => exact .entry rfl ⟨fun _ _ => rfl, fun _ _ h => by cases h⟩
  | invoked => exact .entry rfl (Entry.isForeign_milestone fun _ _ => nofun)
  | client | remember => exact .of_eq rfl
  | remark d he =>
    refine .entry rfl (Entry.isForeign_event fun count previous h => ?_)
    cases h
    exact he
  | unmatched | reused | create | register | unregister =>
    exact .entry rfl (Entry.isForeign_event fun _ _ h => by cases h)

namespace World.Tidy

variable {w v : World C} {c : ContainerId}

theorem quiet (hw : w.Tidy c) (h : Quiet w v) : v.Tidy c := by
  refine hw.later (by rw [h.phase]) (fun hphase => ?_) (fun p _ => by rw [h.kept])
    (h.foreign c (w.Owns c))
  exact (h.frame.container c).providers (by rw [hphase]; decide)

/-- Only the construction that ends is different, or nothing at all. -/
theorem of_eq (hw : w.Tidy c) (hc : v.containers = w.containers) (hk : v.kept = w.kept)
    (hj : v.journal = w.journal) : v.Tidy c := by
  have hcontainer := container_congr hc c
  exact hw.later (by rw [hcontainer]) (fun _ => by rw [hcontainer]) (fun _ _ => by rw [hk])
    (.of_eq hj)

theorem event (hw : w.Tidy c) {d : ContainerId} {e : Event}
    (he : (Entry.event (C := C) d e).IsNoTeardown c) : (w.enter (.event d e)).Tidy c :=
  hw.later Iff.rfl (fun _ => rfl) (fun _ _ => rfl) (.entry rfl (Entry.isForeign_event he))

/-- A change of one container that keeps phase and providers keeps the tidiness of each. -/
theorem withContainer (hw : w.Tidy c) (d : ContainerId) {f : Container C → Container C}
    (hphase : (f (w.container d)).phase = .destroyed ↔ (w.container d).phase = .destroyed)
    (hproviders : (f (w.container d)).registry.providers = (w.container d).registry.providers) :
    (w.withContainer d f).Tidy c := by
  refine hw.later ?_ (fun _ => w.providers_withContainer hproviders c) (fun _ _ => rfl) (.of_eq rfl)
  exact forall_container_withContainer
    (P := fun d k => k.phase = .destroyed ↔ (w.container d).phase = .destroyed) hphase
    (fun _ _ => Iff.rfl) c

/-- A validation may end in a destroyed container; it is tidy as before. -/
theorem advanced_settled (hw : w.Tidy c) (d : ContainerId) {new : Phase}
    (hnew : new ≠ .destroyed) (r : Attempted Unit) :
    ((w.advanced d .validating new).settled d r).Tidy c := by
  refine (hw.withContainer d ?_ ?_).withContainer d Iff.rfl rfl
  · split
    · next h =>
      rw [h]
      exact ⟨fun h' => absurd h' hnew, fun h' => absurd h' (by decide)⟩
    · exact Iff.rfl
  · split <;> rfl

/-- The closing event of another container is none of this one's business. -/
theorem closed (hw : w.Tidy c) {d : ContainerId} (hne : d ≠ c) (count : Nat) (previous : Phase) :
    (w.closed d count previous).Tidy c := by
  have hforget : (w.withRegistry d (w.container d).registry.forget).Tidy c :=
    hw.withContainer d Iff.rfl rfl
  refine hforget.event fun _ _ h => ?_
  cases h
  exact hne rfl

/-- Another container disposes of a value. -/
theorem disposed (hw : w.Tidy c) (hcoherent : w.Coherent) {d : ContainerId} (hne : d ≠ c)
    {p : Provider C} (hp : w.Holds d p) (x : Value C) (o : Attempted Unit) :
    (w.disposed d p x o).Tidy c := by
  have hforeign : (Entry.milestone (.disposed p.id x)).IsForeign c (w.Owns c) :=
    Entry.isForeign_milestone fun y hy h => hcoherent.not_owns hp hne hy (Option.some.inj h)
  have hmark : (w.enter (.milestone (.disposed p.id x))).Tidy c :=
    hw.later Iff.rfl (fun _ => rfl) (fun _ _ => rfl) (.entry rfl hforeign)
  rcases o with e | _
  · exact hmark.event fun _ _ h => by cases h
  · exact hmark

/-- A prototype that makes a value keeps nothing. -/
theorem made (hw : w.Tidy c) (x : ProviderId) (y : Value C) :
    (w.enter (.milestone (.made x y))).Tidy c := by
  have hmade := Entry.isNoTeardown_milestone c (.made x y)
  -- What was made is nobody's teardown and keeps nothing.
  rcases hw with hw | ⟨after, before, hw⟩
  · exact .inl (hw.later hw.phase (.entry rfl hmade))
  · refine .inr ⟨.milestone (.made x y) :: after, before, hw.phase, ?_, fun e he => ?_,
      hw.disposed, fun p hp => ?_, fun p hp => ?_⟩
    · obtain ⟨count, previous, hjournal⟩ := hw.journal
      exact ⟨count, previous, congrArg _ hjournal⟩
    · rcases he with he | he
      · rcases List.mem_cons.1 he with rfl | he
        · exact hmade
        · exact hw.once e (.inl he)
      · exact hw.once e (.inr he)
    · rw [disposalsIn_milestone rfl]
      exact hw.untouched p hp
    · rw [keepingsIn_milestone rfl]
      exact hw.kept p hp

/-- A singleton is kept, be it before or after a teardown. -/
theorem kept (hw : w.Tidy c) {x : ProviderId} (y : Value C) (hx : w.keepings x = []) :
    (({ w with kept := w.kept.put x y } : World C).enter (.milestone (.kept x y))).Tidy c := by
  have hkept := Entry.isNoTeardown_milestone c (.kept x y)
  rcases hw with hw | ⟨after, before, hw⟩
  · exact .inl (hw.later hw.phase (.entry rfl hkept))
  · obtain ⟨count, previous, hjournal⟩ := hw.journal
    refine .inr ⟨.milestone (.kept x y) :: after, before, hw.phase,
      ⟨count, previous, congrArg _ hjournal⟩, fun e he => ?_, hw.disposed, fun p hp => ?_,
      fun p hp => ?_⟩
    · rcases he with he | he
      · rcases List.mem_cons.1 he with rfl | he
        · exact hkept
        · exact hw.once e (.inl he)
      · exact hw.once e (.inr he)
    · rw [disposalsIn_milestone rfl]
      exact hw.untouched p hp
    · by_cases hp' : x = p.id
      · subst hp'
        -- It was never kept before, so it was not kept since the teardown either.
        have hnil : keepingsIn p.id after = [] := by
          unfold keepings at hx
          rw [hjournal, keepingsIn_append] at hx
          exact (List.append_eq_nil_iff.1 hx).1
        rw [keepingsIn_kept_self, hnil]
        show [y] = ((w.kept.put p.id y).get? p.id).toList
        rw [Table.get?_put_self]
        rfl
      · rw [keepingsIn_kept_of_ne hp']
        show _ = ((w.kept.put x y).get? p.id).toList
        rw [Table.get?_put_of_ne _ _ (Ne.symm hp')]
        exact hw.kept p hp

/-- A completed making leaves a container tidy: after a teardown, its value is one kept since. -/
theorem completed (hw : w.Tidy c) (hcoherent : w.Coherent) {d : ContainerId} {p : Provider C}
    (hp : w.Holds d p) (hunderway : p.id ∈ w.underway) (x : Value C) :
    (w.completed p x).Tidy c := by
  have hmade := hw.made p.id x
  rcases hs : p.definition.scope
  · have ha := hcoherent.account d p hp
    have hnil : (w.enter (.milestone (.made p.id x))).keepings p.id = [] := by
      show keepingsIn p.id (_ :: w.journal) = []
      rw [keepingsIn_milestone rfl]
      exact (ha.made_eq_keepings hs).symm.trans (ha.not_made hs hunderway)
    rw [Coherent.completed_of_singleton hs]
    exact (hmade.kept x hnil).of_eq rfl rfl rfl
  · rw [Coherent.completed_of_prototype hs]
    exact hmade.of_eq rfl rfl rfl

end World.Tidy

namespace World.Untorn

variable {w v : World C} {c : ContainerId}

theorem of_eq (hw : w.Untorn c) (hc : v.containers = w.containers) (hj : v.journal = w.journal) :
    v.Untorn c := by
  refine hw.later ?_ (.of_eq hj)
  rw [container_congr hc]
  exact hw.phase

theorem enter (hw : w.Untorn c) {e : Entry C} (he : e.IsNoTeardown c) : (w.enter e).Untorn c :=
  hw.later hw.phase (.entry rfl he)

theorem begun (hw : w.Untorn c) (d : ContainerId) (p : Provider C) : (w.begun d p).Untorn c := by
  have hbuilding : ({ w with building := p.id :: w.building } : World C).Untorn c :=
    hw.of_eq rfl rfl
  exact (hbuilding.enter fun _ _ h => by cases h).enter (Entry.isNoTeardown_milestone c _)

theorem releasing (hw : w.Untorn c) (p : Provider C) (x : Value C) :
    (w.releasing p x).Untorn c := by
  have herase : ({ w with kept := w.kept.erase p.id } : World C).Untorn c := hw.of_eq rfl rfl
  exact herase.enter (Entry.isNoTeardown_milestone c _)

theorem validating (hw : w.Untorn c) (d : ContainerId) (n : Nat) : (w.validating d n).Untorn c := by
  have hadvanced : (w.advanced d .unconfigured .validating).Untorn c := by
    have hall : ∀ e, (w.container e).phase ≠ .destroyed →
        ((w.advanced d .unconfigured .validating).container e).phase ≠ .destroyed := by
      refine forall_container_withContainer
        (P := fun e k => (w.container e).phase ≠ .destroyed → k.phase ≠ .destroyed)
        (fun hphase => ?_) fun _ _ => id
      split
      · exact Phase.noConfusion
      · exact hphase
    exact hw.later (hall c hw.phase) (.of_eq rfl)
  exact hadvanced.enter fun _ _ h => by cases h

/-- Another container that is destroyed does not count. -/
theorem withPhase_of_ne (hw : w.Untorn c) {d : ContainerId} (hne : d ≠ c) (a : Phase) :
    (w.withPhase d a).Untorn c := by
  refine hw.later ?_ (.of_eq rfl)
  unfold withPhase
  rw [container_withContainer_of_ne _ _ hne.symm]
  exact hw.phase

/-- A teardown disposes of all that was kept. -/
theorem teardown (hw : w.Untorn c) (hcoherent : w.Coherent) (hc : w.Has c)
    {r : Host.TeardownResult} (previous : Phase)
    (h : Course D (.sweep c (w.container c).registry.providers.reverse {} r) true
      (w.withPhase c .destroyed) v) : (v.closed c r.count previous).TornDown c [] v.journal := by
  have hphase := phase_withPhase w c .destroyed
  -- The sweep starts from the providers as they were, and closing changes none of them.
  have hproviders : ((w.withPhase c .destroyed).container c).registry.providers =
      (w.container c).registry.providers := w.providers_withContainer rfl c
  have hholds : ∀ {p}, w.Holds c p ↔ (w.withPhase c .destroyed).Holds c p := by
    intro p
    unfold Holds
    rw [hproviders]
  have hstart := hcoherent.withPhase_destroyed hc
  have hswept := h.swept hstart hphase fun p hp => hholds.1 (List.mem_reverse.1 hp)
  have hv := h.coherent hstart
  have hkeeps := h.frame.container c
  have hne : ((w.withPhase c .destroyed).container c).phase ≠ .unconfigured := by
    rw [hphase]
    decide
  have hclosed : ∀ {p}, (v.closed c r.count previous).Holds c p → w.Holds c p := by
    intro p hp
    unfold Holds at hp ⊢
    unfold closed withRegistry at hp
    rw [container_enter, container_withContainer_self] at hp
    rw [← hproviders, ← hkeeps.providers hne]
    exact hp
  -- Every slot was passed or visited by the sweep.
  have hgone : ∀ p, w.Holds c p → v.kept.get? p.id = none := fun p hp =>
    hswept.released p (List.mem_reverse.2 hp)
  refine ⟨?_, ⟨r.count, previous, rfl⟩, fun e he => ?_, fun p hp => ?_, fun _ _ => rfl,
    fun p hp => ?_⟩
  · unfold closed withRegistry
    rw [container_enter, container_withContainer_self]
    exact h.frame.destroyed hphase
  · rcases he with he | he
    · exact absurd he List.not_mem_nil
    · exact hw.journal_later hswept.writes e he
  · -- All that was kept was released, and all that was released was disposed of.
    have hp' := hclosed hp
    have hunreleased := (hcoherent.account c p hp').unreleased hw.phase
    have hreleases : v.disposals p.id = v.releases p.id :=
      hswept.disposals p (hholds.1 hp') (hunreleased.2.trans hunreleased.1.symm)
    have hbalance := (hv.account c p ((hholds.1 hp').later hne h.frame)).balance
    rw [hgone p hp'] at hbalance
    exact hreleases.trans hbalance.symm
  · exact (congrArg Option.toList (hgone p (hclosed hp))).symm

end World.Untorn

/-- The sweep of a container that had torn nothing down brings it to its teardown. -/
theorem World.Untorn.tearing {w v : World C} {c : ContainerId} (hw : w.Untorn c)
    (hcoherent : w.Coherent) (hc : w.Has c) {l : List (Provider C)} {b : Bool}
    {r r' : Host.TeardownResult}
    (h : Course D (.sweep c l r r') b (w.withPhase c .destroyed) v) : v.Tearing c := by
  have hphase := World.phase_withPhase w c .destroyed
  refine ⟨h.frame.destroyed hphase, hw.journal_later ?_⟩
  exact Course.writes (w := w.withPhase c .destroyed) (admits_isNoTeardown c) h
    (hcoherent.withPhase_destroyed hc) hphase True.intro

/-- Every course leaves a container tidy, unless it is cut short while it tears it down. -/
theorem Course.tidy {a : Activity C} {b : Bool} {w v : World C} (h : Course D a b w v)
    (hw : w.Coherent) {c : ContainerId} (ha : a.Within (· ≠ c)) (hc : w.Untorn c) :
    v.Tidy c ∨ b = false ∧ v.Tearing c := by
  -- Within brackets that have ended there are finished courses only.
  have hfinished : ∀ {u : World C}, u.Tidy c ∨ true = false ∧ u.Tearing c → u.Tidy c :=
    fun h => h.resolve_right fun h => Bool.noConfusion h.1
  induction h with
  | refl | sweepNil => exact .inl (.inl hc)
  | trans hwu huv ihu ihv =>
    -- The container was torn down in the first part, in the second one, or not at all.
    rcases hfinished (ihu hw True.intro hc) with hu | ⟨after, before, hu⟩
    · exact ihv (hwu.coherent hw) True.intro hu
    · obtain ⟨after', hv⟩ := huv.tornDown (hwu.coherent hw) True.intro hu
      exact .inl (.inr ⟨after', before, hv⟩)
  | quiet h => exact .inl (World.Tidy.quiet (.inl hc) h)
  | abandon d p hbegin _ ih =>
    have htidy := hfinished (ih (hw.begun hbegin) True.intro (hc.begun d p))
    exact .inl (htidy.of_eq rfl rfl rfl)
  | complete d p x hbegin hin _ ih =>
    have hv := hin.coherent (hw.begun hbegin)
    have htidy := hfinished (ih (hw.begun hbegin) True.intro (hc.begun d p))
    refine .inl (htidy.completed hv (hbegin.later hin.frame).1 ?_ x)
    rw [hin.underway]
    exact List.mem_cons_self
  | constructing d p hbegin _ ih => exact ih (hw.begun hbegin) True.intro (hc.begun d p)
  | apart _ ih =>
    have htidy := hfinished (ih hw.departed True.intro (hc.of_eq rfl rfl))
    exact .inl (htidy.of_eq rfl rfl rfl)
  | departing _ ih => exact ih hw.departed True.intro (hc.of_eq rfl rfl)
  | accept d n m hd hphase _ _ ih =>
    have hv := hfinished (ih (hw.validating n hd hphase) True.intro (hc.validating d n))
    refine .inl ((hv.advanced_settled d (by decide) (.ok ())).event fun _ _ h => ?_)
    cases h
  | reject d n type f hd hphase _ ih =>
    have hv := hfinished (ih (hw.validating n hd hphase) True.intro (hc.validating d n))
    refine .inl ((hv.advanced_settled d (by decide) (.error (.definition f))).event fun _ _ h => ?_)
    cases h
  | validating d n hd hphase _ ih =>
    exact ih (hw.validating n hd hphase) True.intro (hc.validating d n)
  | teardown d r hd hphase hin ih =>
    -- Only the teardown of the container itself matters; any other one leaves it tidy.
    by_cases hne : d = c
    · subst hne
      exact .inl (.inr ⟨[], _, hc.teardown hw hd _ hin⟩)
    · have hv := hfinished (ih (hw.withPhase_destroyed hd) hne (hc.withPhase_of_ne hne _))
      exact .inl (hv.closed hne _ _)
  | tearing d r hd hphase hin ih =>
    by_cases hne : d = c
    · subst hne
      exact .inr ⟨rfl, hc.tearing hw hd hin⟩
    · exact ih (hw.withPhase_destroyed hd) hne (hc.withPhase_of_ne hne _)
  | sweepPass d p _ _ ih => exact ih hw ha hc
  | sweepVisit d p x o hp hphase hx hin hrest ihu ihv =>
    have hreleased := hw.releasing hp hphase hx
    obtain ⟨hphaseu, hholdsu⟩ := World.Frame.of_releasing hphase hin.frame
    have hu := hin.coherent hreleased
    have hdisposed := hu.disposed x o (hholdsu p hp) hphaseu
    have hv := hfinished (ihu hreleased True.intro (hc.releasing p x))
    rcases hv.disposed hu ha (hholdsu p hp) x o with htidy | ⟨after, before, htidy⟩
    · exact ihv hdisposed ha htidy
    · obtain ⟨after', hv⟩ := hrest.tornDown hdisposed ha htidy
      exact .inl (.inr ⟨after', before, hv⟩)
  | sweeping d p x hp hphase hx _ ih =>
    exact ih (hw.releasing hp hphase hx) True.intro (hc.releasing p x)

/-! ## What escapes -/

namespace World

/-- Nothing is kept for a container's providers, and every value that ever was kept for one of them
was torn down, exactly once. -/
def LeavesNothing (w : World C) (c : ContainerId) : Prop :=
  ∀ p, w.Holds c p → w.kept.get? p.id = none ∧ w.disposals p.id = w.keepings p.id

/-- The teardown of a container has come to its end. -/
def WasTornDown (w : World C) (c : ContainerId) : Prop :=
  ∃ count previous, .event c (.destroyed count previous) ∈ w.journal

/-- A provider's slot has been written at most once. -/
theorem Coherent.length_keepings {w : World C} {c : ContainerId} (hw : w.Coherent) {p : Provider C}
    (hp : w.Holds c p) : (w.keepings p.id).length ≤ 1 := by
  have ha := hw.account c p hp
  rcases hs : p.definition.scope
  · rw [← ha.made_eq_keepings hs]
    exact ha.made_once hs
  · rw [ha.prototype hs]
    exact Nat.zero_le _

/-- What was torn down leaves nothing exactly if nothing was kept after that. -/
theorem TornDown.nothing_left_iff {w : World C} {c : ContainerId} {after before : List (Entry C)}
    (h : w.TornDown c after before) :
    w.LeavesNothing c ↔ ∀ p, w.Holds c p → keepingsIn p.id after = [] := by
  constructor
  · intro hnothing p hp
    rw [h.kept p hp, (hnothing p hp).1]
    rfl
  · intro hafter p hp
    refine ⟨?_, ?_⟩
    · have hkept := h.kept p hp
      rw [hafter p hp] at hkept
      exact Option.toList_eq_nil_iff.1 hkept.symm
    · obtain ⟨count, previous, hjournal⟩ := h.journal
      -- The journal goes apart at the teardown; before it the account is settled, after it nothing
      -- was kept.
      show disposalsIn p.id w.journal = keepingsIn p.id w.journal
      rw [hjournal, disposalsIn_append, keepingsIn_append, h.untouched p hp, hafter p hp]
      exact h.disposed p hp

end World

/-- Where a course has ended, a container that was not torn down before is torn down exactly if the
journal says so. -/
theorem Course.destroyed_iff {w v : World C} (h : Course D .work true w v) (hw : w.Coherent)
    {c : ContainerId} (hc : w.Untorn c) :
    (v.container c).phase = .destroyed ↔ v.WasTornDown c := by
  have htidy := (h.tidy hw True.intro hc).resolve_right fun h => Bool.noConfusion h.1
  rcases htidy with huntorn | ⟨after, before, htorn⟩
  · constructor
    · intro hphase
      exact absurd hphase huntorn.phase
    · rintro ⟨count, previous, hentry⟩
      exact absurd rfl (huntorn.journal _ hentry count previous)
  · obtain ⟨count, previous, hjournal⟩ := htorn.journal
    have hentry : .event c (.destroyed count previous) ∈ v.journal := by simp [hjournal]
    exact ⟨fun _ => ⟨count, previous, hentry⟩, fun _ => htorn.phase⟩

namespace Codebase

/-- A container that is not in its last phase was never torn down. -/
theorem Visits.untorn {code : Codebase C} {s : C.State} {w : World C}
    (h : code.Visits (.blank s) w) {c : ContainerId}
    (hphase : (w.container c).phase ≠ .destroyed) : w.Untorn c := by
  have hblank := World.blank_coherent (C := C) s
  have huntorn : (World.blank s : World C).Untorn c :=
    ⟨Phase.noConfusion, fun e he => absurd he List.not_mem_nil⟩
  rcases (h.course code.describes_any hblank).tidy hblank True.intro huntorn with
    (h | ⟨after, before, h⟩) | ⟨-, h⟩
  · exact h
  · exact absurd h.phase hphase
  · exact absurd h.phase hphase

/-- A container that was torn down leaves nothing exactly if no singleton of it was kept after the
teardown. What was kept before was torn down, exactly once; what is kept after is kept still, and
was never torn down. This holds wherever the teardown has come to its end; where a run has ended, it
always has. -/
theorem leavesNothing_iff {code : Codebase C} {s : C.State} {w : World C}
    (hw : code.Visits (.blank s) w) {c : ContainerId} (hphase : (w.container c).phase = .destroyed)
    (hidle : w.WasTornDown c ∨ code.Ends (.blank s) w) :
    ∃ count previous after before,
      w.journal = after ++ .event c (.destroyed count previous) :: before ∧
      (∀ e, e ∈ after ∨ e ∈ before → e.IsNoTeardown c) ∧
      (∀ p, w.Holds c p → (w.keepings p.id).length ≤ 1 ∧
        disposalsIn p.id before = keepingsIn p.id before ∧ disposalsIn p.id after = [] ∧
        keepingsIn p.id after = (w.kept.get? p.id).toList) ∧
      (w.LeavesNothing c ↔ ∀ p, w.Holds c p → keepingsIn p.id after = []) := by
  have hblank := World.blank_coherent s
  have huntorn : (World.blank s : World C).Untorn c :=
    ⟨Phase.noConfusion, fun e he => absurd he List.not_mem_nil⟩
  -- A visited world is tidy, except in the middle of a teardown, where it is excluded by
  -- assumption.
  have htidy : w.Tidy c := by
    rcases hidle with ⟨count, previous, hover⟩ | hends
    · rcases (hw.course code.describes_any hblank).tidy hblank True.intro huntorn with h | ⟨_, h⟩
      · exact h
      · exact absurd rfl (h.journal _ hover count previous)
    · have htidy := (hends.course code.describes_any hblank).tidy hblank True.intro huntorn
      exact htidy.resolve_right fun h => Bool.noConfusion h.1
  rcases htidy with h | ⟨after, before, h⟩
  · exact absurd hphase h.phase
  obtain ⟨count, previous, hjournal⟩ := h.journal
  refine ⟨count, previous, after, before, hjournal, h.once, fun p hp => ?_, h.nothing_left_iff⟩
  exact ⟨hw.coherent.length_keepings hp, h.disposed p hp, h.untouched p hp,
    h.kept p hp⟩

end Codebase

namespace Sample

/-- Makes a lamp in a new container and tears the container down. -/
def lampOnce : Program Sample (Attempted Unit) := do
  let c ← Program.request .create
  let _ ← Program.request (.register c (.producer (.named "Lamp") ()))
  let _ ← Program.request (.get c (.named "Lamp") ∅)
  Program.request (.destroy c)

/-- The container is torn down while a lamp is made. -/
def fuses : Codebase Sample :=
  code (fun c => .call (.destroy c) fun _ => .done (.ok (.object ()))) fun _ => .noArgs

def lampWorld : World Sample := ((lamps.run 2 lampOnce).exec blank).2

def fuseWorld : World Sample := ((fuses.run 2 lampOnce).exec blank).2

/-- The lamp's container announces its end once, and the only slot ever filled is torn down before
that. -/
theorem lamp_leaves_nothing :
    ∃ count previous after before,
      lampWorld.journal = after ++ .event ⟨0⟩ (.destroyed count previous) :: before ∧
      (∀ e, e ∈ after ∨ e ∈ before → e.IsNoTeardown ⟨0⟩) ∧
      (∀ p, lampWorld.Holds ⟨0⟩ p → (lampWorld.keepings p.id).length ≤ 1 ∧
        disposalsIn p.id before = keepingsIn p.id before ∧ disposalsIn p.id after = [] ∧
        keepingsIn p.id after = (lampWorld.kept.get? p.id).toList) ∧
      (lampWorld.LeavesNothing ⟨0⟩ ↔ ∀ p, lampWorld.Holds ⟨0⟩ p → keepingsIn p.id after = []) := by
  have hends : lamps.Ends blank lampWorld := ⟨_, lampOnce, 2, .ok (), rfl⟩
  exact Codebase.leavesNothing_iff hends.visits rfl (.inr hends)

/-- A value that was made while its container was torn down escapes. -/
theorem fuse_escapes :
    fuses.Ends blank fuseWorld ∧ (fuseWorld.container ⟨0⟩).phase = .destroyed ∧
      ¬ fuseWorld.LeavesNothing ⟨0⟩ := by
  refine ⟨⟨_, lampOnce, 2, .ok (), rfl⟩, rfl, fun h => ?_⟩
  have hholds : fuseWorld.Holds ⟨0⟩
      ⟨⟨0⟩, (Registration.producer (.named "Lamp") ()).definition⟩ := List.mem_cons_self
  obtain ⟨hkept, -⟩ := h _ hholds
  cases hkept

end Sample

end Wiring
