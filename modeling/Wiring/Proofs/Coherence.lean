import Mathlib.Tactic.ByContra
import Wiring.Proofs.Frame

/-!
# Coherent worlds

A world is coherent if its parts agree: identities are given once, what a registry remembers is
what it would find, the phase of a container fits the result of its validation, and for every
provider the kept value, the history and what is under construction fit together. The latter is
the provider's account. In the account of a singleton, what was made was kept, at most one value
was made, and none was made while the provider is under construction.

Main statement: `Course.coherent`, every course from a coherent world leads to one.
-/

namespace Wiring

variable {C : Client} {D : Outline}

/-- Providers make and keep values. -/
def Phase.IsOpen (a : Phase) : Prop := a = .ready ∨ a = .destroyed

/-- A container that is open has left its first phase. -/
theorem Phase.IsOpen.ne_unconfigured {a : Phase} (h : a.IsOpen) : a ≠ .unconfigured := by
  rcases h with rfl | rfl <;> decide

/-- The phase fits the result of validation. -/
def Container.Agrees (k : Container C) : Prop :=
  match k.phase with
  | .unconfigured | .validating => k.validation = none
  | .ready => k.validation = some (.ok ())
  | .failed => ∃ e, k.validation = some (.error e)
  | .destroyed => True

namespace World

/-- The affairs of a provider fit together. -/
structure Account (w : World C) (c : ContainerId) (p : Provider C) : Prop where
  /-- What was kept is kept now or was released. -/
  balance : w.keepings p.id = (w.kept.get? p.id).toList ++ w.releases p.id
  unreleased : (w.container c).phase ≠ .destroyed → w.releases p.id = [] ∧ w.disposals p.id = []
  prototype : p.definition.scope = .prototype → w.keepings p.id = []
  made_eq_keepings : p.definition.scope = .singleton → w.mades p.id = w.keepings p.id
  made_once : p.definition.scope = .singleton → (w.mades p.id).length ≤ 1
  underway_once : p.definition.scope = .singleton → w.underway.count p.id ≤ 1
  not_made : p.definition.scope = .singleton → p.id ∈ w.underway → w.mades p.id = []

/-- The account depends on no more than the provider's own affairs. -/
theorem Account.congr {w v : World C} {c : ContainerId} {p : Provider C} (ha : w.Account c p)
    (hhistory : v.history p.id = w.history p.id) (hkept : v.kept.get? p.id = w.kept.get? p.id)
    (hunderway : v.underway.count p.id = w.underway.count p.id)
    (hphase : (w.container c).phase = .destroyed → (v.container c).phase = .destroyed) :
    v.Account c p := by
  -- All counts of the account are read off the history, so equal histories give equal counts.
  have hk : v.keepings p.id = w.keepings p.id := congrArg _ hhistory
  have hm : v.mades p.id = w.mades p.id := congrArg _ hhistory
  have hr : v.releases p.id = w.releases p.id := congrArg _ hhistory
  have hd : v.disposals p.id = w.disposals p.id := congrArg _ hhistory
  constructor
  · rw [hk, hr, hkept]
    exact ha.balance
  -- Not destroyed later means not destroyed before.
  · intro hv
    rw [hr, hd]
    exact ha.unreleased fun hw => hv (hphase hw)
  · rw [hk]
    exact ha.prototype
  · rw [hm, hk]
    exact ha.made_eq_keepings
  · rw [hm]
    exact ha.made_once
  · rw [hunderway]
    exact ha.underway_once
  · intro hs hmem
    rw [hm]
    rw [← List.count_pos_iff, hunderway, List.count_pos_iff] at hmem
    exact ha.not_made hs hmem

/-- A milestone that neither keeps a value nor takes one away leaves the account right, if only a
prototype makes a value and only what is torn down is disposed of. -/
theorem Account.milestone {w : World C} {c : ContainerId} {p : Provider C} (ha : w.Account c p)
    {m : Milestone C} (hkept : m.kept? = none) (hreleased : m.released? = none)
    (hmade : p.definition.scope = .singleton → m.made? = none)
    (hdisposed : (w.container c).phase ≠ .destroyed → m.disposed? = none) :
    (w.enter (.milestone m)).Account c p := by
  -- A milestone that is none of these kinds leaves the counts of these kinds alone.
  have hk : (w.enter (.milestone m)).keepings p.id = w.keepings p.id :=
    keepingsIn_milestone hkept p.id w.journal
  have hr : (w.enter (.milestone m)).releases p.id = w.releases p.id :=
    w.releases_milestone hreleased p.id
  have hm : p.definition.scope = .singleton →
      (w.enter (.milestone m)).mades p.id = w.mades p.id :=
    fun hs => w.mades_milestone (hmade hs) p.id
  constructor
  · rw [hk, hr]
    exact ha.balance
  · intro hphase
    have hd : (w.enter (.milestone m)).disposals p.id = w.disposals p.id :=
      disposalsIn_milestone (hdisposed hphase) p.id w.journal
    rw [hr, hd]
    exact ha.unreleased hphase
  · rw [hk]
    exact ha.prototype
  · intro hs
    rw [hm hs, hk]
    exact ha.made_eq_keepings hs
  · intro hs
    rw [hm hs]
    exact ha.made_once hs
  · exact ha.underway_once
  · intro hs hmem
    rw [hm hs]
    exact ha.not_made hs hmem

/-- A provider of a container that makes and keeps values has an identity. -/
def Known (w : World C) (x : ProviderId) : Prop :=
  ∃ c p, w.Holds c p ∧ p.id = x ∧ (w.container c).phase.IsOpen

/-- All parts of a world agree. -/
structure Coherent (w : World C) : Prop where
  container_lt : ∀ c, w.Has c → c.number < w.containerCount
  provider_lt : ∀ c p, w.Holds c p → p.id.number < w.providerCount
  unique : ∀ c p d q, w.Holds c p → w.Holds d q → p.id = q.id → c = d ∧ p = q
  recalled : ∀ c request p, (w.container c).registry.remembered.get? request = some p →
    (w.container c).registry.scan request = .ok p
  agrees : ∀ c, (w.container c).Agrees
  underway_known : ∀ x ∈ w.underway, w.Known x
  history_known : ∀ x, w.history x ≠ [] → w.Known x
  kept_history : ∀ x, w.kept.get? x ≠ none → w.history x ≠ []
  account : ∀ c p, w.Holds c p → w.Account c p

/-! ## Changes that leave the affairs of all providers alone -/

/-- The affairs of every provider are the same. -/
structure Alike (w v : World C) : Prop where
  underway : v.underway = w.underway
  history : ∀ x, v.history x = w.history x
  kept : v.kept = w.kept
  providers : ∀ c, (v.container c).registry.providers = (w.container c).registry.providers
  isOpen : ∀ c, (w.container c).phase.IsOpen → (v.container c).phase.IsOpen
  destroyed : ∀ c, (w.container c).phase = .destroyed → (v.container c).phase = .destroyed
  providerCount : v.providerCount = w.providerCount

namespace Alike

variable {w v : World C}

theorem refl (w : World C) : w.Alike w :=
  ⟨rfl, fun _ => rfl, rfl, fun _ => rfl, fun _ h => h, fun _ h => h, rfl⟩

theorem trans {u : World C} (hwu : w.Alike u) (huv : u.Alike v) : w.Alike v where
  underway := huv.underway.trans hwu.underway
  history x := (huv.history x).trans (hwu.history x)
  kept := huv.kept.trans hwu.kept
  providers c := (huv.providers c).trans (hwu.providers c)
  isOpen c h := huv.isOpen c (hwu.isOpen c h)
  destroyed c h := huv.destroyed c (hwu.destroyed c h)
  providerCount := huv.providerCount.trans hwu.providerCount

/-- Stepping aside for another thread changes nothing that the invariant speaks of. -/
theorem departed (w : World C) : w.Alike w.departed :=
  ⟨rfl, fun _ => rfl, rfl, fun _ => rfl, fun _ h => h, fun _ h => h, rfl⟩

/-- Alike worlds hold the same providers. -/
theorem holds (h : w.Alike v) {c : ContainerId} {p : Provider C} :
    v.Holds c p ↔ w.Holds c p := by
  unfold Holds
  rw [h.providers c]

/-- A provider known in one world is known in any world alike. -/
theorem known (h : w.Alike v) {x : ProviderId} (hx : w.Known x) : v.Known x := by
  obtain ⟨c, p, hp, hpx, ho⟩ := hx
  exact ⟨c, p, h.holds.2 hp, hpx, h.isOpen c ho⟩

theorem account (h : w.Alike v) {c : ContainerId} {p : Provider C} (ha : w.Account c p) :
    v.Account c p :=
  ha.congr (h.history p.id) (by rw [h.kept]) (by rw [h.underway]) (h.destroyed c)

/-- A world alike a coherent one is coherent, once the four parts that may have moved hold of it:
where containers are numbered, what is remembered and the agreement of phase and report. -/
theorem coherent (h : w.Alike v) (hw : w.Coherent)
    (hlt : ∀ c, v.Has c → c.number < v.containerCount)
    (hrecalled : ∀ c request p, (v.container c).registry.remembered.get? request = some p →
      (v.container c).registry.scan request = .ok p)
    (hagrees : ∀ c, (v.container c).Agrees) : v.Coherent where
  container_lt := hlt
  -- Identities and accounts go by what containers hold, and alike worlds hold the same.
  provider_lt c p hp := by
    rw [h.providerCount]
    exact hw.provider_lt c p (h.holds.1 hp)
  unique c p d q hp hq hpq := hw.unique c p d q (h.holds.1 hp) (h.holds.1 hq) hpq
  recalled := hrecalled
  agrees := hagrees
  underway_known x hx := h.known (hw.underway_known x (h.underway ▸ hx))
  history_known x hx := h.known (hw.history_known x (h.history x ▸ hx))
  kept_history x hx := by
    rw [h.history x]
    exact hw.kept_history x (h.kept ▸ hx)
  account c p hp := h.account (hw.account c p (h.holds.1 hp))

end Alike

namespace Coherent

variable {w : World C}

/-- The containers are the same and so are the affairs of all providers. -/
theorem of_containers_eq {v : World C} (hw : w.Coherent) (hc : v.containers = w.containers)
    (hcount : v.containerCount = w.containerCount) (hprovider : v.providerCount = w.providerCount)
    (hunderway : v.underway = w.underway) (hhistory : ∀ x, v.history x = w.history x)
    (hkept : v.kept = w.kept) : v.Coherent := by
  -- Equal tables of containers are read alike.
  have hcontainer := container_congr hc
  refine Alike.coherent ⟨hunderway, hhistory, hkept, ?_, ?_, ?_, hprovider⟩ hw ?_ ?_ ?_
  · intro c
    rw [hcontainer]
  · intro c ho
    rwa [hcontainer]
  · intro c hd
    rwa [hcontainer]
  · intro c hv
    rw [hcount]
    refine hw.container_lt c ?_
    unfold Has at hv ⊢
    rwa [← hc]
  · intro c request p
    rw [hcontainer]
    exact hw.recalled c request p
  · intro c
    rw [hcontainer]
    exact hw.agrees c

/-- An entry that is about no provider changes nothing. -/
theorem enter (hw : w.Coherent) {e : Entry C} (he : ∀ x, e.about? x = none) :
    (w.enter e).Coherent := by
  refine hw.of_containers_eq rfl rfl rfl rfl (fun x => ?_) rfl
  show historyIn x (e :: w.journal) = historyIn x w.journal
  unfold historyIn
  rw [List.filterMap_cons_none (he x)]

/-- An event in the journal is no milestone, so the invariant does not see it. -/
theorem event (hw : w.Coherent) (c : ContainerId) (e : Event) : (w.enter (.event c e)).Coherent :=
  hw.enter fun _ => rfl

/-- A container changes, but none of its providers. -/
theorem withContainer (hw : w.Coherent) {c : ContainerId} {f : Container C → Container C}
    (hc : w.Has c)
    (hproviders : (f (w.container c)).registry.providers = (w.container c).registry.providers)
    (hopen : (w.container c).phase.IsOpen → (f (w.container c)).phase.IsOpen)
    (hdestroyed : (w.container c).phase = .destroyed → (f (w.container c)).phase = .destroyed)
    (hrecalled : ∀ request p, (f (w.container c)).registry.remembered.get? request = some p →
      (f (w.container c)).registry.scan request = .ok p)
    (hagrees : (f (w.container c)).Agrees) : (w.withContainer c f).Coherent := by
  refine Alike.coherent (w := w) ⟨rfl, fun _ => rfl, rfl, ?_, ?_, ?_, rfl⟩ hw ?_ ?_ ?_
  -- Of the changed container each property is a hypothesis, of all others it is unchanged.
  · exact w.providers_withContainer hproviders
  · exact forall_container_withContainer
      (P := fun d k => (w.container d).phase.IsOpen → k.phase.IsOpen) hopen fun _ _ => id
  · exact forall_container_withContainer
      (P := fun d k => (w.container d).phase = .destroyed → k.phase = .destroyed)
      hdestroyed fun _ _ => id
  · exact fun d hd => hw.container_lt d (has_of_withContainer hc hd)
  · exact forall_container_withContainer
      (P := fun _ k => ∀ request p, k.registry.remembered.get? request = some p →
        k.registry.scan request = .ok p) hrecalled fun d _ => hw.recalled d
  · exact forall_container_withContainer (P := fun _ k => k.Agrees) hagrees fun d _ => hw.agrees d

/-! ## Changes of registries and phases -/

/-- The number the next container gets is not taken. -/
theorem fresh_container (hw : w.Coherent) : w.containers.get? ⟨w.containerCount⟩ = none := by
  rcases h : w.containers.get? ⟨w.containerCount⟩ with _ | k
  · rfl
  · exact absurd (hw.container_lt _ ⟨k, h⟩) (Nat.lt_irrefl _)

/-- A new container starts unconfigured and empty, so nothing in it can break the invariant. -/
theorem created (hw : w.Coherent) : w.created.Coherent := by
  have hcontainer := container_created hw.fresh_container
  refine Alike.coherent (w := w) ⟨rfl, fun _ => rfl, rfl, ?_, ?_, ?_, rfl⟩ hw ?_ ?_ ?_
  -- A container that is not there reads as an empty one, which is what the new container is.
  · intro c
    rw [hcontainer]
  · intro c ho
    rwa [hcontainer]
  · intro c hd
    rwa [hcontainer]
  · rintro c ⟨k, hk⟩
    -- The new container has the number that the counter just passed; the others were below it
    -- before.
    by_cases hc : c = ⟨w.containerCount⟩
    · subst hc
      exact Nat.lt_succ_self _
    · refine Nat.lt_succ_of_lt (hw.container_lt c ⟨k, ?_⟩)
      simpa [World.created, World.enter, hc] using hk
  · intro c request p
    rw [hcontainer]
    exact hw.recalled c request p
  · intro c
    rw [hcontainer]
    exact hw.agrees c

/-- What has made a value is a provider of an open container. -/
theorem known_of_mades (hw : w.Coherent) {x : ProviderId} (h : w.mades x ≠ []) : w.Known x := by
  refine hw.history_known x fun hnil => h ?_
  unfold mades
  rw [hnil]
  rfl

/-- Nothing is kept for a prototype. -/
theorem prototype_not_kept (hw : w.Coherent) {c : ContainerId} {p : Provider C} (hp : w.Holds c p)
    (hs : p.definition.scope = .prototype) : w.kept.get? p.id = none := by
  have ha := hw.account c p hp
  have hbalance := ha.balance
  rw [ha.prototype hs] at hbalance
  exact Option.toList_eq_nil_iff.1 (List.append_eq_nil_iff.1 hbalance.symm).1

/-- Nothing is kept for a provider that is under construction. -/
theorem underway_not_kept (hw : w.Coherent) {c : ContainerId} {p : Provider C} (hp : w.Holds c p)
    (hunderway : p.id ∈ w.underway) : w.kept.get? p.id = none := by
  rcases hs : p.definition.scope
  · have ha := hw.account c p hp
    have hbalance := ha.balance
    rw [← ha.made_eq_keepings hs, ha.not_made hs hunderway] at hbalance
    exact Option.toList_eq_nil_iff.1 (List.append_eq_nil_iff.1 hbalance.symm).1
  · exact hw.prototype_not_kept hp hs

/-- A provider for which nothing is kept keeps nothing until it has made another value. -/
theorem not_kept_later {v : World C} (hw : w.Coherent) (hv : v.Coherent) (hwv : w.Frame v)
    {x : ProviderId} (hkept : w.kept.get? x = none) (hmades : v.mades x = w.mades x) :
    v.kept.get? x = none := by
  by_contra hsome
  obtain ⟨y, hy⟩ := Option.ne_none_iff_exists'.1 hsome
  obtain ⟨c, p, hp, rfl, -⟩ := hv.history_known x (hv.kept_history x hsome)
  have hs : p.definition.scope = .singleton := by
    rcases hscope : p.definition.scope
    · rfl
    · exact absurd (hv.prototype_not_kept hp hscope) hsome
  have ha := hv.account c p hp
  have hmade : v.mades p.id = y :: v.releases p.id := by
    rw [ha.made_eq_keepings hs, ha.balance, hy]
    rfl
  have hreleases : v.releases p.id = [] := by
    have honce := ha.made_once hs
    rw [hmade, List.length_cons] at honce
    exact List.length_eq_zero_iff.1 (by omega)
  -- The one value was made before, but then it was also kept before.
  obtain ⟨d, q, hq, hqp, hopen⟩ := hw.known_of_mades (x := p.id) (by rw [← hmades, hmade]; simp)
  obtain ⟨rfl, rfl⟩ := hv.unique _ _ _ _ (hq.later hopen.ne_unconfigured hwv) hp hqp
  have ha' := hw.account d q hq
  have hreleased : w.releases q.id = [y] := by
    have hbalance := ha'.balance
    rw [← ha'.made_eq_keepings hs, ← hmades, hmade, hreleases, hkept] at hbalance
    exact hbalance.symm
  have hsuffix : w.releases q.id <:+ v.releases q.id := (hwv.history q.id).filterMap _
  rw [hreleased, hreleases] at hsuffix
  exact absurd (List.suffix_nil.1 hsuffix) (List.cons_ne_nil _ _)

/-- An identity that was not given yet stands for nothing. -/
theorem not_known_fresh (hw : w.Coherent) : ¬ w.Known ⟨w.providerCount⟩ := by
  rintro ⟨c, p, hp, hpx, _⟩
  have hlt := hw.provider_lt c p hp
  rw [hpx] at hlt
  exact Nat.lt_irrefl _ hlt

/-- A provider that is just being added has nothing kept and no history: its account is the empty
one. -/
theorem account_fresh (hw : w.Coherent) (c : ContainerId) (d : Definition C) :
    w.Account c ⟨⟨w.providerCount⟩, d⟩ := by
  -- A provider not known yet has no history, is not under way and has no slot.
  have hhistory : w.history ⟨w.providerCount⟩ = [] := by
    by_contra h
    exact hw.not_known_fresh (hw.history_known _ h)
  have hunderway : (⟨w.providerCount⟩ : ProviderId) ∉ w.underway :=
    fun h => hw.not_known_fresh (hw.underway_known _ h)
  have hkept : w.kept.get? ⟨w.providerCount⟩ = none := by
    by_contra h
    exact hw.kept_history _ h hhistory
  -- So every count of its account is zero.
  have hnil : ∀ f : Milestone C → Option (Value C),
      (w.history ⟨w.providerCount⟩).filterMap f = [] := by
    intro f
    rw [hhistory]
    rfl
  have hkeepings : w.keepings ⟨w.providerCount⟩ = [] := hnil _
  have hmades : w.mades ⟨w.providerCount⟩ = [] := hnil _
  have hreleases : w.releases ⟨w.providerCount⟩ = [] := hnil _
  constructor
  · rw [hkeepings, hreleases, hkept]
    rfl
  · exact fun _ => ⟨hreleases, hnil _⟩
  · exact fun _ => hkeepings
  · exact fun _ => hmades.trans hkeepings.symm
  · exact fun _ => hmades ▸ Nat.zero_le _
  · intro _
    rw [List.count_eq_zero.2 hunderway]
    exact Nat.zero_le _
  · exact fun _ _ => hmades

/-- Adding a provider adds exactly that one to what its container holds. -/
theorem holds_withProvider {c c' : ContainerId} {d : Definition C} {p : Provider C}
    (h : (w.withProvider c d).Holds c' p) :
    w.Holds c' p ∨ c' = c ∧ p = ⟨⟨w.providerCount⟩, d⟩ := by
  unfold Holds World.withProvider at h
  by_cases hc : c' = c
  · subst hc
    rw [container_withContainer_self] at h
    rcases List.mem_append.1 h with hp | hp
    · exact .inl hp
    · exact .inr ⟨rfl, List.mem_singleton.1 hp⟩
  · rw [container_withContainer_of_ne _ _ hc] at h
    exact .inl h

/-- Registering a definition keeps the invariant: its identity is fresh, so no other provider's
account is touched. -/
theorem withProvider (hw : w.Coherent) {c : ContainerId} (d : Definition C) (hc : w.Has c) :
    (w.withProvider c d).Coherent := by
  have hphase : ∀ c', ((w.withProvider c d).container c').phase = (w.container c').phase :=
    forall_container_withContainer (P := fun c' k => k.phase = (w.container c').phase) rfl
      fun _ _ => rfl
  have hmem : ∀ c' p, w.Holds c' p → (w.withProvider c d).Holds c' p :=
    forall_container_withContainer
      (P := fun c' k => ∀ p, w.Holds c' p → p ∈ k.registry.providers)
      (fun _ hp => List.mem_append_left _ hp) fun _ _ _ hp => hp
  have hknown : ∀ {x}, w.Known x → (w.withProvider c d).Known x := by
    rintro x ⟨c', p, hp, hpx, ho⟩
    exact ⟨c', p, hmem c' p hp, hpx, (hphase c').symm ▸ ho⟩
  have haccount : ∀ {c' p}, w.Account c' p → (w.withProvider c d).Account c' p :=
    fun ha => ha.congr rfl rfl rfl fun h => (hphase _).trans h
  constructor
  · intro c' hc'
    have hcounted : ({ w with providerCount := w.providerCount + 1 } : World C).Has c' :=
      has_of_withContainer hc hc'
    exact hw.container_lt c' hcounted
  · intro c' p hp
    rcases holds_withProvider hp with hp | ⟨_, rfl⟩
    · exact Nat.lt_succ_of_lt (hw.provider_lt c' p hp)
    · exact Nat.lt_succ_self _
  · intro c₁ p c₂ q hp hq hpq
    rcases holds_withProvider hp with hp' | ⟨rfl, rfl⟩ <;>
      rcases holds_withProvider hq with hq' | ⟨rfl, rfl⟩
    · exact hw.unique c₁ p c₂ q hp' hq' hpq
    · exact absurd (hpq ▸ hw.provider_lt c₁ p hp') (Nat.lt_irrefl _)
    · exact absurd (hpq.symm ▸ hw.provider_lt c₂ q hq') (Nat.lt_irrefl _)
    · exact ⟨rfl, rfl⟩
  · refine forall_container_withContainer
      (P := fun _ k => ∀ request p, k.registry.remembered.get? request = some p →
        k.registry.scan request = .ok p) (fun request p h => ?_) fun c' _ => hw.recalled c'
    -- Nothing is remembered any more.
    exact absurd h (by simp [Registry.insert])
  · exact forall_container_withContainer (P := fun _ k => k.Agrees) (hw.agrees c)
      fun c' _ => hw.agrees c'
  · exact fun x hx => hknown (hw.underway_known x hx)
  · exact fun x hx => hknown (hw.history_known x hx)
  · exact hw.kept_history
  · intro c' p hp
    rcases holds_withProvider hp with hp | ⟨rfl, rfl⟩
    · exact haccount (hw.account c' p hp)
    · exact haccount (hw.account_fresh c' d)

/-- Providers of an unconfigured container have no affairs yet, so they can be removed. -/
theorem removeWhere (hw : w.Coherent) {c : ContainerId} (bad : Provider C → Bool) (hc : w.Has c)
    (hphase : (w.container c).phase = .unconfigured) :
    (w.withRegistry c ((w.container c).registry.removeWhere bad)).Coherent := by
  have hmem : ∀ d p, (w.withRegistry c ((w.container c).registry.removeWhere bad)).Holds d p →
      w.Holds d p :=
    forall_container_withContainer
      (P := fun d k => ∀ p, p ∈ k.registry.providers → w.Holds d p)
      (fun _ hp => (List.mem_filter.1 hp).1) fun _ _ _ hp => hp
  -- What is known is held by an open container, so by another one.
  have hknown : ∀ {x}, w.Known x →
      (w.withRegistry c ((w.container c).registry.removeWhere bad)).Known x := by
    rintro x ⟨d, p, hp, hpx, ho⟩
    have hd : d ≠ c := by
      rintro rfl
      exact ho.ne_unconfigured hphase
    have hsame := container_withContainer_of_ne w
      (fun k => { k with registry := (w.container c).registry.removeWhere bad }) hd
    refine ⟨d, p, ?_, hpx, ?_⟩
    · unfold Holds
      rwa [withRegistry, hsame]
    · rwa [withRegistry, hsame]
  constructor
  · exact fun d hd => hw.container_lt d (has_of_withContainer hc hd)
  · exact fun d p hp => hw.provider_lt d p (hmem d p hp)
  · exact fun d p d' q hp hq => hw.unique d p d' q (hmem d p hp) (hmem d' q hq)
  · refine forall_container_withContainer
      (P := fun _ k => ∀ request p, k.registry.remembered.get? request = some p →
        k.registry.scan request = .ok p) (fun request p h => ?_) fun d _ => hw.recalled d
    exact absurd h (by simp [Registry.removeWhere])
  · exact forall_container_withContainer (P := fun _ k => k.Agrees) (hw.agrees c)
      fun d _ => hw.agrees d
  · exact fun x hx => hknown (hw.underway_known x hx)
  · exact fun x hx => hknown (hw.history_known x hx)
  · exact hw.kept_history
  · intro d p hp
    refine (hw.account d p (hmem d p hp)).congr rfl rfl rfl ?_
    exact forall_container_withContainer
      (P := fun d k => (w.container d).phase = .destroyed → k.phase = .destroyed) id
      (fun _ _ => id) d

/-! ## Changes in the affairs of one provider -/

/-- Only the affairs of one provider change, and its account is right afterwards. -/
theorem of_account (hw : w.Coherent) {v : World C} {c : ContainerId} {p : Provider C}
    (hc : v.containers = w.containers) (hcount : v.containerCount = w.containerCount)
    (hprovider : v.providerCount = w.providerCount) (hp : w.Holds c p)
    (hopen : (w.container c).phase.IsOpen)
    (hunderway : ∀ x, x ≠ p.id → v.underway.count x = w.underway.count x)
    (hhistory : ∀ x, x ≠ p.id → v.history x = w.history x)
    (hkept : ∀ x, x ≠ p.id → v.kept.get? x = w.kept.get? x)
    (hpast : v.kept.get? p.id ≠ none → v.history p.id ≠ [])
    (haccount : v.Account c p) : v.Coherent := by
  have hcontainer := container_congr hc
  have hholds : ∀ {d q}, v.Holds d q ↔ w.Holds d q := by
    intro d q
    unfold Holds
    rw [hcontainer]
  have hknown : ∀ {x}, w.Known x → v.Known x := by
    rintro x ⟨d, q, hq, hqx, ho⟩
    exact ⟨d, q, hholds.2 hq, hqx, (hcontainer d).symm ▸ ho⟩
  -- The provider itself is known, and all that is said of the others was said before.
  have hself : v.Known p.id := hknown ⟨c, p, hp, rfl, hopen⟩
  have hmem : ∀ {x}, x ≠ p.id → x ∈ v.underway → x ∈ w.underway := by
    intro x hx hxv
    rw [← List.count_pos_iff] at hxv ⊢
    rwa [← hunderway x hx]
  constructor
  · intro d hd
    rw [hcount]
    refine hw.container_lt d ?_
    unfold Has at hd ⊢
    rwa [← hc]
  · intro d q hq
    rw [hprovider]
    exact hw.provider_lt d q (hholds.1 hq)
  · exact fun d q d' q' hq hq' => hw.unique d q d' q' (hholds.1 hq) (hholds.1 hq')
  · intro d request q
    rw [hcontainer]
    exact hw.recalled d request q
  · intro d
    rw [hcontainer]
    exact hw.agrees d
  · intro x hx
    by_cases hxp : x = p.id
    · exact hxp ▸ hself
    · exact hknown (hw.underway_known x (hmem hxp hx))
  · intro x hx
    by_cases hxp : x = p.id
    · exact hxp ▸ hself
    · exact hknown (hw.history_known x (hhistory x hxp ▸ hx))
  · intro x hx
    by_cases hxp : x = p.id
    · exact hxp ▸ hpast (hxp ▸ hx)
    · rw [hhistory x hxp]
      exact hw.kept_history x (hkept x hxp ▸ hx)
  · intro d q hq
    by_cases hqp : q.id = p.id
    · obtain ⟨rfl, rfl⟩ := hw.unique d q c p (hholds.1 hq) hp hqp
      exact haccount
    · refine (hw.account d q (hholds.1 hq)).congr (hhistory q.id hqp) (hkept q.id hqp)
        (hunderway q.id hqp) fun h => ?_
      rwa [hcontainer]

/-- An open container's provider has one more milestone. -/
theorem milestone (hw : w.Coherent) {c : ContainerId} {p : Provider C} {m : Milestone C}
    (hm : m.provider? = some p.id) (hp : w.Holds c p) (hopen : (w.container c).phase.IsOpen)
    (haccount : (w.enter (.milestone m)).Account c p) : (w.enter (.milestone m)).Coherent := by
  have hself : (w.enter (.milestone m)).history p.id = m :: w.history p.id :=
    historyIn_milestone_self hm w.journal
  refine hw.of_account rfl rfl rfl hp hopen (fun _ _ => rfl) (fun x hx => ?_) (fun _ _ => rfl)
    (fun _ => ?_) haccount
  · exact historyIn_milestone_other hm hx w.journal
  · rw [hself]
    exact List.cons_ne_nil _ _

/-- A making may begin whenever the lookup found the slot empty and nobody is at it. -/
theorem begun (hw : w.Coherent) {c : ContainerId} {p : Provider C} (hb : w.CanBegin c p) :
    (w.begun c p).Coherent := by
  have ha := hw.account c p hb.holds
  have hself : (w.begun c p).history p.id = .started p.id :: w.history p.id :=
    historyIn_milestone_self rfl _
  -- A singleton that made a value would still keep it, for nothing was released yet.
  have hnone : p.definition.scope = .singleton → w.mades p.id = [] := by
    intro hs
    have hreleases := (ha.unreleased (by rw [hb.ready]; decide)).1
    rw [ha.made_eq_keepings hs, ha.balance, hb.not_kept hs, hreleases]
    rfl
  -- The milestone leaves the account right; only what is under construction is different.
  have hstarted : (w.enter (.milestone (.started p.id))).Account c p :=
    ha.milestone rfl rfl (fun _ => rfl) fun _ => rfl
  refine hw.of_account (c := c) (p := p) rfl rfl rfl hb.holds (.inl hb.ready)
    (fun x hx => List.count_cons_of_ne (Ne.symm hx)) (fun x hx => ?_) (fun _ _ => rfl) ?_ ?_
  · exact historyIn_milestone_other rfl hx _
  · intro _
    rw [hself]
    exact List.cons_ne_nil _ _
  · refine ⟨hstarted.balance, hstarted.unreleased, hstarted.prototype, hstarted.made_eq_keepings,
      hstarted.made_once, fun hs => ?_, fun hs _ => ?_⟩
    · have hcount : (p.id :: w.underway).count p.id = 1 := by
        rw [List.count_cons_self, List.count_eq_zero.2 (hb.not_underway hs)]
      exact Nat.le_of_eq hcount
    · exact (World.mades_milestone w rfl p.id).trans (hnone hs)

/-- What is under construction where a provider is the innermost one. -/
theorem underway_of_building {p : Provider C} {rest : List ProviderId}
    (hb : w.building = p.id :: rest) : w.underway = p.id :: (w.ended p).underway := by
  unfold underway World.ended
  rw [hb, List.erase_cons_head]
  rfl

/-- A making that ends takes itself off the stack and leaves every account but its own. -/
theorem ended (hw : w.Coherent) {c : ContainerId} {p : Provider C} {rest : List ProviderId}
    (hp : w.Holds c p) (hopen : (w.container c).phase.IsOpen)
    (hb : w.building = p.id :: rest) : (w.ended p).Coherent := by
  have ha := hw.account c p hp
  -- One occurrence leaves the stack: the account asks for at most one, so none is left.
  have hu := underway_of_building hb
  refine hw.of_account (c := c) (p := p) rfl rfl rfl hp hopen (fun x hx => ?_) (fun _ _ => rfl)
    (fun _ _ => rfl) (hw.kept_history p.id) ?_
  · rw [hu, List.count_cons_of_ne (Ne.symm hx)]
  · refine ⟨ha.balance, ha.unreleased, ha.prototype, ha.made_eq_keepings, ha.made_once,
      fun hs => ?_, fun hs hmem => ?_⟩
    · have h := ha.underway_once hs
      rw [hu, List.count_cons_self] at h
      omega
    · refine ha.not_made hs ?_
      rw [hu]
      exact List.mem_cons_of_mem _ hmem

/-- A prototype's value is noted as made and nothing else remains of it. -/
theorem completed_of_prototype {p : Provider C} {x : Value C}
    (hs : p.definition.scope = .prototype) :
    w.completed p x = (w.enter (.milestone (.made p.id x))).ended p := by
  unfold World.completed World.keeping
  rw [hs]

/-- A singleton's value is noted, written into the slot and only then does the making end. -/
theorem completed_of_singleton {p : Provider C} {x : Value C}
    (hs : p.definition.scope = .singleton) :
    w.completed p x = ((({ w.enter (.milestone (.made p.id x)) with
      kept := w.kept.put p.id x } : World C).enter (.milestone (.kept p.id x)))).ended p := by
  unfold World.completed World.keeping
  rw [hs]
  rfl

/-- The two milestones that a completed singleton adds to its history. -/
theorem history_completed_singleton {p : Provider C} {x : Value C}
    (hs : p.definition.scope = .singleton) :
    (w.completed p x).history p.id = .kept p.id x :: .made p.id x :: w.history p.id := by
  rw [completed_of_singleton hs]
  refine (historyIn_milestone_self rfl _).trans (congrArg _ ?_)
  exact historyIn_milestone_self rfl _

/-- A prototype that has made a value has nothing else to account for. -/
theorem made_prototype (hw : w.Coherent) {c : ContainerId} {p : Provider C} (x : Value C)
    (hp : w.Holds c p) (hopen : (w.container c).phase.IsOpen)
    (hs : p.definition.scope = .prototype) : (w.enter (.milestone (.made p.id x))).Coherent := by
  have ha := hw.account c p hp
  refine hw.milestone rfl hp hopen (ha.milestone rfl rfl (fun h => ?_) fun _ => rfl)
  rw [hs] at h
  cases h

/-- The history of any other provider goes on as it was. -/
theorem history_completed_other {p : Provider C} (x : Value C) {y : ProviderId} (h : y ≠ p.id) :
    (w.completed p x).history y = w.history y := by
  have hmade := historyIn_milestone_other (m := .made p.id x) rfl h w.journal
  rcases hs : p.definition.scope with _ | _
  · rw [completed_of_singleton hs]
    exact (historyIn_milestone_other rfl h _).trans hmade
  · rw [completed_of_prototype hs]
    exact hmade

/-- A provider that has just completed has made its latest value. -/
theorem mades_completed (w : World C) (p : Provider C) (x : Value C) :
    (w.completed p x).mades p.id = x :: w.mades p.id := by
  -- The value is first noted as made; for a singleton the milestone of its slot stands in front of
  -- that.
  have hmade : (w.enter (.milestone (.made p.id x))).history p.id =
      .made p.id x :: w.history p.id := historyIn_milestone_self rfl _
  rcases hs : p.definition.scope
  · rw [completed_of_singleton hs]
    unfold World.mades
    show (historyIn p.id (.milestone (.kept p.id x) :: _)).filterMap _ = _
    rw [historyIn_milestone_self rfl, List.filterMap_cons_none rfl]
    show ((w.enter (.milestone (.made p.id x))).history p.id).filterMap _ = _
    rw [hmade]
    rfl
  · rw [completed_of_prototype hs]
    show ((w.enter (.milestone (.made p.id x))).history p.id).filterMap _ = _
    rw [hmade]
    rfl

/-- The only value of a singleton is kept at once. -/
theorem account_completed (hw : w.Coherent) {c : ContainerId} {p : Provider C} (x : Value C)
    {rest : List ProviderId} (hp : w.Holds c p) (hb : w.building = p.id :: rest)
    (hs : p.definition.scope = .singleton) : (w.completed p x).Account c p := by
  have ha := hw.account c p hp
  have hu := underway_of_building hb
  have hself := history_completed_singleton (w := w) (x := x) hs
  -- While the provider was under construction, nothing was made, kept or taken away.
  have hmade : w.mades p.id = [] := ha.not_made hs (hu ▸ List.mem_cons_self)
  have hkept : w.keepings p.id = [] := (ha.made_eq_keepings hs).symm.trans hmade
  have hreleased : w.releases p.id = [] := by
    have h := ha.balance
    rw [hkept] at h
    exact (List.append_eq_nil_iff.1 h.symm).2
  have hmades : (w.completed p x).mades p.id = [x] := by
    unfold World.mades
    rw [hself]
    exact congrArg _ hmade
  have hkeepings : (w.completed p x).keepings p.id = [x] := by
    show ((w.completed p x).history p.id).filterMap _ = _
    rw [hself]
    exact congrArg _ hkept
  have hreleases : (w.completed p x).releases p.id = [] := by
    unfold World.releases
    rw [hself, List.filterMap_cons_none rfl, List.filterMap_cons_none rfl]
    exact hreleased
  have hdisposals : (w.completed p x).disposals p.id = w.disposals p.id := by
    show ((w.completed p x).history p.id).filterMap _ = _
    rw [hself, List.filterMap_cons_none rfl, List.filterMap_cons_none rfl]
    rfl
  -- It was under construction once, and now it is not.
  have hcount : (w.completed p x).underway.count p.id = 0 := by
    have h := ha.underway_once hs
    rw [hu, List.count_cons_self] at h
    rw [completed_of_singleton hs]
    show (w.ended p).underway.count p.id = 0
    omega
  constructor
  · rw [hkeepings, hreleases, completed_of_singleton hs]
    show [x] = ((w.kept.put p.id x).get? p.id).toList ++ []
    rw [Table.get?_put_self]
    rfl
  · intro hphase
    rw [completed_of_singleton hs] at hphase
    rw [hreleases, hdisposals]
    exact ⟨rfl, (ha.unreleased hphase).2⟩
  · intro h
    rw [hs] at h
    cases h
  · exact fun _ => hmades.trans hkeepings.symm
  · intro _
    rw [hmades]
    exact Nat.le_refl 1
  · intro _
    rw [hcount]
    exact Nat.zero_le 1
  · exact fun _ h => absurd h (List.count_eq_zero.1 hcount)

/-- A completed making of a singleton keeps the invariant: the slot was empty as long as it was
under way. -/
theorem completed_singleton (hw : w.Coherent) {c : ContainerId} {p : Provider C} (x : Value C)
    {rest : List ProviderId} (hp : w.Holds c p) (hopen : (w.container c).phase.IsOpen)
    (hb : w.building = p.id :: rest) (hs : p.definition.scope = .singleton) :
    (w.completed p x).Coherent := by
  have hu := underway_of_building hb
  have hself := history_completed_singleton (w := w) (x := x) hs
  have hother := fun y hy => history_completed_other (w := w) (p := p) x (y := y) hy
  have haccount := hw.account_completed x hp hb hs
  -- Only this provider's slot and history change, and its account was settled before.
  rw [completed_of_singleton hs] at hself hother haccount ⊢
  refine hw.of_account rfl rfl rfl hp hopen (fun y hy => ?_) hother
    (fun y hy => Table.get?_put_of_ne _ _ hy) (fun _ => ?_) haccount
  · rw [hu, List.count_cons_of_ne (Ne.symm hy)]
    rfl
  · rw [hself]
    exact List.cons_ne_nil _ _

/-- A completed making keeps the invariant, whatever the scope. -/
theorem completed (hw : w.Coherent) {c : ContainerId} {p : Provider C} (x : Value C)
    {rest : List ProviderId} (hp : w.Holds c p) (hopen : (w.container c).phase.IsOpen)
    (hb : w.building = p.id :: rest) : (w.completed p x).Coherent := by
  rcases hs : p.definition.scope with _ | _
  · exact hw.completed_singleton x hp hopen hb hs
  · rw [completed_of_prototype hs]
    exact (hw.made_prototype x hp hopen hs).ended hp hopen hb

/-- Emptying a slot keeps the invariant once the container is destroyed, since no new value may come
in behind the sweep. -/
theorem releasing (hw : w.Coherent) {c : ContainerId} {p : Provider C} {x : Value C}
    (hp : w.Holds c p) (hphase : (w.container c).phase = .destroyed)
    (hx : w.kept.get? p.id = some x) : (w.releasing p x).Coherent := by
  have ha := hw.account c p hp
  -- Emptying the slot moves one value from the kept ones to the released ones.
  have hkeepings : (w.releasing p x).keepings p.id = w.keepings p.id :=
    keepingsIn_milestone rfl p.id w.journal
  have hmades : (w.releasing p x).mades p.id = w.mades p.id := w.mades_milestone rfl p.id
  have hreleases : (w.releasing p x).releases p.id = x :: w.releases p.id := by
    show (historyIn p.id (.milestone (.released p.id x) :: w.journal)).filterMap _ = _
    rw [historyIn_milestone_self rfl]
    rfl
  have hkept : (w.releasing p x).kept.get? p.id = none := Table.get?_erase_self _ _
  refine hw.of_account (c := c) (p := p) rfl rfl rfl hp (.inr hphase) (fun _ _ => rfl)
    (fun y hy => ?_) (fun y hy => Table.get?_erase_of_ne _ hy) (fun h => absurd hkept h) ?_
  · exact historyIn_milestone_other rfl hy _
  · constructor
    -- The balance: what was kept is what is in the slot and what was released.
    · have h := ha.balance
      rw [hx] at h
      rw [hkeepings, hkept, hreleases, h]
      rfl
    · exact fun h => absurd hphase h
    · rw [hkeepings]
      exact ha.prototype
    · rw [hmades, hkeepings]
      exact ha.made_eq_keepings
    · rw [hmades]
      exact ha.made_once
    · exact ha.underway_once
    · rw [hmades]
      exact ha.not_made

/-- The milestone of a teardown stands behind the one of the emptied slot. -/
theorem disposed (hw : w.Coherent) {c : ContainerId} {p : Provider C} (x : Value C)
    (o : Attempted Unit) (hp : w.Holds c p) (hphase : (w.container c).phase = .destroyed) :
    (w.disposed c p x o).Coherent := by
  have haccount : (w.enter (.milestone (.disposed p.id x))).Account c p :=
    (hw.account c p hp).milestone rfl rfl (fun _ => rfl) fun h => absurd hphase h
  have hmark := hw.milestone rfl hp (.inr hphase) haccount
  rcases o with e | _
  · exact hmark.event c _
  · exact hmark

/-! ## Brackets -/

/-- Validation starts once: the phase leaves `unconfigured` for good. -/
theorem validating (hw : w.Coherent) {c : ContainerId} (n : Nat) (hc : w.Has c)
    (hphase : (w.container c).phase = .unconfigured) : (w.validating c n).Coherent := by
  refine (hw.withContainer hc ?_ ?_ ?_ ?_ ?_).event c _
  all_goals rw [if_pos hphase]
  · exact fun h => absurd hphase h.ne_unconfigured
  · intro h
    exact absurd (hphase.symm.trans h) (by decide)
  · exact hw.recalled c
  · have h := hw.agrees c
    unfold Container.Agrees at h ⊢
    rw [hphase] at h
    exact h

/-- A validation ends in its own phase or in that of a teardown, and settles its result. -/
theorem advanced_settled (hw : w.Coherent) {c : ContainerId} (new : Phase) (r : Attempted Unit)
    (hc : w.Has c)
    (hphase : (w.container c).phase = .validating ∨ (w.container c).phase = .destroyed)
    (hnew : Container.Agrees { w.container c with phase := new, validation := some r }) :
    ((w.advanced c .validating new).settled c r).Coherent := by
  unfold advanced settled
  -- Phase and report are two changes of one container.
  rw [withContainer_withContainer]
  refine hw.withContainer hc ?_ ?_ ?_ ?_ ?_
  · split <;> rfl
  -- If the container was destroyed during validation, its phase does not move and only the report
  -- is settled.
  · rcases hphase with h | h
    · intro ho
      rcases ho with ho | ho <;> exact absurd (h.symm.trans ho) (by decide)
    · intro ho
      rw [if_neg (by rw [h]; decide)]
      exact ho
  · intro h
    rw [if_neg (by rw [h]; decide)]
    exact h
  · intro request p
    have h := hw.recalled c request p
    split <;> exact h
  · rcases hphase with h | h
    · rw [if_pos h]
      exact hnew
    · rw [if_neg (by rw [h]; decide)]
      unfold Container.Agrees
      rw [h]
      exact True.intro

/-- A validation that accepts opens the container, unless it was destroyed in between. -/
theorem accepted (hw : w.Coherent) {c : ContainerId} (m : Nat) (hc : w.Has c)
    (hphase : (w.container c).phase = .validating ∨ (w.container c).phase = .destroyed) :
    (w.accepted c m).Coherent :=
  (hw.advanced_settled .ready (.ok ()) hc hphase rfl).event c (.ready m)

/-- A validation that rejects leaves its failure for every later caller. -/
theorem rejected (hw : w.Coherent) {c : ContainerId} (type : TypeKey) (e : Failure)
    (hc : w.Has c)
    (hphase : (w.container c).phase = .validating ∨ (w.container c).phase = .destroyed) :
    (w.rejected c type e).Coherent :=
  (hw.advanced_settled .failed (.error e) hc hphase ⟨e, rfl⟩).event c (.rejected type e)

/-- What a lookup remembers is what a scan finds, as long as every new entry is. -/
theorem remember (hw : w.Coherent) {c : ContainerId} {r : Registry C} (hc : w.Has c)
    (hp : r.providers = (w.container c).registry.providers)
    (hr : ∀ request p, r.remembered.get? request = some p →
      (w.container c).registry.remembered.get? request = some p ∨ r.scan request = .ok p) :
    (w.withRegistry c r).Coherent := by
  refine hw.withContainer hc hp id id (fun request p h => ?_) (hw.agrees c)
  -- Either it was remembered before, or it was just found.
  rcases hr request p h with h | h
  · have hscan := hw.recalled c request p h
    unfold Registry.scan at hscan ⊢
    rwa [hp]
  · exact h

/-- A container may be destroyed in every phase. -/
theorem withPhase_destroyed (hw : w.Coherent) {c : ContainerId} (hc : w.Has c) :
    (w.withPhase c .destroyed).Coherent :=
  hw.withContainer hc rfl (fun _ => .inr rfl) (fun _ => rfl) (hw.recalled c) True.intro

/-- The closing event changes no provider's account. -/
theorem closed (hw : w.Coherent) {c : ContainerId} (n : Nat) (previous : Phase) (hc : w.Has c) :
    (w.closed c n previous).Coherent := by
  refine (hw.remember (r := (w.container c).registry.forget) hc rfl fun _ _ h => ?_).event c _
  exact absurd h (by simp [Registry.forget])

/-- A coherent world stays so for a thread that starts with an empty stack. -/
theorem departed (hw : w.Coherent) : w.departed.Coherent :=
  hw.of_containers_eq rfl rfl rfl rfl (fun _ => rfl) rfl

/-- When the other thread's stack is the one it left, taking it up again keeps the invariant. -/
theorem rejoined (hw : w.Coherent) {u : World C} (hu : u.underway = w.underway) :
    (u.rejoined w).Coherent :=
  hw.of_containers_eq rfl rfl rfl hu (fun _ => rfl) rfl

end Coherent

end World

open World

/-- A quiet step keeps the invariant. -/
theorem Quiet.coherent {w v : World C} (h : Quiet w v) (hw : w.Coherent) : v.Coherent := by
  cases h with
  | note | invoked | remark | unmatched | reused => exact hw.enter fun _ => rfl
  | client s => exact hw.of_containers_eq rfl rfl rfl rfl (fun _ => rfl) rfl
  | create => exact hw.created
  | register c d size hc h => exact (hw.event c _).withProvider d hc
  | unregister c type qualifiers removed hc h => exact (hw.removeWhere _ hc h).event c _
  | remember c r hc hp hr => exact hw.remember hc hp hr

/-- A container that was not validated has no result. -/
theorem World.Coherent.validation_eq_none {w : World C} {c : ContainerId} (hw : w.Coherent)
    (hphase : (w.container c).phase = .unconfigured) : (w.container c).validation = none := by
  have hagrees := hw.agrees c
  unfold Container.Agrees at hagrees
  rwa [hphase] at hagrees

/-- What a container is like during its validation. -/
theorem World.Frame.validating_end {w v : World C} {c : ContainerId} {n : Nat}
    (hphase : (w.container c).phase = .unconfigured) (h : (w.validating c n).Frame v) :
    (v.container c).phase = .validating ∨ (v.container c).phase = .destroyed := by
  have hb := (h.container c).phase
  rw [phase_validating hphase] at hb
  rcases hb with hb | hb | hb
  · exact absurd hb (by decide)
  · exact .inl hb
  · exact .inr hb

/-- A provider that may begin is still held, by an open container, whatever happens then. -/
theorem World.CanBegin.later {w v : World C} {c : ContainerId} {p : Provider C}
    (hb : w.CanBegin c p) (h : (w.begun c p).Frame v) :
    v.Holds c p ∧ (v.container c).phase.IsOpen := by
  have hready : ((w.begun c p).container c).phase = .ready := hb.ready
  have hholds : (w.begun c p).Holds c p := hb.holds
  refine ⟨hholds.later (by rw [hready]; decide) h, ?_⟩
  have hp := (h.container c).phase
  rw [hready] at hp
  rcases hp with hp | hp | hp
  · exact absurd hp (by decide)
  · exact .inl hp
  · exact .inr hp

/-- Every course from a coherent world leads to a coherent one. -/
theorem Course.coherent {a : Activity C} {b : Bool} {w v : World C} (h : Course D a b w v)
    (hw : w.Coherent) : v.Coherent := by
  induction h with
  | refl | sweepNil => exact hw
  | trans _ _ ihu ihv => exact ihv (ihu hw)
  | quiet h => exact h.coherent hw
  | abandon c p hb hin ih =>
    -- What began inside has ended, so the provider is the innermost one again.
    obtain ⟨hp, ho⟩ := hb.later hin.frame
    exact (ih (hw.begun hb)).ended hp ho (hin.level rfl).building
  | complete c p x hb hin _ ih =>
    obtain ⟨hp, ho⟩ := hb.later hin.frame
    exact (ih (hw.begun hb)).completed x hp ho (hin.level rfl).building
  | constructing c p hb _ ih => exact ih (hw.begun hb)
  | apart hin ih => exact (ih hw.departed).rejoined (hin.level rfl).underway.symm
  | departing _ ih => exact ih hw.departed
  | accept c n m hc hphase hin _ ih =>
    have hframe := (Frame.validating _ c n hphase).trans hin.frame
    exact (ih (hw.validating n hc hphase)).accepted m (hframe.has c hc)
      (hin.frame.validating_end hphase)
  | reject c n type f hc hphase hin ih =>
    have hframe := (Frame.validating _ c n hphase).trans hin.frame
    exact (ih (hw.validating n hc hphase)).rejected type (.definition f) (hframe.has c hc)
      (hin.frame.validating_end hphase)
  | validating c n hc hphase _ ih => exact ih (hw.validating n hc hphase)
  | teardown c r hc _ hin ih =>
    have hframe := (Frame.withPhase_destroyed _ c).trans hin.frame
    exact (ih (hw.withPhase_destroyed hc)).closed _ _ (hframe.has c hc)
  | tearing c r hc _ _ ih => exact ih (hw.withPhase_destroyed hc)
  | sweepPass c p _ _ ih => exact ih hw
  | sweepVisit c p x o hp hphase hx hin _ ihu ihv =>
    -- The container stays torn down while the disposing code runs.
    obtain ⟨hphaseu, hholdsu⟩ := Frame.of_releasing hphase hin.frame
    exact ihv ((ihu (hw.releasing hp hphase hx)).disposed x o (hholdsu p hp) hphaseu)
  | sweeping c p x hp hphase hx _ ih => exact ih (hw.releasing hp hphase hx)

end Wiring
