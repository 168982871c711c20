import Wiring.Proofs.Course
import Wiring.Proofs.Lookup

/-!
# What no course changes

A container only ever moves on in its life, and once it has left its first phase its providers
and the result of its validation stay as they are, whatever happens within it. The journal only
grows. A finished course leaves under construction what was so before.
-/

namespace Wiring

variable {C : Client} {D : Outline}

/-- A container may be in the second phase when something that began in the first one ends. -/
def Phase.Before (a b : Phase) : Prop := a = .unconfigured ∨ b = a ∨ b = .destroyed

namespace Phase.Before

theorem refl (a : Phase) : a.Before a := .inr (.inl rfl)

theorem trans {a b c : Phase} (hab : a.Before b) (hbc : b.Before c) : a.Before c := by
  -- The second case is that nothing moved, the last one that the container was torn down.
  rcases hab with h | rfl | rfl
  · exact .inl h
  · exact hbc
  · rcases hbc with h | h | h
    · exact absurd h (by decide)
    · exact .inr (.inr h)
    · exact .inr (.inr h)

/-- From `destroyed` there is no way on. -/
theorem destroyed {b : Phase} (h : Phase.destroyed.Before b) : b = .destroyed := by
  rcases h with h | h | h
  · exact absurd h (by decide)
  · exact h
  · exact h

/-- A container that has been configured stays configured. -/
theorem ne_unconfigured {a b : Phase} (h : a.Before b) (ha : a ≠ .unconfigured) :
    b ≠ .unconfigured := by
  rcases h with h | rfl | rfl
  · exact absurd h ha
  · exact ha
  · decide

end Phase.Before

/-- What stays of a container. -/
structure Container.Keeps (k k' : Container C) : Prop where
  phase : k.phase.Before k'.phase
  providers : k.phase ≠ .unconfigured → k'.registry.providers = k.registry.providers
  validation : k.phase ≠ .unconfigured → k'.validation = k.validation

namespace Container.Keeps

theorem refl (k : Container C) : k.Keeps k := ⟨.refl _, fun _ => rfl, fun _ => rfl⟩

theorem trans {k l m : Container C} (hkl : k.Keeps l) (hlm : l.Keeps m) : k.Keeps m := by
  refine ⟨hkl.phase.trans hlm.phase, fun hk => ?_, fun hk => ?_⟩
  · rw [hlm.providers (hkl.phase.ne_unconfigured hk), hkl.providers hk]
  · rw [hlm.validation (hkl.phase.ne_unconfigured hk), hkl.validation hk]

/-- An unconfigured container has promised nothing yet. -/
theorem of_unconfigured {k k' : Container C} (h : k.phase = .unconfigured) : k.Keeps k' :=
  ⟨.inl h, fun hk => absurd h hk, fun hk => absurd h hk⟩

end Container.Keeps

namespace World

/-- What stays of a world. -/
structure Frame (w v : World C) : Prop where
  has : ∀ c, w.Has c → v.Has c
  container : ∀ c, (w.container c).Keeps (v.container c)
  journal : w.journal <:+ v.journal

/-- The same providers are under construction on the same threads. -/
structure Level (w v : World C) : Prop where
  building : v.building = w.building
  waiting : v.waiting = w.waiting

namespace Level

theorem refl (w : World C) : w.Level w := ⟨rfl, rfl⟩

theorem trans {w u v : World C} (hwu : w.Level u) (huv : u.Level v) : w.Level v :=
  ⟨huv.building.trans hwu.building, huv.waiting.trans hwu.waiting⟩

/-- Worlds on one level have the same makings under way. -/
theorem underway {w v : World C} (h : w.Level v) : v.underway = w.underway := by
  unfold World.underway
  rw [h.building, h.waiting]

theorem keeping (w : World C) (p : Provider C) (v : Value C) : w.Level (w.keeping p v) := by
  unfold World.keeping
  split
  · exact refl w
  · exact ⟨rfl, rfl⟩

/-- A construction that succeeds ends like one that fails. -/
theorem completed (w : World C) (p : Provider C) (x : Value C) :
    (w.ended p).Level (w.completed p x) := by
  have hkeeping := keeping (w.enter (.milestone (.made p.id x))) p x
  exact ⟨congrArg (·.erase p.id) hkeeping.building, hkeeping.waiting⟩

theorem disposed (w : World C) (c : ContainerId) (p : Provider C) (x : Value C)
    (o : Attempted Unit) : w.Level (w.disposed c p x o) := by
  rcases o with e | _
  · exact ⟨rfl, rfl⟩
  · exact ⟨rfl, rfl⟩

/-- A construction that ends restores what was under construction before it began. -/
theorem ended {w v : World C} {c : ContainerId} {p : Provider C} (h : (w.begun c p).Level v) :
    w.Level (v.ended p) := by
  refine ⟨?_, h.waiting⟩
  show v.building.erase p.id = w.building
  rw [h.building]
  exact List.erase_cons_head ..

end Level

/-! ## The small changes and containers -/

@[simp] theorem container_enter (w : World C) (e : Entry C) (c : ContainerId) :
    (w.enter e).container c = w.container c := rfl

theorem withContainer_withContainer (w : World C) (c : ContainerId)
    (f g : Container C → Container C) :
    (w.withContainer c f).withContainer c g = w.withContainer c fun k => g (f k) := by
  unfold withContainer
  congr 1
  rw [Table.put_put]
  congr 2
  exact container_withContainer_self w c f

theorem container_congr {w v : World C} (h : v.containers = w.containers) (c : ContainerId) :
    v.container c = w.container c := by
  unfold container
  rw [h]

/-- A container that was never made reads like a new one. -/
theorem container_created {w : World C} (h : w.containers.get? ⟨w.containerCount⟩ = none)
    (c : ContainerId) : w.created.container c = w.container c := by
  unfold container
  by_cases hc : c = ⟨w.containerCount⟩
  · subst hc
    simp [created, enter, h]
  · simp [created, enter, hc]

theorem containers_completed (w : World C) (p : Provider C) (x : Value C) :
    (w.completed p x).containers = w.containers := by
  unfold completed keeping
  split <;> rfl

/-- What holds of every container where one was changed. -/
theorem forall_container_withContainer {w : World C} {c : ContainerId}
    {f : Container C → Container C} {P : ContainerId → Container C → Prop}
    (hself : P c (f (w.container c))) (hne : ∀ d, d ≠ c → P d (w.container d))
    (d : ContainerId) : P d ((w.withContainer c f).container d) := by
  by_cases hd : d = c
  · subst hd
    rw [container_withContainer_self]
    exact hself
  · rw [container_withContainer_of_ne _ _ hd]
    exact hne d hd

/-- A change of one container that keeps its providers keeps those of all. -/
theorem providers_withContainer (w : World C) {c : ContainerId} {f : Container C → Container C}
    (hf : (f (w.container c)).registry.providers = (w.container c).registry.providers)
    (d : ContainerId) :
    ((w.withContainer c f).container d).registry.providers =
      (w.container d).registry.providers :=
  forall_container_withContainer
    (P := fun d k => k.registry.providers = (w.container d).registry.providers) hf
    (fun _ _ => rfl) d

theorem providers_advanced (w : World C) (c : ContainerId) (old new : Phase) (d : ContainerId) :
    ((w.advanced c old new).container d).registry.providers =
      (w.container d).registry.providers := by
  refine w.providers_withContainer ?_ d
  split <;> rfl

theorem providers_settled (w : World C) (c : ContainerId) (r : Attempted Unit) (d : ContainerId) :
    ((w.settled c r).container d).registry.providers = (w.container d).registry.providers :=
  w.providers_withContainer rfl d

theorem providers_accepted (w : World C) (c : ContainerId) (n : Nat) (d : ContainerId) :
    ((w.accepted c n).container d).registry.providers = (w.container d).registry.providers :=
  (providers_settled _ c _ d).trans (providers_advanced w c _ _ d)

theorem providers_rejected (w : World C) (c : ContainerId) (type : TypeKey) (e : Failure)
    (d : ContainerId) :
    ((w.rejected c type e).container d).registry.providers =
      (w.container d).registry.providers :=
  (providers_settled _ c _ d).trans (providers_advanced _ c _ _ d)

theorem providers_withPhase (w : World C) (c : ContainerId) (new : Phase) (d : ContainerId) :
    ((w.withPhase c new).container d).registry.providers = (w.container d).registry.providers :=
  w.providers_withContainer rfl d

theorem providers_closed (w : World C) (c : ContainerId) (n : Nat) (previous : Phase)
    (d : ContainerId) :
    ((w.closed c n previous).container d).registry.providers =
      (w.container d).registry.providers :=
  w.providers_withContainer
    (f := fun k => { k with registry := (w.container c).registry.forget }) rfl d

theorem phase_withPhase (w : World C) (c : ContainerId) (new : Phase) :
    ((w.withPhase c new).container c).phase = new := by
  unfold withPhase
  rw [container_withContainer_self]

/-- A container that is being validated has changed in nothing but its phase. -/
theorem container_validating {w : World C} {c : ContainerId}
    (h : (w.container c).phase = .unconfigured) (n : Nat) :
    (w.validating c n).container c = { w.container c with phase := .validating } := by
  unfold validating advanced
  rw [container_enter, container_withContainer_self, if_pos h]

theorem phase_validating {w : World C} {c : ContainerId}
    (h : (w.container c).phase = .unconfigured) (n : Nat) :
    ((w.validating c n).container c).phase = .validating := by
  rw [container_validating h]

/-- Changing a container neither adds nor removes one. -/
theorem has_withContainer {w : World C} {c d : ContainerId} (f : Container C → Container C)
    (h : w.Has d) : (w.withContainer c f).Has d := by
  by_cases hd : d = c
  · exact ⟨f (w.container c), by simp [withContainer, hd]⟩
  · obtain ⟨k, hk⟩ := h
    exact ⟨k, by simp [withContainer, hd, hk]⟩

/-- A change to a container that is there makes no other one. -/
theorem has_of_withContainer {w : World C} {c d : ContainerId} {f : Container C → Container C}
    (hc : w.Has c) (h : (w.withContainer c f).Has d) : w.Has d := by
  by_cases hd : d = c
  · exact hd ▸ hc
  · obtain ⟨k, hk⟩ := h
    refine ⟨k, ?_⟩
    rwa [withContainer, Table.get?_put_of_ne _ _ hd] at hk

namespace Frame

theorem refl (w : World C) : w.Frame w := ⟨fun _ h => h, fun _ => .refl _, List.suffix_refl _⟩

theorem trans {w u v : World C} (hwu : w.Frame u) (huv : u.Frame v) : w.Frame v :=
  ⟨fun c h => huv.has c (hwu.has c h), fun c => (hwu.container c).trans (huv.container c),
    hwu.journal.trans huv.journal⟩

theorem enter (w : World C) (e : Entry C) : w.Frame (w.enter e) :=
  ⟨fun _ h => h, fun _ => .refl _, List.suffix_cons e w.journal⟩

/-- Only the containers and the journal matter. -/
theorem of_eq {w v : World C} (hc : v.containers = w.containers) (hj : v.journal = w.journal) :
    w.Frame v := by
  refine ⟨fun c h => ?_, fun c => ?_, ?_⟩
  · unfold Has at h ⊢
    rwa [hc]
  · rw [container_congr hc]
    exact .refl _
  · exact hj ▸ List.suffix_refl w.journal

/-- A change that keeps a container's promises keeps the frame of the world. -/
theorem withContainer (w : World C) (c : ContainerId) {f : Container C → Container C}
    (h : (w.container c).Keeps (f (w.container c))) : w.Frame (w.withContainer c f) := by
  refine ⟨fun d hd => has_withContainer f hd, ?_, List.suffix_refl _⟩
  exact forall_container_withContainer (P := fun d k => (w.container d).Keeps k) h
    fun d _ => .refl (w.container d)

/-- A container that is torn down or was stays so. -/
theorem destroyed {w v : World C} (h : w.Frame v) {c : ContainerId}
    (hphase : (w.container c).phase = .destroyed) : (v.container c).phase = .destroyed := by
  have hbefore := (h.container c).phase
  rw [hphase] at hbefore
  exact hbefore.destroyed

/-- A bracket of an unconfigured container keeps all of the others. -/
theorem of_unconfigured {w u v : World C} {c : ContainerId}
    (hphase : (w.container c).phase = .unconfigured) (hwu : w.Frame u)
    (hhas : ∀ d, u.Has d → v.Has d) (hne : ∀ d, d ≠ c → v.container d = u.container d)
    (hj : u.journal <:+ v.journal) : w.Frame v := by
  refine ⟨fun d h => hhas d (hwu.has d h), fun d => ?_, hwu.journal.trans hj⟩
  by_cases hd : d = c
  · subst hd
    exact .of_unconfigured hphase
  · rw [hne d hd]
    exact hwu.container d

theorem validating (w : World C) (c : ContainerId) (n : Nat)
    (h : (w.container c).phase = .unconfigured) : w.Frame (w.validating c n) :=
  (withContainer w c (.of_unconfigured h)).trans (enter _ _)

theorem keeping (w : World C) (p : Provider C) (v : Value C) : w.Frame (w.keeping p v) := by
  unfold World.keeping
  split
  · exact refl w
  · exact (of_eq (w := w) (v := { w with kept := w.kept.put p.id v }) rfl rfl).trans (enter _ _)

theorem completed (w : World C) (p : Provider C) (v : Value C) : w.Frame (w.completed p v) :=
  ((enter w (.milestone (.made p.id v))).trans (keeping _ p v)).trans (of_eq rfl rfl)

theorem begun (w : World C) (c : ContainerId) (p : Provider C) : w.Frame (w.begun c p) :=
  ((of_eq (w := w) (v := { w with building := p.id :: w.building }) rfl rfl).trans
    (enter _ _)).trans (enter _ _)

theorem departed (w : World C) : w.Frame w.departed := of_eq rfl rfl

theorem rejoined (w v : World C) : v.Frame (w.rejoined v) := of_eq rfl rfl

theorem ended (w : World C) (p : Provider C) : w.Frame (w.ended p) := of_eq rfl rfl

/-- A new container is outside the frame of all that was there before. -/
theorem created (w : World C) (h : w.containers.get? ⟨w.containerCount⟩ = none) :
    w.Frame w.created := by
  refine ⟨fun c hc => ?_, fun c => ?_, List.suffix_cons _ _⟩
  · by_cases hc' : c = ⟨w.containerCount⟩
    · exact ⟨{}, by simp [World.created, World.enter, hc']⟩
    · obtain ⟨k, hk⟩ := hc
      exact ⟨k, by simp [World.created, World.enter, hc', hk]⟩
  · rw [container_created h]
    exact .refl _

/-- Providers may be added as long as the container is not configured. -/
theorem withProvider (w : World C) (c : ContainerId) (d : Definition C)
    (h : (w.container c).phase = .unconfigured) : w.Frame (w.withProvider c d) :=
  (of_eq (w := w) (v := { w with providerCount := w.providerCount + 1 }) rfl rfl).trans
    (withContainer _ c (.of_unconfigured h))

theorem releasing (w : World C) (p : Provider C) (v : Value C) : w.Frame (w.releasing p v) :=
  (of_eq (w := w) (v := { w with kept := w.kept.erase p.id }) rfl rfl).trans (enter _ _)

theorem disposed (w : World C) (c : ContainerId) (p : Provider C) (x : Value C)
    (o : Attempted Unit) : w.Frame (w.disposed c p x o) := by
  rcases o with e | _
  · exact (enter _ _).trans (enter _ _)
  · exact enter _ _

theorem closed (w : World C) (c : ContainerId) (n : Nat) (previous : Phase) :
    w.Frame (w.closed c n previous) := by
  refine (withContainer w c ?_).trans (enter _ _)
  exact ⟨.refl _, fun _ => rfl, fun _ => rfl⟩

theorem withPhase_destroyed (w : World C) (c : ContainerId) :
    w.Frame (w.withPhase c .destroyed) :=
  withContainer w c ⟨.inr (.inr rfl), fun _ => rfl, fun _ => rfl⟩

end Frame

end World

open World

/-- A quiet step keeps the frame. -/
theorem Quiet.frame {w v : World C} (h : Quiet w v) : w.Frame v := by
  cases h with
  | note | invoked | remark | unmatched | reused => exact .enter _ _
  | client => exact .of_eq rfl rfl
  | create h => exact .created w h
  | register c d size hc h => exact (Frame.enter w _).trans (.withProvider _ c d h)
  | unregister c type qualifiers removed hc h =>
    exact (Frame.withContainer w c (.of_unconfigured h)).trans (.enter _ _)
  | remember c r hc hp hr =>
    exact .withContainer w c ⟨.refl _, fun _ => hp, fun _ => rfl⟩

/-- A quiet change changes of a container at most what it holds. -/
theorem Quiet.container {w v : World C} (h : Quiet w v) (c : ContainerId) :
    ∃ r, v.container c = { w.container c with registry := r } := by
  have hregistry : ∀ (u : World C) (d : ContainerId) (r : Registry C),
      ∃ r', (u.withRegistry d r).container c = { u.container c with registry := r' } := by
    intro u d r
    exact forall_container_withContainer
      (P := fun e k => ∃ r', k = { u.container e with registry := r' }) ⟨r, rfl⟩
      (fun e _ => ⟨(u.container e).registry, rfl⟩) c
  cases h with
  | note | invoked | remark | unmatched | reused | client => exact ⟨_, rfl⟩
  | create h => exact ⟨_, container_created h c⟩
  | register d _ _ _ _ => exact hregistry { w.enter _ with providerCount := _ } d _
  | unregister d type qualifiers _ _ _ => exact hregistry w d _
  | remember d r _ _ _ => exact hregistry w d r

/-- A quiet change moves no container. -/
theorem Quiet.phase {w v : World C} (h : Quiet w v) (c : ContainerId) :
    (v.container c).phase = (w.container c).phase := by
  obtain ⟨r, hr⟩ := h.container c
  rw [hr]

/-- A quiet step settles no validation. -/
theorem Quiet.validation {w v : World C} (h : Quiet w v) (c : ContainerId) :
    (v.container c).validation = (w.container c).validation := by
  obtain ⟨r, hr⟩ := h.container c
  rw [hr]

/-- A quiet step keeps all slots. -/
theorem Quiet.kept {w v : World C} (h : Quiet w v) : v.kept = w.kept := by
  cases h <;> rfl

theorem Quiet.level {w v : World C} (h : Quiet w v) : w.Level v := by
  cases h <;> exact ⟨rfl, rfl⟩

/-- What stays of a world on every course. -/
theorem Course.frame {a : Activity C} {b : Bool} {w v : World C} (h : Course D a b w v) :
    w.Frame v := by
  induction h with
  | refl | sweepNil => exact .refl _
  | trans _ _ ihu ihv => exact ihu.trans ihv
  | quiet h => exact h.frame
  | abandon c p _ _ ih => exact ((Frame.begun _ c p).trans ih).trans (.ended _ p)
  | complete c p x _ _ _ ih => exact ((Frame.begun _ c p).trans ih).trans (.completed _ p x)
  | constructing c p _ _ ih => exact (Frame.begun _ c p).trans ih
  | apart _ ih => exact ((Frame.departed _).trans ih).trans (.rejoined _ _)
  | departing _ ih => exact (Frame.departed _).trans ih
  | accept c n m hc hphase _ _ ih =>
    refine .of_unconfigured hphase ((Frame.validating _ c n hphase).trans ih)
      (fun d hd => has_withContainer _ (has_withContainer _ hd)) (fun d hd => ?_)
      (List.suffix_cons _ _)
    -- The other containers are as the check has left them.
    rw [accepted, settled, container_withContainer_of_ne _ _ hd, container_enter, advanced,
      container_withContainer_of_ne _ _ hd]
  | reject c n type f hc hphase _ ih =>
    refine .of_unconfigured hphase ((Frame.validating _ c n hphase).trans ih)
      (fun d hd => has_withContainer _ (has_withContainer _ hd)) (fun d hd => ?_)
      (List.suffix_cons _ _)
    rw [rejected, settled, container_withContainer_of_ne _ _ hd, advanced,
      container_withContainer_of_ne _ _ hd, container_enter]
  | validating c n hc hphase _ ih => exact (Frame.validating _ c n hphase).trans ih
  | teardown c r hc hphase _ ih =>
    exact ((Frame.withPhase_destroyed _ c).trans ih).trans (.closed _ c _ _)
  | tearing c r hc hphase _ ih => exact (Frame.withPhase_destroyed _ c).trans ih
  | sweepPass c p _ _ ih => exact ih
  | sweepVisit c p x o _ _ _ _ _ ihu ihv =>
    exact (((Frame.releasing _ p x).trans ihu).trans (.disposed _ c p x o)).trans ihv
  | sweeping c p x _ _ _ _ ih => exact (Frame.releasing _ p x).trans ih

/-- A finished course leaves under construction what was so before. -/
theorem Course.level {a : Activity C} {b : Bool} {w v : World C} (h : Course D a b w v)
    (hb : b = true) : w.Level v := by
  induction h with
  | refl | sweepNil => exact .refl _
  | trans _ _ ihu ihv => exact (ihu rfl).trans (ihv hb)
  | quiet h => exact h.level
  | abandon c p _ _ ih => exact .ended (ih rfl)
  | @complete w v c p x _ _ _ ih =>
    -- To keep the value changes nothing about what is under construction.
    exact (Level.ended (ih rfl)).trans (.completed _ p x)
  | apart => exact ⟨rfl, rfl⟩
  | accept c n m _ _ _ _ ih => exact ⟨(ih rfl).building, (ih rfl).waiting⟩
  | reject c n type f _ _ _ ih => exact ⟨(ih rfl).building, (ih rfl).waiting⟩
  | teardown c r _ _ _ ih => exact ⟨(ih rfl).building, (ih rfl).waiting⟩
  -- These are the courses that were cut short.
  | constructing | departing | validating | tearing | sweeping => cases hb
  | sweepPass c p _ _ ih => exact ih hb
  | sweepVisit c p x o _ _ _ _ _ ihu ihv =>
    refine Level.trans ?_ (ihv hb)
    exact (Level.trans ⟨(ihu rfl).building, (ihu rfl).waiting⟩ (.disposed _ c p x o))

/-! ## What was found out about a container holds on -/

namespace World

variable {w v : World C} {c : ContainerId}

/-- A provider of a configured container stays with it. -/
theorem Holds.later {p : Provider C} (hp : w.Holds c p)
    (hphase : (w.container c).phase ≠ .unconfigured) (hwv : w.Frame v) : v.Holds c p := by
  unfold Holds
  rw [(hwv.container c).providers hphase]
  exact hp

/-- A provider fits by the providers of its container alone. -/
theorem Fits.congr {p : Provider C} (hp : w.Fits D c p)
    (h : (v.container c).registry.providers = (w.container c).registry.providers) :
    v.Fits D c p := by
  intro hcomponent
  obtain ⟨constructor, points, hconstructor, hpoints, hcheck⟩ := hp hcomponent
  refine ⟨constructor, points, hconstructor, hpoints, ?_⟩
  rw [Host.checkDemands_congr h]
  exact hcheck

/-- A provider that fits its configured container goes on fitting. -/
theorem Fits.later {p : Provider C} (hp : w.Fits D c p)
    (hphase : (w.container c).phase ≠ .unconfigured) (hwv : w.Frame v) : v.Fits D c p :=
  hp.congr ((hwv.container c).providers hphase)

/-- A container is checked by its providers alone. -/
theorem Checked.congr (hw : w.Checked D c)
    (h : (v.container c).registry.providers = (w.container c).registry.providers) :
    v.Checked D c := by
  intro p hp
  refine (hw p ?_).congr h
  unfold Holds at hp ⊢
  rwa [← h]

/-- A scan of a configured container finds the same for ever after. -/
theorem Frame.scan (hwv : w.Frame v) (hphase : (w.container c).phase ≠ .unconfigured)
    (r : Request) : (v.container c).registry.scan r = (w.container c).registry.scan r :=
  Registry.scan_congr ((hwv.container c).providers hphase)

/-- A history only grows. -/
theorem Frame.history (hwv : w.Frame v) (x : ProviderId) : w.history x <:+ v.history x :=
  hwv.journal.filterMap _

/-- What has happened to a provider has happened ever after. -/
theorem Frame.history_ne_nil (hwv : w.Frame v) {x : ProviderId} (h : w.history x ≠ []) :
    v.history x ≠ [] := by
  intro hnil
  have hsuffix := hwv.history x
  rw [hnil] at hsuffix
  exact h (List.suffix_nil.1 hsuffix)

/-- The journal only grows, so a value that was made once stays made. -/
theorem Frame.mades_ne_nil (hwv : w.Frame v) {x : ProviderId} (h : w.mades x ≠ []) :
    v.mades x ≠ [] := by
  intro hnil
  have hsuffix : w.mades x <:+ v.mades x := (hwv.history x).filterMap _
  rw [hnil] at hsuffix
  exact h (List.suffix_nil.1 hsuffix)

/-- A dependency that has met its container stays met. -/
theorem Met.later {d : Dependency} (hd : w.Met c d)
    (hphase : (w.container c).phase ≠ .unconfigured) (hwv : w.Frame v) : v.Met c d := by
  intro type hwant hne
  obtain ⟨q, hscan, hmade⟩ := hd type hwant hne
  exact ⟨q, (hwv.scan hphase _).trans hscan, hwv.mades_ne_nil hmade⟩

/-- A container that is torn down stays so while one of its values is disposed of. -/
theorem Frame.of_releasing {p : Provider C} {x : Value C}
    (hphase : (w.container c).phase = .destroyed) (hwv : (w.releasing p x).Frame v) :
    (v.container c).phase = .destroyed ∧ ∀ q, w.Holds c q → v.Holds c q := by
  have hphase' : ((w.releasing p x).container c).phase = .destroyed := hphase
  refine ⟨hwv.destroyed hphase', fun q hq => ?_⟩
  have hq' : (w.releasing p x).Holds c q := hq
  exact hq'.later (by rw [hphase']; decide) hwv

end World

end Wiring
