import Wiring.Proofs.Congruence
import Wiring.Proofs.Visit

/-!
# Where values come from

A value is kept under the identity of its provider, and nothing in it tells who has made it. Still
it comes from the source of the provider that is found under this identity: an identity is given out
once, so a container that refers to it means the provider that was registered with it, and a value
is kept only when the source of the provider that was asked has just made it. Both facts are kept by
every small step, at whatever depth and in whatever brackets it is taken.

Main statements: `Codebase.Visits.sourced`, `World.Sourced.sources_of_provide`.
-/

namespace Wiring

variable {C : Client} {α β : Type} {code : Codebase C} {w u v : World C} {p : Provider C}

/-- The source of a definition makes a value, however calls are performed. -/
def Codebase.Sources (code : Codebase C) (d : Definition C) (x : Value C) : Prop :=
  ∃ (perform : (k : Call C) → Machine C (Reply C k)) (c : ContainerId) (w v : World C),
    ((Host.mk code perform).makeBySource c d).run.exec w = (some (.ok x), v)

namespace World

/-- A provider is the only one with its identity, in every container, and stays so. -/
structure Knows (w : World C) (p : Provider C) : Prop where
  registered : p.id.number < w.providerCount
  only : ∀ c q, (w.container c).registry.Refers q → q.id = p.id → q = p

/-- Containers refer to known providers, and what is kept comes from the source of one. -/
structure Sourced (code : Codebase C) (w : World C) : Prop where
  known : ∀ c p, (w.container c).registry.Refers p → w.Knows p
  kept : ∀ id x, w.kept.get? id = some x →
    ∃ p, p.id = id ∧ w.Knows p ∧ code.Sources p.definition x

/-- After a registration, containers refer to what they referred to, or to what was registered. -/
theorem refers_of_registered {c : ContainerId} {d : Definition C} {size : Nat} : ∀ e q,
    ((w.registered c d size).container e).registry.Refers q →
      (w.container e).registry.Refers q ∨ q = ⟨⟨w.providerCount⟩, d⟩ := by
  refine forall_container_withContainer
    (P := fun e k => ∀ q, k.registry.Refers q → (w.container e).registry.Refers q ∨
      q = ⟨⟨w.providerCount⟩, d⟩) ?_ fun _ _ _ hq => .inl hq
  rintro q (hq | ⟨request, hq⟩)
  · rcases List.mem_append.1 hq with hq | hq
    · exact .inl (.inl hq)
    · exact .inr (List.mem_singleton.1 hq)
  · cases hq

/-- The identity that a registration gives out is none of those that were given out. -/
theorem Knows.after_registered {c : ContainerId} {d : Definition C} {size : Nat} (hp : w.Knows p) :
    (w.registered c d size).Knows p := by
  refine ⟨Nat.lt_succ_of_lt hp.registered, fun e q hq hid => ?_⟩
  rcases refers_of_registered e q hq with hq | rfl
  · exact hp.only e q hq hid
  · have hlt := hp.registered
    rw [← hid] at hlt
    exact absurd hlt (Nat.lt_irrefl _)

/-- From the first world to the second one, values stay where they come from, and what is known of
providers holds on. -/
structure Upholds (code : Codebase C) (w v : World C) : Prop where
  sourced : w.Sourced code → v.Sourced code
  knows : w.Sourced code → ∀ p, w.Knows p → v.Knows p

namespace Upholds

theorem refl (w : World C) : w.Upholds code w := ⟨id, fun _ _ => id⟩

theorem trans (hwu : w.Upholds code u) (huv : u.Upholds code v) : w.Upholds code v :=
  ⟨fun h => huv.sourced (hwu.sourced h), fun h p hp =>
    huv.knows (hwu.sourced h) p (hwu.knows h p hp)⟩

/-- Whether values have their source need only be upheld where it holds. -/
theorem of_sourced (h : w.Sourced code → w.Upholds code v) : w.Upholds code v :=
  ⟨fun hw => (h hw).sourced hw, fun hw => (h hw).knows hw⟩

/-- No provider comes to be referred to, and no value to be kept. -/
theorem of_refers (hcount : v.providerCount = w.providerCount)
    (hrefers : ∀ c p, (v.container c).registry.Refers p → (w.container c).registry.Refers p)
    (hkept : ∀ id x, v.kept.get? id = some x → w.kept.get? id = some x) : w.Upholds code v := by
  have hknows : ∀ p, w.Knows p → v.Knows p := fun p hp =>
    ⟨hcount ▸ hp.registered, fun c q hq hid => hp.only c q (hrefers c q hq) hid⟩
  refine ⟨fun h => ⟨fun c p hp => hknows p (h.known c p (hrefers c p hp)), fun id x hx => ?_⟩,
    fun _ => hknows⟩
  obtain ⟨p, hid, hp, hsources⟩ := h.kept id x (hkept id x hx)
  exact ⟨p, hid, hknows p hp, hsources⟩

/-- Neither the containers nor what is kept change. -/
theorem of_eq (hcontainers : v.containers = w.containers)
    (hcount : v.providerCount = w.providerCount) (hkept : v.kept = w.kept) : w.Upholds code v :=
  of_refers hcount (fun c p hp => by rwa [container_congr hcontainers] at hp)
    (fun id x hx => by rwa [hkept] at hx)

/-- A change of one container that refers to no new provider upholds the sources of all. -/
theorem withContainer {c : ContainerId} {f : Container C → Container C}
    (h : ∀ p, (f (w.container c)).registry.Refers p → (w.container c).registry.Refers p) :
    w.Upholds code (w.withContainer c f) := by
  refine of_refers rfl ?_ fun _ _ hx => hx
  exact forall_container_withContainer
    (P := fun d k => ∀ p, k.registry.Refers p → (w.container d).registry.Refers p) h
    fun _ _ _ hp => hp

/-- A container that is made refers to nothing. -/
theorem made (w : World C) (c : ContainerId) (n : Nat) :
    w.Upholds code { w with containers := w.containers.put c {}, containerCount := n } := by
  have hblank : w.Upholds code (w.withContainer c fun _ => {}) := by
    refine withContainer ?_
    rintro p (hp | ⟨request, hp⟩) <;> cases hp
  exact hblank.trans (of_eq rfl rfl rfl)

theorem withRegistry {c : ContainerId} {r : Registry C}
    (h : ∀ p, r.Refers p → (w.container c).registry.Refers p) :
    w.Upholds code (w.withRegistry c r) :=
  withContainer h

theorem unregistered (c : ContainerId) (type : TypeKey) (qualifiers : Qualifiers)
    (removed : Nat) : w.Upholds code (w.unregistered c type qualifiers removed) := by
  have hremoved : w.Upholds code
      (w.withRegistry c ((w.container c).registry.removeWhere (·.isExact (type, qualifiers)))) := by
    refine withRegistry ?_
    rintro p (hp | ⟨request, hp⟩)
    · exact .inl (List.mem_of_mem_filter hp)
    · cases hp
  exact hremoved.trans (of_eq rfl rfl rfl)

/-- What is kept no longer was kept before. -/
theorem releasing (w : World C) (p : Provider C) (x : Value C) :
    w.Upholds code (w.releasing p x) := by
  refine of_refers rfl (fun _ _ hp => hp) fun id y hy => ?_
  have hne : id ≠ p.id := by
    rintro rfl
    cases (Table.get?_erase_self ..).symm.trans hy
  exact (Table.get?_erase_of_ne _ hne).symm.trans hy

/-- A provider is registered under an identity of its own. -/
theorem registered (c : ContainerId) (d : Definition C) (size : Nat) :
    w.Upholds code (w.registered c d size) := by
  have hnew : w.Sourced code → (w.registered c d size).Knows ⟨⟨w.providerCount⟩, d⟩ := by
    -- The number of the new provider was not taken before.
    refine fun h => ⟨Nat.lt_succ_self _, fun e q hq hid => ?_⟩
    rcases refers_of_registered e q hq with hq | rfl
    · have hlt := (h.known e q hq).registered
      rw [hid] at hlt
      exact absurd hlt (Nat.lt_irrefl _)
    · rfl
  refine ⟨fun h => ⟨fun e p hp => ?_, fun id x hx => ?_⟩, fun _ _ hp => hp.after_registered⟩
  · rcases refers_of_registered e p hp with hp | rfl
    · exact (h.known e p hp).after_registered
    · exact hnew h
  · obtain ⟨p, hid, hp, hsources⟩ := h.kept id x hx
    exact ⟨p, hid, hp.after_registered, hsources⟩

/-- What the source of a known provider has made is kept. -/
theorem keeping {x : Value C} (hsources : code.Sources p.definition x) (hp : w.Knows p) :
    w.Upholds code (w.keeping p x) := by
  unfold World.keeping
  rcases p.definition.scope
  · have hknows : ∀ q, w.Knows q →
        (({ w with kept := w.kept.put p.id x } : World C).enter
          (.milestone (.kept p.id x))).Knows q := fun q hq => ⟨hq.registered, hq.only⟩
    refine ⟨fun h => ⟨fun c q hq => hknows q (h.known c q hq), fun id y hy => ?_⟩, fun _ => hknows⟩
    -- The slot now holds the source's value; the others are as they were.
    by_cases hid : id = p.id
    · subst hid
      cases (Table.get?_put_self ..).symm.trans hy
      exact ⟨p, rfl, hknows p hp, hsources⟩
    · obtain ⟨q, hq, hknown, hmade⟩ := h.kept id y ((Table.get?_put_of_ne _ _ hid).symm.trans hy)
      exact ⟨q, hq, hknows q hknown, hmade⟩
  · exact refl w

/-- A completed making keeps a value of its own source. -/
theorem completed {x : Value C} (hsources : code.Sources p.definition x) (hp : w.Knows p) :
    w.Upholds code (w.completed p x) := by
  have hmade : w.Upholds code (w.enter (.milestone (.made p.id x))) := of_eq rfl rfl rfl
  exact (hmade.trans (keeping hsources ⟨hp.registered, hp.only⟩)).trans (of_eq rfl rfl rfl)

end Upholds

/-- Before anything has happened there is nothing to tell. -/
theorem sourced_blank (code : Codebase C) (s : C.State) : (World.blank s).Sourced code := by
  refine ⟨?_, fun _ _ hx => by cases hx⟩
  rintro c p (hp | ⟨request, hp⟩) <;> cases hp

end World

open World

/-- The second step upholds where values come from. -/
def Machine.Upholds (code : Codebase C) (α : Type) (w : World C) (_ m : Machine C α) : Prop :=
  w.Upholds code (m.exec w).2

namespace Machine.Upholds

/-- What a machine upholds holds of the world it leaves. -/
theorem exec {m m' : Machine C α} {a : Option α} (h : Upholds code α w m m')
    (hexec : m'.exec w = (a, v)) : w.Upholds code v := by
  unfold Upholds at h
  rwa [hexec] at h

theorem bind {m m' : Machine C α} {f f' : α → Machine C β} (h : Upholds code α w m m')
    (hf : ∀ a v, m'.exec w = (some a, v) → Upholds code β v (f a) (f' a)) :
    Upholds code β w (m >>= f) (m' >>= f') := by
  unfold Upholds at h hf ⊢
  rcases hm : m'.exec w with ⟨_ | a, v⟩
  · rw [exec_bind_none hm]
    rwa [hm] at h
  · rw [exec_bind_some hm]
    rw [hm] at h
    exact h.trans (hf a v hm)

theorem apart {m m' : Machine C α} (h : Upholds code α w.departed m m') :
    Upholds code α w (Machine.apart m) (Machine.apart m') := by
  have hdeparted : w.Upholds code w.departed := .of_eq rfl rfl rfl
  have hrejoined : ∀ v : World C, v.Upholds code (w.rejoined v) := fun v => .of_eq rfl rfl rfl
  unfold Upholds at h ⊢
  rw [exec_apart]
  rcases hm : m'.exec w.departed with ⟨_ | a, v⟩ <;> rw [hm] at h
  · exact hdeparted.trans h
  · exact (hdeparted.trans h).trans (hrejoined v)

/-- Every small step but to keep a value upholds where values come from. -/
theorem congruence (code : Codebase C) : Congruence.Acting (Upholds code) where
  pure w _ := .refl w
  failure _ w := .refl w
  bind := bind
  look w := .refl w
  report _ _ _ _ := .of_eq rfl rfl rfl
  mark _ _ := .of_eq rfl rfl rfl
  note _ _ := .of_eq rfl rfl rfl
  setClient _ _ := .of_eq rfl rfl rfl
  addContainer w := .made w _ _
  -- A provider that is added has nothing kept yet.
  register w c r := by
    unfold Upholds
    rcases Host.register_cases c r w with hsame | ⟨-, hregistered⟩
    · rw [hsame]
      exact .refl w
    · rw [hregistered]
      exact .registered c r.definition _
  unregister w c type qualifiers := by
    unfold Upholds
    rcases Host.unregister_cases c type qualifiers w with hsame | ⟨-, hunregistered⟩
    · rw [hsame]
      exact .refl w
    · rw [hunregistered]
      exact .unregistered c type qualifiers _
  setRegistry w c r hr := World.Upholds.withRegistry fun _ hp => hr.refers hp
  advancePhase w c old new _ := by
    have hadvanced : w.Upholds code (w.advanced c old new) := by
      refine World.Upholds.withContainer fun p hp => ?_
      split at hp <;> exact hp
    exact hadvanced
  settleValidation w c r := by
    have hsettled : w.Upholds code (w.settled c r) := World.Upholds.withContainer fun _ hp => hp
    exact hsettled
  swapPhase w c := by
    unfold Upholds
    rcases hk : w.containers.get? c with _ | k
    · unfold swapPhase
      rw [exec_bind_none (exec_container_of_none hk)]
      exact .refl w
    · rw [Host.exec_swapPhase ⟨k, hk⟩]
      have hphase : w.Upholds code (w.withPhase c .destroyed) :=
        World.Upholds.withContainer fun _ hp => hp
      exact hphase
  release? w p := by
    unfold Upholds
    rcases hkept : w.kept.get? p.id with _ | v
    · rw [Host.exec_release?_none hkept]
      exact .refl w
    · rw [Host.exec_release?_some hkept]
      exact .releasing w p v
  beginBuilding _ _ := .of_eq rfl rfl rfl
  endBuilding _ _ := .of_eq rfl rfl rfl
  apart := apart

end Machine.Upholds

namespace Host

variable {f : (k : Call C) → Machine C (Reply C k)} {c : ContainerId}
  (hcall : ∀ k w, Machine.Upholds code _ w (f k) (f k))
include hcall

/-- What is kept of a provider that is asked was made by its own source. -/
theorem provide_upholds (hw : w.Sourced code) (hp : w.Knows p) :
    w.Upholds code ((provide ⟨code, f⟩ c p).run.exec w).2 := by
  -- Of the ways a request goes only a making adds a value, and it is the source's.
  rcases exec_provide_cases ⟨code, f⟩ c p w with hcircular | hstuck | ⟨y, -, -, hkept⟩ | hmakes
  · rw [hcircular]
    exact .refl w
  · rw [hstuck]
    exact .refl w
  · rw [hkept]
    exact .of_eq rfl rfl rfl
  · rw [hmakes]
    have hbegun : w.Upholds code (w.begun c p) := .of_eq rfl rfl rfl
    have hsource : (w.begun c p).Upholds code
        ((makeBySource ⟨code, f⟩ c p.definition).run.exec (w.begun c p)).2 :=
      makeBySource_congr (Machine.Upholds.congruence code) hcall c p.definition (w.begun c p)
    have hwu := hbegun.trans hsource
    rcases hmake : (makeBySource ⟨code, f⟩ c p.definition).run.exec (w.begun c p) with
      ⟨_ | e | x, u⟩ <;> rw [hmake] at hwu
    · exact hwu
    · exact hwu.trans (.of_eq rfl rfl rfl)
    · exact hwu.trans (.completed ⟨f, c, _, u, hmake⟩ (hwu.knows hw p hp))

theorem resolvedAlike_upholds : ResolvedAlike (Machine.Upholds code) ⟨code, f⟩ ⟨code, f⟩ := by
  intro w c p type hp
  refine .of_sourced fun hw => ?_
  show Machine.Upholds code _ w (provideAs ⟨code, f⟩ c p type).run
    (provideAs ⟨code, f⟩ c p type).run
  have hR := Machine.Upholds.congruence code
  have hready : Machine.Upholds code _ w (ensureReady ⟨code, f⟩ c).run
      (ensureReady ⟨code, f⟩ c).run :=
    ensureReady_congr hR.toCongruence (describedAlike hR hcall) c w
  -- The provider is still known after the container was opened.
  refine hR.bind_run hready fun _ v hexec => ?_
  have hwv : w.Upholds code v := hready.exec hexec
  have hprovide : Machine.Upholds code _ v (provide ⟨code, f⟩ c p).run
      (provide ⟨code, f⟩ c p).run :=
    provide_upholds hcall (hwv.sourced hw) (hwv.knows hw p (hw.known c p hp))
  refine hR.bind_run hprovide fun x u _ => ?_
  unfold asType
  rcases p.definition.convert? type x with _ | y
  · exact hR.throw_run u _
  · exact hR.pure_run u y

end Host

namespace Codebase

/-- A request upholds the sources at every depth and wherever it is stopped: by induction on the
depth. -/
theorem performUntil_upholds (code : Codebase C) (stop : World C → Bool) (depth : Nat)
    (k : Call C) (w : World C) :
    w.Upholds code ((code.performUntil stop depth k).exec w).2 := by
  induction depth generalizing k w with
  | zero => exact .refl w
  | succ depth ih =>
    rcases hstop : stop w with _ | _
    · rw [performUntil_succ_of_not_stop code stop depth k hstop]
      exact Host.answer_congr_of_resolved (Machine.Upholds.congruence code) ih
        (Host.resolvedAlike_upholds ih) k w
    · rw [performUntil_succ_of_stop code stop depth k hstop]
      exact .refl w

theorem perform_upholds (code : Codebase C) (depth : Nat) (k : Call C) (w : World C) :
    w.Upholds code ((code.perform depth k).exec w).2 := by
  rw [← code.performUntil_never depth]
  exact code.performUntil_upholds _ depth k w

theorem ensureReady_upholds (code : Codebase C) (depth : Nat) (c : ContainerId) (w : World C) :
    w.Upholds code (((code.hostAt depth).ensureReady c).run.exec w).2 := by
  have hR := Machine.Upholds.congruence code
  have hready : Machine.Upholds code _ w ((code.hostAt depth).ensureReady c).run
      ((code.hostAt depth).ensureReady c).run :=
    Host.ensureReady_congr hR.toCongruence (Host.describedAlike hR (code.perform_upholds depth)) c w
  exact hready

/-- At every moment of a run, what is kept for a provider was made by its own source. -/
theorem Visits.sourced {s : C.State} (h : code.Visits (.blank s) w) : w.Sourced code := by
  obtain ⟨α, p, stop, depth, rfl⟩ := h
  have hrun : (World.blank s).Upholds code ((code.runUntil stop depth p).exec (.blank s)).2 :=
    Host.run_congr (f := code.performUntil stop depth) (Machine.Upholds.congruence code)
      (code.performUntil_upholds stop depth) p _
  exact hrun.sourced (sourced_blank code s)

end Codebase

/-- Whatever a provider answers with, kept or new, was made by its own source. -/
theorem World.Sourced.sources_of_provide {h : Host C} {c d : ContainerId} {x : Value C}
    (hw : w.Sourced h.code) (hp : (w.container d).registry.Refers p)
    (hexec : (h.provide c p).run.exec w = (some (.ok x), v)) : h.code.Sources p.definition x := by
  rcases Host.exec_provide_cases h c p w with hcircular | hstuck | ⟨y, -, hy, hkept⟩ | hmakes
  · cases hcircular.symm.trans hexec
  · cases hstuck.symm.trans hexec
  · cases hkept.symm.trans hexec
    obtain ⟨q, hid, hq, hsources⟩ := hw.kept p.id x hy
    obtain rfl := hq.only d p hp hid.symm
    exact hsources
  · rw [hmakes] at hexec
    rcases hmake : (h.makeBySource c p.definition).run.exec (w.begun c p) with ⟨_ | e | y, u⟩ <;>
      rw [hmake] at hexec <;> cases hexec
    exact ⟨h.perform, c, _, u, hmake⟩

end Wiring
