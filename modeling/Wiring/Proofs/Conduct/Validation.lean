import Wiring.Proofs.Conduct.Configuration

/-!
# Courses of validation

The first validation of a container is a bracket around the check of its providers. Once it has
ended, a container that resolves objects is reached without any change.
-/

namespace Wiring.Host

variable {C : Client} {D : Outline} {h : Host C} {w : World C} {c : ContainerId}

theorem checkComponent_follows (hl : h.Lawful D) (c : ContainerId) (p : Provider C)
    (w : World C) :
    Attempt.Follows D (checkComponent h c p.definition.implementation) w (fun _ v => v.Fits D c p)
      (fun e _ => ∃ f, e = .definition f) := by
  refine .bind (.step ((constructor_follows hl _ w).mono fun constructor u hconstructor => ?_))
  refine .bind (.step ((points_follows hl _ u).mono fun points v hpoints => ?_))
  refine .bind (.step (.container fun _ => ?_))
  exact .settle (fun _ hr _ => ⟨constructor, points, hconstructor, hpoints, hr⟩)
    fun _ he => checkDemands_error he

/-- How a check of providers ends: a failure was reported with the component that it came from. -/
def CheckEnds (D : Outline) (c : ContainerId) (l : List (Provider C)) (w : World C) :
    Option (Attempted Unit) × World C → Prop
  | (some (.ok ()), v) => Course D .work true w v ∧ ∀ p ∈ l, v.Fits D c p
  | (some (.error e), v) =>
    ∃ u type f, e = .definition f ∧ Course D .work true w u ∧
      v = u.enter (.event c (.rejected type e))
  | (none, v) => Course D .work false w v

theorem CheckEnds.cons {u : World C} {p : Provider C} {l : List (Provider C)}
    {r : Option (Attempted Unit) × World C} (hwu : Course D .work true w u)
    (hphase : (u.container c).phase ≠ .unconfigured) (hp : u.Fits D c p)
    (h : CheckEnds D c l u r) : CheckEnds D c (p :: l) w r := by
  rcases r with ⟨_ | e | _, v⟩
  · exact hwu.trans h
  · obtain ⟨x, type, f, he, hux, rfl⟩ := h
    exact ⟨x, type, f, he, hwu.trans hux, rfl⟩
  · refine ⟨hwu.trans h.1, fun q hq => ?_⟩
    rcases List.mem_cons.1 hq with rfl | hq
    · exact hp.later hphase h.1.frame
    · exact h.2 q hq

theorem checkProviders_ends (hl : h.Lawful D) (c : ContainerId) (l : List (Provider C))
    (hw : w.Coherent) (hphase : (w.container c).phase ≠ .unconfigured) :
    CheckEnds D c l w ((checkProviders h c l).run.exec w) := by
  induction l generalizing w with
  | nil => exact ⟨.refl w true, fun p hp => absurd hp List.not_mem_nil⟩
  | cons p rest ih =>
    unfold checkProviders
    by_cases hp : p.definition.isComponent = true
    · rw [if_pos hp]
      dsimp only
      have hfollows := checkComponent_follows hl c p w
      rcases hexec : (checkComponent h c p.definition.implementation).run.exec w with ⟨_ | e | _, u⟩
      · rw [exec_bind_none (exec_resultOf_none hexec)]
        exact hfollows.course hw hexec
      · rw [exec_bind_ok (exec_resultOf_some hexec)]
        obtain ⟨hcourse, f, hf⟩ := hfollows.ends hw hexec
        exact ⟨u, _, f, hf, hcourse, rfl⟩
      · rw [exec_bind_ok (exec_resultOf_some hexec)]
        obtain ⟨hcourse, hfits⟩ := hfollows.ends hw hexec
        -- The providers are fixed while they are checked, so what one check found holds to the end.
        have hphase' := (hcourse.frame.container c).phase.ne_unconfigured hphase
        exact .cons hcourse hphase' hfits (ih (hcourse.coherent hw) hphase')
    · rw [if_neg hp]
      exact .cons (.refl w true) hphase (fun h => absurd h hp) (ih hw hphase)

theorem registry_advanced (w : World C) (c : ContainerId) (old new : Phase) :
    ((w.advanced c old new).container c).registry = (w.container c).registry := by
  unfold World.advanced
  rw [World.container_withContainer_self]
  split <;> rfl

/-- What is left of a validation, but for its result, once all providers have been checked. -/
def moving (c : ContainerId) :
    Option (Attempted Unit) × World C → Option (Attempted Unit) × World C
  | (some (.ok ()), v) =>
    (some (.ok ()), (v.advanced c .validating .ready).enter
      (.event c (.ready (v.container c).registry.size)))
  | (some (.error e), v) => (some (.error e), v.advanced c .validating .failed)
  | (none, v) => (none, v)

theorem exec_validateNow (h : Host C) (hc : w.Has c)
    (hhas : ∀ v, (checkProviders h c (w.container c).registry.providers).run.exec
      (w.validating c (w.container c).registry.size) = (some (.ok ()), v) → v.Has c) :
    (validateNow h c).run.exec w =
      moving c ((checkProviders h c (w.container c).registry.providers).run.exec
        (w.validating c (w.container c).registry.size)) := by
  have hadvanced : (w.advanced c .unconfigured .validating).Has c := World.has_withContainer _ hc
  have hvalidating : (w.validating c (w.container c).registry.size).Has c := hadvanced
  unfold validateNow
  refine (exec_bind_ok (exec_step_some (Machine.exec_advancePhase ..))).trans ?_
  refine (exec_bind_container hadvanced _).trans ?_
  rw [registry_advanced]
  refine (exec_bind_ok (exec_step_some (Machine.exec_report ..))).trans ?_
  refine (exec_bind_container hvalidating _).trans ?_
  rw [show ((w.validating c _).container c).registry = _ from registry_advanced ..]
  -- The check stops, rejects or accepts; only an accepting one is announced here.
  rcases hcheck : (checkProviders h c (w.container c).registry.providers).run.exec
    (w.validating c (w.container c).registry.size) with ⟨_ | e | _, v⟩
  · exact exec_bind_none (exec_resultOf_none hcheck)
  · refine (exec_bind_ok (exec_resultOf_some hcheck)).trans ?_
    exact exec_bind_ok (exec_step_some (Machine.exec_advancePhase ..))
  · have hready : (v.advanced c .validating .ready).Has c :=
      World.has_withContainer _ (hhas v hcheck)
    refine (exec_bind_ok (exec_resultOf_some hcheck)).trans ?_
    refine (exec_bind_ok (exec_step_some (Machine.exec_advancePhase ..))).trans ?_
    refine (exec_bind_container hready _).trans ?_
    rw [registry_advanced]
    exact exec_step_some (Machine.exec_report ..)

/-- What is left of the first validation once all providers have been checked. -/
def validated (c : ContainerId) :
    Option (Attempted Unit) × World C → Option (Attempted Unit) × World C
  | (some (.ok ()), v) => (some (.ok ()), v.accepted c (v.container c).registry.size)
  | (some (.error e), v) =>
    (some (.error e), (v.advanced c .validating .failed).settled c (.error e))
  | (none, v) => (none, v)

/-- The first validation is a check of all providers between two changes of phase. -/
theorem exec_validate (h : Host C) (hc : w.Has c) (hphase : (w.container c).phase = .unconfigured)
    (hnone : (w.container c).validation = none)
    (hhas : ∀ v, (checkProviders h c (w.container c).registry.providers).run.exec
      (w.validating c (w.container c).registry.size) = (some (.ok ()), v) → v.Has c) :
    (validate h c).run.exec w =
      validated c ((checkProviders h c (w.container c).registry.providers).run.exec
        (w.validating c (w.container c).registry.size)) := by
  have hnow := exec_validateNow h hc hhas
  unfold validate
  refine (exec_bind_container hc _).trans ?_
  rw [hphase, hnone]
  dsimp only
  -- Whatever the verdict, it is settled last.
  rcases hcheck : (checkProviders h c (w.container c).registry.providers).run.exec
      (w.validating c (w.container c).registry.size) with ⟨_ | e | _, v⟩
  · rw [hcheck] at hnow
    exact exec_bind_none (exec_resultOf_none hnow)
  · rw [hcheck] at hnow
    refine (exec_bind_ok (exec_resultOf_some hnow)).trans ?_
    exact exec_bind_ok (exec_step_some (Machine.exec_settleValidation ..))
  · rw [hcheck] at hnow
    refine (exec_bind_ok (exec_resultOf_some hnow)).trans ?_
    exact exec_bind_ok (exec_step_some (Machine.exec_settleValidation ..))

/-- What a world is like once a container may resolve objects. -/
structure Opened (w : World C) (c : ContainerId) (v : World C) : Prop where
  has : v.Has c
  isOpen : (v.container c).phase.IsOpen
  validation : (v.container c).validation = some (.ok ())
  /-- Nothing happens unless this is the first time. -/
  unchanged : (w.container c).phase ≠ .unconfigured → v = w ∧ (w.container c).phase = .ready

theorem isOpen_accepted {w : World C} {c : ContainerId} (m : Nat)
    (h : (w.container c).phase = .validating ∨ (w.container c).phase = .destroyed) :
    ((w.accepted c m).container c).phase.IsOpen := by
  unfold World.accepted World.settled World.advanced
  rw [World.container_withContainer_self, World.container_enter,
    World.container_withContainer_self]
  rcases h with h | h
  · rw [if_pos h]
    exact .inl rfl
  · rw [if_neg (by rw [h]; decide)]
    exact .inr h

theorem validate_first_follows (hl : h.Lawful D) (hc : w.Has c)
    (hphase : (w.container c).phase = .unconfigured)
    (hnone : (w.container c).validation = none) :
    Attempt.Follows D (validate h c) w (fun _ v => Opened w c v) (fun _ _ => True) := by
  intro hw
  have hvalidating := World.phase_validating hphase (w.container c).registry.size
  have hends := checkProviders_ends hl c (w.container c).registry.providers
    (hw.validating (w.container c).registry.size hc hphase) (by rw [hvalidating]; decide)
  rw [exec_validate h hc hphase hnone fun v hexec => ?_]
  · rcases hexec : (checkProviders h c (w.container c).registry.providers).run.exec
      (w.validating c (w.container c).registry.size) with ⟨_ | e | _, v⟩
    · rw [hexec] at hends
      exact .validating c _ hc hphase hends
    · rw [hexec] at hends
      obtain ⟨u, type, f, rfl, hu, rfl⟩ := hends
      exact ⟨.reject c _ type f hc hphase hu, True.intro⟩
    · rw [hexec] at hends
      obtain ⟨hcourse, hfits⟩ := hends
      have hframe := (World.Frame.validating w c _ hphase).trans hcourse.frame
      -- The providers that were checked are those that the container holds when the check ends.
      have hchecked : v.Checked D c := by
        intro p hp
        unfold World.Holds at hp
        rw [(hcourse.frame.container c).providers (by rw [hvalidating]; decide),
          show ((w.validating c _).container c).registry = _ from registry_advanced ..] at hp
        exact hfits p hp
      refine ⟨.accept c _ _ hc hphase hcourse hchecked, ?_, ?_, ?_, fun h => absurd hphase h⟩
      · exact World.has_withContainer _ (World.has_withContainer _ (hframe.has c hc))
      · exact isOpen_accepted _ (hcourse.frame.validating_end hphase)
      · unfold World.accepted World.settled
        rw [World.container_withContainer_self]
  · rw [hexec] at hends
    exact hends.1.frame.has c (World.has_withContainer _ hc)

theorem validate_follows (hl : h.Lawful D) (c : ContainerId) (w : World C) :
    Attempt.Follows D (validate h c) w (fun _ v => Opened w c v) (fun _ _ => True) := by
  refine .of_coherent fun hw => ?_
  have hagrees := hw.agrees c
  unfold Container.Agrees at hagrees
  by_cases hphase : (w.container c).phase = .unconfigured
  · rcases hk : w.containers.get? c with _ | k
    · intro _
      unfold validate
      rw [exec_bind_none (exec_step_none (Machine.exec_container_of_none hk))]
      exact .refl w false
    · rw [hphase] at hagrees
      exact validate_first_follows hl ⟨k, hk⟩ hphase hagrees
  unfold validate
  refine .bind (.step (.container fun hc => ?_))
  rcases hphase' : (w.container c).phase <;> rw [hphase'] at hagrees
  case unconfigured => exact absurd hphase' hphase
  -- The result is not there yet, so the call comes from within the validation and gets stuck.
  case validating =>
    rw [hagrees]
    exact .bind (.step .stuck)
  case ready =>
    rw [hagrees]
    exact .pure ⟨hc, .inl hphase', hagrees, fun _ => ⟨rfl, hphase'⟩⟩
  case failed =>
    obtain ⟨e, he⟩ := hagrees
    rw [he]
    exact .throw True.intro
  case destroyed => exact .bind (.throw True.intro)

theorem ensureReady_follows (hl : h.Lawful D) (c : ContainerId) (w : World C) :
    Attempt.Follows D (ensureReady h c) w (fun _ v => Opened w c v) (fun _ _ => True) := by
  refine .of_coherent fun hw => ?_
  unfold ensureReady
  refine .bind (.step (.container fun hc => ?_))
  have hagrees := hw.agrees c
  unfold Container.Agrees at hagrees
  rcases hphase : (w.container c).phase <;> rw [hphase] at hagrees
  case ready => exact .pure ⟨hc, .inl hphase, hagrees, fun _ => ⟨rfl, hphase⟩⟩
  case destroyed => exact .throw True.intro
  all_goals exact validate_follows hl c w

end Wiring.Host
