import Wiring.Host.Teardown
import Wiring.Proofs.Conduct.Construction

/-!
# Courses of teardown

A teardown is a bracket around the visit of all providers, the latest first.
-/

namespace Wiring.Host

variable {C : Client} {D : Outline} {h : Host C} {w : World C} {c : ContainerId}

/-- A teardown by the source runs client code and nothing else. -/
theorem disposeBySource_follows (hl : h.Lawful D) (d : Definition C) (x : Value C)
    (w : World C) :
    Attempt.Follows D (disposeBySource h d x) w (fun _ _ => True) (fun _ _ => True) := by
  unfold disposeBySource
  rcases d.source with v | ⟨produce, _ | dispose⟩ | _
  · exact .pure True.intro
  · exact .pure True.intro
  · exact invoke_follows hl _ _ w
  · rcases x with id | o
    · exact .throw True.intro
    · exact preDestroy_follows hl _ o w

theorem disposeOf_follows (hl : h.Lawful D) (d : Definition C) (x : Value C) (w : World C) :
    Attempt.Follows D (disposeOf h d x) w (fun _ _ => True) (fun _ _ => True) := by
  unfold disposeOf
  refine .bind (.resultOf ((disposeBySource_follows hl d x w).mono ?_ ?_))
  all_goals
    intro _ u _
    rcases d.onDestroy with _ | dispose
    · exact .settle (fun _ _ => True.intro) fun _ _ => True.intro
    · refine .bind (.resultOf ((invoke_follows hl _ _ u).mono ?_ ?_)) <;>
      · intro _ v _
        refine .bind (.settle (fun _ _ => ?_) fun _ _ => True.intro)
        exact .settle (fun _ _ => True.intro) fun _ _ => True.intro

/-- An empty slot releases nothing. -/
theorem exec_release?_none {x : ProviderId} (hx : w.kept.get? x = none) :
    (Machine.release? x).exec w = (some none, w) := by
  unfold Machine.release?
  rw [Machine.exec_bind_some (Machine.exec_kept? x w), hx]
  rfl

/-- A filled slot is emptied before its value is torn down. -/
theorem exec_release?_some {p : Provider C} {x : Value C} (hx : w.kept.get? p.id = some x) :
    (Machine.release? p.id).exec w = (some (some x), w.releasing p x) := by
  unfold Machine.release?
  rw [Machine.exec_bind_some (Machine.exec_kept? p.id w), hx]
  rfl

/-- The sweep passes over a provider with an empty slot. -/
theorem exec_disposeAll_none {p : Provider C} {rest : List (Provider C)} {r : TeardownResult}
    (hx : w.kept.get? p.id = none) :
    (disposeAll h c (p :: rest) r).exec w = (disposeAll h c rest r).exec w := by
  rw [disposeAll, Machine.exec_bind_some (exec_release?_none hx)]

/-- At a filled slot the sweep empties it, tears the value down, notes the outcome and goes on. -/
theorem exec_disposeAll_some {p : Provider C} {rest : List (Provider C)} {r : TeardownResult}
    {x : Value C} (hx : w.kept.get? p.id = some x) :
    (disposeAll h c (p :: rest) r).exec w =
      match (disposeOf h p.definition x).run.exec (w.releasing p x) with
      | (some o, u) => (disposeAll h c rest (r.visited o)).exec (u.disposed c p x o)
      | (none, u) => (none, u) := by
  rw [disposeAll, Machine.exec_bind_some (exec_release?_some hx)]
  rcases hexec : (disposeOf h p.definition x).run.exec (w.releasing p x) with ⟨_ | e | _, u⟩
  · exact Machine.exec_bind_none hexec
  · refine (Machine.exec_bind_some hexec).trans ?_
    refine (Machine.exec_bind_some (Machine.exec_mark ..)).trans ?_
    exact Machine.exec_bind_some (Machine.exec_report ..)
  · refine (Machine.exec_bind_some hexec).trans ?_
    exact Machine.exec_bind_some (Machine.exec_mark ..)

/-- How a visit of providers ends. -/
def SweepEnds (D : Outline) (c : ContainerId) (l : List (Provider C)) (r : TeardownResult)
    (w : World C) : Option TeardownResult × World C → Prop
  | (some r', v) => Course D (.sweep c l r r') true w v
  | (none, v) => ∃ r', Course D (.sweep c l r r') false w v

/-- The sweep visits the filled slots one by one; by induction on the providers still ahead, in a
container that is already destroyed. -/
theorem disposeAll_ends (hl : h.Lawful D) (l : List (Provider C)) (r : TeardownResult)
    (hw : w.Coherent) (hheld : ∀ p ∈ l, w.Holds c p)
    (hphase : (w.container c).phase = .destroyed) :
    SweepEnds D c l r w ((disposeAll h c l r).exec w) := by
  induction l generalizing w r with
  | nil => exact .sweepNil w c r true
  | cons p rest ih =>
    have hp : w.Holds c p := hheld p List.mem_cons_self
    have hheld' : ∀ q ∈ rest, w.Holds c q := fun q hq => hheld q (List.mem_cons_of_mem _ hq)
    rcases hx : w.kept.get? p.id with _ | x
    · rw [exec_disposeAll_none hx]
      have hrest := ih r hw hheld' hphase
      rcases hexec : (disposeAll h c rest r).exec w with ⟨_ | r', v⟩
      · rw [hexec] at hrest
        obtain ⟨r', hcourse⟩ := hrest
        exact ⟨r', .sweepPass c p hx hcourse⟩
      · rw [hexec] at hrest
        exact .sweepPass c p hx hrest
    rw [exec_disposeAll_some hx]
    have hreleased := hw.releasing hp hphase hx
    have hdispose := disposeOf_follows hl p.definition x (w.releasing p x)
    rcases hexec : (disposeOf h p.definition x).run.exec (w.releasing p x) with ⟨_ | o, u⟩
    · exact ⟨r, .sweeping c p x hp hphase hx (hdispose.course hreleased hexec)⟩
    obtain ⟨hcourse, _⟩ := hdispose.ends hreleased hexec
    -- Whatever the disposing code does, the container stays torn down and holds the same providers.
    obtain ⟨hphaseu, hholdsu⟩ := World.Frame.of_releasing hphase hcourse.frame
    obtain ⟨hphasev, hholdsv⟩ := World.Frame.of_releasing hphase
      (hcourse.frame.trans (.disposed u c p x o))
    have hu := (hcourse.coherent hreleased).disposed x o (hholdsu p hp) hphaseu
    have hrest := ih (r.visited o) hu (fun q hq => hholdsv q (hheld' q hq)) hphasev
    dsimp only
    rcases hexec' : (disposeAll h c rest (r.visited o)).exec (u.disposed c p x o)
      with ⟨_ | r', v⟩
    · rw [hexec'] at hrest
      obtain ⟨r', hcourse'⟩ := hrest
      exact ⟨r', .sweepVisit c p x o hp hphase hx hcourse hcourse'⟩
    · rw [hexec'] at hrest
      exact .sweepVisit c p x o hp hphase hx hcourse hrest

theorem exec_swapPhase (hc : w.Has c) (new : Phase) :
    (Machine.swapPhase c new).exec w = (some (w.container c).phase, w.withPhase c new) := by
  unfold Machine.swapPhase
  exact Machine.exec_bind_some (exec_container hc)

/-- A container that was torn down is left as it is. -/
theorem quiet_swapPhase (hc : w.Has c) (hphase : (w.container c).phase = .destroyed) :
    Quiet w (w.withPhase c .destroyed) := by
  -- Nothing changes at all, which is as much as remembering nothing new.
  have hsame : w.withPhase c .destroyed = w.withRegistry c (w.container c).registry := by
    unfold World.withPhase World.withRegistry World.withContainer
    dsimp only
    rw [← hphase]
  rw [hsame]
  exact .remember w c _ hc rfl fun _ _ h => .inl h

/-- What is left of a teardown once all providers have been visited. -/
def closing (c : ContainerId) (previous : Phase) :
    Option TeardownResult × World C → Option (Attempted Unit) × World C
  | (some r, v) =>
    (some (match r.failure with
      | none => .ok ()
      | some e => .error e), v.closed c r.count previous)
  | (none, v) => (none, v)

/-- The first teardown is a visit of all providers between two changes of the container. -/
theorem exec_destroy (h : Host C) (hc : w.Has c) (hphase : (w.container c).phase ≠ .destroyed)
    (hhas : ∀ r v, (disposeAll h c (w.container c).registry.providers.reverse {}).exec
      (w.withPhase c .destroyed) = (some r, v) → v.Has c) :
    (destroy h c).run.exec w =
      closing c (w.container c).phase
        ((disposeAll h c (w.container c).registry.providers.reverse {}).exec
          (w.withPhase c .destroyed)) := by
  have hc' : (w.withPhase c .destroyed).Has c := World.has_withContainer _ hc
  have hproviders : ((w.withPhase c .destroyed).container c).registry.providers =
      (w.container c).registry.providers := w.providers_withContainer rfl c
  unfold destroy
  refine (exec_bind_ok (exec_step_some (exec_swapPhase hc _))).trans ?_
  dsimp only
  rw [if_neg hphase]
  refine (exec_bind_container hc' _).trans ?_
  rw [hproviders]
  -- The sweep's own run decides whether anything is reported at all.
  rcases hexec : (disposeAll h c (w.container c).registry.providers.reverse {}).exec
    (w.withPhase c .destroyed) with ⟨_ | r, v⟩
  · exact exec_bind_none (exec_step_none hexec)
  · refine (exec_bind_ok (exec_step_some hexec)).trans ?_
    refine (exec_bind_container (hhas r v hexec) _).trans ?_
    refine (exec_bind_ok (exec_step_some (Machine.exec_setRegistry ..))).trans ?_
    refine (exec_bind_ok (exec_step_some (Machine.exec_report ..))).trans ?_
    rcases r with ⟨count, _ | e⟩
    · rfl
    · rfl

/-- The first teardown of a container is a visit of its providers and what is left to do then. -/
theorem exec_destroy_ends (hl : h.Lawful D) (hw : w.Coherent) (hc : w.Has c)
    (hphase : (w.container c).phase ≠ .destroyed) :
    (destroy h c).run.exec w =
        closing c (w.container c).phase
          ((disposeAll h c (w.container c).registry.providers.reverse {}).exec
            (w.withPhase c .destroyed)) ∧
      SweepEnds D c (w.container c).registry.providers.reverse {} (w.withPhase c .destroyed)
        ((disposeAll h c (w.container c).registry.providers.reverse {}).exec
          (w.withPhase c .destroyed)) := by
  have hheld : ∀ p ∈ (w.container c).registry.providers.reverse,
      (w.withPhase c .destroyed).Holds c p := by
    intro p hp
    unfold World.Holds World.withPhase
    rw [World.container_withContainer_self]
    exact List.mem_reverse.1 hp
  have hends := disposeAll_ends hl (w.container c).registry.providers.reverse {}
    (hw.withPhase_destroyed hc) hheld (World.phase_withPhase w c .destroyed)
  refine ⟨exec_destroy h hc hphase fun r v hexec => ?_, hends⟩
  rw [hexec] at hends
  exact hends.frame.has c (World.has_withContainer _ hc)

theorem exec_destroy_destroyed (hc : w.Has c) (hphase : (w.container c).phase = .destroyed) :
    (destroy h c).run.exec w = (some (.ok ()), w.withPhase c .destroyed) := by
  unfold destroy
  rw [exec_bind_ok (exec_step_some (exec_swapPhase hc _))]
  dsimp only
  rw [if_pos hphase]
  rfl

theorem exec_destroy_none (hk : w.containers.get? c = none) :
    (destroy h c).run.exec w = (none, w) := by
  have hswap : (Machine.swapPhase c .destroyed).exec w = (none, w) := by
    unfold Machine.swapPhase
    exact Machine.exec_bind_none (Machine.exec_container_of_none hk)
  unfold destroy
  exact exec_bind_none (exec_step_none hswap)

theorem destroy_follows (hl : h.Lawful D) (c : ContainerId) (w : World C) :
    Attempt.Follows D (destroy h c) w (fun _ _ => True) (fun _ _ => True) := by
  intro hw
  rcases hk : w.containers.get? c with _ | k
  · rw [exec_destroy_none hk]
    exact .refl w false
  have hc : w.Has c := ⟨k, hk⟩
  by_cases hphase : (w.container c).phase = .destroyed
  · rw [exec_destroy_destroyed hc hphase]
    exact ⟨.quiet (quiet_swapPhase hc hphase), True.intro⟩
  obtain ⟨hexec, hends⟩ := exec_destroy_ends hl hw hc hphase
  rw [hexec]
  -- A sweep that stops leaves the container in the middle of its teardown.
  rcases hsweep : (disposeAll h c (w.container c).registry.providers.reverse {}).exec
    (w.withPhase c .destroyed) with ⟨_ | r, v⟩
  · rw [hsweep] at hends
    obtain ⟨r, hcourse⟩ := hends
    exact .tearing c r hc hphase hcourse
  · rw [hsweep] at hends
    have hcourse : Course D .work true w (v.closed c r.count (w.container c).phase) :=
      .teardown c r hc hphase hends
    rcases r with ⟨count, _ | e⟩
    · exact ⟨hcourse, True.intro⟩
    · exact ⟨hcourse, True.intro⟩

/-- When a teardown is answered, its container is torn down. -/
theorem phase_of_destroy (hl : h.Lawful D) (hw : w.Coherent) {r : Attempted Unit} {v : World C}
    (hexec : (destroy h c).run.exec w = (some r, v)) : (v.container c).phase = .destroyed := by
  have hdestroyed := World.phase_withPhase w c .destroyed
  rcases hk : w.containers.get? c with _ | k
  · cases (exec_destroy_none hk).symm.trans hexec
  by_cases hphase : (w.container c).phase = .destroyed
  · cases (exec_destroy_destroyed ⟨k, hk⟩ hphase).symm.trans hexec
    exact hdestroyed
  obtain ⟨hcloses, hends⟩ := exec_destroy_ends hl hw ⟨k, hk⟩ hphase
  rw [hcloses] at hexec
  rcases hsweep : (disposeAll h c (w.container c).registry.providers.reverse {}).exec
    (w.withPhase c .destroyed) with ⟨_ | r', u⟩ <;> rw [hsweep] at hexec hends <;> cases hexec
  exact (hends.frame.trans (.closed u c r'.count _)).destroyed hdestroyed

end Wiring.Host
