import Wiring.Proofs.Congruence

/-!
# Two moments of a run

A run that is watched for two worlds shows the one and then the other, however deep in nested calls
and in whatever brackets they come up. From the earlier moment to the later one every container
only moves on in its life, its providers stay as they are once it has left its first phase, its
definitions change by the revisions that it reports, and the journal grows. Unlike a course, the
part of the run between the two moments may end brackets that began before it.

Main statement: `Codebase.Passes.moves`.
-/

namespace Wiring

variable {C : Client}

/-- How a container may change, step by step. -/
structure Container.Moves (k k' : Container C) : Prop where
  phase : k.phase.Leads k'.phase
  providers : k.phase ≠ .unconfigured → k'.registry.providers = k.registry.providers

namespace Container.Moves

theorem refl (k : Container C) : k.Moves k := ⟨.refl _, fun _ => rfl⟩

theorem trans {k l m : Container C} (hkl : k.Moves l) (hlm : l.Moves m) : k.Moves m := by
  refine ⟨hkl.phase.trans hlm.phase, fun hk => ?_⟩
  rw [hlm.providers (hkl.phase.ne_unconfigured hk), hkl.providers hk]

end Container.Moves

namespace World

/-- How a world may change, step by step: of the containers that were made, each only moves on. -/
structure Moves (w v : World C) : Prop where
  count : w.containerCount ≤ v.containerCount
  has : ∀ c, w.Has c → v.Has c
  container : ∀ c : ContainerId, c.number < w.containerCount →
    (w.container c).Moves (v.container c)
  revised : ∀ c : ContainerId, c.number < w.containerCount → ∃ l, w.Revises v c l
  journal : w.journal <:+ v.journal

namespace Moves

theorem refl (w : World C) : w.Moves w :=
  ⟨Nat.le_refl _, fun _ hc => hc, fun _ _ => .refl _, fun _ _ => ⟨[], .of_same rfl rfl⟩,
    List.suffix_refl _⟩

theorem trans {w u v : World C} (hwu : w.Moves u) (huv : u.Moves v) : w.Moves v := by
  have hlt : ∀ c : ContainerId, c.number < w.containerCount → c.number < u.containerCount :=
    fun c hc => Nat.lt_of_lt_of_le hc hwu.count
  refine ⟨Nat.le_trans hwu.count huv.count, fun c hc => huv.has c (hwu.has c hc), fun c hc => ?_,
    fun c hc => ?_, hwu.journal.trans huv.journal⟩
  · exact (hwu.container c hc).trans (huv.container c (hlt c hc))
  · obtain ⟨l, hl⟩ := hwu.revised c hc
    obtain ⟨m, hm⟩ := huv.revised c (hlt c hc)
    exact ⟨l ++ m, hl.trans hm⟩

/-- Neither the containers nor the journal change. -/
theorem of_eq {w v : World C} (hc : v.containers = w.containers)
    (hcount : v.containerCount = w.containerCount) (hj : v.journal = w.journal) : w.Moves v := by
  refine ⟨Nat.le_of_eq hcount.symm, fun c hw => ?_, fun c _ => ?_,
    fun c _ => Accounts.of_eq hc hj c, ?_⟩
  · unfold Has at hw ⊢
    rwa [hc]
  · rw [container_congr hc]
    exact .refl _
  · exact hj ▸ List.suffix_refl w.journal

/-- An entry that is no revision is no move of the container. -/
theorem enter (w : World C) {e : Entry C} (he : ∀ c, e.revision? c = none) :
    w.Moves (w.enter e) :=
  ⟨Nat.le_refl _, fun _ hc => hc, fun _ _ => .refl _, fun c _ => Accounts.enter w he c,
    List.suffix_cons e w.journal⟩

/-- One container moves on and keeps its providers. -/
theorem withContainer {w : World C} {c : ContainerId} {f : Container C → Container C}
    (h : (w.container c).phase.Leads (f (w.container c)).phase)
    (hf : (f (w.container c)).registry.providers = (w.container c).registry.providers) :
    w.Moves (w.withContainer c f) := by
  have hmoves := forall_container_withContainer (P := fun d k => (w.container d).Moves k)
    ⟨h, fun _ => hf⟩ fun _ _ => .refl _
  exact ⟨Nat.le_refl _, fun _ hd => has_withContainer f hd, fun d _ => hmoves d,
    fun d _ => Accounts.withContainer w hf d, List.suffix_refl _⟩

/-- A new container is none of those that were made. -/
theorem created (w : World C) :
    w.Moves { w with containers := w.containers.put ⟨w.containerCount⟩ {},
                     containerCount := w.containerCount + 1 } := by
  -- The containers there are have smaller numbers than the new one.
  have hcontainer : ∀ c : ContainerId, c.number < w.containerCount →
      World.container { w with containers := w.containers.put ⟨w.containerCount⟩ {},
                               containerCount := w.containerCount + 1 } c = w.container c := by
    intro c hc
    have hne : c ≠ ⟨w.containerCount⟩ := by
      rintro rfl
      exact Nat.lt_irrefl _ hc
    exact (container_congr (w := w.withContainer ⟨w.containerCount⟩ fun _ => {}) rfl c).trans
      (container_withContainer_of_ne _ _ hne)
  refine ⟨Nat.le_succ _, fun c hc => ?_, fun c hc => ?_, fun c hc => ⟨[], ?_⟩,
    List.suffix_refl _⟩
  · obtain ⟨k, hk⟩ := hc
    by_cases hne : c = ⟨w.containerCount⟩
    · subst hne
      exact ⟨{}, Table.get?_put_self ..⟩
    · exact ⟨k, (Table.get?_put_of_ne _ _ hne).trans hk⟩
  · rw [hcontainer c hc]
    exact .refl _
  · exact .of_same (definitions_congr (by rw [hcontainer c hc])) rfl

/-- The registry of an unconfigured container is revised. -/
theorem revise {w v : World C} {c : ContainerId} {r : Registry C}
    (hphase : (w.container c).phase = .unconfigured)
    (hcontainers : v.containers = (w.withRegistry c r).containers)
    (hcount : v.containerCount = w.containerCount) (haccounts : w.Accounts v)
    (hjournal : w.journal <:+ v.journal) : w.Moves v := by
  have hmoves : ∀ d, (w.container d).Moves (v.container d) := by
    intro d
    rw [container_congr hcontainers]
    exact forall_container_withContainer (P := fun d k => (w.container d).Moves k)
      ⟨.refl _, fun h => absurd hphase h⟩ (fun _ _ => .refl _) d
  refine ⟨Nat.le_of_eq hcount.symm, fun d hd => ?_, fun d _ => hmoves d,
    fun d _ => haccounts d, hjournal⟩
  have hhas : (w.withRegistry c r).Has d := has_withContainer _ hd
  unfold Has at hhas ⊢
  rwa [hcontainers]

/-- A registration moves an unconfigured container. -/
theorem registered {w : World C} {c : ContainerId} (h : (w.container c).phase = .unconfigured)
    (d : Definition C) (size : Nat) : w.Moves (w.registered c d size) :=
  revise h rfl rfl (.registered w c d size) (List.suffix_cons _ _)

/-- So does an unregistration. -/
theorem unregistered {w : World C} {c : ContainerId} (h : (w.container c).phase = .unconfigured)
    (type : TypeKey) (qualifiers : Qualifiers) (removed : Nat) :
    w.Moves (w.unregistered c type qualifiers removed) :=
  revise h rfl rfl (.unregistered w c type qualifiers removed) (List.suffix_cons _ _)

theorem advanced (w : World C) (c : ContainerId) {old new : Phase} (h : old.Leads new) :
    w.Moves (w.advanced c old new) := by
  refine .withContainer ?_ ?_
  · by_cases hphase : (w.container c).phase = old
    · rw [if_pos hphase]
      subst hphase
      exact h
    · rw [if_neg hphase]
      exact .refl _
  · split <;> rfl

theorem withPhase_destroyed (w : World C) (c : ContainerId) :
    w.Moves (w.withPhase c .destroyed) :=
  .withContainer (by cases (w.container c).phase <;> exact True.intro) rfl

theorem settled (w : World C) (c : ContainerId) (r : Attempted Unit) : w.Moves (w.settled c r) :=
  .withContainer (.refl _) rfl

end Moves

end World

/-- The second step, in a run that goes on, moves the world; the first one, in a run that may be
stopped, does the same or is stopped in a world that moves to where the second one comes. -/
def Machine.Resumes (α : Type) (w : World C) (m m' : Machine C α) : Prop :=
  w.Moves (m'.exec w).2 ∧
    (m.exec w = m'.exec w ∨ ∃ u, m.exec w = (none, u) ∧ w.Moves u ∧ u.Moves (m'.exec w).2)

namespace Machine.Resumes

open World

variable {α β : Type} {w : World C}

/-- The same step on both sides. -/
theorem of_moves {m : Machine C α} (h : w.Moves (m.exec w).2) : Resumes α w m m := ⟨h, .inl rfl⟩

/-- Machines resume part by part. -/
theorem bind {m m' : Machine C α} {f f' : α → Machine C β} (h : Resumes α w m m')
    (hf : ∀ a v, m'.exec w = (some a, v) → Resumes β v (f a) (f' a)) :
    Resumes β w (m >>= f) (m' >>= f') := by
  obtain ⟨hmoves, hsame⟩ := h
  -- Both runs agree up to the moment, or the longer one went through it.
  rcases hm' : m'.exec w with ⟨_ | a, v⟩
  · rw [hm'] at hmoves hsame
    unfold Resumes
    rw [exec_bind_none hm']
    refine ⟨hmoves, ?_⟩
    rcases hsame with hsame | ⟨u, hu, hwu, huv⟩
    · exact .inl (exec_bind_none hsame)
    · exact .inr ⟨u, exec_bind_none hu, hwu, huv⟩
  · rw [hm'] at hmoves hsame
    obtain ⟨hrest, hrestSame⟩ := hf a v hm'
    unfold Resumes
    rw [exec_bind_some hm']
    refine ⟨hmoves.trans hrest, ?_⟩
    rcases hsame with hsame | ⟨u, hu, hwu, huv⟩
    · -- Nothing was stopped yet, so the rest of the run decides.
      rw [exec_bind_some hsame]
      rcases hrestSame with hrestSame | ⟨u, hu, hvu, huend⟩
      · exact .inl hrestSame
      · exact .inr ⟨u, hu, hmoves.trans hvu, huend⟩
    · exact .inr ⟨u, exec_bind_none hu, hwu, huv.trans hrest⟩

/-- A joined thread resumes as its machine does. -/
theorem apart {m m' : Machine C α} (h : Resumes α w.departed m m') :
    Resumes α w (Machine.apart m) (Machine.apart m') := by
  -- Stepping aside and coming back move no container.
  have hdeparted : w.Moves w.departed := .of_eq rfl rfl rfl
  have hrejoined : ∀ v : World C, v.Moves (w.rejoined v) :=
    fun v => .of_eq rfl rfl rfl
  obtain ⟨hmoves, hsame⟩ := h
  unfold Resumes
  rw [exec_apart, exec_apart]
  rcases hm' : m'.exec w.departed with ⟨_ | a, v⟩
  · rw [hm'] at hmoves hsame
    refine ⟨hdeparted.trans hmoves, ?_⟩
    rcases hsame with hsame | ⟨u, hu, hwu, huv⟩
    · rw [hsame]
      exact .inl rfl
    · rw [hu]
      exact .inr ⟨u, rfl, hdeparted.trans hwu, huv⟩
  · rw [hm'] at hmoves hsame
    refine ⟨(hdeparted.trans hmoves).trans (hrejoined v), ?_⟩
    rcases hsame with hsame | ⟨u, hu, hwu, huv⟩
    · rw [hsame]
      exact .inl rfl
    · rw [hu]
      exact .inr ⟨u, rfl, hdeparted.trans hwu, huv.trans (hrejoined v)⟩

/-- Every small step moves the world. -/
theorem congruence : Congruence.Full (C := C) Resumes where
  pure w _ := of_moves (.refl w)
  failure _ w := of_moves (.refl w)
  bind := bind
  look w := of_moves (.refl w)
  -- What is reported here is no revision: those are reported by their own two steps.
  report w c e he := by
    have hnone : ∀ d, Entry.revision? d (.event c e : Entry C) = none :=
      fun d => if_neg fun h => Bool.noConfusion (he.symm.trans h.1)
    exact of_moves (.enter w hnone)
  mark w _ := of_moves (.enter w fun _ => rfl)
  note w _ := of_moves (.enter w fun _ => rfl)
  setClient _ _ := of_moves (.of_eq rfl rfl rfl)
  addContainer w := of_moves (.created w)
  -- A registration that is refused changes nothing; one that is accepted finds the container
  -- unconfigured.
  register w c r := by
    refine of_moves ?_
    rcases Host.register_cases c r w with hsame | ⟨hphase, hregistered⟩
    · rw [hsame]
      exact .refl w
    · rw [hregistered]
      exact .registered hphase r.definition _
  unregister w c type qualifiers := by
    refine of_moves ?_
    rcases Host.unregister_cases c type qualifiers w with hsame | ⟨hphase, hunregistered⟩
    · rw [hsame]
      exact .refl w
    · rw [hunregistered]
      exact .unregistered hphase type qualifiers _
  setRegistry w c r hr := by
    have hmoves : w.Moves (w.withRegistry c r) := .withContainer (.refl _) hr.providers
    exact of_moves hmoves
  advancePhase w c old new hlead := of_moves (.advanced w c hlead)
  -- Marking a container as destroyed is a move from every phase.
  swapPhase w c := by
    refine of_moves ?_
    rcases hk : w.containers.get? c with _ | k
    · unfold swapPhase
      rw [exec_bind_none (exec_container_of_none hk)]
      exact .refl w
    · rw [Host.exec_swapPhase ⟨k, hk⟩]
      exact .withPhase_destroyed w c
  settleValidation w c r := of_moves (.settled w c r)
  keep w p v := by
    have hkept : w.Moves { w with kept := w.kept.put p v } := .of_eq rfl rfl rfl
    exact of_moves (hkept.trans (.enter _ fun _ => rfl))
  release? w p := by
    refine of_moves ?_
    rcases hkept : w.kept.get? p.id with _ | v
    · rw [Host.exec_release?_none hkept]
      exact .refl w
    · rw [Host.exec_release?_some hkept]
      have herased : w.Moves { w with kept := w.kept.erase p.id } := .of_eq rfl rfl rfl
      exact herased.trans (.enter _ fun _ => rfl)
  beginBuilding _ _ := of_moves (.of_eq rfl rfl rfl)
  endBuilding _ _ := of_moves (.of_eq rfl rfl rfl)
  apart := apart

end Machine.Resumes

namespace Codebase

variable {code : Codebase C}

/-- A run that stops for one of two watchers resumes as the run that stops for the second one. -/
theorem performUntil_resumes (code : Codebase C) (first second : World C → Bool) (depth : Nat)
    (k : Call C) (w : World C) :
    Machine.Resumes _ w (code.performUntil (fun u => first u || second u) depth k)
      (code.performUntil second depth k) := by
  induction depth generalizing k w with
  | zero => exact .of_moves (.refl w)
  | succ depth ih =>
    have hanswer : Machine.Resumes _ w
        ((code.hostUntil (fun u => first u || second u) depth).answer k)
        ((code.hostUntil second depth).answer k) :=
      Host.answer_congr Machine.Resumes.congruence ih k w
    -- The later moment is reached only after the earlier one.
    rcases hsecond : second w with _ | _
    · have hrest := performUntil_succ_of_not_stop code second depth k hsecond
      unfold Machine.Resumes
      rw [hrest]
      rcases hfirst : first w with _ | _
      · have hneither : (first w || second w) = false := by rw [hfirst, hsecond]; rfl
        rw [performUntil_succ_of_not_stop code (fun u => first u || second u) depth k hneither]
        exact hanswer
      · have heither : (first w || second w) = true := by rw [hfirst]; rfl
        rw [performUntil_succ_of_stop code (fun u => first u || second u) depth k heither]
        exact ⟨hanswer.1, .inr ⟨w, rfl, .refl w, hanswer.1⟩⟩
    · have heither : (first w || second w) = true := by rw [hsecond, Bool.or_true]
      unfold Machine.Resumes
      rw [performUntil_succ_of_stop code (fun u => first u || second u) depth k heither,
        performUntil_succ_of_stop code second depth k hsecond]
      exact ⟨.refl w, .inl rfl⟩

/-- A call that is performed moves the world. -/
theorem perform_moves (code : Codebase C) (depth : Nat) (k : Call C) (w : World C) :
    w.Moves ((code.perform depth k).exec w).2 := by
  have hmoves := (code.performUntil_resumes (fun _ => false) (fun _ => false) depth k w).1
  rwa [performUntil_never] at hmoves

/-- Some run of client code from a world passes a moment in the second world and then one in the
third: it is stopped in the second world by two watchers, and in the third one by the second of
them alone. Client code that counts its calls in its own state meets no world twice, so every two
moments of a run can be watched for. -/
def Passes (code : Codebase C) (s w v : World C) : Prop :=
  ∃ (α : Type) (p : Program C α) (first second : World C → Bool) (depth : Nat),
    ((code.runUntil (fun u => first u || second u) depth p).exec s).2 = w ∧
      ((code.runUntil second depth p).exec s).2 = v

/-- Both moments are visited. -/
theorem Passes.visits {s w v : World C} (h : code.Passes s w v) :
    code.Visits s w ∧ code.Visits s v := by
  obtain ⟨α, p, first, second, depth, hw, hv⟩ := h
  exact ⟨⟨α, p, _, depth, hw⟩, ⟨α, p, _, depth, hv⟩⟩

/-- From the earlier moment of a run to the later one the world has moved on. -/
theorem Passes.moves {s w v : World C} (h : code.Passes s w v) : w.Moves v := by
  obtain ⟨α, p, first, second, depth, rfl, rfl⟩ := h
  obtain ⟨-, hsame⟩ := Host.run_congr Machine.Resumes.congruence.toActing
    (code.performUntil_resumes first second depth) p s
  rcases hsame with hsame | ⟨u, hu, -, huv⟩
  · unfold runUntil
    rw [hsame]
    exact .refl _
  · unfold runUntil
    rw [hu]
    exact huv

end Codebase

end Wiring
