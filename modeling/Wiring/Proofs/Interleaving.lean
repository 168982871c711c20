import Wiring.Host.Together
import Wiring.Proofs.Announcing

/-!
# Threads at once

Where several threads resolve objects at the same time, what one of them does may come between two
parts of what another one does: behind its look for a kept value, and before its turn to make one.
`Codebase.Interleaves` lets such threads take their steps in any order, beside whole calls of other
threads. Each of the steps follows a course of its own, so all that holds along courses holds where
threads are interleaved.

A thread that is alone takes both parts in a row, and then they are the whole request
(`Host.getObject_eq_finish`).

Main statements: `Codebase.Interleaves.idle`, `Host.approachProvider_goes`,
`Host.takeTurn_goes`.
-/

namespace Wiring

variable {C : Client} {D : Outline}

namespace Host

/-! ## A thread that is alone -/

/-- A provider is asked in two parts, the second one right behind the first. -/
theorem provideAs_eq_finish (h : Host C) (c : ContainerId) (p : Provider C) (type : TypeKey) :
    provideAs h c p type = approachProvider h c p type >>= fun t => finish h c type (.ok t) := by
  unfold provideAs approachProvider provide
  rw [bind_assoc]
  refine congrArg _ (funext fun _ => ?_)
  -- A singleton is looked for first; where its slot is filled nothing is left to wait for.
  rcases p.definition.scope
  · dsimp only
    rw [bind_assoc, bind_assoc]
    refine congrArg _ (funext fun kept => ?_)
    rcases kept with _ | x
    · exact (pure_bind _ _).symm
    · dsimp only
      rw [pure_bind, bind_assoc]
      simp only [pure_bind, finish, bind_pure]
  -- A prototype is made at once, so the request has arrived when it returns.
  · dsimp only
    simp only [bind_assoc, pure_bind, finish, bind_pure]

/-- What comes behind a request comes behind the way in which the provider is asked. -/
theorem askOnly_bind {α β : Type} (h : Host C) (c : ContainerId) (type : TypeKey)
    (qualifiers : Qualifiers) (itself : α) (ask : Provider C → Attempt C α) {f : α → Attempt C β}
    {b : β} (hf : f itself = pure b) :
    askOnly h c type qualifiers itself ask >>= f =
      askOnly h c type qualifiers b fun p => ask p >>= f := by
  unfold askOnly
  rw [bind_assoc]
  refine congrArg _ (funext fun _ => ?_)
  by_cases htype : type = .container
  · rw [if_pos htype, if_pos htype]
    exact (pure_bind _ _).trans hf
  · rw [if_neg htype, if_neg htype, bind_assoc]
    refine congrArg _ (funext fun k => ?_)
    -- Where nothing is found both ask nothing more and fail alike.
    rcases k.registry.findUnique (type, qualifiers) with ⟨e | p, registry⟩
    · dsimp only
      rw [bind_assoc, bind_assoc]
      rfl
    · dsimp only
      rw [bind_assoc, bind_assoc]

/-- A thread that has its turn as soon as it waits for it performs the request as a whole. -/
theorem getObject_eq_finish (h : Host C) (c : ContainerId) (type : TypeKey)
    (qualifiers : Qualifiers) :
    getObject h c type qualifiers =
      approach h c type qualifiers >>= fun t => finish h c type (.ok t) := by
  unfold getObject approach
  have hitself : finish h c type (.ok (.arrived (.container c))) = pure (.container c) := rfl
  rw [askOnly_bind h c type qualifiers _ _ (f := fun t => finish h c type (.ok t)) hitself]
  simp only [provideAs_eq_finish]

/-! ## What a thread does before its turn and in it -/

section Parts

variable {h : Host C} {u v w : World C} {c : ContainerId} {p : Provider C} {type : TypeKey}

/-- A cast runs client code and nothing else. -/
theorem asType_follows (x : Value C) :
    Attempt.Follows D (asType p type x) w (fun _ _ => True) (fun _ _ => True) := by
  unfold asType
  rcases p.definition.convert? type x with _ | y
  · exact .throw True.intro
  · exact .pure True.intro

/-- A thread that waits for its turn waits for a singleton of a configured container. -/
structure Awaits (w : World C) (c : ContainerId) (p : Provider C) : Prop where
  holds : w.Holds c p
  singleton : p.definition.scope = .singleton
  configured : (w.container c).phase ≠ .unconfigured

/-- What a thread waits for stays where it is. -/
theorem Awaits.later (hp : Awaits w c p) (h : w.Frame v) : Awaits v c p :=
  ⟨hp.holds.later hp.configured h, hp.singleton,
    (h.container c).phase.ne_unconfigured hp.configured⟩

/-- A request for a provider either answers or waits for that provider, which it has then found in a
ready container. -/
theorem approachProvider_follows (hl : h.Lawful D) (hp : w.Holds c p)
    (hphase : (w.container c).phase ≠ .unconfigured) :
    Attempt.Follows D (approachProvider h c p type) w
      (fun t v => ∀ q, t = .waiting q → q = p ∧ Awaits v c p) (fun _ _ => True) := by
  unfold approachProvider
  refine .bind ((ensureReady_follows hl c w).mono ?_ fun _ _ h => h)
  rintro _ u ⟨_, _, _, hsame⟩
  -- The container was configured before, so it is ready and nothing has moved.
  obtain ⟨rfl, hready⟩ := hsame hphase
  have harrived : ∀ x v, Attempt.Follows D (return Progress.arrived (← asType p type x)) v
      (fun t v => ∀ q, t = .waiting q → q = p ∧ Awaits v c p) (fun _ _ => True) :=
    fun x v => .bind ((asType_follows x).mono (fun _ _ _ => .pure nofun) fun _ _ h => h)
  rcases hs : p.definition.scope
  -- A singleton whose slot is empty is waited for.
  · rcases hkept : u.kept.get? p.id with _ | x
    · refine .bind (.step (.of_exec (exec_look_of_not_kept hkept) (.refl u true) ?_))
      refine .pure ?_
      rintro q ⟨⟩
      exact ⟨rfl, hp, hs, hphase⟩
    · refine .bind (.step (.of_exec (exec_look_of_kept hkept) (.quiet (.reused u c hp hkept)) ?_))
      exact harrived x _
  -- A prototype is made at once.
  · exact .bind ((provide_follows hl hp hready).mono (fun x v _ => harrived x v) fun _ _ h => h)

/-- A request either answers or waits for a provider of its container. -/
theorem approach_follows (hl : h.Lawful D) (c : ContainerId) (type : TypeKey)
    (qualifiers : Qualifiers) (w : World C) :
    Attempt.Follows D (approach h c type qualifiers) w
      (fun t v => ∀ q, t = .waiting q → Awaits v c q) (fun _ _ => True) := by
  refine askOnly_follows hl c type qualifiers w (fun _ _ => nofun) fun p u hp hne _ => ?_
  refine (approachProvider_follows hl hp hne).mono ?_ fun _ _ h => h
  rintro t v ht q hq
  obtain ⟨rfl, hawaits⟩ := ht q hq
  exact hawaits

/-- The making of a singleton that was waited for is a course of work, whatever happened in between.
-/
theorem makeOnce_follows (hl : h.Lawful D) (hp : Awaits w c p)
    (hready : (w.container c).phase = .ready) (hidle : w.underway = []) :
    Attempt.Follows D (makeOnce h c p) w (fun _ _ => True) (fun _ _ => True) := by
  obtain ⟨hbuilding, hwaiting⟩ := World.not_building_of_idle hidle p.id
  rcases hkept : w.kept.get? p.id with _ | x
  · have hsame := exec_makeOnce_of_not_kept (h := h) (c := c) hp.singleton hbuilding hwaiting hkept
    rw [← exec_provide hbuilding (fun _ => hkept) fun _ => hwaiting] at hsame
    refine Machine.Follows.congr_exec hsame ?_
    exact Attempt.Follows.mono (provide_follows hl hp.holds hready) (fun _ _ _ => True.intro)
      fun _ _ h => h
  · exact .of_exec_ok (exec_makeOnce_of_kept hbuilding (fun _ => hwaiting) hkept) (.refl w true)
      True.intro

/-- So is the turn of a thread, from its making to the value it hands out. -/
theorem takeTurn_follows (hl : h.Lawful D) (hp : Awaits w c p)
    (hready : (w.container c).phase = .ready) (hidle : w.underway = []) :
    Attempt.Follows D (takeTurn h c p type) w (fun _ _ => True) (fun _ _ => True) :=
  .bind ((makeOnce_follows hl hp hready hidle).mono (fun x _ _ => asType_follows x)
    fun _ _ h => h)

end Parts

end Host

/-! ## Interleaved threads -/

/-- A thread that waits for its turn to make the value of a singleton, which it asked for as some
type. -/
structure Waiter (C : Client) where
  container : ContainerId
  provider : Provider C
  type : TypeKey

namespace Codebase

variable {code : Codebase C} {s : C.State} {w₀ w : World C} {l : List (Waiter C)}

/-- From where a run has ended threads come to a world in which some of them wait for their turn.
Threads take turns in what they do: one performs a call from its beginning to its end; another one
performs what comes before its turn, be it of a request by type or for a match of a selection; or it
is the turn of one that waits, in a container that is still ready. -/
inductive Interleaves (code : Codebase C) (w₀ : World C) : List (Waiter C) → World C → Prop
  | start : Interleaves code w₀ [] w₀
  | call {l : List (Waiter C)} {u v : World C} {k : Call C} {r : Reply C k} (depth : Nat) :
      Interleaves code w₀ l u → (code.perform depth k).exec u = (some r, v) →
      Interleaves code w₀ l v
  | request {l : List (Waiter C)} {u v : World C} {c : ContainerId} {p : Provider C}
      {type : TypeKey} {qualifiers : Qualifiers} (depth : Nat) : Interleaves code w₀ l u →
      ((code.hostAt depth).approach c type qualifiers).run.exec u =
        (some (.ok (.waiting p)), v) →
      Interleaves code w₀ (⟨c, p, type⟩ :: l) v
  | ofMatch {l : List (Waiter C)} {u v : World C} {c : ContainerId} {p q : Provider C}
      {type : TypeKey} (depth : Nat) : Interleaves code w₀ l u → u.Holds c q →
      (u.container c).phase ≠ .unconfigured →
      ((code.hostAt depth).approachProvider c q type).run.exec u =
        (some (.ok (.waiting p)), v) →
      Interleaves code w₀ (⟨c, p, type⟩ :: l) v
  | turn {before after : List (Waiter C)} {t : Waiter C} {u v : World C}
      {r : Attempted (Value C)} (depth : Nat) :
      Interleaves code w₀ (before ++ t :: after) u → (u.container t.container).phase = .ready →
      ((code.hostAt depth).takeTurn t.container t.provider t.type).run.exec u = (some r, v) →
      Interleaves code w₀ (before ++ after) v

/-- Where threads come to, nothing is under construction, and those that wait do so for singletons
that their containers hold. -/
structure Idle (l : List (Waiter C)) (w : World C) : Prop where
  coherent : w.Coherent
  underway : w.underway = []
  awaits : ∀ t ∈ l, Host.Awaits w t.container t.provider

/-- Behind the course of one more step, those that have waited still do. -/
theorem Idle.later {u v : World C} (hu : Idle l u) (h : Course D .work true u v) : Idle l v :=
  ⟨h.coherent hu.coherent, (h.underway).trans hu.underway,
    fun t ht => (hu.awaits t ht).later h.frame⟩

/-- However threads are interleaved, what they do is a course that has ended. -/
theorem Interleaves.idle (h : code.Interleaves w₀ l w) (hw : code.Ends (.blank s) w₀) :
    Course .any .work true (.blank s) w ∧ Idle l w := by
  have hblank := World.blank_coherent (C := C) s
  have hl := fun depth => code.describes_any.host_lawful depth
  -- Induction on the steps; each is a course from an idle world, and leaves it idle.
  induction h with
  | start =>
    have hcourse := hw.course code.describes_any hblank
    exact ⟨hcourse, hcourse.coherent hblank, hcourse.underway,
      fun t ht => absurd ht List.not_mem_nil⟩
  | call depth _ hexec ih =>
    obtain ⟨hcourse, hidle⟩ := ih
    have hstep := ((perform_follows code.describes_any depth _ _).ends hidle.coherent hexec).1
    exact ⟨hcourse.trans hstep, hidle.later hstep⟩
  | request depth _ hexec ih =>
    obtain ⟨hcourse, hidle⟩ := ih
    obtain ⟨hstep, hawaits⟩ :=
      Machine.Follows.ends (Host.approach_follows (hl depth) _ _ _ _) hidle.coherent hexec
    refine ⟨hcourse.trans hstep, { hidle.later hstep with awaits := ?_ }⟩
    exact List.forall_mem_cons.2 ⟨hawaits _ rfl, (hidle.later hstep).awaits⟩
  | ofMatch depth _ hq hphase hexec ih =>
    obtain ⟨hcourse, hidle⟩ := ih
    obtain ⟨hstep, hawaits⟩ := Machine.Follows.ends
      (Host.approachProvider_follows (hl depth) hq hphase) hidle.coherent hexec
    -- Whoever waits waits for the provider it was looking for.
    obtain ⟨rfl, hawaits⟩ := hawaits _ rfl
    refine ⟨hcourse.trans hstep, { hidle.later hstep with awaits := ?_ }⟩
    exact List.forall_mem_cons.2 ⟨hawaits, (hidle.later hstep).awaits⟩
  | turn depth _ hready hexec ih =>
    obtain ⟨hcourse, hidle⟩ := ih
    have hawaits := hidle.awaits _ (List.mem_append_right _ List.mem_cons_self)
    obtain ⟨hstep, -⟩ := Machine.Follows.ends
      (Host.takeTurn_follows (hl depth) hawaits hready hidle.underway) hidle.coherent hexec
    refine ⟨hcourse.trans hstep, { hidle.later hstep with awaits := fun t ht => ?_ }⟩
    -- The one that had its turn waits no more; the others wait on.
    refine (hidle.later hstep).awaits t ?_
    rcases List.mem_append.1 ht with ht | ht
    · exact List.mem_append_left _ ht
    · exact List.mem_append_right _ (List.mem_cons_of_mem _ ht)

end Codebase

end Wiring
