import Wiring.Host.Construction
import Wiring.Proofs.Execution

/-!
# Runs of client code

What an operation does with client code is said here as relations between the world in which the
code begins, its outcome and the world in which it ends: one member is run (`Invokes`), hooks are
run in order up to the first that fails (`RunsHooks`). The operations run client code exactly so.

Main statements: `Host.exec_invoke_iff`, `Host.exec_runHooks_iff`.
-/

namespace Wiring

variable {C : Client} {α β : Type}

/-- Two steps have an answer exactly if the first one has and the second one has after it. -/
theorem Machine.exec_bind_iff {m : Machine C α} {f : α → Machine C β} {w v : World C} {b : β} :
    (m >>= f).exec w = (some b, v) ↔
      ∃ a u, m.exec w = (some a, u) ∧ (f a).exec u = (some b, v) := by
  rw [exec_bind]
  -- A machine that stops answers nothing.
  rcases m.exec w with ⟨_ | a, u⟩
  · constructor
    · intro h
      cases h
    · rintro ⟨a, u', h, -⟩
      cases h
  · constructor
    · intro h
      exact ⟨a, u, rfl, h⟩
    · rintro ⟨a', u', h, hf⟩
      cases h
      exact hf

namespace Host

variable {h : Host C} {w v : World C} {r : Attempted Unit} {type : TypeKey} {o : C.Object}

/-- Two steps that may fail have an answer if both succeed or fail in turn, or if the first one
fails. -/
theorem exec_bind_iff {a : Attempt C α} {f : α → Attempt C β} {r : Attempted β} :
    (a >>= f).run.exec w = (some r, v) ↔
      (∃ x u, a.run.exec w = (some (.ok x), u) ∧ (f x).run.exec u = (some r, v)) ∨
        ∃ e, a.run.exec w = (some (.error e), v) ∧ r = .error e := by
  constructor
  · intro hexec
    rw [exec_bind] at hexec
    -- A stop, a failure or a success of the first part.
    rcases ha : a.run.exec w with ⟨_ | e | x, u⟩
    · rw [ha] at hexec
      cases hexec
    · rw [ha] at hexec
      cases hexec
      exact .inr ⟨e, rfl, rfl⟩
    · rw [ha] at hexec
      exact .inl ⟨x, u, rfl, hexec⟩
  · rintro (⟨x, u, ha, hf⟩ | ⟨e, ha, rfl⟩)
    · rw [exec_bind_ok ha, hf]
    · exact exec_bind_error ha

/-- Two steps that may fail succeed exactly if both do. -/
theorem exec_bind_ok_iff {a : Attempt C α} {f : α → Attempt C β} {y : β} :
    (a >>= f).run.exec w = (some (.ok y), v) ↔
      ∃ x u, a.run.exec w = (some (.ok x), u) ∧ (f x).run.exec u = (some (.ok y), v) := by
  rw [exec_bind_iff]
  constructor
  · rintro (h | ⟨e, -, heq⟩)
    · exact h
    · cases heq
  · exact .inl

/-- After a step that cannot fail, the second one decides. -/
theorem exec_bind_step_iff {m : Machine C α} {f : α → Attempt C β} {r : Attempted β} :
    (step m >>= f).run.exec w = (some r, v) ↔
      ∃ a u, m.exec w = (some a, u) ∧ (f a).run.exec u = (some r, v) := by
  constructor
  · intro hexec
    rcases hm : m.exec w with ⟨_ | a, u⟩
    · rw [exec_bind_none (exec_step_none hm)] at hexec
      cases hexec
    · rw [exec_bind_ok (exec_step_some hm)] at hexec
      exact ⟨a, u, rfl, hexec⟩
  · rintro ⟨a, u, hm, hf⟩
    rw [exec_bind_ok (exec_step_some hm), hf]

/-- A step goes on with the result of another one, failed or not. -/
theorem exec_bind_resultOf_iff {a : Attempt C α} {f : Attempted α → Attempt C β}
    {r : Attempted β} :
    (resultOf a >>= f).run.exec w = (some r, v) ↔
      ∃ x u, a.run.exec w = (some x, u) ∧ (f x).run.exec u = (some r, v) :=
  exec_bind_step_iff (m := a.run)

/-- Client code of a member runs from the first world to the second one; what it says of its own
accord becomes a failure of the member. -/
inductive Invokes (h : Host C) (member : String) (p : Routine C α) (w : World C) :
    Attempted α → World C → Prop
  | ok {a : α} {v : World C} :
      (h.run p).exec (w.enter (.milestone (.invoked member))) = (some (.ok a), v) →
      h.Invokes member p w (.ok a) v
  | error {problem : Problem} {v : World C} :
      (h.run p).exec (w.enter (.milestone (.invoked member))) = (some (.error problem), v) →
      h.Invokes member p w (.error (.ofProblem member problem)) v

/-- Running a routine under a member's name, read as a relation. -/
theorem exec_invoke_iff {member : String} {p : Routine C α} {r : Attempted α} :
    (h.invoke member p).run.exec w = (some r, v) ↔ h.Invokes member p w r v := by
  unfold invoke
  rw [exec_bind_ok (exec_step_some (Machine.exec_mark ..)), exec_bind_step_iff]
  constructor
  · rintro ⟨outcome, u, hrun, hend⟩
    -- A problem of the routine is labelled by the member, a value is handed on.
    rcases outcome with problem | a
    · cases hend
      exact .error hrun
    · cases hend
      exact .ok hrun
  · intro hinvokes
    cases hinvokes with
    | ok hrun => exact ⟨_, _, hrun, rfl⟩
    | error hrun => exact ⟨_, _, hrun, rfl⟩

/-- Hooks of a type run on an object from the first world to the second one, in order and up to the
first that fails. -/
inductive RunsHooks (h : Host C) (type : TypeKey) (o : C.Object) :
    List (Hook C.Object (Routine C Unit)) → World C → Attempted Unit → World C → Prop
  | done (w : World C) : RunsHooks h type o [] w (.ok ()) w
  | next {hook : Hook C.Object (Routine C Unit)} {rest : List (Hook C.Object (Routine C Unit))}
      {w u v : World C} {r : Attempted Unit} :
      h.Invokes (Label.call type.name hook.name) (hook.act o) w (.ok ()) u →
      RunsHooks h type o rest u r v → RunsHooks h type o (hook :: rest) w r v
  | failed {hook : Hook C.Object (Routine C Unit)} {rest : List (Hook C.Object (Routine C Unit))}
      {w v : World C} {e : Failure} :
      h.Invokes (Label.call type.name hook.name) (hook.act o) w (.error e) v →
      RunsHooks h type o (hook :: rest) w (.error e) v

/-- Running a list of hooks, read as a relation: by induction on the list. -/
theorem exec_runHooks_iff {l : List (Hook C.Object (Routine C Unit))} :
    (runHooks h type o l).run.exec w = (some r, v) ↔ h.RunsHooks type o l w r v := by
  -- Hook by hook: the rest is run only after a success.
  induction l generalizing w with
  | nil =>
    constructor
    · intro hexec
      cases hexec
      exact .done _
    · intro hruns
      cases hruns
      rfl
  | cons hook rest ih =>
    unfold runHooks
    rw [exec_bind_iff]
    constructor
    · rintro (⟨_, u, hinvoke, hrest⟩ | ⟨e, hinvoke, rfl⟩)
      · exact .next (exec_invoke_iff.1 hinvoke) (ih.1 hrest)
      · exact .failed (exec_invoke_iff.1 hinvoke)
    · intro hruns
      cases hruns with
      | next hinvokes hrest => exact .inl ⟨_, _, exec_invoke_iff.2 hinvokes, ih.2 hrest⟩
      | failed hinvokes => exact .inr ⟨_, exec_invoke_iff.2 hinvokes, rfl⟩

/-- The hooks for the time after construction run as the lifecycle has them. -/
theorem exec_postConstruct_iff :
    (postConstruct h type o).run.exec w = (some r, v) ↔
      ∃ lifecycle u, (h.run (h.code.component type).lifecycle).exec w = (some lifecycle, u) ∧
        h.RunsHooks type o lifecycle.postConstruct u r v := by
  unfold postConstruct
  rw [exec_bind_step_iff]
  simp only [exec_runHooks_iff]

/-- The hooks for the time before teardown run as the lifecycle has them. -/
theorem exec_preDestroy_iff :
    (preDestroy h type o).run.exec w = (some r, v) ↔
      ∃ lifecycle u, (h.run (h.code.component type).lifecycle).exec w = (some lifecycle, u) ∧
        h.RunsHooks type o lifecycle.preDestroy u r v := by
  unfold preDestroy
  rw [exec_bind_step_iff]
  simp only [exec_runHooks_iff]

end Host

end Wiring
