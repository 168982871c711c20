import Wiring.Perform

/-!
# Execution of steps

What `Machine.exec` makes of each way to build a step: an answer and the world that is left, or
no answer and the world in which the step got stuck. Steps that may fail are executed the same
way through `ExceptT.run`; a failure is an answer.
-/

namespace Wiring

variable {C : Client} {α β : Type}

namespace Machine

@[simp] theorem exec_pure (a : α) (w : World C) : (pure a : Machine C α).exec w = (some a, w) := rfl

@[simp] theorem exec_failure (w : World C) : (failure : Machine C α).exec w = (none, w) := rfl

@[simp] theorem exec_get (w : World C) : (get : Machine C (World C)).exec w = (some w, w) := rfl

@[simp] theorem exec_set (v w : World C) : (set v : Machine C PUnit).exec w = (some ⟨⟩, v) := rfl

@[simp] theorem exec_modify (f : World C → World C) (w : World C) :
    (modify f : Machine C PUnit).exec w = (some ⟨⟩, f w) := rfl

/-- A step goes on where the one before it had an answer. -/
theorem exec_bind (m : Machine C α) (f : α → Machine C β) (w : World C) :
    (m >>= f).exec w =
      match m.exec w with
      | (some a, v) => (f a).exec v
      | (none, v) => (none, v) := by
  -- Both layers of the machine are opened here, and nowhere else.
  show OptionT.bind m f w = _
  unfold OptionT.bind exec
  simp only [OptionT.mk, StateT.bind, OptionT.run, StateT.run, bind]
  rcases m w with ⟨_ | a, v⟩ <;> rfl

/-- A machine that answers hands its answer and its world on. -/
theorem exec_bind_some {m : Machine C α} {f : α → Machine C β} {w v : World C} {a : α}
    (h : m.exec w = (some a, v)) : (m >>= f).exec w = (f a).exec v := by
  rw [exec_bind, h]

/-- A machine that stops leaves nothing to what follows it. -/
theorem exec_bind_none {m : Machine C α} {f : α → Machine C β} {w v : World C}
    (h : m.exec w = (none, v)) : (m >>= f).exec w = (none, v) := by
  rw [exec_bind, h]

/-! ## The small steps -/

@[simp] theorem exec_report (c : ContainerId) (e : Event) (w : World C) :
    (report c e).exec w = (some (), w.enter (.event c e)) := rfl

@[simp] theorem exec_mark (m : Milestone C) (w : World C) :
    (mark m).exec w = (some (), w.enter (.milestone m)) := rfl

@[simp] theorem exec_setRegistry (c : ContainerId) (r : Registry C) (w : World C) :
    (setRegistry c r).exec w = (some (), w.withContainer c fun k => { k with registry := r }) := rfl

@[simp] theorem exec_advancePhase (c : ContainerId) (old new : Phase) (w : World C) :
    (advancePhase c old new).exec w =
      (some (), w.withContainer c fun k => if k.phase = old then { k with phase := new } else k) :=
  rfl

@[simp] theorem exec_settleValidation (c : ContainerId) (r : Attempted Unit) (w : World C) :
    (settleValidation c r).exec w =
      (some (), w.withContainer c fun k => { k with validation := some r }) := rfl

@[simp] theorem exec_kept? (p : ProviderId) (w : World C) :
    (kept? p).exec w = (some (w.kept.get? p), w) := rfl

@[simp] theorem exec_keep (p : ProviderId) (v : Value C) (w : World C) :
    (keep p v).exec w =
      (some (), ({ w with kept := w.kept.put p v } : World C).enter (.milestone (.kept p v))) := rfl

@[simp] theorem exec_beginBuilding (p : ProviderId) (w : World C) :
    (beginBuilding p).exec w = (some (), { w with building := p :: w.building }) := rfl

@[simp] theorem exec_endBuilding (p : ProviderId) (w : World C) :
    (endBuilding p).exec w = (some (), { w with building := w.building.erase p }) := rfl

@[simp] theorem exec_client (w : World C) :
    (client : Machine C C.State).exec w = (some w.client, w) := rfl

/-- Reading a container that is there. -/
theorem exec_container_of_some {c : ContainerId} {k : Container C} {w : World C}
    (h : w.containers.get? c = some k) : (container c).exec w = (some k, w) := by
  show Machine.exec (get >>= _) w = _
  rw [exec_bind_some (exec_get w), h, exec_pure]

/-- A container that is not there has no answer. -/
theorem exec_container_of_none {c : ContainerId} {w : World C}
    (h : w.containers.get? c = none) : (container c).exec w = (none, w) := by
  show Machine.exec (get >>= _) w = _
  rw [exec_bind_some (exec_get w), h, exec_failure]

end Machine

/-! ## Programs -/

/-- Two programs run one after the other. -/
theorem Program.run_bind (perform : (k : Call C) → Machine C (Reply C k)) (p : Program C α)
    (f : α → Program C β) :
    (p.bind f).run perform = p.run perform >>= fun a => (f a).run perform := by
  induction p with
  | done a => rfl
  | call k next ih => simp [Program.bind, run, ih]
  | read next ih => simp [Program.bind, run, ih]
  | write s next ih => simp [Program.bind, run, ih]
  | note n next ih => simp [Program.bind, run, ih]

/-! ## Steps that may fail -/

namespace Host

@[simp] theorem run_step (m : Machine C α) : (step m).run = m >>= fun a => pure (.ok a) := rfl

theorem run_resultOf (a : Attempt C α) :
    (resultOf a).run = a.run >>= fun r => pure (.ok r) := rfl

/-- A step that may fail goes on where the one before it succeeded. -/
theorem exec_bind (a : Attempt C α) (f : α → Attempt C β) (w : World C) :
    (a >>= f).run.exec w =
      match a.run.exec w with
      | (some (.ok x), v) => (f x).run.exec v
      | (some (.error e), v) => (some (.error e), v)
      | (none, v) => (none, v) := by
  show Machine.exec (a.run >>= ExceptT.bindCont f) w = _
  rw [Machine.exec_bind]
  rcases a.run.exec w with ⟨_ | _ | _, v⟩ <;> rfl

/-- A success hands its value and its world on. -/
theorem exec_bind_ok {a : Attempt C α} {f : α → Attempt C β} {w v : World C} {x : α}
    (h : a.run.exec w = (some (.ok x), v)) : (a >>= f).run.exec w = (f x).run.exec v := by
  rw [exec_bind, h]

/-- A failure passes over what follows. -/
theorem exec_bind_error {a : Attempt C α} {f : α → Attempt C β} {w v : World C} {e : Failure}
    (h : a.run.exec w = (some (.error e), v)) : (a >>= f).run.exec w = (some (.error e), v) := by
  rw [exec_bind, h]

/-- An attempt that stops leaves nothing to what follows it. -/
theorem exec_bind_none {a : Attempt C α} {f : α → Attempt C β} {w v : World C}
    (h : a.run.exec w = (none, v)) : (a >>= f).run.exec w = (none, v) := by
  rw [exec_bind, h]

theorem exec_step_some {m : Machine C α} {w v : World C} {a : α} (h : m.exec w = (some a, v)) :
    (step m).run.exec w = (some (.ok a), v) := by
  rw [run_step, Machine.exec_bind_some h, Machine.exec_pure]

theorem exec_step_none {m : Machine C α} {w v : World C} (h : m.exec w = (none, v)) :
    (step m).run.exec w = (none, v) := by
  rw [run_step, Machine.exec_bind_none h]

/-- Taking the result out of an attempt turns its failure into an answer. -/
theorem exec_resultOf_some {a : Attempt C α} {w v : World C} {r : Attempted α}
    (h : a.run.exec w = (some r, v)) : (resultOf a).run.exec w = (some (.ok r), v) := by
  rw [run_resultOf, Machine.exec_bind_some h, Machine.exec_pure]

theorem exec_resultOf_none {a : Attempt C α} {w v : World C}
    (h : a.run.exec w = (none, v)) : (resultOf a).run.exec w = (none, v) := by
  rw [run_resultOf, Machine.exec_bind_none h]

end Host

end Wiring
