import Wiring.Proofs.Execution

/-!
# The worlds that a run visits

Client code sees a world only through the calls that it makes, so the worlds of interest are
those in which a call begins, at whatever depth, and the one in which the run ends. A run that
a watcher stops at the beginning of a call shows the former: it gets stuck there.
-/

namespace Wiring

variable {C : Client} {α : Type}

namespace Codebase

/-- Performs a call up to the first call, this one or a nested one, that begins in a world which
the watcher stops. -/
def performUntil (code : Codebase C) (stop : World C → Bool) :
    Nat → (c : Call C) → Machine C (Reply C c)
  | 0, _ => failure
  | depth + 1, c => do
    if stop (← get) then failure
    Host.answer ⟨code, code.performUntil stop depth⟩ c

/-- Runs a program up to the first call that begins in a world which the watcher stops. -/
def runUntil (code : Codebase C) (stop : World C → Bool) (depth : Nat) (p : Program C α) :
    Machine C α :=
  p.run (code.performUntil stop depth)

/-- Some run of client code from the first world comes to the second one: it ends there, gets
stuck there, or begins a call there. -/
def Visits (code : Codebase C) (w v : World C) : Prop :=
  ∃ (α : Type) (p : Program C α) (stop : World C → Bool) (depth : Nat),
    ((code.runUntil stop depth p).exec w).2 = v

/-- Some run of client code from the first world ends in the second one. -/
def Ends (code : Codebase C) (w v : World C) : Prop :=
  ∃ (α : Type) (p : Program C α) (depth : Nat) (a : α), (code.run depth p).exec w = (some a, v)

/-- The host that performs nested calls to a given depth. -/
abbrev hostAt (code : Codebase C) (depth : Nat) : Host C := ⟨code, code.perform depth⟩

/-- The host that performs nested calls to a given depth, up to where the watcher stops. -/
def hostUntil (code : Codebase C) (stop : World C → Bool) (depth : Nat) : Host C :=
  ⟨code, code.performUntil stop depth⟩

/-- A stopped run has no answer and changes nothing. -/
theorem performUntil_succ_of_stop (code : Codebase C) (stop : World C → Bool) (depth : Nat)
    (c : Call C) {w : World C} (h : stop w = true) :
    (code.performUntil stop (depth + 1) c).exec w = (none, w) := by
  unfold performUntil
  rw [Machine.exec_bind_some (Machine.exec_get w), if_pos h]
  rfl

/-- A run that is not stopped yet answers one level down. -/
theorem performUntil_succ_of_not_stop (code : Codebase C) (stop : World C → Bool) (depth : Nat)
    (c : Call C) {w : World C} (h : stop w = false) :
    (code.performUntil stop (depth + 1) c).exec w =
      (Host.answer (code.hostUntil stop depth) c).exec w := by
  unfold performUntil
  rw [Machine.exec_bind_some (Machine.exec_get w), if_neg (by simp [h])]
  rfl

/-- Where nothing is stopped, calls are performed as always. -/
theorem performUntil_never (code : Codebase C) (depth : Nat) :
    code.performUntil (fun _ => false) depth = code.perform depth := by
  induction depth with
  | zero => rfl
  | succ depth ih =>
    funext c w
    show (code.performUntil (fun _ => false) (depth + 1) c).exec w = _
    rw [performUntil_succ_of_not_stop code _ depth c rfl]
    unfold hostUntil
    rw [ih]
    rfl

/-- A run that is never stopped is the plain one. -/
theorem runUntil_never (code : Codebase C) (depth : Nat) (p : Program C α) :
    code.runUntil (fun _ => false) depth p = code.run depth p := by
  unfold runUntil run
  rw [performUntil_never]

/-- The world in which a run ends is visited. -/
theorem visits_of_run {code : Codebase C} {depth : Nat} {p : Program C α} {w v : World C}
    {r : Option α} (h : (code.run depth p).exec w = (r, v)) : code.Visits w v := by
  refine ⟨α, p, fun _ => false, depth, ?_⟩
  rw [runUntil_never, h]

/-- A run that has an answer ends in the world that it leaves. -/
theorem ends_of_isSome {code : Codebase C} {depth : Nat} {p : Program C α} {w : World C}
    (h : ((code.run depth p).exec w).1.isSome = true) :
    code.Ends w ((code.run depth p).exec w).2 := by
  obtain ⟨a, ha⟩ := Option.isSome_iff_exists.1 h
  exact ⟨α, p, depth, a, Prod.ext ha rfl⟩

/-- A world that a program ends in is a visited one. -/
theorem Ends.visits {code : Codebase C} {w v : World C} (h : code.Ends w v) : code.Visits w v := by
  obtain ⟨α, p, depth, a, hrun⟩ := h
  exact visits_of_run hrun

end Codebase

end Wiring
