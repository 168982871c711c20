import Wiring.Proofs.Congruence

/-!
# The depth of nested calls

The depth to which calls may be nested only decides whether there is an answer. What is answered
at some depth is answered alike at every greater one, and leaves the same world.

Main statement: `Codebase.perform_mono`.
-/

namespace Wiring

variable {C : Client}

/-- Where the first step has an answer the second one has the same, and leaves the same world. -/
def Machine.ExtendedBy (α : Type) (w : World C) (m m' : Machine C α) : Prop :=
  ∀ a v, m.exec w = (some a, v) → m'.exec w = (some a, v)

namespace Machine.ExtendedBy

theorem refl {α : Type} (w : World C) (m : Machine C α) : ExtendedBy α w m m := fun _ _ h => h

/-- A longer machine extends a shorter one part by part. -/
theorem bind {α β : Type} {w : World C} {m m' : Machine C α} {f f' : α → Machine C β}
    (h : ExtendedBy α w m m')
    (hf : ∀ a v, m'.exec w = (some a, v) → ExtendedBy β v (f a) (f' a)) :
    ExtendedBy β w (m >>= f) (m' >>= f') := by
  intro b v hexec
  rcases hm : m.exec w with ⟨_ | a, u⟩
  · rw [exec_bind_none hm] at hexec
    cases hexec
  · rw [exec_bind_some hm] at hexec
    rw [exec_bind_some (h a u hm)]
    exact hf a u (h a u hm) b v hexec

/-- A joined thread extends as its machine does. -/
theorem apart {α : Type} {w : World C} {m m' : Machine C α} (h : ExtendedBy α w.departed m m') :
    ExtendedBy α w (Machine.apart m) (Machine.apart m') := by
  intro a v hexec
  rw [exec_apart] at hexec ⊢
  rcases hm : m.exec w.departed with ⟨_ | b, u⟩
  · rw [hm] at hexec
    cases hexec
  · rw [hm] at hexec
    rw [h b u hm]
    exact hexec

/-- A step of the one run is extended by the same step of the other. -/
theorem congruence : Congruence.Full (C := C) ExtendedBy where
  pure w _ := refl w _
  failure _ w := refl w _
  bind := bind
  look w := refl w _
  report w _ _ _ := refl w _
  mark w _ := refl w _
  note w _ := refl w _
  setClient w _ := refl w _
  addContainer w := refl w _
  register w _ _ := refl w _
  unregister w _ _ _ := refl w _
  setRegistry w _ _ _ := refl w _
  advancePhase w _ _ _ _ := refl w _
  swapPhase w _ := refl w _
  settleValidation w _ _ := refl w _
  keep w _ _ := refl w _
  release? w _ := refl w _
  beginBuilding w _ := refl w _
  endBuilding w _ := refl w _
  apart := apart

end Machine.ExtendedBy

namespace Codebase

variable {code : Codebase C} {w v : World C}

/-- More depth gives the same answer wherever the smaller depth gave one; by induction on the
smaller depth. -/
theorem perform_extended (code : Codebase C) (depth more : Nat) (k : Call C) (w : World C) :
    Machine.ExtendedBy _ w (code.perform depth k) (code.perform (depth + more) k) := by
  induction depth generalizing k w with
  | zero => exact fun _ _ hexec => by cases hexec
  | succ depth ih =>
    rw [Nat.add_right_comm]
    exact Host.answer_congr Machine.ExtendedBy.congruence ih k w

/-- What is answered at some depth is answered alike at every greater one. -/
theorem perform_mono {depth depth' : Nat} (hdepth : depth ≤ depth') {k : Call C} {a : Reply C k}
    (h : (code.perform depth k).exec w = (some a, v)) :
    (code.perform depth' k).exec w = (some a, v) := by
  obtain ⟨more, rfl⟩ := Nat.exists_eq_add_of_le hdepth
  exact code.perform_extended depth more k w a v h

/-- What ends at some depth ends alike at every greater one. -/
theorem run_mono {α : Type} {depth depth' : Nat} (hdepth : depth ≤ depth') {p : Program C α} {a : α}
    (h : (code.run depth p).exec w = (some a, v)) : (code.run depth' p).exec w = (some a, v) := by
  obtain ⟨more, rfl⟩ := Nat.exists_eq_add_of_le hdepth
  exact Host.run_congr Machine.ExtendedBy.congruence.toActing (code.perform_extended depth more)
    p w a v h

/-- A run that has ended may go on with one more call. -/
theorem Ends.call (h : code.Ends w v) {u : World C} {depth : Nat} {k : Call C} {r : Reply C k}
    (hcall : (code.perform depth k).exec v = (some r, u)) : code.Ends w u := by
  obtain ⟨α, p, depth', a, hrun⟩ := h
  have hrun' := run_mono (Nat.le_max_left depth' depth) hrun
  have hcall' := perform_mono (Nat.le_max_right depth' depth) hcall
  unfold run at hrun'
  refine ⟨Reply C k, p.bind fun _ => .call k .done, max depth' depth, r, ?_⟩
  unfold run
  rw [Program.run_bind, Machine.exec_bind_some hrun']
  exact Machine.exec_bind_some hcall'

end Codebase

end Wiring
