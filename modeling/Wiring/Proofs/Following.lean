import Wiring.Proofs.Coherence
import Wiring.Proofs.Execution

/-!
# Steps that follow courses

A step follows a course if it takes the world along one, wherever it gets stuck. What its
answers and the worlds that it leaves are like is said together with that, so that the steps
of an operation can be followed one after the other.
-/

namespace Wiring

variable {C : Client} {D : Outline} {α β : Type}

/-- A step takes a coherent world along a course, and where it ends it is as said. -/
def Machine.Follows (D : Outline) (m : Machine C α) (w : World C) (Q : α → World C → Prop) :
    Prop :=
  w.Coherent →
    match m.exec w with
    | (some a, v) => Course D .work true w v ∧ Q a v
    | (none, v) => Course D .work false w v

/-- A step that may fail takes a coherent world along a course, and where it succeeds and where it
fails it is as said. -/
def Attempt.Follows (D : Outline) (a : Attempt C α) (w : World C) (Q : α → World C → Prop)
    (E : Failure → World C → Prop) : Prop :=
  Machine.Follows D a.run w fun r v =>
    match r with
    | .ok x => Q x v
    | .error e => E e v

/-- A course may be cut short where it ends. -/
theorem Course.cut {b : Bool} {w v : World C} (h : Course D .work b w v) :
    Course D .work false w v := by
  cases b with
  | false => exact h
  | true => exact h.trans (.refl v false)

namespace Machine.Follows

variable {w : World C} {Q R : α → World C → Prop}

/-- A machine that answers along a course follows it. -/
theorem of_exec {m : Machine C α} {a : α} {v : World C} (h : m.exec w = (some a, v))
    (hcourse : Course D .work true w v) (hQ : Q a v) : Follows D m w Q := by
  intro _
  rw [h]
  exact ⟨hcourse, hQ⟩

/-- Machines that do the same from this world follow the same courses. -/
theorem congr_exec {m m' : Machine C α} (h : m.exec w = m'.exec w) (hm : Follows D m' w Q) :
    Follows D m w Q := by
  intro hw
  rw [h]
  exact hm hw

/-- Only coherent worlds are in question. -/
theorem of_coherent {m : Machine C α} (h : w.Coherent → Follows D m w Q) : Follows D m w Q :=
  fun hw => h hw hw

theorem pure {a : α} (h : Q a w) : Follows D (pure a : Machine C α) w Q :=
  of_exec (exec_pure a w) (.refl w true) h

/-- A machine that gives no answer has nothing to show beyond its course. -/
theorem stuck : Follows D (failure : Machine C α) w Q :=
  fun _ => Course.refl w false

/-- Sequencing: the courses join at the world in between. -/
theorem bind {m : Machine C α} {f : α → Machine C β} {Q : β → World C → Prop}
    (h : Follows D m w fun a v => Follows D (f a) v Q) : Follows D (m >>= f) w Q := by
  intro hw
  have hm := h hw
  rw [exec_bind]
  rcases hexec : m.exec w with ⟨_ | a, u⟩
  · rw [hexec] at hm
    exact hm
  · rw [hexec] at hm
    obtain ⟨hcourse, hf⟩ := hm
    -- The second step begins in a world that is coherent because a course leads there.
    have hrest := hf (hcourse.coherent hw)
    show match (f a).exec u with
      | (some b, v) => Course D .work true w v ∧ Q b v
      | (none, v) => Course D .work false w v
    rcases hexec' : (f a).exec u with ⟨_ | b, v⟩
    · rw [hexec'] at hrest
      exact hcourse.trans hrest
    · rw [hexec'] at hrest
      exact ⟨hcourse.trans hrest.1, hrest.2⟩

/-- What is said may follow from what was said, and from the execution itself. -/
theorem mono_exec {m : Machine C α} (h : Follows D m w Q)
    (hR : ∀ a v, m.exec w = (some a, v) → Course D .work true w v → Q a v → R a v) :
    Follows D m w R := by
  intro hw
  have hm := h hw
  rcases hexec : m.exec w with ⟨_ | a, v⟩
  · rw [hexec] at hm
    exact hm
  · rw [hexec] at hm
    exact ⟨hm.1, hR a v hexec hm.1 hm.2⟩

/-- What is shown of the answer may be weakened. -/
theorem mono {m : Machine C α} (h : Follows D m w Q) (hR : ∀ a v, Q a v → R a v) :
    Follows D m w R :=
  h.mono_exec fun a v _ _ => hR a v

/-- What every course keeps may be used where the step ends. -/
theorem framed {m : Machine C α} (h : Follows D m w Q) :
    Follows D m w fun a v => w.Frame v ∧ Q a v :=
  h.mono_exec fun _ _ _ hcourse hQ => ⟨hcourse.frame, hQ⟩

/-- A quiet change of the world is a course of one step. -/
theorem quiet {f : World C → World C} {Q : PUnit → World C → Prop} (h : Quiet w (f w))
    (hQ : Q ⟨⟩ (f w)) : Follows D (modify f : Machine C PUnit) w Q :=
  of_exec (exec_modify f w) (.quiet h) hQ

/-- Reading a container may assume that it is there. -/
theorem container {c : ContainerId} {Q : Container C → World C → Prop}
    (h : w.Has c → Q (w.container c) w) : Follows D (Machine.container c) w Q := by
  rcases hk : w.containers.get? c with _ | k
  · intro _
    rw [exec_container_of_none hk]
    exact .refl w false
  · have hkw : w.container c = k := by
      unfold World.container
      rw [hk]
      rfl
    exact of_exec (exec_container_of_some hk) (.refl w true) (hkw ▸ h ⟨k, hk⟩)

/-- How a step that follows a course ends. -/
theorem ends {m : Machine C α} (h : Follows D m w Q) (hw : w.Coherent) {a : α} {v : World C}
    (hexec : m.exec w = (some a, v)) : Course D .work true w v ∧ Q a v := by
  have hm := h hw
  rwa [hexec] at hm

/-- A step that follows a course takes the world along it, wherever it gets stuck. -/
theorem course {m : Machine C α} (h : Follows D m w Q) (hw : w.Coherent) {r : Option α}
    {v : World C} (hexec : m.exec w = (r, v)) : Course D .work false w v := by
  have hm := h hw
  rw [hexec] at hm
  rcases r with _ | a
  · exact hm
  · exact hm.1.cut

end Machine.Follows

namespace Attempt.Follows

open Host

variable {w : World C} {Q R : α → World C → Prop} {E F : Failure → World C → Prop}

theorem pure {a : α} (h : Q a w) : Follows D (pure a : Attempt C α) w Q E :=
  Machine.Follows.pure h

theorem throw {e : Failure} (h : E e w) : Follows D (throw e : Attempt C α) w Q E :=
  Machine.Follows.pure h

theorem of_exec_ok {a : Attempt C α} {x : α} {v : World C} (h : a.run.exec w = (some (.ok x), v))
    (hcourse : Course D .work true w v) (hQ : Q x v) : Follows D a w Q E :=
  Machine.Follows.of_exec h hcourse hQ

theorem of_exec_error {a : Attempt C α} {e : Failure} {v : World C}
    (h : a.run.exec w = (some (.error e), v)) (hcourse : Course D .work true w v) (hE : E e v) :
    Follows D a w Q E :=
  Machine.Follows.of_exec h hcourse hE

/-- Settling a result claims of a value what is shown of values, and of a failure what is shown of
failures. -/
theorem settle {r : Attempted α} (hQ : ∀ a, r = .ok a → Q a w) (hE : ∀ e, r = .error e → E e w) :
    Follows D (settle r : Attempt C α) w Q E := by
  rcases r with e | a
  · exact Machine.Follows.pure (hE e rfl)
  · exact Machine.Follows.pure (hQ a rfl)

/-- Sequencing of attempts: what is shown of failures is the same in both parts. -/
theorem bind {a : Attempt C α} {f : α → Attempt C β} {Q : β → World C → Prop}
    (h : Follows D a w (fun x v => Follows D (f x) v Q E) E) : Follows D (a >>= f) w Q E := by
  refine Machine.Follows.bind (Machine.Follows.mono h fun r v hr => ?_)
  rcases r with e | x
  · exact Machine.Follows.pure hr
  · exact hr

/-- A step of the host does not fail. -/
theorem step {m : Machine C α} (h : Machine.Follows D m w Q) : Follows D (step m) w Q E :=
  Machine.Follows.bind (h.mono fun _ _ hQ => Machine.Follows.pure hQ)

/-- Taking the result out turns both claims into one about the result. -/
theorem resultOf {a : Attempt C α} {Q : Attempted α → World C → Prop}
    (h : Follows D a w (fun x v => Q (.ok x) v) (fun e v => Q (.error e) v)) :
    Follows D (resultOf a) w Q E := by
  refine Machine.Follows.bind (Machine.Follows.mono h fun r v hr => ?_)
  rcases r with e | x
  · exact Machine.Follows.pure hr
  · exact Machine.Follows.pure hr

/-- Both claims may be weakened. -/
theorem mono {a : Attempt C α} (h : Follows D a w Q E) (hQ : ∀ x v, Q x v → R x v)
    (hE : ∀ e v, E e v → F e v) : Follows D a w R F := by
  refine Machine.Follows.mono h fun r v hr => ?_
  rcases r with e | x
  · exact hE e v hr
  · exact hQ x v hr

/-- Whatever follows a course also leaves all that a course cannot change. -/
theorem framed {a : Attempt C α} (h : Follows D a w Q E) :
    Follows D a w (fun x v => w.Frame v ∧ Q x v) E := by
  refine Machine.Follows.mono (Machine.Follows.framed h) fun r v hr => ?_
  rcases r with e | x
  · exact hr.2
  · exact hr

theorem of_coherent {a : Attempt C α} (h : w.Coherent → Follows D a w Q E) : Follows D a w Q E :=
  Machine.Follows.of_coherent h

/-- A step that may fail, as one whose answer is a result. -/
theorem run {a : Attempt C α} {Q : Attempted α → World C → Prop}
    (h : Follows D a w (fun x v => Q (.ok x) v) (fun e v => Q (.error e) v)) :
    Machine.Follows D a.run w Q := by
  refine Machine.Follows.mono h fun r v hr => ?_
  rcases r with e | x
  · exact hr
  · exact hr

end Attempt.Follows

end Wiring
