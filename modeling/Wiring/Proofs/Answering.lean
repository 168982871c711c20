import Wiring.Proofs.Execution

/-!
# Steps that have an answer

A step may get stuck, and a step that may fail may fail. Here it is said that neither happens, or
in which way a step fails at most: a step answers if it does not get stuck, and then its answer and
the world that it leaves are as said.
-/

namespace Wiring

variable {C : Client} {α β : Type}

/-- A step has an answer, and where it ends it is as said. -/
def Machine.Answers (m : Machine C α) (w : World C) (Q : α → World C → Prop) : Prop :=
  ∃ a v, m.exec w = (some a, v) ∧ Q a v

/-- A step that may fail has an answer, where it succeeds it is as said, and it fails only in some
ways. -/
def Attempt.Answers (a : Attempt C α) (w : World C) (Q : α → World C → Prop)
    (E : Failure → Prop) : Prop :=
  Machine.Answers a.run w fun r v =>
    match r with
    | .ok x => Q x v
    | .error e => E e

namespace Machine.Answers

variable {w : World C} {Q R : α → World C → Prop}

theorem pure {a : α} (h : Q a w) : Answers (pure a : Machine C α) w Q := ⟨a, w, rfl, h⟩

/-- A step whose result is known answers if the result is as it should be. -/
theorem of_exec {m : Machine C α} {a : α} {v : World C} (h : m.exec w = (some a, v))
    (hQ : Q a v) : Answers m w Q := ⟨a, v, h, hQ⟩

/-- Steps that do the same answer alike. -/
theorem congr_exec {m m' : Machine C α} {v : World C} (h : m.exec w = m'.exec v)
    (hm : Answers m' v Q) : Answers m w Q := by
  obtain ⟨a, u, hexec, hQ⟩ := hm
  exact ⟨a, u, h.trans hexec, hQ⟩

/-- Steps in a row answer if each of them does where the ones before it have led. -/
theorem bind {m : Machine C α} {f : α → Machine C β} {Q : β → World C → Prop}
    (h : Answers m w fun a v => Answers (f a) v Q) : Answers (m >>= f) w Q := by
  obtain ⟨a, u, hexec, b, v, hrest, hQ⟩ := h
  exact ⟨b, v, (exec_bind_some hexec).trans hrest, hQ⟩

theorem mono {m : Machine C α} (h : Answers m w Q) (hR : ∀ a v, Q a v → R a v) :
    Answers m w R := by
  obtain ⟨a, v, hexec, hQ⟩ := h
  exact ⟨a, v, hexec, hR a v hQ⟩

theorem modify {f : World C → World C} {Q : PUnit → World C → Prop} (h : Q ⟨⟩ (f w)) :
    Answers (modify f : Machine C PUnit) w Q :=
  of_exec (exec_modify f w) h

end Machine.Answers

namespace Attempt.Answers

open Host

variable {w : World C} {Q R : α → World C → Prop} {E F : Failure → Prop}

theorem pure {a : α} (h : Q a w) : Answers (pure a : Attempt C α) w Q E := Machine.Answers.pure h

/-- A settled result answers, or fails, as it says. -/
theorem settle {r : Attempted α} (hQ : ∀ a, r = .ok a → Q a w) (hE : ∀ e, r = .error e → E e) :
    Answers (settle r : Attempt C α) w Q E := by
  rcases r with e | a
  · exact Machine.Answers.pure (hE e rfl)
  · exact Machine.Answers.pure (hQ a rfl)

/-- Steps in a row answer if each of them does, and a failure of the first ends them. -/
theorem bind {a : Attempt C α} {f : α → Attempt C β} {Q : β → World C → Prop}
    (h : Answers a w (fun x v => Answers (f x) v Q E) E) : Answers (a >>= f) w Q E := by
  refine Machine.Answers.bind (Machine.Answers.mono h fun r v hr => ?_)
  rcases r with e | x
  · exact Machine.Answers.pure hr
  · exact hr

/-- A step that cannot fail answers among steps that may. -/
theorem step {m : Machine C α} (h : Machine.Answers m w Q) : Answers (step m) w Q E :=
  Machine.Answers.bind (h.mono fun _ _ hQ => Machine.Answers.pure hQ)

theorem mono {a : Attempt C α} (h : Answers a w Q E) (hQ : ∀ x v, Q x v → R x v)
    (hE : ∀ e, E e → F e) : Answers a w R F := by
  refine Machine.Answers.mono h fun r v hr => ?_
  rcases r with e | x
  · exact hE e hr
  · exact hQ x v hr

/-- A step that may fail, as one whose answer is a result. -/
theorem run {a : Attempt C α} {Q : Attempted α → World C → Prop}
    (h : Answers a w (fun x v => Q (.ok x) v) fun e => ∀ v, Q (.error e) v) :
    Machine.Answers a.run w Q := by
  refine Machine.Answers.mono h fun r v hr => ?_
  rcases r with e | x
  · exact hr v
  · exact hr

end Attempt.Answers

/-! ## Client code that keeps to itself -/

/-- A program makes no call, and whatever it reads it ends as said. -/
def Program.Ends (Q : α → Prop) : Program C α → Prop
  | .done a => Q a
  | .call _ _ => False
  | .read next => ∀ s, (next s).Ends Q
  | .write _ next => next.Ends Q
  | .note _ next => next.Ends Q

/-- A routine makes no call and succeeds. -/
def Program.Succeeds (p : Routine C α) : Prop := p.Ends fun r => ∃ a, r = .ok a

/-- What client code that keeps to itself makes of a world: all that it changes is its own. -/
structure World.Unmoved (w v : World C) : Prop where
  containers : v.containers = w.containers
  building : v.building = w.building
  waiting : v.waiting = w.waiting
  kept : v.kept = w.kept

theorem World.Unmoved.refl (w : World C) : w.Unmoved w := ⟨rfl, rfl, rfl, rfl⟩

/-- What is unmoved twice is unmoved. -/
theorem World.Unmoved.trans {w u v : World C} (hwu : w.Unmoved u) (huv : u.Unmoved v) :
    w.Unmoved v :=
  ⟨huv.containers.trans hwu.containers, huv.building.trans hwu.building,
    huv.waiting.trans hwu.waiting, huv.kept.trans hwu.kept⟩

theorem World.Unmoved.enter (w : World C) (e : Entry C) : w.Unmoved (w.enter e) :=
  ⟨rfl, rfl, rfl, rfl⟩

namespace Host

/-- A program that ends without calls is answered by every host, and moves nothing. -/
theorem run_answers (h : Host C) {Q : α → Prop} {p : Program C α} (hp : p.Ends Q) (w : World C) :
    Machine.Answers (h.run p) w fun a v => Q a ∧ w.Unmoved v := by
  -- There is one case for all that client code can do; the call is the one that it must not make.
  induction p generalizing w with
  | done a => exact .pure ⟨hp, .refl w⟩
  | call k next => exact hp.elim
  | read next ih => exact .bind (.of_exec (Machine.exec_client w) (ih w.client (hp w.client) w))
  | write s next ih =>
    refine .bind (.modify ((ih hp _).mono fun a v hv => ⟨hv.1, ?_⟩))
    have hwrite : w.Unmoved { w with client := s } := ⟨rfl, rfl, rfl, rfl⟩
    exact hwrite.trans hv.2
  | note n next ih =>
    refine .bind (.modify ((ih hp _).mono fun a v hv => ⟨hv.1, ?_⟩))
    exact (World.Unmoved.enter w _).trans hv.2

/-- Client code that succeeds without calls does so wherever a member is invoked. -/
theorem invoke_answers (h : Host C) (member : String) {p : Routine C α} (hp : p.Succeeds)
    (w : World C) (E : Failure → Prop) :
    Attempt.Answers (h.invoke member p) w (fun _ v => w.Unmoved v) E := by
  refine .bind (.step (.modify (.bind (.step ((h.run_answers hp _).mono ?_)))))
  rintro r v ⟨⟨a, rfl⟩, hv⟩
  exact .pure ((World.Unmoved.enter w _).trans hv)

end Host

end Wiring
