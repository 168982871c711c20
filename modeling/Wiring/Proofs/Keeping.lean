import Wiring.Host.Teardown
import Wiring.Proofs.Execution

/-!
# Steps that keep a property

A step keeps a property of worlds if it has an answer where it begins in a world with the property,
and leaves such a world. A failure is an answer, so a step that may fail keeps the property whether
it fails or not. Of the worlds in which a step may get stuck another property is asked; if no world
has it, the step does not get stuck. Operations that do no more than run client code keep what
client code keeps.
-/

namespace Wiring

variable {C : Client} {α β : Type} {I J : World C → Prop}

/-- A step has an answer, which is as said, and leaves a world with a property, or it gets stuck in
a world with another one. -/
def Machine.Keeps (I J : World C → Prop) (m : Machine C α) (w : World C) (Q : α → Prop) : Prop :=
  match m.exec w with
  | (some a, v) => Q a ∧ I v
  | (none, v) => J v

/-- A step that may fail has an answer and leaves a world with a property, or it gets stuck in a
world with another one; where it succeeds it is as said. -/
def Attempt.Keeps (I J : World C → Prop) (a : Attempt C α) (w : World C) (Q : α → Prop) : Prop :=
  Machine.Keeps I J a.run w fun r => ∀ x, r = .ok x → Q x

namespace Machine.Keeps

variable {w v : World C} {m : Machine C α} {P Q : α → Prop}

theorem of_exec {a : α} (h : m.exec w = (some a, v)) (hv : I v) (hQ : Q a) :
    Keeps I J m w Q := by
  unfold Keeps
  rw [h]
  exact ⟨hQ, hv⟩

theorem pure {a : α} (hw : I w) (h : Q a) : Keeps I J (pure a : Machine C α) w Q :=
  of_exec (exec_pure a w) hw h

/-- A machine that stops has only to leave the weaker invariant. -/
theorem stuck (h : m.exec w = (none, v)) (hv : J v) : Keeps I J m w Q := by
  unfold Keeps
  rwa [h]

theorem congr_exec {m' : Machine C α} (h : m.exec w = m'.exec v) (hm : Keeps I J m' v Q) :
    Keeps I J m w Q := by
  unfold Keeps
  rwa [h]

/-- How a step that keeps a property ends. -/
theorem ends (h : Keeps I J m w Q) :
    (∃ a v, m.exec w = (some a, v) ∧ Q a ∧ I v) ∨ ∃ v, m.exec w = (none, v) ∧ J v := by
  unfold Keeps at h
  rcases hexec : m.exec w with ⟨_ | a, v⟩ <;> rw [hexec] at h
  · exact .inr ⟨v, rfl, h⟩
  · exact .inl ⟨a, v, rfl, h⟩

/-- A step that cannot get stuck has an answer. -/
theorem answers (h : Keeps I (fun _ => False) m w Q) :
    ∃ a v, m.exec w = (some a, v) ∧ Q a ∧ I v := by
  rcases h.ends with h | ⟨v, -, h⟩
  · exact h
  · exact h.elim

/-- Sequencing: the invariant is handed on at the world in between. -/
theorem bind {f : α → Machine C β} {R : β → Prop} (h : Keeps I J m w Q)
    (hf : ∀ a v, Q a → I v → Keeps I J (f a) v R) : Keeps I J (m >>= f) w R := by
  rcases h.ends with ⟨a, v, hexec, ha, hv⟩ | ⟨v, hexec, hv⟩
  · exact .congr_exec (exec_bind_some hexec) (hf a v ha hv)
  · exact .stuck (exec_bind_none hexec) hv

/-- What is shown of the answer may be weakened. -/
theorem mono (h : Keeps I J m w P) (hPQ : ∀ a, P a → Q a) : Keeps I J m w Q := by
  rcases h.ends with ⟨a, v, hexec, ha, hv⟩ | ⟨v, hexec, hv⟩
  · exact .of_exec hexec hv (hPQ a ha)
  · exact .stuck hexec hv

theorem modify {f : World C → World C} (h : I (f w)) :
    Keeps I J (modify f : Machine C PUnit) w fun _ => True :=
  of_exec (exec_modify f w) h True.intro

end Machine.Keeps

namespace Attempt.Keeps

variable {w v : World C} {a : Attempt C α} {Q : α → Prop}

theorem pure {x : α} (hw : I w) (h : Q x) : Keeps I J (pure x : Attempt C α) w Q :=
  Machine.Keeps.pure hw fun _ hx => Except.ok.inj hx ▸ h

theorem of_exec {r : Attempted α} (h : a.run.exec w = (some r, v)) (hv : I v)
    (hQ : ∀ x, r = .ok x → Q x) : Keeps I J a w Q := Machine.Keeps.of_exec h hv hQ

theorem congr_exec {a' : Attempt C α} (h : a.run.exec w = a'.run.exec v) (ha : Keeps I J a' v Q) :
    Keeps I J a w Q := Machine.Keeps.congr_exec h ha

theorem throw {e : Failure} (hw : I w) : Keeps I J (throw e : Attempt C α) w Q :=
  Machine.Keeps.pure hw fun _ h => by cases h

theorem settle {r : Attempted α} (hw : I w) (h : ∀ x, r = .ok x → Q x) :
    Keeps I J (Host.settle r : Attempt C α) w Q := Machine.Keeps.pure hw h

/-- Sequencing of attempts: a failure passes the invariant on as it is. -/
theorem bind {f : α → Attempt C β} {R : β → Prop} (h : Keeps I J a w Q)
    (hf : ∀ x v, Q x → I v → Keeps I J (f x) v R) : Keeps I J (a >>= f) w R := by
  refine Machine.Keeps.bind h fun r v hr hv => ?_
  rcases r with e | x
  · exact Machine.Keeps.pure hv fun _ h => by cases h
  · exact hf x v (hr x rfl) hv

theorem step {m : Machine C α} (h : Machine.Keeps I J m w Q) : Keeps I J (Host.step m) w Q :=
  Machine.Keeps.bind h fun _ _ ha hv => Machine.Keeps.pure hv fun _ hx => Except.ok.inj hx ▸ ha

/-- Taking the result out of an attempt keeps what it keeps. -/
theorem resultOf {Q : Attempted α → Prop} (h : Machine.Keeps I J a.run w Q) :
    Keeps I J (Host.resultOf a) w Q :=
  Machine.Keeps.bind h fun _ _ ha hv => Machine.Keeps.pure hv fun _ hx => Except.ok.inj hx ▸ ha

end Attempt.Keeps

/-! ## Client code -/

namespace Host

/-- A run of a program keeps a property wherever it begins in a world with it. -/
def Keeps (h : Host C) (I J : World C → Prop) (p : Program C α) (Q : α → Prop) : Prop :=
  ∀ w, I w → Machine.Keeps I J (h.run p) w Q

variable {h : Host C} {w : World C} {type : TypeKey} {o : C.Object}
  (hI : ∀ w member, I w → I (w.enter (.milestone (.invoked member))))
include hI

/-- A routine keeps the invariant under any member's name. -/
theorem invoke_keeps (member : String) {p : Routine C α} {Q : α → Prop}
    (hp : h.Keeps I J p fun r => ∀ x, r = .ok x → Q x) (hw : I w) :
    Attempt.Keeps I J (h.invoke member p) w Q := by
  refine .bind (.step (.modify (hI w member hw))) fun _ u _ hu => ?_
  refine .bind (.step (hp u hu)) fun r v hr hv => ?_
  rcases r with problem | x
  · exact .throw hv
  · exact .pure hv (hr x rfl)

/-- A list of hooks keeps the invariant if each hook does. -/
theorem runHooks_keeps {l : List (Hook C.Object (Routine C Unit))}
    (hl : ∀ hook ∈ l, h.Keeps I J (hook.act o) fun _ => True) (hw : I w) :
    Attempt.Keeps I J (h.runHooks type o l) w fun _ => True := by
  induction l generalizing w with
  | nil => exact .pure hw True.intro
  | cons hook rest ih =>
    have hfirst : h.Keeps I J (hook.act o) fun r => ∀ x, r = .ok x → True :=
      fun u hu => (hl hook List.mem_cons_self u hu).mono fun _ _ _ _ => True.intro
    refine .bind (invoke_keeps hI _ hfirst hw) fun _ u _ hu => ?_
    exact ih (fun hook' hmem => hl hook' (List.mem_cons_of_mem _ hmem)) hu

theorem postConstruct_keeps
    (hl : h.Keeps I J (h.code.component type).lifecycle fun l => ∀ hook ∈ l.postConstruct,
      h.Keeps I J (hook.act o) fun _ => True) (hw : I w) :
    Attempt.Keeps I J (h.postConstruct type o) w fun _ => True :=
  .bind (.step (hl w hw)) fun _ _ hhooks hu => runHooks_keeps hI hhooks hu

theorem preDestroy_keeps
    (hl : h.Keeps I J (h.code.component type).lifecycle fun l => ∀ hook ∈ l.preDestroy,
      h.Keeps I J (hook.act o) fun _ => True) (hw : I w) :
    Attempt.Keeps I J (h.preDestroy type o) w fun _ => True :=
  .bind (.step (hl w hw)) fun _ _ hhooks hu => runHooks_keeps hI hhooks hu

/-- The code that disposes of a value for a definition keeps a property, or gets stuck in a world
with another one. -/
structure DisposingKeeps (h : Host C) (I J : World C → Prop) (d : Definition C) (x : Value C) :
    Prop where
  source : ∀ produce dispose, d.source = .producer produce (some dispose) →
    h.Keeps I J (h.code.dispose dispose x) fun _ => True
  component : ∀ o, d.source = .component → x = .object o →
    h.Keeps I J (h.code.component d.implementation).lifecycle fun l => ∀ hook ∈ l.preDestroy,
      h.Keeps I J (hook.act o) fun _ => True
  onDestroy : ∀ dispose, d.onDestroy = some dispose →
    h.Keeps I J (h.code.dispose dispose x) fun _ => True

/-- The teardown by the source keeps it if the client's disposal does. -/
theorem disposeBySource_keeps {d : Definition C} {x : Value C} (hd : h.DisposingKeeps I J d x)
    (hw : I w) : Attempt.Keeps I J (h.disposeBySource d x) w fun _ => True := by
  unfold disposeBySource
  rcases hsource : d.source with v | ⟨produce, _ | dispose⟩ | _
  · exact .pure hw True.intro
  · exact .pure hw True.intro
  · refine invoke_keeps hI _ (fun u hu => ?_) hw
    exact (hd.source produce dispose hsource u hu).mono fun _ _ _ _ => True.intro
  · rcases x with id | o
    · exact .throw hw
    · exact preDestroy_keeps hI (hd.component o hsource rfl) hw

/-- A whole teardown keeps it if both of its parts do. -/
theorem disposeOf_keeps {d : Definition C} {x : Value C} (hd : h.DisposingKeeps I J d x)
    (hw : I w) : Attempt.Keeps I J (h.disposeOf d x) w fun _ => True := by
  unfold disposeOf
  refine .bind (.resultOf (disposeBySource_keeps hI hd hw)) fun own u _ hu => ?_
  rcases hdispose : d.onDestroy with _ | dispose
  · exact .settle hu fun _ _ => True.intro
  · have hextra : h.Keeps I J (h.code.dispose dispose x) fun r => ∀ y, r = .ok y → True :=
      fun v hv => (hd.onDestroy dispose hdispose v hv).mono fun _ _ _ _ => True.intro
    refine .bind (.resultOf (invoke_keeps hI _ hextra hu)) fun extra v _ hv => ?_
    refine .bind (.settle hv fun _ _ => True.intro) fun _ v' _ hv' => ?_
    exact .settle hv' fun _ _ => True.intro

end Host

end Wiring
