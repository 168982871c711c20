import Wiring.Host.Configuration
import Wiring.Proofs.Following
import Wiring.Proofs.Requests

/-!
# Courses of client code and of changes of the definitions

Every operation follows a course if the calls that client code makes do, and says of its answer
what the next operation needs to know. The operations are taken one by one, in the order in which
they use each other; client code and the changes of the definitions come first.
-/

namespace Wiring

variable {C : Client} {D : Outline} {α : Type}

/-- The calls of a host follow courses, and its components say of themselves what they may. -/
structure Host.Lawful (D : Outline) (h : Host C) : Prop where
  perform : ∀ k w, Machine.Follows D (h.perform k) w k.Answered
  constructor : ∀ type w v constructor,
    (h.run (h.code.component type).constructor).exec w = (some constructor, v) →
      D.constructor type constructor
  points : ∀ type w v points,
    (h.run (h.code.component type).points).exec w = (some points, v) → D.points type points

namespace Host

variable {h : Host C} {w : World C} {c : ContainerId}

/-! ## Client code -/

/-- A program's steps are calls and questions, so it inherits what calls and questions obey. -/
theorem run_follows (hl : h.Lawful D) (p : Program C α) (w : World C) :
    Machine.Follows D (h.run p) w fun _ _ => True := by
  induction p generalizing w with
  | done a => exact .pure True.intro
  -- Only a call changes more than what is the client's own.
  | call k next ih => exact .bind ((hl.perform k w).mono fun r v _ => ih r v)
  | read next ih => exact .bind (.of_exec (Machine.exec_client w) (.refl w true) (ih w.client w))
  | write s next ih => exact .bind (.quiet (.client w s) (ih _))
  | note n next ih => exact .bind (.quiet (.note w n) (ih _))

/-- The constructor that a type answers is the one its description fixes. -/
theorem constructor_follows (hl : h.Lawful D) (type : TypeKey) (w : World C) :
    Machine.Follows D (h.run (h.code.component type).constructor) w
      fun constructor _ => D.constructor type constructor :=
  (run_follows hl _ w).mono_exec fun constructor v hexec _ _ =>
    hl.constructor type w v constructor hexec

/-- The points that a type answers are those its description fixes. -/
theorem points_follows (hl : h.Lawful D) (type : TypeKey) (w : World C) :
    Machine.Follows D (h.run (h.code.component type).points) w
      fun points _ => D.points type points :=
  (run_follows hl _ w).mono_exec fun points v hexec _ _ => hl.points type w v points hexec

/-- A routine of client code ends with its own result or with a failure labelled by the member. -/
theorem invoke_follows (hl : h.Lawful D) (member : String) (p : Routine C α) (w : World C) :
    Attempt.Follows D (h.invoke member p) w (fun _ _ => True) (fun _ _ => True) := by
  refine .bind (.step (.quiet (.invoked w member) ?_))
  refine .bind (.step ((run_follows hl p _).mono fun r v _ => ?_))
  rcases r with problem | a
  · exact .throw True.intro
  · exact .pure True.intro

/-! ## Changing the definitions -/

/-- Reading a container changes nothing. -/
theorem exec_container {w : World C} {c : ContainerId} (hc : w.Has c) :
    (Machine.container c).exec w = (some (w.container c), w) := by
  obtain ⟨k, hk⟩ := hc
  unfold World.container
  rw [hk]
  exact Machine.exec_container_of_some hk

/-- What begins by reading a container that is there goes on with what it holds. -/
theorem exec_bind_container {β : Type} {w : World C} {c : ContainerId} (hc : w.Has c)
    (f : Container C → Attempt C β) :
    (step (Machine.container c) >>= f).run.exec w = (f (w.container c)).run.exec w :=
  exec_bind_ok (exec_step_some (exec_container hc))

/-- A revision passes the gate exactly while nothing is configured, and the gate itself changes
nothing. -/
theorem checkConfigurable_follows (c : ContainerId) (change : Change) (w : World C) :
    Attempt.Follows D (checkConfigurable c change) w
      (fun _ v => v = w ∧ w.Has c ∧ (w.container c).phase = .unconfigured) (fun _ _ => True) := by
  refine .bind (.step (.container fun hc => ?_))
  rcases hphase : (w.container c).phase
  · exact .pure ⟨rfl, hc, rfl⟩
  all_goals exact .throw True.intro

theorem create_follows (w : World C) :
    Machine.Follows D create w fun _ _ => True := by
  refine .of_coherent fun hw => ?_
  exact .of_exec (v := w.created) rfl (.quiet (.create w hw.fresh_container)) True.intro

/-- Adding a provider to a container that exists. -/
theorem exec_addProvider {w : World C} {c : ContainerId} (d : Definition C) (hc : w.Has c) :
    (Machine.addProvider c d).exec w = (some (), w.withProvider c d) := by
  unfold Machine.addProvider
  rw [Machine.exec_bind_some (Machine.exec_get w), Machine.exec_bind_some (Machine.exec_modify _ w)]
  exact Machine.exec_bind_some (exec_container (w := { w with providerCount := _ }) hc)

/-- A registration that is accepted adds one provider, one that is refused none. -/
theorem register_follows (c : ContainerId) (r : Registration C) (w : World C) :
    Attempt.Follows D (register c r) w (fun _ _ => True) (fun _ _ => True) := by
  refine .bind ((checkConfigurable_follows c .register w).mono ?_ fun _ _ h => h)
  rintro _ v ⟨rfl, hc, hphase⟩
  refine .bind (.step (.container fun _ => ?_))
  -- The phase was looked at in this world, so the change is one of an unconfigured container.
  refine .of_exec_ok ((exec_bind_ok (exec_step_some (Machine.exec_report ..))).trans
    (exec_step_some (exec_addProvider r.definition hc))) ?_ True.intro
  exact .quiet (.register v c r.definition _ hc hphase)

/-- An unregistration leaves the invariant standing, whatever it removes. -/
theorem unregister_follows (c : ContainerId) (type : TypeKey) (qualifiers : Qualifiers)
    (w : World C) :
    Attempt.Follows D (unregister c type qualifiers) w (fun _ _ => True) (fun _ _ => True) := by
  refine .bind ((checkConfigurable_follows c .unregister w).mono ?_ fun _ _ h => h)
  rintro _ v ⟨rfl, hc, hphase⟩
  refine .bind (.step (.container fun _ => ?_))
  exact .of_exec_ok rfl (.quiet (.unregister v c type qualifiers _ hc hphase)) True.intro

/-- The survey only reads. -/
theorem survey_follows (c : ContainerId) (w : World C) :
    Machine.Follows D (survey c) w fun _ _ => True :=
  .bind (.container fun _ => .pure True.intro)

end Host

end Wiring
