import Wiring.Proofs.Conduct.Resolution
import Wiring.Proofs.Conduct.Teardown
import Wiring.Proofs.Visit

/-!
# Courses of calls and of runs

Nested calls follow courses at every depth, and so does every run of client code, up to wherever
it is looked at. What components may say of themselves is a matter of the client's code alone.

Main statement: `Codebase.Visits.course`, a course leads to every world that is visited.
-/

namespace Wiring

variable {C : Client} {D : Outline} {α : Type}

/-- A call that asks for no value is answered in any way. -/
theorem Call.answered_of_none {k : Call C} {r : Reply C k} {w : World C}
    (h : k.outcome? r = none) : k.Answered r w := by
  intro x hx
  rw [h] at hx
  cases hx

namespace Machine

/-- A machine that runs apart starts with an empty stack, and its caller finds its own again. -/
theorem exec_apart (m : Machine C α) (w : World C) :
    (apart m).exec w =
      match m.exec w.departed with
      | (some a, v) => (some a, w.rejoined v)
      | (none, v) => (none, v) := by
  unfold apart
  refine (exec_bind_some (exec_get w)).trans ?_
  refine (exec_bind_some (exec_set ..)).trans ?_
  show (m >>= _).exec w.departed = _
  rcases hexec : m.exec w.departed with ⟨_ | a, v⟩
  · exact exec_bind_none hexec
  · refine (exec_bind_some hexec).trans ?_
    exact exec_bind_some (exec_modify ..)

/-- What holds of a thread of its own holds of the joined machine, once the caller's stack is back.
-/
theorem apart_follows {m : Machine C α} {w : World C} {Q : α → World C → Prop}
    (h : Follows D m w.departed fun a v => Q a (w.rejoined v)) : Follows D (apart m) w Q := by
  intro hw
  rw [exec_apart]
  rcases hexec : m.exec w.departed with ⟨_ | a, v⟩
  · exact .departing (h.course hw.departed hexec)
  · obtain ⟨hcourse, hQ⟩ := h.ends hw.departed hexec
    exact ⟨.apart hcourse, hQ⟩

end Machine

namespace Host

/-- Every call is answered as its own specification says; each case is the lemma of that function.
-/
theorem answer_follows {h : Host C} (hl : h.Lawful D) (k : Call C) (w : World C) :
    Machine.Follows D (h.answer k) w k.Answered := by
  -- A request by type is answered alike on any thread.
  have hget : ∀ c type qualifiers w, Machine.Follows D (getObject h c type qualifiers).run w
      fun r v => (Call.get c type qualifiers).Answered r v := by
    intro c type qualifiers w
    refine Machine.Follows.mono (getObject_follows hl c type qualifiers w) fun r v hr x hx => ?_
    cases hx
    by_cases htype : type = .container
    · exact .inl htype
    · rcases hr with hr | ⟨p, hp, hyields⟩
      · exact absurd hr htype
      · exact .inr ⟨c, p, type, ⟨rfl, rfl, htype, hp⟩, hyields⟩
  cases k with
  | get c type qualifiers => exact hget c type qualifiers w
  | getApart c type qualifiers => exact Machine.apart_follows (hget c type qualifiers w.departed)
  | single s =>
    refine Machine.Follows.mono (single_follows hl s w) fun r v hr x hx => ?_
    cases hx
    obtain ⟨id, p, hs, hp, hyields⟩ := hr
    exact .inr ⟨s.container, p, s.type, ⟨rfl, rfl, hyields.hasType, id, hs, hp⟩, hyields⟩
  | advance cursor =>
    refine (advance_follows hl cursor w).mono fun r v hr x hx => ?_
    obtain ⟨id, rest, p, hs, hp, hyields⟩ := hr x hx
    exact .inr ⟨_, p, _, ⟨rfl, rfl, hyields.hasType, id, rest, hs, hp⟩, hyields⟩
  | create => exact (create_follows w).mono fun _ _ _ => Call.answered_of_none rfl
  | register c r =>
    exact Machine.Follows.mono (register_follows c r w) fun _ _ _ => Call.answered_of_none rfl
  | unregister c type qualifiers =>
    exact Machine.Follows.mono (unregister_follows c type qualifiers w)
      fun _ _ _ => Call.answered_of_none rfl
  | validate c =>
    exact Machine.Follows.mono (validate_follows hl c w) fun _ _ _ => Call.answered_of_none rfl
  | select c type qualifiers =>
    exact Machine.Follows.mono (select_follows hl c type qualifiers w)
      fun _ _ _ => Call.answered_of_none rfl
  | inject c type o =>
    exact (inject_follows hl c type o w).mono fun _ _ _ => Call.answered_of_none rfl
  | postConstruct type o =>
    exact Machine.Follows.mono (postConstruct_follows hl type o w)
      fun _ _ _ => Call.answered_of_none rfl
  | preDestroy type o =>
    exact Machine.Follows.mono (preDestroy_follows hl type o w)
      fun _ _ _ => Call.answered_of_none rfl
  | destroy c =>
    exact Machine.Follows.mono (destroy_follows hl c w) fun _ _ _ => Call.answered_of_none rfl
  | survey c => exact (survey_follows c w).mono fun _ _ _ => Call.answered_of_none rfl
  | constructorOf type => exact (run_follows hl _ w).mono fun _ _ _ => Call.answered_of_none rfl
  | pointsOf type => exact (run_follows hl _ w).mono fun _ _ _ => Call.answered_of_none rfl

end Host

namespace Codebase

/-- Components say of themselves only what an outline allows, whenever they are asked. -/
structure Describes (code : Codebase C) (D : Outline) : Prop where
  constructor : ∀ type stop depth w v constructor,
    (code.runUntil stop depth (code.component type).constructor).exec w = (some constructor, v) →
      D.constructor type constructor
  points : ∀ type stop depth w v points,
    (code.runUntil stop depth (code.component type).points).exec w = (some points, v) →
      D.points type points

/-- The assumption that says nothing is met by all code. -/
theorem describes_any (code : Codebase C) : code.Describes .any :=
  ⟨fun _ _ _ _ _ _ _ => True.intro, fun _ _ _ _ _ _ _ => True.intro⟩

/-- The answers of code that meets its description are lawful at every depth: by induction on the
depth, since a call made while answering is one level down. -/
theorem Describes.lawful {code : Codebase C} (hd : code.Describes D) (stop : World C → Bool)
    (depth : Nat) : (code.hostUntil stop depth).Lawful D := by
  induction depth with
  | zero =>
    exact ⟨fun k w => .stuck,
      fun type w v constructor => hd.constructor type stop 0 w v constructor,
      fun type w v points => hd.points type stop 0 w v points⟩
  | succ depth ih =>
    refine ⟨fun k w => ?_,
      fun type w v constructor => hd.constructor type stop (depth + 1) w v constructor,
      fun type w v points => hd.points type stop (depth + 1) w v points⟩
    -- Either the watcher lets the call begin, or the run is looked at where it would.
    rcases hstop : stop w
    · exact .congr_exec (performUntil_succ_of_not_stop code stop depth k hstop)
        (Host.answer_follows ih k w)
    · exact .congr_exec (performUntil_succ_of_stop code stop depth k hstop) .stuck

end Codebase

/-- The world before anything has happened. -/
def World.blank (s : C.State) : World C := { client := s }

/-- The first world holds no container and no provider. -/
theorem World.blank_coherent (s : C.State) : (World.blank (C := C) s).Coherent where
  container_lt := by
    rintro c ⟨k, hk⟩
    cases hk
  provider_lt := fun c p hp => absurd hp List.not_mem_nil
  unique := fun c p d q hp => absurd hp List.not_mem_nil
  recalled := fun c request p hp => by cases hp
  agrees := fun c => rfl
  underway_known := fun x hx => absurd hx List.not_mem_nil
  history_known := fun x hx => absurd rfl hx
  kept_history := fun x hx => absurd rfl hx
  account := fun c p hp => absurd hp List.not_mem_nil

namespace Codebase

variable {code : Codebase C} {s : C.State} {w v : World C}

theorem Describes.host_lawful (hd : code.Describes D) (depth : Nat) :
    Host.Lawful D ⟨code, code.perform depth⟩ := by
  rw [← performUntil_never]
  exact hd.lawful _ depth

/-- A call performed in a coherent world follows a course to its answer. -/
theorem perform_follows (hd : code.Describes D) (depth : Nat) (k : Call C) (w : World C) :
    Machine.Follows D (code.perform depth k) w k.Answered :=
  (hd.host_lawful depth).perform k w

/-- A program that is run against lawful answers runs to a coherent world. -/
theorem run_follows (hd : code.Describes D) (depth : Nat) (p : Program C α) (w : World C) :
    Machine.Follows D (code.run depth p) w fun _ _ => True :=
  Host.run_follows (hd.host_lawful depth) p w

/-- A finished course leads to where a run ends. -/
theorem Ends.course (hd : code.Describes D) (h : code.Ends w v) (hw : w.Coherent) :
    Course D .work true w v := by
  obtain ⟨α, p, depth, a, hrun⟩ := h
  exact ((code.run_follows hd depth p w).ends hw hrun).1

/-- A course leads to every world that is visited. -/
theorem Visits.course (hd : code.Describes D) (h : code.Visits w v) (hw : w.Coherent) :
    Course D .work false w v := by
  obtain ⟨α, p, stop, depth, rfl⟩ := h
  exact (Host.run_follows (hd.lawful stop depth) p w).course hw rfl

/-- Every world a program visits from the first one is coherent. -/
theorem Visits.coherent (h : code.Visits (.blank s) v) : v.Coherent :=
  (Visits.course code.describes_any h (World.blank_coherent s)).coherent (World.blank_coherent s)

end Codebase

end Wiring
