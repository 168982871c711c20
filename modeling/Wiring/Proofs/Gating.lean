import Wiring.Proofs.Moments
import Wiring.Proofs.Validity
import Wiring.Proofs.Verdicts

/-!
# Phases as gates

What a container does is a matter of its phase. It is validated once, it makes values only after
that has succeeded, and once its validation has failed or it was torn down it answers every
request with the same failure and does nothing. Looking at definitions, changing and validating
them makes no value in any phase.

Main statement: `Codebase.phase_gates`.
-/

namespace Wiring

variable {C : Client} {w v : World C} {c : ContainerId} {e e' : Failure}

/-! ## Calls that make nothing -/

/-- An entry that is neither the start of a provider nor that of a member's client code. -/
def Entry.IsIdle : Entry C → Prop
  | .milestone (.started _) | .milestone (.invoked _) => False
  | _ => True

/-- A call that looks at definitions, changes them or validates them. -/
inductive Call.IsPassive : Call C → Prop
  | register (c : ContainerId) (r : Registration C) : IsPassive (.register c r)
  | unregister (c : ContainerId) (type : TypeKey) (qualifiers : Qualifiers) :
      IsPassive (.unregister c type qualifiers)
  | validate (c : ContainerId) : IsPassive (.validate c)
  | select (c : ContainerId) (type : TypeKey) (qualifiers : Qualifiers) :
      IsPassive (.select c type qualifiers)
  | survey (c : ContainerId) : IsPassive (.survey c)

/-- Two hosts compare in passive calls if they do in what components say of themselves. -/
theorem Host.passive_congr {R : (α : Type) → World C → Machine C α → Machine C α → Prop}
    (hR : Congruence R) {h h' : Host C} (hd : DescribedAlike R h h') {k : Call C}
    (hk : k.IsPassive) (w : World C) : R _ w (h.answer k) (h'.answer k) := by
  cases hk with
  | register c r => exact hR.register w c r
  | unregister c type qualifiers => exact hR.unregister w c type qualifiers
  | validate c => exact validate_congr hR hd c w
  | select c type qualifiers => exact select_congr hR hd c type qualifiers w
  | survey c => exact survey_congr hR c w

namespace Machine

/-- Two steps have the same answer and leave the same world. -/
def Agree (α : Type) (w : World C) (m m' : Machine C α) : Prop := m.exec w = m'.exec w

/-- Agreement from two worlds is a congruence, so it passes through every function of the host. -/
theorem Agree.congruence : Congruence (C := C) Agree where
  pure _ _ := rfl
  failure _ _ := rfl
  -- Agreement on the first part leads to the same world, from which the second parts agree.
  bind {α β w m m' f f'} h hf := by
    unfold Agree at h hf ⊢
    rcases hm : m'.exec w with ⟨_ | a, v⟩
    · rw [exec_bind_none hm, exec_bind_none (h.trans hm)]
    · rw [exec_bind_some hm, exec_bind_some (h.trans hm)]
      exact hf a v hm
  look _ := rfl
  report _ _ _ _ := rfl
  addContainer _ := rfl
  register _ _ _ := rfl
  unregister _ _ _ _ := rfl
  setRegistry _ _ _ _ := rfl
  advancePhase _ _ _ _ _ := rfl
  settleValidation _ _ _ := rfl

/-- The second step starts no provider and no client code of a member. -/
def StartsNothing (α : Type) (w : World C) (_ m : Machine C α) : Prop :=
  w.Writes Entry.IsIdle (m.exec w).2

/-- That nothing is started passes through every function as well. -/
theorem StartsNothing.congruence : Congruence (C := C) StartsNothing where
  pure _ _ := .of_eq rfl
  failure _ _ := .of_eq rfl
  -- Either part may write entries as long as none is a start.
  bind {α β w m m' f f'} h hf := by
    unfold StartsNothing at h hf ⊢
    rcases hm : m'.exec w with ⟨_ | a, v⟩
    · rw [exec_bind_none hm]
      rwa [hm] at h
    · rw [exec_bind_some hm]
      rw [hm] at h
      exact h.trans (hf a v hm)
  look _ := .of_eq rfl
  report _ _ _ _ := .entry rfl True.intro
  addContainer _ := .of_eq rfl
  register w c r := by
    unfold StartsNothing
    -- A registration is refused or adds its provider and one event.
    rcases Host.register_cases c r w with hsame | ⟨-, hregistered⟩
    · exact .of_eq (congrArg World.journal hsame)
    · rw [hregistered]
      exact .entry rfl True.intro
  unregister w c type qualifiers := by
    unfold StartsNothing
    rcases Host.unregister_cases c type qualifiers w with hsame | ⟨-, hunregistered⟩
    · exact .of_eq (congrArg World.journal hsame)
    · rw [hunregistered]
      exact .entry rfl True.intro
  setRegistry _ _ _ _ := .of_eq rfl
  advancePhase _ _ _ _ _ := .of_eq rfl
  settleValidation _ _ _ := .of_eq rfl

end Machine

namespace Codebase

/-- To a given depth, the components of two codes say the same of themselves. -/
structure DescribedAs (code code' : Codebase C) (depth : Nat) : Prop where
  constructor : ∀ type u, (code.run depth (code.component type).constructor).exec u =
    (code'.run depth (code'.component type).constructor).exec u
  points : ∀ type u, (code.run depth (code.component type).points).exec u =
    (code'.run depth (code'.component type).points).exec u

/-- To a given depth, components start nothing when they are asked what they need. -/
structure DescribedIdly (code : Codebase C) (depth : Nat) : Prop where
  constructor : ∀ type (u : World C),
    u.Writes Entry.IsIdle ((code.run depth (code.component type).constructor).exec u).2
  points : ∀ type (u : World C),
    u.Writes Entry.IsIdle ((code.run depth (code.component type).points).exec u).2

variable {code code' : Codebase C} {depth : Nat} {k : Call C}

/-- What a passive call does depends on no code but what describes components. -/
theorem perform_passive_eq (h : code.DescribedAs code' depth) (hk : k.IsPassive) (u : World C) :
    (code.perform (depth + 1) k).exec u = (code'.perform (depth + 1) k).exec u := by
  have hd : Host.DescribedAlike Machine.Agree ⟨code, code.perform depth⟩
      ⟨code', code'.perform depth⟩ := ⟨h.constructor, h.points⟩
  exact Host.passive_congr Machine.Agree.congruence hd hk u

/-- A passive call starts nothing. -/
theorem perform_passive_writes (h : code.DescribedIdly depth) (hk : k.IsPassive) (u : World C) :
    u.Writes Entry.IsIdle ((code.perform (depth + 1) k).exec u).2 := by
  have hd : Host.DescribedAlike Machine.StartsNothing ⟨code, code.perform depth⟩
      ⟨code, code.perform depth⟩ := ⟨h.constructor, h.points⟩
  exact Host.passive_congr Machine.StartsNothing.congruence hd hk u

end Codebase

/-! ## Containers that resolve nothing -/

/-- A container answers validation with the first failure and requests with the second one. -/
inductive Container.Refuses (k : Container C) : Failure → Failure → Prop
  | failed (f : LookupFailure) : k.phase = .failed →
      k.validation = some (.error (.definition f)) →
      k.Refuses (.definition f) (.definition f)
  | destroyed : k.phase = .destroyed →
      k.Refuses (.configuration .tornDown) (.configuration .resolvedTornDown)

/-- The calls that such a container answers with its failures, and those answers. -/
inductive Call.Refused (c : ContainerId) (e e' : Failure) : (k : Call C) → Reply C k → Prop
  | validate : Refused c e e' (.validate c) (Except.error e)
  | get (type : TypeKey) (qualifiers : Qualifiers) :
      Refused c e e' (.get c type qualifiers) (Except.error e')
  | getApart (type : TypeKey) (qualifiers : Qualifiers) :
      Refused c e e' (.getApart c type qualifiers) (Except.error e')
  | select (type : TypeKey) (qualifiers : Qualifiers) :
      Refused c e e' (.select c type qualifiers) (Except.error e')
  | inject (type : TypeKey) (o : C.Object) : Refused c e e' (.inject c type o) (o, Except.error e')

namespace Host

variable {h : Host C}

/-- A container that refuses answers a validation with its first refusal and does not change. -/
theorem exec_validate_refused (hc : w.Has c) (hr : (w.container c).Refuses e e') :
    (validate h c).run.exec w = (some (.error e), w) := by
  unfold validate
  refine (exec_bind_container hc _).trans ?_
  cases hr with
  | failed f hphase hvalidation =>
    rw [hphase, hvalidation]
    rfl
  | destroyed hphase =>
    rw [hphase]
    rfl

/-- The same of a request that needs it ready. -/
theorem exec_ensureReady_refused (hc : w.Has c) (hr : (w.container c).Refuses e e') :
    (ensureReady h c).run.exec w = (some (.error e'), w) := by
  unfold ensureReady
  refine (exec_bind_container hc _).trans ?_
  have hvalidate := exec_validate_refused (h := h) hc hr
  cases hr with
  | failed f hphase =>
    rw [hphase]
    exact hvalidate
  | destroyed hphase =>
    rw [hphase]
    rfl

/-- A refused call leaves the world as it is. -/
theorem exec_answer_refused (hc : w.Has c) (hr : (w.container c).Refuses e e') {k : Call C}
    {a : Reply C k} (hk : k.Refused c e e' a) : (h.answer k).exec w = (some a, w) := by
  -- Every way to an object begins with the question whether the container is ready.
  have hget : ∀ {u : World C}, u.Has c → (u.container c).Refuses e e' → ∀ type qualifiers,
      (getObject h c type qualifiers).run.exec u = (some (.error e'), u) :=
    fun hc hr _ _ => exec_bind_error (exec_ensureReady_refused hc hr)
  cases hk with
  | validate => exact exec_validate_refused hc hr
  | get type qualifiers => exact hget hc hr type qualifiers
  | getApart type qualifiers =>
    have hdeparted : w.departed.Has c := hc
    refine (Machine.exec_apart (getObject h c type qualifiers).run w).trans ?_
    rw [hget hdeparted hr]
    rfl
  | select type qualifiers => exact exec_bind_error (exec_ensureReady_refused hc hr)
  | inject type o => exact Machine.exec_bind_some (exec_ensureReady_refused hc hr)

end Host

/-- Every call that a container which resolves nothing can refuse is answered with these failures,
however deep calls may be nested, and changes nothing. -/
def Codebase.Refuses (code : Codebase C) (c : ContainerId) (e e' : Failure) (w : World C) : Prop :=
  ∀ (k : Call C) (a : Reply C k), k.Refused c e e' a →
    ∀ depth, (code.perform (depth + 1) k).exec w = (some a, w)

/-- A refusing container refuses all the calls that need it ready. -/
theorem Container.Refuses.refuses (hr : (w.container c).Refuses e e') (hc : w.Has c)
    (code : Codebase C) : code.Refuses c e e' w :=
  fun _ _ hk _ => Host.exec_answer_refused hc hr hk

/-! ## Verdicts do not change -/

namespace World

theorem blank_docketed (s : C.State) : (World.blank (C := C) s).Docketed :=
  fun _ => .pending (.inl rfl) rfl

theorem blank_licensed (s : C.State) : (World.blank (C := C) s).Licensed :=
  fun _ _ _ _ h => by simp [World.blank] at h

namespace Docketed

/-- A container that has failed holds the failure that was reported. -/
theorem rejected_of_failed (hw : w.Docketed) (hphase : (w.container c).phase = .failed) :
    ∃ f type n, (w.container c).validation = some (.error (.definition f)) ∧
      w.docket c = [.rejected type (.definition f), .validating n] := by
  have hdecided := hw c
  generalize w.docket c = l at hdecided ⊢
  cases hdecided with
  | rejected n type f _ hv => exact ⟨f, type, n, hv, rfl⟩
  | pending hp | begun _ hp | accepted _ _ hp => simp [hphase] at hp

/-- A container that has failed at two moments holds the same failure at both. -/
theorem refuses_of_failed (hw : w.Docketed) (hv : v.Docketed) (hjournal : w.journal <:+ v.journal)
    (hphase : (w.container c).phase = .failed) (hphase' : (v.container c).phase = .failed) :
    ∃ f, (w.container c).Refuses (.definition f) (.definition f) ∧
      (v.container c).Refuses (.definition f) (.definition f) := by
  obtain ⟨f, type, n, hvalidation, hdocket⟩ := hw.rejected_of_failed hphase
  obtain ⟨f', type', n', hvalidation', hdocket'⟩ := hv.rejected_of_failed hphase'
  have hsuffix : w.docket c <:+ v.docket c := hjournal.filterMap (Entry.verdict? c)
  have heq : w.docket c = v.docket c := by
    refine hsuffix.eq_of_length ?_
    rw [hdocket, hdocket']
    rfl
  rw [hdocket, hdocket'] at heq
  obtain ⟨-, rfl⟩ : type = type' ∧ f = f' := by simpa using (List.cons.inj heq).1
  exact ⟨f, .failed f hphase hvalidation, .failed f hphase' hvalidation'⟩

end Docketed

end World

open World

/-- At two moments of a run, the later one being `v`: a container has only moved on, and was
validated once at most, and once exactly if it is ready or has failed. Each of its providers started
after it was reported as ready, which it is only if its validation succeeded. Passive calls start
nothing, and no code has a say in them but what describes components. Once failed, a container
answers with the failure of its validation, and once torn down, with that of a wrong configuration;
in both cases nothing changes, and no code has a say. -/
theorem Codebase.phase_gates {code : Codebase C} {s : C.State}
    (h : code.Passes (.blank s) w v) (hc : w.Has c) :
    ((w.container c).phase.Leads (v.container c).phase ∧ v.validations c ≤ 1 ∧
      ((v.container c).phase = .ready ∨ (v.container c).phase = .failed → v.validations c = 1)) ∧
    (∀ p, v.Holds c p → ∀ older, .milestone (.started p.id) :: older <:+ v.journal →
      (∃ n, .event c (.ready n) ∈ older) ∧ (v.container c).validation = some (.ok ())) ∧
    (∀ k : Call C, k.IsPassive → ∀ depth u,
      (∀ code', code.DescribedAs code' depth →
        (code.perform (depth + 1) k).exec u = (code'.perform (depth + 1) k).exec u) ∧
      (code.DescribedIdly depth →
        u.Writes Entry.IsIdle ((code.perform (depth + 1) k).exec u).2)) ∧
    ((w.container c).phase = .failed → (v.container c).phase = .failed →
      ∃ f, ∀ anyCode : Codebase C, anyCode.Refuses c (.definition f) (.definition f) w ∧
        anyCode.Refuses c (.definition f) (.definition f) v) ∧
    ((v.container c).phase = .destroyed → ∀ anyCode : Codebase C,
      anyCode.Refuses c (.configuration .tornDown) (.configuration .resolvedTornDown) v) := by
  obtain ⟨hwv, hvv⟩ := h.visits
  have hmoves := h.moves
  -- Every visited world keeps its docket, and starts nothing without a licence.
  have hdocketed : ∀ {u : World C}, code.Visits (.blank s) u → u.Docketed := fun hu =>
    (hu.course code.describes_any (blank_coherent s)).docketed (blank_coherent s)
      (blank_docketed s)
  have hcourse := hvv.course code.describes_any (blank_coherent s)
  have hlicensed := hcourse.licensed (blank_coherent s) (blank_docketed s) (blank_licensed s)
  have hcv := hmoves.has c hc
  refine ⟨⟨?_, (hdocketed hvv).validations_le c, (hdocketed hvv).validations_of_decided⟩,
    ?_, ?_, ?_, ?_⟩
  · exact (hmoves.container c (hwv.coherent.container_lt c hc)).phase
  -- The licence of a start is a ready event before it, which an accepting validation wrote.
  · intro p hp older holder
    obtain ⟨n, hn⟩ := hlicensed c p hp older holder
    have hready : .event c (.ready n) ∈ v.journal := holder.subset (List.mem_cons_of_mem _ hn)
    exact ⟨⟨n, hn⟩, (hdocketed hvv).validation_of_ready_mem hready⟩
  · intro k hk depth u
    exact ⟨fun code' hcode => perform_passive_eq hcode hk u,
      fun hidle => perform_passive_writes hidle hk u⟩
  · intro hphase hphase'
    -- Both moments have the same verdict on the docket, so they refuse with the same failure.
    obtain ⟨f, hr, hr'⟩ :=
      (hdocketed hwv).refuses_of_failed (hdocketed hvv) hmoves.journal hphase hphase'
    exact ⟨f, fun anyCode => ⟨hr.refuses hc anyCode, hr'.refuses hcv anyCode⟩⟩
  · intro hphase anyCode
    exact Container.Refuses.refuses (.destroyed hphase) hcv anyCode

namespace Sample

/-- A container with a door but no lock is validated, another one is made, and the door is asked
for. -/
def lockedOut : Program Sample (Attempted (Value Sample)) := do
  let c ← Program.request .create
  let _ ← Program.request (.register c (.component (.named "Door") {}))
  let _ ← Program.request (.validate c)
  let _ ← Program.request .create
  Program.request (.get c (.named "Door") ∅)

def hasFailed (w : World Sample) : Bool := (w.container ⟨0⟩).phase = .failed

def hasSecond (w : World Sample) : Bool := w.containerCount = 2

def justFailed : World Sample :=
  ((doors.runUntil (fun w => hasFailed w || hasSecond w) 2 lockedOut).exec blank).2

def stillFailed : World Sample := ((doors.runUntil hasSecond 2 lockedOut).exec blank).2

/-- The doors' container, once it has failed, goes on refusing with the same failure. -/
theorem door_refused :
    justFailed.containerCount < stillFailed.containerCount ∧
      ∃ f, doors.Refuses ⟨0⟩ (.definition f) (.definition f) justFailed ∧
        doors.Refuses ⟨0⟩ (.definition f) (.definition f) stillFailed := by
  have hpasses : doors.Passes blank justFailed stillFailed :=
    ⟨_, lockedOut, hasFailed, hasSecond, 2, rfl, rfl⟩
  have hhas : justFailed.Has ⟨0⟩ := ⟨_, rfl⟩
  obtain ⟨-, -, -, hsticky, -⟩ := Codebase.phase_gates hpasses hhas
  have hcount : justFailed.containerCount < stillFailed.containerCount := by decide
  obtain ⟨f, hrefuses⟩ := hsticky rfl rfl
  exact ⟨hcount, f, hrefuses doors⟩

end Sample

end Wiring
