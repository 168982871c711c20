import Wiring.Proofs.Invariance
import Wiring.Proofs.Moments
import Wiring.Proofs.Sample

/-!
# Frozen definitions

As long as a container is unconfigured its definitions may be revised, and they are what its
revisions leave. From the moment it leaves that phase the revisions fail and change nothing, and
its definitions stay as they are, whatever any code does, be it in the middle of a validation, a
construction or a teardown.

Main statement: `Codebase.definitions_freeze`.
-/

namespace Wiring

variable {C : Client} {D : Outline} {w v : World C} {c : ContainerId}

/-! ## What is read off a registry -/

namespace Registry

/-- Without qualifiers, only the type is asked for. -/
theorem isAmong_empty (p : Provider C) (type : TypeKey) :
    p.isAmong (type, ∅) = p.definition.hasType type := by
  have hall : p.definition.qualifiers.matchesAmong ∅ = true :=
    Qualifiers.isSubset_iff.2 fun q hq => by simp at hq
  unfold Provider.isAmong
  rw [hall, Bool.and_true]

/-- Some provider answers under a type exactly if some definition has it. -/
theorem contains_eq (r : Registry C) (phase : Phase) (type : TypeKey) :
    r.contains type = (Survey.mk phase r.definitions).contains type := by
  unfold contains findAll Survey.contains definitions
  rw [List.any_map, Bool.eq_iff_iff]
  simp [isAmong_empty]

end Registry

/-- A remark is no revision. -/
theorem Event.IsRemark.not_isRevision {e : Event} (he : e.IsRemark) : ¬ e.isRevision := by
  cases e <;> simp_all [IsRemark, isRevision]

namespace World

/-! ## Revisions at one moment -/

/-- Any code may revise the definitions of a container, in however deep a nested call. -/
structure Revisable (w : World C) (c : ContainerId) : Prop where
  register : ∀ (code : Codebase C) (depth : Nat) (r : Registration C),
    ∃ v, (code.perform (depth + 1) (.register c r)).exec w = (some (.ok ()), v) ∧
      v = w.registered c r.definition ((w.definitions c).length + 1) ∧
      v.definitions c = w.definitions c ++ [r.definition]
  unregister : ∀ (code : Codebase C) (depth : Nat) (type : TypeKey) (qualifiers : Qualifiers),
    ∃ removed v, (code.perform (depth + 1) (.unregister c type qualifiers)).exec w =
        (some (.ok removed), v) ∧
      removed = (w.definitions c).countP (Revision.unregistered type qualifiers).removes ∧
      v = w.unregistered c type qualifiers removed ∧
      v.definitions c =
        (w.definitions c).filter fun d => !(Revision.unregistered type qualifiers).removes d

/-- Whatever code revises the definitions of a container, it gets a failure that names the
operation and the phase, and nothing changes. -/
structure Frozen (w : World C) (c : ContainerId) : Prop where
  register : ∀ (code : Codebase C) (depth : Nat) (r : Registration C),
    (code.perform (depth + 1) (.register c r)).exec w =
      (some (.error (.configuration (.frozen .register (w.container c).phase))), w)
  unregister : ∀ (code : Codebase C) (depth : Nat) (type : TypeKey) (qualifiers : Qualifiers),
    (code.perform (depth + 1) (.unregister c type qualifiers)).exec w =
      (some (.error (.configuration (.frozen .unregister (w.container c).phase))), w)
  message : ∀ change, (ConfigurationCause.frozen change (w.container c).phase).message =
    "cannot " ++ change.display ++ " definitions: container is " ++ (w.container c).phase.display

/-- Whatever is revised while the container is unconfigured takes effect. -/
theorem revisable (hc : w.Has c) (h : (w.container c).phase = .unconfigured) : w.Revisable c := by
  constructor
  · intro code depth r
    refine ⟨_, Host.exec_register hc h r, ?_, w.definitions_registered c r.definition _⟩
    unfold definitions Registry.definitions
    rw [List.length_map]
    rfl
  · intro code depth type qualifiers
    have hcount : (w.definitions c).countP (Revision.unregistered type qualifiers).removes =
        (w.container c).registry.countExact (type, qualifiers) := List.countP_map ..
    exact ⟨_, _, Host.exec_unregister hc h type qualifiers, hcount.symm, rfl,
      w.definitions_unregistered c type qualifiers _⟩

/-- Whatever is revised later is refused and leaves all as it was. -/
theorem frozen (hc : w.Has c) (h : (w.container c).phase ≠ .unconfigured) : w.Frozen c := by
  constructor
  · intro code depth r
    exact Host.exec_bind_error (Host.exec_checkConfigurable_frozen hc h .register)
  · intro code depth type qualifiers
    exact Host.exec_bind_error (Host.exec_checkConfigurable_frozen hc h .unregister)
  · intro change
    rfl

/-! ## Two moments -/

/-- Any code reads the same definitions off a container in both worlds, and the same providers
answer any request. -/
structure ListsAlike (w v : World C) (c : ContainerId) : Prop where
  survey : ∀ (code : Codebase C) (depth : Nat), ∃ old new : Survey C,
    (code.perform (depth + 1) (.survey c)).exec w = (some old, w) ∧
      (code.perform (depth + 1) (.survey c)).exec v = (some new, v) ∧
      new.definitions = old.definitions ∧ new.size = old.size ∧
      ∀ type, new.contains type = old.contains type ∧
        old.contains type = (w.container c).registry.contains type
  findAll : ∀ request, (v.container c).registry.findAll request =
    (w.container c).registry.findAll request
  scan : ∀ request, (v.container c).registry.scan request = (w.container c).registry.scan request

/-- A survey answers the phase and the definitions, and changes nothing. -/
theorem exec_survey (hc : w.Has c) :
    (Host.survey c).exec w = (some ⟨(w.container c).phase, w.definitions c⟩, w) := by
  unfold Host.survey
  rw [Machine.exec_bind_some (Host.exec_container hc)]
  rfl

/-- Lists go by the providers alone. -/
theorem listsAlike (hc : w.Has c) (hcv : v.Has c)
    (h : (v.container c).registry.providers = (w.container c).registry.providers) :
    w.ListsAlike v c := by
  have hdefinitions : v.definitions c = w.definitions c := definitions_congr h
  refine ⟨fun code depth => ?_, fun request => ?_, fun request => ?_⟩
  · refine ⟨_, _, exec_survey hc, exec_survey hcv, hdefinitions, ?_, fun type => ⟨?_, ?_⟩⟩
    · exact congrArg List.length hdefinitions
    · exact congrArg (List.any · (·.hasType type)) hdefinitions
    · exact (Registry.contains_eq _ _ type).symm
  · unfold Registry.findAll
    rw [h]
  · unfold Registry.scan
    rw [h]

/-! ## The revisions of a whole run -/

namespace Accounts

theorem quiet (h : Quiet w v) : w.Accounts v := by
  cases h with
  | note | invoked => exact .enter _ fun _ => rfl
  | client => exact .of_eq rfl rfl
  | remark c he => exact .enter _ fun d => if_neg fun h => he.not_isRevision h.1
  | unmatched | reused => exact .enter _ fun _ => rfl
  | create hfresh =>
    refine .of_same (fun c => ?_) fun _ => rfl
    rw [container_created hfresh]
  | register c d size => exact .registered w c d size
  | unregister c type qualifiers removed => exact .unregistered w c type qualifiers removed
  | remember c r _ hproviders => exact .withContainer w hproviders

theorem completed (w : World C) (p : Provider C) (x : Value C) : w.Accounts (w.completed p x) := by
  refine .of_same (fun c => ?_) fun c => ?_
  · rw [container_congr (containers_completed w p x)]
  · unfold World.completed World.keeping
    split <;> rfl

theorem disposed (w : World C) (c : ContainerId) (p : Provider C) (x : Value C)
    (o : Attempted Unit) : w.Accounts (w.disposed c p x o) := by
  rcases o with e | _
  · exact (Accounts.enter w fun _ => rfl).trans (.enter _ fun _ => rfl)
  · exact .enter w fun _ => rfl

/-- Every change of a course is accounted for. -/
theorem invariant (w : World C) : Invariant D w.Accounts where
  -- Only a registration or an unregistration revises, and a quiet step may be one.
  quiet _ hi h := hi.trans (.quiet h)
  begun _ hi _ := hi.trans (.of_same (fun _ => rfl) fun _ => rfl)
  ended _ hi _ := hi.trans (.of_eq rfl rfl)
  completed x _ hi _ _ := hi.trans (.completed _ _ x)
  departed _ hi := hi.trans (.of_eq rfl rfl)
  rejoined _ _ _ hi _ := hi.trans (.of_eq rfl rfl)
  validating _ _ hi _ _ := hi.trans (.of_same (providers_advanced _ _ _ _) fun _ => rfl)
  accepted n _ hi _ _ := hi.trans (.of_same (providers_accepted _ _ n) fun _ => rfl)
  rejected type _ _ hi _ := hi.trans (.of_same (providers_rejected _ _ type _) fun _ => rfl)
  destroyed _ hi _ _ := hi.trans (.of_same (providers_withPhase _ _ _) fun _ => rfl)
  closed n previous _ hi _ _ _ :=
    hi.trans (.of_same (providers_closed _ _ n previous) fun _ => rfl)
  releasing _ hi _ _ _ := hi.trans (.of_same (fun _ => rfl) fun _ => rfl)
  disposed x o _ hi _ _ _ := hi.trans (.disposed _ _ _ x o)

end Accounts

end World

open World

/-- At two moments of a run, the later one being `v`: the definitions of a container can be revised
exactly if it is unconfigured; otherwise the attempt fails and leaves everything as it is. Once the
container is no longer unconfigured its definitions are read, and requests matched, alike forever
after. At both moments its definitions are the registered ones that no later revision removed, in
the order of registration, and the revisions are those that it reported until then. -/
theorem Codebase.definitions_freeze {code : Codebase C} {s : C.State}
    (h : code.Passes (.blank s) w v) (hc : w.Has c) :
    ((v.container c).phase = .unconfigured → v.Revisable c) ∧
    ((v.container c).phase ≠ .unconfigured → v.Frozen c) ∧
    ((w.container c).phase ≠ .unconfigured →
      (v.container c).phase ≠ .unconfigured ∧ w.ListsAlike v c) ∧
    ∃ older newer : List (Revision C),
      List.Forall₂ Revision.IsReported older (w.revisions c) ∧
      w.definitions c = Revision.survivors older ∧
      List.Forall₂ Revision.IsReported (older ++ newer) (v.revisions c) ∧
      v.definitions c = Revision.survivors (older ++ newer) := by
  obtain ⟨hwv, -⟩ := h.visits
  have hmoves := h.moves
  have hlt := hwv.coherent.container_lt c hc
  have hcv := hmoves.has c hc
  refine ⟨revisable hcv, frozen hcv, fun hphase => ⟨?_, ?_⟩, ?_⟩
  · exact (hmoves.container c hlt).phase.ne_unconfigured hphase
  · exact listsAlike hc hcv ((hmoves.container c hlt).providers hphase)
  · have hcourse := hwv.course code.describes_any (blank_coherent s)
    have haccounts : (World.blank s).Accounts w :=
      hcourse.invariant (Accounts.invariant _) (blank_coherent s) (.of_eq rfl rfl)
    obtain ⟨older, ⟨reports, hreports, holder⟩, hw⟩ := haccounts c
    obtain ⟨newer, ⟨reports', hreports', hnewer⟩, hv⟩ := hmoves.revised c hlt
    -- Nothing was reported before the run, and there was no definition.
    have hreports : w.revisions c = reports := hreports
    have hw : w.definitions c = Revision.survivors older := hw
    refine ⟨older, newer, ?_, hw, ?_, ?_⟩
    · rwa [hreports]
    · rw [hreports', hreports]
      exact List.rel_append holder hnewer
    · rw [hv, hw, Revision.survivors_append]

namespace Sample

/-- A lamp and a door are registered and the lamp is replaced by another one; after the validation a
third lamp is registered in vain. -/
def relit : Program Sample (Attempted Unit) := do
  let c ← Program.request .create
  let _ ← Program.request (.register c (.component (.named "Lamp") {}))
  let _ ← Program.request (.register c (.component (.named "Door") {}))
  let _ ← Program.request (.unregister c (.named "Lamp") ∅)
  let _ ← Program.request (.register c (.component (.named "Lamp") {}))
  let _ ← Program.request (.validate c)
  Program.request (.register c (.component (.named "Lamp") {}))

def isReady (w : World Sample) : Bool := (w.container ⟨0⟩).phase = .ready

def justReady : World Sample :=
  ((lamps.runUntil (fun w => isReady w || false) 2 relit).exec blank).2

def stillReady : World Sample := ((lamps.runUntil (fun _ => false) 2 relit).exec blank).2

/-- The lamp's container, once ready, lists the same and its definitions are what its revisions
left. -/
theorem lamp_frozen :
    stillReady.Frozen ⟨0⟩ ∧ justReady.ListsAlike stillReady ⟨0⟩ ∧
      (stillReady.definitions ⟨0⟩).map (·.implementation) = [.named "Door", .named "Lamp"] ∧
      ∃ l, List.Forall₂ Revision.IsReported l (stillReady.revisions ⟨0⟩) ∧
        stillReady.definitions ⟨0⟩ = Revision.survivors l := by
  have hpasses : lamps.Passes blank justReady stillReady :=
    ⟨_, relit, isReady, fun _ => false, 2, rfl, rfl⟩
  have hhas : justReady.Has ⟨0⟩ := Option.isSome_iff_exists.1 (by decide +kernel)
  have hready : (justReady.container ⟨0⟩).phase = .ready := by decide +kernel
  have hstill : (stillReady.container ⟨0⟩).phase = .ready := by decide +kernel
  obtain ⟨-, hfrozen, halike, older, newer, -, -, hreported, hdefinitions⟩ :=
    Codebase.definitions_freeze hpasses hhas
  have hne : Phase.ready ≠ .unconfigured := Phase.noConfusion
  refine ⟨hfrozen (hstill ▸ hne), (halike (hready ▸ hne)).2, ?_, older ++ newer, hreported,
    hdefinitions⟩
  decide +kernel

end Sample

end Wiring
