import Wiring.Proofs.Sample
import Wiring.Proofs.Writing

/-!
# Validation is sound

Validation counts and resolution looks; both ask the providers, which are fixed once validation
has begun. So what validation found is found ever after, as long as components keep saying the
same of themselves.

Main statement: `Codebase.demand_always_met`.
-/

namespace Wiring

variable {C : Client} {D : Outline}

namespace World

/-- What the components of a container need is there if its validation says so. -/
def Sound (D : Outline) (w : World C) : Prop :=
  ∀ c, (w.container c).validation = some (.ok ()) →
    (w.container c).phase ≠ .unconfigured ∧ w.Checked D c

namespace Sound

variable {w v : World C}

/-- Containers stay sound if no validation ends and no provider of a validated one changes. -/
theorem of_containers (hw : w.Sound D)
    (h : ∀ c, (v.container c).validation = some (.ok ()) →
      (w.container c).validation = some (.ok ()) ∧
        ((w.container c).phase ≠ .unconfigured → (v.container c).phase ≠ .unconfigured ∧
          (v.container c).registry.providers = (w.container c).registry.providers)) :
    v.Sound D := by
  intro c hv
  obtain ⟨hvalidation, hsame⟩ := h c hv
  obtain ⟨hphase, hchecked⟩ := hw c hvalidation
  obtain ⟨hphase', hproviders⟩ := hsame hphase
  exact ⟨hphase', hchecked.congr hproviders⟩

theorem of_eq (hw : w.Sound D) (h : v.containers = w.containers) : v.Sound D := by
  have hcontainer := container_congr h
  refine hw.of_containers fun c hv => ?_
  rw [hcontainer] at hv ⊢
  exact ⟨hv, fun hphase => ⟨hphase, rfl⟩⟩

/-- One container changes, in its phase at most. -/
theorem withContainer (hw : w.Sound D) (c : ContainerId) {f : Container C → Container C}
    (hvalidation : (f (w.container c)).validation = (w.container c).validation)
    (hphase : (w.container c).phase ≠ .unconfigured →
      (f (w.container c)).phase ≠ .unconfigured ∧
        (f (w.container c)).registry.providers = (w.container c).registry.providers) :
    (w.withContainer c f).Sound D := by
  refine hw.of_containers ?_
  exact forall_container_withContainer
    (P := fun d k => k.validation = some (.ok ()) →
      (w.container d).validation = some (.ok ()) ∧
        ((w.container d).phase ≠ .unconfigured → k.phase ≠ .unconfigured ∧
          k.registry.providers = (w.container d).registry.providers))
    (fun hv => ⟨hvalidation ▸ hv, hphase⟩) fun _ _ hv => ⟨hv, fun h => ⟨h, rfl⟩⟩

/-- Registries may only change their providers before the container is configured. -/
theorem withRegistry (hw : w.Sound D) (c : ContainerId) {r : Registry C}
    (hr : (w.container c).phase ≠ .unconfigured →
      r.providers = (w.container c).registry.providers) : (w.withRegistry c r).Sound D :=
  hw.withContainer c rfl fun h => ⟨h, hr h⟩

theorem withPhase_destroyed (hw : w.Sound D) (c : ContainerId) :
    (w.withPhase c .destroyed).Sound D :=
  hw.withContainer c rfl fun _ => ⟨Phase.noConfusion, rfl⟩

theorem quiet (hw : w.Sound D) (h : Quiet w v) : v.Sound D := by
  cases h with
  | note | invoked | client | remark | unmatched | reused => exact hw.of_eq rfl
  -- A new container has accepted nothing.
  | create hfresh =>
    refine hw.of_containers fun c hv => ?_
    have hcontainer := container_created hfresh c
    rw [hcontainer] at hv ⊢
    exact ⟨hv, fun h => ⟨h, rfl⟩⟩
  -- Providers come and go only while the container is not configured, and then it has accepted
  -- nothing.
  | register c d size hc hphase =>
    exact (hw.of_eq (v := { w.enter _ with providerCount := _ }) rfl).withContainer c rfl
      fun h => absurd hphase h
  | unregister c type qualifiers removed hc hphase =>
    exact (hw.withRegistry c fun h => absurd hphase h).of_eq rfl
  | remember c r hc hp hr => exact hw.withRegistry c fun _ => hp

/-- A validation that starts promises nothing yet. -/
theorem validating (hw : w.Sound D) {c : ContainerId} (n : Nat)
    (hphase : (w.container c).phase = .unconfigured) : (w.validating c n).Sound D := by
  refine (hw.withContainer c ?_ fun h => absurd hphase h).of_eq rfl
  rw [if_pos hphase]

/-- A validation settles its result, for the better only if all components were checked. -/
theorem advanced_settled (hw : w.Sound D) {c : ContainerId} (new : Phase) (r : Attempted Unit)
    (hphase : (w.container c).phase = .validating ∨ (w.container c).phase = .destroyed)
    (hnew : new ≠ .unconfigured) (hr : r = .ok () → w.Checked D c) :
    ((w.advanced c .validating new).settled c r).Sound D := by
  have hproviders : (((w.advanced c .validating new).settled c r).container c).registry.providers =
      (w.container c).registry.providers := by
    unfold settled
    rw [container_withContainer_self]
    exact congrArg _ (Host.registry_advanced w c _ _)
  intro d hd
  by_cases hdc : d = c
  -- The accepted container was checked against the providers it still has.
  · subst hdc
    unfold settled at hd
    rw [container_withContainer_self] at hd
    obtain rfl : r = .ok () := Option.some.inj hd
    refine ⟨?_, (hr rfl).congr hproviders⟩
    unfold settled advanced
    rw [container_withContainer_self, container_withContainer_self]
    rcases hphase with h | h
    · rw [if_pos h]
      exact hnew
    · rw [if_neg (by rw [h]; decide)]
      show (w.container d).phase ≠ _
      rw [h]
      decide
  -- Other containers are not concerned.
  · have hcontainer : ((w.advanced c .validating new).settled c r).container d = w.container d := by
      unfold settled advanced
      rw [container_withContainer_of_ne _ _ hdc, container_withContainer_of_ne _ _ hdc]
    rw [hcontainer] at hd ⊢
    exact ⟨(hw d hd).1, (hw d hd).2.congr (by rw [hcontainer])⟩

end Sound

end World

open World

/-- Soundness is kept along every course. -/
theorem Course.sound {a : Activity C} {b : Bool} {w v : World C} (h : Course D a b w v)
    (hw : w.Sound D) : v.Sound D := by
  induction h with
  | refl | sweepNil => exact hw
  | trans _ _ ihu ihv => exact ihv (ihu hw)
  | quiet h => exact hw.quiet h
  | abandon c p _ _ ih => exact (ih (hw.of_eq rfl)).of_eq rfl
  | complete c p x _ _ _ ih =>
    exact (ih (hw.of_eq rfl)).of_eq (containers_completed _ p x)
  | constructing c p _ _ ih => exact ih (hw.of_eq rfl)
  | apart _ ih => exact (ih (hw.of_eq rfl)).of_eq rfl
  | departing _ ih => exact ih (hw.of_eq rfl)
  -- What was checked at the end of a validation is what the container holds from then on.
  | accept c n m hc hphase hin hchecked ih =>
    exact (ih (hw.validating n hphase)).advanced_settled .ready (.ok ())
      (hin.frame.validating_end hphase) (by decide) fun _ => hchecked
  | reject c n type f hc hphase hin ih =>
    exact (ih (hw.validating n hphase)).advanced_settled .failed (.error (.definition f))
      (hin.frame.validating_end hphase) (by decide) fun h => by cases h
  | validating c n hc hphase _ ih => exact ih (hw.validating n hphase)
  | teardown c r hc _ _ ih =>
    have hv := ih (hw.withPhase_destroyed c)
    exact (hv.withRegistry (r := Registry.forget _) c fun _ => rfl).of_eq rfl
  | tearing c r hc _ _ ih => exact ih (hw.withPhase_destroyed c)
  | sweepPass c p _ _ ih => exact ih hw
  | sweepVisit c p x o _ _ _ _ _ ihu ihv =>
    refine ihv ((ihu (hw.of_eq rfl)).of_eq ?_)
    rcases o with e | _ <;> rfl
  | sweeping c p x _ _ _ _ ih => exact ih (hw.of_eq rfl)

/-! ## Requests that are not met -/

/-- An entry that says that a request was not met is right about the providers. -/
def Entry.IsJust (c : ContainerId) (r : Registry C) (e : Entry C) : Prop :=
  ∀ type qualifiers f, e = .event c (.unmatched type qualifiers f) →
    r.scan (type, qualifiers) = .error f

/-- The providers of a container are fixed, and they are those of a registry. -/
def World.Fixed (w : World C) (c : ContainerId) (r : Registry C) : Prop :=
  (w.container c).phase ≠ .unconfigured ∧ r.providers = (w.container c).registry.providers

/-- Once the providers of a container are fixed, a request that is not met is one that they do not
meet. -/
theorem admits_isJust (c : ContainerId) (r : Registry C) :
    Admits (fun w => w.Fixed c r) (fun _ => True) (Entry.IsJust c r) where
  -- Once the container is configured, its providers are fixed.
  later w v hw hwv _ :=
    ⟨(hwv.container c).phase.ne_unconfigured hw.1,
      hw.2.trans ((hwv.container c).providers hw.1).symm⟩
  plain e he := by
    rintro type qualifiers f rfl
    exact he.elim
  -- A lookup that finds nothing found nothing in the fixed registry.
  unmatched w d type qualifiers e hw hscan := by
    intro type' qualifiers' f h
    cases h
    exact (Registry.scan_congr hw.2).trans hscan
  reused w d p x _ _ _ _ := by
    intro type qualifiers f h
    cases h
  making w d p _ _ _ := by
    refine ⟨?_, fun x => ⟨?_, ?_⟩⟩ <;>
    · intro type qualifiers f h
      cases h
  tearing w d _ _ := by
    refine ⟨True.intro, fun count previous type qualifiers f h => ?_⟩
    cases h
  sweeping w d p _ _ _ _ x := by
    refine ⟨?_, ?_⟩ <;>
    · intro type qualifiers f h
      cases h

theorem World.blank_sound (s : C.State) : (World.blank (C := C) s).Sound D := by
  intro c h
  cases h

/-- A check that went well found a provider for every object. -/
theorem Host.scan_of_checkDemands {r : Registry C} {l : List (String × Dependency)}
    (h : checkDemands r l = .ok ()) {member : String} {d : Dependency} {type : TypeKey}
    (hd : (member, d) ∈ l) (hwant : d.want = .object type) :
    ∃ q, r.scan (type, d.qualifiers) = .ok q :=
  (checkDemand_eq_ok_iff hwant).1 (checkDemand_of_checkDemands h hd)

/-- Once the validation of a container has gone well, every object that one of its components
declares as needed has a provider, and it is the same one ever after: looking for the only one
finds it, and no request for it is ever reported as not met. -/
theorem Codebase.demand_always_met {code : Codebase C} {constructor : TypeKey → Constructor}
    {points : TypeKey → Points} (hd : code.Describes (.exactly constructor points))
    {s : C.State} {u : World C} (hu : code.Visits (.blank s) u) {c : ContainerId}
    (hvalid : (u.container c).validation = some (.ok ())) {p : Provider C} (hp : u.Holds c p)
    (hcomponent : p.definition.isComponent = true) {member : String} {d : Dependency}
    {type : TypeKey}
    (hmem : (member, d) ∈ (points p.definition.implementation).demands
      p.definition.implementation.name (constructor p.definition.implementation))
    (hwant : d.want = .object type) :
    ∃ q, ∀ v, code.Visits u v →
      ((v.container c).registry.findUnique (type, d.qualifiers)).1 = .ok q ∧
      ∀ new, v.journal = new ++ u.journal →
        ∀ e, .event c (.unmatched type d.qualifiers e) ∉ new := by
  have hcoherent := hu.coherent
  have hsound := (hu.course hd (blank_coherent s)).sound (blank_sound s)
  obtain ⟨hphase, hchecked⟩ := hsound c hvalid
  -- The check asked the component for what it declares, and it says the same ever after.
  obtain ⟨_, _, rfl, rfl, hcheck⟩ := hchecked p hp hcomponent
  obtain ⟨q, hq⟩ := Host.scan_of_checkDemands hcheck hmem hwant
  refine ⟨q, fun v hv => ?_⟩
  have hcourse := hv.course hd hcoherent
  refine ⟨?_, fun new hnew e he => ?_⟩
  · rw [Registry.findUnique_fst ((hcourse.coherent hcoherent).recalled c),
      hcourse.frame.scan hphase]
    exact hq
  · have hwrites := Course.writes (admits_isJust c (u.container c).registry) hcourse hcoherent
      ⟨hphase, rfl⟩ True.intro
    -- A request that was reported as not met would be one that the providers do not meet.
    have hfailed := hwrites.of_append hnew he type d.qualifiers e rfl
    rw [hq] at hfailed
    cases hfailed

namespace Sample

/-- A door needs a lock, and a lock needs nothing. -/
def doors : Codebase Sample :=
  code (fun _ => .done (.ok (.object ()))) fun type =>
    if type = .named "Door" then .inject [.object (.named "Lock")] else .noArgs

/-- The world after a container with a door and a lock was validated. -/
def validatedDoors : World Sample :=
  ((doors.run 2 do
    let c ← Program.request .create
    let _ ← Program.request (.register c (.component (.named "Door") {}))
    let _ ← Program.request (.register c (.component (.named "Lock") {}))
    Program.request (.validate c)).exec blank).2

/-- The lock's demand is met by one provider in every later world, and no lookup of it goes
unmatched. -/
theorem lock_always_met :
    ∃ q, ∀ v, doors.Visits validatedDoors v →
      ((v.container ⟨0⟩).registry.findUnique (.named "Lock", ∅)).1 = .ok q ∧
      ∀ new, v.journal = new ++ validatedDoors.journal →
        ∀ e, .event ⟨0⟩ (.unmatched (.named "Lock") ∅ e) ∉ new := by
  have hvisits : doors.Visits blank validatedDoors := Codebase.visits_of_run rfl
  have hholds : validatedDoors.Holds ⟨0⟩
      ⟨⟨0⟩, (Registration.component (.named "Door") {}).definition⟩ := List.mem_cons_self
  have hmem : ("Door::new(arg 0)", Dependency.object (.named "Lock")) ∈
      Points.demands "Door" (.inject [.object (.named "Lock")]) {} := by decide
  exact Codebase.demand_always_met (code_describes _ _) hvisits rfl hholds rfl hmem rfl

end Sample

end Wiring
