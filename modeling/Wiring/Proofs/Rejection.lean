import Wiring.Proofs.Disposal
import Wiring.Proofs.Invocation
import Wiring.Proofs.Remembering
import Wiring.Proofs.Validity

/-!
# What validation rejects

A validation asks the components of its container, in order of registration, what they require,
and holds that against the providers. It accepts exactly if there is one provider for every
required object; else it rejects the first requirement for which there is none or several.

The requirements of a component are listed here the way its declaration reads: the parameters of
its constructor, those of its methods, then its fields. What is said of a requirement is said of the
bare list of providers.

Main statement: `Codebase.validate_decides`.
-/

namespace Wiring

variable {C : Client} {D : Outline}

/-! ## Requirements -/

/-- The parameters of injection methods, in order of declaration. -/
def Point.methodRequirements (owner : String) : List Point → List (String × Dependency)
  | [] => []
  | .field _ _ :: rest => methodRequirements owner rest
  | .method name wanted :: rest =>
    Label.parameters owner name wanted ++ methodRequirements owner rest

/-- The fields, in order of declaration. -/
def Point.fieldRequirements (owner : String) : List Point → List (String × Dependency)
  | [] => []
  | .field name d :: rest => (Label.member owner name, d) :: fieldRequirements owner rest
  | .method _ _ :: rest => fieldRequirements owner rest

/-- All that a component declares as needed, with the label of each place. -/
def Points.requirements (owner : String) (constructor : Constructor) (points : Points) :
    List (String × Dependency) :=
  Label.parameters owner "new" constructor.parameters ++
    Point.methodRequirements owner points.toList ++ Point.fieldRequirements owner points.toList

theorem Point.methodRequirements_append (owner : String) (l l' : List Point) :
    methodRequirements owner (l ++ l') =
      methodRequirements owner l ++ methodRequirements owner l' := by
  induction l with
  | nil => rfl
  | cons point rest ih =>
    cases point with
    | field name d => exact ih
    | method name wanted => simp [methodRequirements, ih]

theorem Point.fieldRequirements_append (owner : String) (l l' : List Point) :
    fieldRequirements owner (l ++ l') =
      fieldRequirements owner l ++ fieldRequirements owner l' := by
  induction l with
  | nil => rfl
  | cons point rest ih =>
    cases point with
    | field name d => simp [fieldRequirements, ih]
    | method name wanted => exact ih

/-- The points of an embedded base are required where the base was appended: after what the
component had declared by then, methods among methods and fields among fields. -/
theorem Points.requirements_inherit (owner : String) (constructor : Constructor)
    (points base : Points) :
    (points.inherit base).requirements owner constructor =
      Label.parameters owner "new" constructor.parameters ++
        (Point.methodRequirements owner points.toList ++
          Point.methodRequirements owner base.toList) ++
        (Point.fieldRequirements owner points.toList ++
          Point.fieldRequirements owner base.toList) := by
  unfold requirements inherit
  rw [Point.methodRequirements_append, Point.fieldRequirements_append]

/-- The injection of methods asks for what their requirements list. -/
theorem Point.flatMap_methods (owner : String) (l : List Point) :
    (l.filter (!·.isField)).flatMap (resolutions owner) = methodRequirements owner l := by
  induction l with
  | nil => rfl
  | cons point rest ih =>
    cases point with
    | field name d =>
      rw [List.filter_cons_of_neg Bool.false_ne_true]
      exact ih
    | method name wanted =>
      rw [List.filter_cons_of_pos rfl, List.flatMap_cons, ih]
      rfl

/-- The injection of fields asks for what their requirements list. -/
theorem Point.flatMap_fields (owner : String) (l : List Point) :
    (l.filter isField).flatMap (resolutions owner) = fieldRequirements owner l := by
  induction l with
  | nil => rfl
  | cons point rest ih =>
    cases point with
    | field name d =>
      rw [List.filter_cons_of_pos rfl, List.flatMap_cons, ih]
      rfl
    | method name wanted =>
      rw [List.filter_cons_of_neg Bool.false_ne_true]
      exact ih

/-- A validation looks at the requirements in the order in which they are listed. -/
theorem Points.demands_eq_requirements (owner : String) (constructor : Constructor)
    (points : Points) :
    points.demands owner constructor = points.requirements owner constructor := by
  unfold demands requirements methods fields
  rw [List.flatMap_append, Point.flatMap_methods, Point.flatMap_fields, List.append_assoc]

/-! ## Requirements and providers -/

/-- If an object is required, exactly one of the providers meets the request. -/
def Dependency.IsMetBy (d : Dependency) (l : List (Provider C)) : Prop :=
  ∀ type, d.want = .object type →
    ∃ p, l.filter (fun q => decide (q.Meets (type, d.qualifiers))) = [p]

/-- An object is required at a place, and none of the providers meets the request, or several
do. -/
inductive Dependency.Offends (d : Dependency) (l : List (Provider C)) (member : String) :
    LookupFailure → Prop
  | unsatisfied (type : TypeKey) : d.want = .object type →
      (∀ p ∈ l, ¬ p.Meets (type, d.qualifiers)) →
      d.Offends l member ⟨.unsatisfied, type, d.qualifiers, some member⟩
  | ambiguous (type : TypeKey) : d.want = .object type →
      2 ≤ (l.filter fun q => decide (q.Meets (type, d.qualifiers))).length →
      d.Offends l member ⟨.ambiguous, type, d.qualifiers, some member⟩

/-- The first requirement that offends does so in this way. -/
def FirstOffence (l : List (Provider C)) (required : List (String × Dependency))
    (f : LookupFailure) : Prop :=
  ∃ before member d after, required = before ++ (member, d) :: after ∧
    (∀ r ∈ before, r.2.IsMetBy l) ∧ d.Offends l member f

/-- Counting providers counts those that meet the request. -/
theorem Registry.countExact_eq (r : Registry C) (request : Request) :
    r.countExact request = (r.providers.filter fun q => decide (q.Meets request)).length := by
  unfold countExact
  rw [List.countP_eq_length_filter]
  refine congrArg List.length (List.filter_congr fun q _ => ?_)
  rw [Bool.eq_iff_iff, Provider.isExact_iff, decide_eq_true_iff]

/-- A requirement that is not met offends. -/
theorem Dependency.isMetBy_or_offends (d : Dependency) (l : List (Provider C)) (member : String) :
    d.IsMetBy l ∨ ∃ f, d.Offends l member f := by
  by_cases hobject : ∃ type, d.want = .object type
  · obtain ⟨type, hwant⟩ := hobject
    -- None, one or several of the providers meet the demand.
    rcases hfound : l.filter fun q => decide (q.Meets (type, d.qualifiers)) with
      _ | ⟨p, _ | ⟨q, rest⟩⟩
    · refine .inr ⟨_, .unsatisfied type hwant fun p hp hmeets => ?_⟩
      have hmem : p ∈ l.filter fun q => decide (q.Meets (type, d.qualifiers)) :=
        List.mem_filter.2 ⟨hp, decide_eq_true hmeets⟩
      simp [hfound] at hmem
    · left
      intro type' hwant'
      obtain rfl := Want.object.inj (hwant.symm.trans hwant')
      exact ⟨p, hfound⟩
    · exact .inr ⟨_, .ambiguous type hwant (by simp [hfound])⟩
  · left
    intro type hwant
    exact absurd ⟨type, hwant⟩ hobject

/-- An offence behind demands that are met is still the first. -/
theorem FirstOffence.cons {l : List (Provider C)} {required : List (String × Dependency)}
    {f : LookupFailure} {member : String} {d : Dependency} (hd : d.IsMetBy l)
    (h : FirstOffence l required f) : FirstOffence l ((member, d) :: required) f := by
  obtain ⟨before, member', d', after, rfl, hbefore, hoffends⟩ := h
  refine ⟨(member, d) :: before, member', d', after, rfl, ?_, hoffends⟩
  intro r hr
  rcases List.mem_cons.1 hr with rfl | hr
  · exact hd
  · exact hbefore r hr

/-- All requirements are met, or there is a first one that offends. -/
theorem FirstOffence.all_or_exists (l : List (Provider C))
    (required : List (String × Dependency)) :
    (∀ r ∈ required, r.2.IsMetBy l) ∨ ∃ f, FirstOffence l required f := by
  induction required with
  | nil => exact .inl fun r hr => absurd hr List.not_mem_nil
  | cons entry rest ih =>
    obtain ⟨member, d⟩ := entry
    -- An offence of the first demand comes before all others.
    rcases d.isMetBy_or_offends l member with hmet | ⟨f, hoffends⟩
    · rcases ih with hall | ⟨f, hfirst⟩
      · left
        intro r hr
        rcases List.mem_cons.1 hr with rfl | hr
        · exact hmet
        · exact hall r hr
      · exact .inr ⟨f, hfirst.cons hmet⟩
    · have hnone : ∀ r ∈ ([] : List (String × Dependency)), r.2.IsMetBy l :=
        fun r hr => absurd hr List.not_mem_nil
      exact .inr ⟨f, [], member, d, rest, rfl, hnone, hoffends⟩

namespace Host

/-- A demand that is met passes the check. -/
theorem checkDemand_of_isMetBy {r : Registry C} {d : Dependency} (h : d.IsMetBy r.providers)
    (member : String) : checkDemand r member d = .ok () := by
  unfold checkDemand
  rcases hwant : d.want with type | _ | type
  · obtain ⟨p, hp⟩ := h type hwant
    have hcount : r.countExact (type, d.qualifiers) = 1 := by
      rw [Registry.countExact_eq, hp, List.length_singleton]
    simp only [hcount]
  · rfl
  · rfl

/-- A demand that is not met is refused with the failure that its providers deserve. -/
theorem checkDemand_of_offends {r : Registry C} {d : Dependency} {member : String}
    {f : LookupFailure} (h : d.Offends r.providers member f) :
    checkDemand r member d = .error (.definition f) := by
  unfold checkDemand
  cases h with
  | unsatisfied type hwant hnone =>
    -- Counting and listing the exact matches agree.
    have hcount : r.countExact (type, d.qualifiers) = 0 := by
      rw [Registry.countExact_eq, List.length_eq_zero_iff, List.filter_eq_nil_iff]
      intro p hp hmeets
      exact hnone p hp (of_decide_eq_true hmeets)
    simp only [hwant, hcount]
  | ambiguous type hwant hmany =>
    rw [← Registry.countExact_eq] at hmany
    simp only [hwant]
    split <;> first | omega | rfl

/-- The check of what several components require goes on while all is met. -/
theorem checkDemands_append (r : Registry C) (l l' : List (String × Dependency)) :
    checkDemands r (l ++ l') =
      match checkDemands r l with
      | .ok () => checkDemands r l'
      | .error e => .error e := by
  induction l with
  | nil => rfl
  | cons entry rest ih =>
    obtain ⟨member, d⟩ := entry
    rw [List.cons_append, checkDemands, checkDemands]
    rcases checkDemand r member d with e | _
    · rfl
    · exact ih

/-- When all demands are met the check accepts. -/
theorem checkDemands_of_all {r : Registry C} {required : List (String × Dependency)}
    (h : ∀ d ∈ required, d.2.IsMetBy r.providers) : checkDemands r required = .ok () := by
  induction required with
  | nil => rfl
  | cons entry rest ih =>
    obtain ⟨member, d⟩ := entry
    have hmet := h (member, d) List.mem_cons_self
    have hrest := ih fun e he => h e (List.mem_cons_of_mem _ he)
    simp only [checkDemands, checkDemand_of_isMetBy hmet, hrest]

/-- The check stops at the first offence with its failure. -/
theorem checkDemands_of_firstOffence {r : Registry C} {required : List (String × Dependency)}
    {f : LookupFailure} (h : FirstOffence r.providers required f) :
    checkDemands r required = .error (.definition f) := by
  obtain ⟨before, member, d, after, rfl, hbefore, hoffends⟩ := h
  rw [checkDemands_append, checkDemands_of_all hbefore]
  simp only [checkDemands, checkDemand_of_offends hoffends]

/-- The check accepts exactly if every demand is met. -/
theorem checkDemands_eq_ok_iff (r : Registry C) (required : List (String × Dependency)) :
    checkDemands r required = .ok () ↔ ∀ d ∈ required, d.2.IsMetBy r.providers := by
  rcases FirstOffence.all_or_exists r.providers required with hall | ⟨f, hfirst⟩
  · exact ⟨fun _ => hall, fun _ => checkDemands_of_all hall⟩
  · refine ⟨fun h => ?_, checkDemands_of_all⟩
    rw [checkDemands_of_firstOffence hfirst] at h
    cases h

/-- The check fails with what is wrong with the first requirement that offends. -/
theorem checkDemands_eq_error_iff (r : Registry C) (required : List (String × Dependency))
    (e : Failure) : checkDemands r required = .error e ↔
      ∃ f, FirstOffence r.providers required f ∧ e = .definition f := by
  constructor
  · intro h
    rcases FirstOffence.all_or_exists r.providers required with hall | ⟨f, hfirst⟩
    · rw [checkDemands_of_all hall] at h
      cases h
    · rw [checkDemands_of_firstOffence hfirst] at h
      exact ⟨f, hfirst, (Except.error.inj h).symm⟩
  · rintro ⟨f, hfirst, rfl⟩
    exact checkDemands_of_firstOffence hfirst

/-! ## Asking the components -/

/-- Asks components, one after the other, for all that they require. -/
def interview (h : Host C) : List (Provider C) → Machine C (List (String × Dependency))
  | [] => return []
  | p :: rest => do
    if p.definition.isComponent then
      let type := p.definition.implementation
      let constructor ← h.run (h.code.component type).constructor
      let points ← h.run (h.code.component type).points
      return points.requirements type.name constructor ++ (← interview h rest)
    else interview h rest

variable {h : Host C} {w v : World C} {c : ContainerId} {p : Provider C} {l : List (Provider C)}
  {required : List (String × Dependency)}

/-- The interview passes over what is no component. -/
theorem exec_interview_skip (hp : p.definition.isComponent = false) :
    (interview h (p :: l)).exec w = (interview h l).exec w := by
  rw [interview, hp]
  rfl

/-- An interview of several components asks the first one first. -/
theorem exec_interview_cons (hp : p.definition.isComponent = true) :
    (interview h (p :: l)).exec w = (some required, v) ↔
      ∃ constructor points rest u u',
        (h.run (h.code.component p.definition.implementation).constructor).exec w =
          (some constructor, u) ∧
        (h.run (h.code.component p.definition.implementation).points).exec u =
          (some points, u') ∧
        (interview h l).exec u' = (some rest, v) ∧
        required = points.requirements p.definition.implementation.name constructor ++ rest := by
  rw [interview, if_pos hp]
  constructor
  · intro hasked
    -- Asking goes through constructor and points to the rest; each part is asked in the world the
    -- last one left.
    obtain ⟨constructor, u, hconstructor, hasked⟩ := Machine.exec_bind_iff.1 hasked
    obtain ⟨points, u', hpoints, hasked⟩ := Machine.exec_bind_iff.1 hasked
    obtain ⟨rest, v', hrest, hend⟩ := Machine.exec_bind_iff.1 hasked
    cases hend
    exact ⟨constructor, points, rest, u, u', hconstructor, hpoints, hrest, rfl⟩
  · rintro ⟨constructor, points, rest, u, u', hconstructor, hpoints, hrest, rfl⟩
    rw [Machine.exec_bind_some hconstructor, Machine.exec_bind_some hpoints,
      Machine.exec_bind_some hrest]
    rfl

/-- What a component requires whose points inherit those of a base: the base's points stand where
they were appended, methods among methods and fields among fields. -/
def ListsInherited (h : Host C) (p : Provider C) : Prop :=
  ∀ {constructor : Constructor} {points base : Points} {w u v : World C},
    (h.run (h.code.component p.definition.implementation).constructor).exec w =
      (some constructor, u) →
    (h.run (h.code.component p.definition.implementation).points).exec u =
      (some (points.inherit base), v) →
    (interview h [p]).exec w = (some
      (Label.parameters p.definition.implementation.name "new" constructor.parameters ++
        (Point.methodRequirements p.definition.implementation.name points.toList ++
          Point.methodRequirements p.definition.implementation.name base.toList) ++
        (Point.fieldRequirements p.definition.implementation.name points.toList ++
          Point.fieldRequirements p.definition.implementation.name base.toList)), v)

theorem listsInherited (hp : p.definition.isComponent = true) : h.ListsInherited p := by
  intro constructor points base w u v hconstructor hpoints
  rw [← Points.requirements_inherit, exec_interview_cons hp]
  exact ⟨constructor, points.inherit base, [], u, v, hconstructor, hpoints, rfl,
    (List.append_nil _).symm⟩

/-- A component is checked against the providers that there were when it was asked. -/
theorem exec_checkComponent (hl : h.Lawful D) (hw : w.Coherent) (hc : w.Has c)
    (hphase : (w.container c).phase ≠ .unconfigured) {type : TypeKey} {constructor : Constructor}
    {points : Points} {u u' : World C}
    (hconstructor : (h.run (h.code.component type).constructor).exec w = (some constructor, u))
    (hpoints : (h.run (h.code.component type).points).exec u = (some points, u')) :
    (checkComponent h c type).run.exec w =
        (some (checkDemands (w.container c).registry
          (points.requirements type.name constructor)), u') ∧
      Course D .work true w u' := by
  have hwu := ((run_follows hl _ w).ends hw hconstructor).1
  have huu' := ((run_follows hl _ u).ends (hwu.coherent hw) hpoints).1
  have hcourse := hwu.trans huu'
  refine ⟨?_, hcourse⟩
  unfold checkComponent
  refine (exec_bind_ok (exec_step_some hconstructor)).trans ?_
  refine (exec_bind_ok (exec_step_some hpoints)).trans ?_
  refine (exec_bind_container (hcourse.frame.has c hc) _).trans ?_
  -- What the component did when it was asked has not changed the providers.
  have hproviders := (hcourse.frame.container c).providers hphase
  rw [← checkDemands_congr hproviders, ← Points.demands_eq_requirements]
  rfl

/-- A component that was checked was asked what it needs. -/
theorem asked_of_checkComponent {type : TypeKey} {r : Attempted Unit} {u : World C}
    (hcheck : (checkComponent h c type).run.exec w = (some r, u)) :
    ∃ constructor points u₁ u₂,
      (h.run (h.code.component type).constructor).exec w = (some constructor, u₁) ∧
      (h.run (h.code.component type).points).exec u₁ = (some points, u₂) := by
  unfold checkComponent at hcheck
  obtain ⟨constructor, u₁, hconstructor, hrest⟩ := exec_bind_step_iff.1 hcheck
  obtain ⟨points, u₂, hpoints, -⟩ := exec_bind_step_iff.1 hrest
  exact ⟨constructor, points, u₁, u₂, hconstructor, hpoints⟩

/-- Providers are asked until the verdict on them is clear: all of them, or up to one whose
requirements are not met. -/
def Checks (h : Host C) (r : Registry C) (l : List (Provider C)) (w : World C)
    (verdict : Attempted Unit) : Prop :=
  ∃ asked rest required u, l = asked ++ rest ∧ (interview h asked).exec w = (some required, u) ∧
    verdict = checkDemands r required ∧ (verdict = .ok () → rest = [])

variable {r : Registry C} {verdict : Attempted Unit}

/-- A check goes by the providers alone. -/
theorem Checks.congr {r' : Registry C} (hr : r.providers = r'.providers)
    (hc : h.Checks r l w verdict) : h.Checks r' l w verdict := by
  obtain ⟨asked, rest, required, u, hsplit, hasked, hverdict, hrest⟩ := hc
  exact ⟨asked, rest, required, u, hsplit, hasked, hverdict.trans (checkDemands_congr hr _), hrest⟩

theorem checks_nil : h.Checks r [] w verdict ↔ verdict = .ok () := by
  constructor
  · rintro ⟨asked, rest, required, u, hsplit, hasked, rfl, -⟩
    obtain ⟨rfl, -⟩ := List.append_eq_nil_iff.1 hsplit.symm
    cases hasked
    rfl
  · rintro rfl
    exact ⟨[], [], [], w, rfl, rfl, rfl, fun _ => rfl⟩

/-- A check does not end before the first provider. -/
theorem Checks.exists_asked (hc : h.Checks r (p :: l) w verdict) :
    ∃ asked rest required u, l = asked ++ rest ∧
      (interview h (p :: asked)).exec w = (some required, u) ∧
      verdict = checkDemands r required ∧ (verdict = .ok () → rest = []) := by
  obtain ⟨_ | ⟨q, asked⟩, rest, required, u, hsplit, hasked, hverdict, hrest⟩ := hc
  · cases hasked
    obtain rfl : p :: l = rest := hsplit
    cases hrest hverdict
  · cases hsplit
    exact ⟨asked, rest, required, u, rfl, hasked, hverdict, hrest⟩

/-- A provider that is no component is not asked. -/
theorem checks_skip (hp : p.definition.isComponent = false) :
    h.Checks r (p :: l) w verdict ↔ h.Checks r l w verdict := by
  constructor
  · intro hc
    obtain ⟨asked, rest, required, u, hsplit, hasked, hverdict, hrest⟩ := hc.exists_asked
    rw [exec_interview_skip hp] at hasked
    exact ⟨asked, rest, required, u, hsplit, hasked, hverdict, hrest⟩
  · rintro ⟨asked, rest, required, u, rfl, hasked, hverdict, hrest⟩
    rw [← exec_interview_skip hp] at hasked
    exact ⟨p :: asked, rest, required, u, rfl, hasked, hverdict, hrest⟩

/-- If what a component requires is met, the check goes on with the others; else it ends. -/
theorem checks_cons (hp : p.definition.isComponent = true) {constructor : Constructor}
    {points : Points} {u u' : World C}
    (hconstructor : (h.run (h.code.component p.definition.implementation).constructor).exec w =
      (some constructor, u))
    (hpoints : (h.run (h.code.component p.definition.implementation).points).exec u =
      (some points, u')) :
    h.Checks r (p :: l) w verdict ↔
      match checkDemands r (points.requirements p.definition.implementation.name constructor) with
      | .ok () => h.Checks r l u' verdict
      | .error e => verdict = .error e := by
  -- What is required of the component comes before what the rest requires.
  have hcons : ∀ asked {required v}, (interview h asked).exec u' = (some required, v) →
      (interview h (p :: asked)).exec w = (some
        (points.requirements p.definition.implementation.name constructor ++ required), v) :=
    fun _ _ _ hasked => (exec_interview_cons hp).2
      ⟨constructor, points, _, u, u', hconstructor, hpoints, hasked, rfl⟩
  rcases hown : checkDemands r
    (points.requirements p.definition.implementation.name constructor) with e | _
  · constructor
    · intro hc
      obtain ⟨asked, rest, required, v, -, hasked, rfl, -⟩ := hc.exists_asked
      obtain ⟨_, _, required', u₁, u₂, hconstructor', hpoints', -, rfl⟩ :=
        (exec_interview_cons hp).1 hasked
      -- The same questions in the same world have the same answers.
      cases hconstructor.symm.trans hconstructor'
      cases hpoints.symm.trans hpoints'
      rw [checkDemands_append, hown]
    · rintro rfl
      -- Nothing beyond the component has to be asked.
      refine ⟨[p], l, _, u', rfl, hcons [] rfl, ?_, fun h => by cases h⟩
      rw [checkDemands_append, hown]
  · constructor
    · intro hc
      obtain ⟨asked, rest, required, v, hsplit, hasked, hverdict, hrest⟩ := hc.exists_asked
      obtain ⟨_, _, required', u₁, u₂, hconstructor', hpoints', hasked, rfl⟩ :=
        (exec_interview_cons hp).1 hasked
      cases hconstructor.symm.trans hconstructor'
      cases hpoints.symm.trans hpoints'
      rw [checkDemands_append, hown] at hverdict
      exact ⟨asked, rest, required', v, hsplit, hasked, hverdict, hrest⟩
    · rintro ⟨asked, rest, required, v, rfl, hasked, hverdict, hrest⟩
      refine ⟨p :: asked, rest, _, v, rfl, hcons asked hasked, ?_, hrest⟩
      rw [checkDemands_append, hown]
      exact hverdict

/-- A check of providers has an answer exactly if as many as it needs are answered. -/
theorem exec_checkProviders_iff (hl : h.Lawful D) (hw : w.Coherent) (hc : w.Has c)
    (hphase : (w.container c).phase ≠ .unconfigured) :
    (∃ v, (checkProviders h c l).run.exec w = (some verdict, v)) ↔
      h.Checks (w.container c).registry l w verdict := by
  -- Induction on the providers still to check; what is asked may change the world, never the
  -- providers.
  induction l generalizing w with
  | nil =>
    rw [checks_nil]
    constructor
    · rintro ⟨v, hexec⟩
      cases hexec
      rfl
    · rintro rfl
      exact ⟨w, rfl⟩
  | cons p rest ih =>
    unfold checkProviders
    by_cases hp : p.definition.isComponent = true
    · rw [if_pos hp]
      dsimp only
      -- After a component is accepted, the check goes on in the world its questions left.
      have hgoesOn : ∀ {constructor points u u'},
          (h.run (h.code.component p.definition.implementation).constructor).exec w =
            (some constructor, u) →
          (h.run (h.code.component p.definition.implementation).points).exec u =
            (some points, u') →
          ((∃ v, (checkProviders h c rest).run.exec u' = (some verdict, v)) ↔
            h.Checks (w.container c).registry rest u' verdict) := by
        intro constructor points u u' hconstructor hpoints
        obtain ⟨-, hcourse⟩ := exec_checkComponent hl hw hc hphase hconstructor hpoints
        have hframe := hcourse.frame
        have hproviders := (hframe.container c).providers hphase
        rw [ih (hcourse.coherent hw) (hframe.has c hc)
          ((hframe.container c).phase.ne_unconfigured hphase)]
        exact ⟨fun hchecks => hchecks.congr hproviders,
          fun hchecks => hchecks.congr hproviders.symm⟩
      constructor
      · rintro ⟨v, hexec⟩
        obtain ⟨own, u', hcheck, hend⟩ := exec_bind_resultOf_iff.1 hexec
        -- A check with a verdict has asked the component.
        obtain ⟨constructor, points, u, u₂, hconstructor, hpoints⟩ :=
          asked_of_checkComponent hcheck
        cases hcheck.symm.trans
          (exec_checkComponent hl hw hc hphase hconstructor hpoints).1
        rw [checks_cons hp hconstructor hpoints]
        rcases hown : checkDemands (w.container c).registry
          (points.requirements p.definition.implementation.name constructor) with e | _ <;>
            rw [hown] at hend
        · cases hend
          rfl
        · exact (hgoesOn hconstructor hpoints).1 ⟨v, hend⟩
      · intro hchecks
        -- A component that was asked can be checked.
        obtain ⟨asked, rest', required, v, -, hasked, -, -⟩ := hchecks.exists_asked
        obtain ⟨constructor, points, _, u, u', hconstructor, hpoints, -, -⟩ :=
          (exec_interview_cons hp).1 hasked
        rw [checks_cons hp hconstructor hpoints] at hchecks
        have hcheck := (exec_checkComponent hl hw hc hphase hconstructor hpoints).1
        rw [exec_bind_ok (exec_resultOf_some hcheck)]
        rcases hown : checkDemands (w.container c).registry
          (points.requirements p.definition.implementation.name constructor) with e | _ <;>
            rw [hown] at hchecks
        · obtain rfl : verdict = .error e := hchecks
          exact ⟨_, rfl⟩
        · exact (hgoesOn hconstructor hpoints).2 hchecks
    · rw [if_neg hp, checks_skip (Bool.eq_false_iff.2 hp)]
      exact ih hw hc hphase

end Host

open World

/-- The phase that a verdict leads to. -/
def Phase.ofVerdict : Attempted Unit → Phase
  | .ok () => .ready
  | .error _ => .failed

/-- What a validation leaves of its container: the phase that its verdict leads to, unless the
container was torn down meanwhile. -/
theorem Host.phase_validated {u v : World C} {c : ContainerId} {r : Attempted Unit}
    (hphase : (u.container c).phase = .validating ∨ (u.container c).phase = .destroyed)
    (hv : validated c (some r, u) = (some r, v)) :
    (v.container c).phase = .ofVerdict r ∨ (v.container c).phase = .destroyed := by
  rcases r with e | _
  · cases hv
    unfold World.settled World.advanced
    rw [World.container_withContainer_self, World.container_withContainer_self]
    rcases hphase with h | h <;> simp [h, Phase.ofVerdict]
  · cases hv
    unfold World.accepted World.settled World.advanced
    rw [World.container_withContainer_self, World.container_enter,
      World.container_withContainer_self]
    rcases hphase with h | h <;> simp [h, Phase.ofVerdict]

/-- A check of providers that has an answer keeps to the frame in which it began. -/
theorem Host.CheckEnds.frame {c : ContainerId} {l : List (Provider C)} {w v : World C}
    {verdict : Attempted Unit} (h : CheckEnds D c l w (some verdict, v)) : w.Frame v := by
  rcases verdict with e | _
  · obtain ⟨u, type, f, -, hcourse, rfl⟩ := h
    exact hcourse.frame.trans (.enter u _)
  · exact h.1.frame

/-- The answer of a first validation is what the check of all providers has come to. -/
theorem Host.validated_eq_some_iff {c : ContainerId} {r : Option (Attempted Unit)} {u : World C}
    {verdict : Attempted Unit} :
    (∃ v, validated c (r, u) = (some verdict, v)) ↔ r = some verdict := by
  constructor
  · rintro ⟨v, h⟩
    rcases r with _ | e | _ <;> cases h <;> rfl
  · rintro rfl
    rcases verdict with e | _
    · exact ⟨_, rfl⟩
    · exact ⟨_, rfl⟩

section First

variable {h : Host C} {w v : World C} {c : ContainerId} {verdict : Attempted Unit}

/-- A first validation is a check of all providers and what is left to do after it. -/
theorem Host.exec_validate_first (hl : h.Lawful D) (hw : w.Coherent) (hc : w.Has c)
    (hphase : (w.container c).phase = .unconfigured) :
    (validate h c).run.exec w =
        validated c ((checkProviders h c (w.container c).registry.providers).run.exec
          (w.validating c (w.container c).registry.size)) ∧
      ∀ r u, (checkProviders h c (w.container c).registry.providers).run.exec
          (w.validating c (w.container c).registry.size) = (some r, u) →
        (w.validating c (w.container c).registry.size).Frame u := by
  -- The check is a course, in which the container stays.
  have hends := checkProviders_ends hl c (w.container c).registry.providers
    (hw.validating (w.container c).registry.size hc hphase)
    (by rw [phase_validating hphase]; decide)
  have hframe : ∀ r u, (checkProviders h c (w.container c).registry.providers).run.exec
      (w.validating c (w.container c).registry.size) = (some r, u) →
        (w.validating c (w.container c).registry.size).Frame u := by
    intro r u hexec
    rw [hexec] at hends
    exact hends.frame
  refine ⟨?_, hframe⟩
  refine exec_validate h hc hphase (hw.validation_eq_none hphase) fun u hexec => ?_
  exact (hframe _ u hexec).has c (World.has_withContainer _ hc)

/-- A first validation has an answer exactly if the check of all providers has. -/
theorem Host.exec_validate_iff (hl : h.Lawful D) (hw : w.Coherent) (hc : w.Has c)
    (hphase : (w.container c).phase = .unconfigured) :
    (∃ v, (validate h c).run.exec w = (some verdict, v)) ↔
      h.Checks (w.container c).registry (w.container c).registry.providers
        (w.validating c (w.container c).registry.size) verdict := by
  have hchecks : (∃ v, (checkProviders h c (w.container c).registry.providers).run.exec
      (w.validating c (w.container c).registry.size) = (some verdict, v)) ↔
        h.Checks ((w.validating c (w.container c).registry.size).container c).registry
          (w.container c).registry.providers
          (w.validating c (w.container c).registry.size) verdict :=
    exec_checkProviders_iff hl (hw.validating (w.container c).registry.size hc hphase)
      (World.has_withContainer _ hc) (by rw [phase_validating hphase]; decide)
  -- The registry after the start of validation is the one before.
  rw [container_validating hphase] at hchecks
  rw [← hchecks, (exec_validate_first hl hw hc hphase).1]
  rcases (checkProviders h c (w.container c).registry.providers).run.exec
    (w.validating c (w.container c).registry.size) with ⟨r, u⟩
  rw [validated_eq_some_iff]
  constructor
  · rintro rfl
    exact ⟨u, rfl⟩
  · rintro ⟨v, hchecked⟩
    cases hchecked
    rfl

/-- After its first validation a container is in the phase that the verdict leads to, unless it was
torn down meanwhile. -/
theorem Host.phase_of_validate (hl : h.Lawful D) (hw : w.Coherent) (hc : w.Has c)
    (hphase : (w.container c).phase = .unconfigured)
    (hexec : (validate h c).run.exec w = (some verdict, v)) :
    (v.container c).phase = .ofVerdict verdict ∨ (v.container c).phase = .destroyed := by
  obtain ⟨hvalidate, hframe⟩ := exec_validate_first hl hw hc hphase
  rw [hvalidate] at hexec
  rcases hchecked : (checkProviders h c (w.container c).registry.providers).run.exec
    (w.validating c (w.container c).registry.size) with ⟨r, u⟩
  rw [hchecked] at hexec
  obtain rfl : r = some verdict := validated_eq_some_iff.1 ⟨v, hexec⟩
  exact phase_validated ((hframe _ u hchecked).validating_end hphase) hexec

end First

/-- The first validation of a container asks its components, in order of registration, what they
require. It accepts exactly if there is one provider for every required object. It rejects exactly
the first requirement that has none or several, and says which; nobody is asked after that.
Selections, containers and providers that are no components are never the reason. Inherited points
are required where they were appended. Afterwards the container is ready or has failed; a teardown
meanwhile, of which the journal tells, has the last word on that. -/
theorem Codebase.validate_decides {code : Codebase C} {s : C.State} {w : World C}
    (hw : code.Visits (.blank s) w) {c : ContainerId} (hc : w.Has c)
    (hphase : (w.container c).phase = .unconfigured) (depth : Nat) :
    ((∃ v, (code.perform (depth + 1) (.validate c)).exec w = (some (.ok ()), v)) ↔
      ∃ required u, (Host.interview (code.hostAt depth) (w.container c).registry.providers).exec
          (w.validating c (w.container c).registry.size) = (some required, u) ∧
        ∀ d ∈ required, d.2.IsMetBy (w.container c).registry.providers) ∧
    (∀ e, (∃ v, (code.perform (depth + 1) (.validate c)).exec w = (some (.error e), v)) ↔
      ∃ asked rest required u f, (w.container c).registry.providers = asked ++ rest ∧
        (Host.interview (code.hostAt depth) asked).exec
          (w.validating c (w.container c).registry.size) = (some required, u) ∧
        FirstOffence (w.container c).registry.providers required f ∧ e = .definition f) ∧
    (∀ p ∈ (w.container c).registry.providers, p.definition.isComponent = true →
      (code.hostAt depth).ListsInherited p) ∧
    ∀ r v, (code.perform (depth + 1) (.validate c)).exec w = (some r, v) →
      (¬ v.WasTornDown c → (v.container c).phase = .ofVerdict r) ∧
      (v.WasTornDown c → (v.container c).phase = .destroyed) := by
  have hcoherent := hw.coherent
  have hlawful := code.describes_any.host_lawful depth
  have hanswered : ∀ r : Attempted Unit,
      (∃ v, (code.perform (depth + 1) (.validate c)).exec w = (some r, v)) ↔
        (code.hostAt depth).Checks (w.container c).registry (w.container c).registry.providers
          (w.validating c (w.container c).registry.size) r :=
    fun _ => Host.exec_validate_iff hlawful hcoherent hc hphase
  refine ⟨?_, fun e => ?_, fun p _ hp => Host.listsInherited hp, fun r v hexec => ?_⟩
  -- All components were asked and every demand is met.
  · refine (hanswered (.ok ())).trans ⟨?_, ?_⟩
    · rintro ⟨asked, rest, required, u, hsplit, hasked, hverdict, hrest⟩
      rw [hrest rfl, List.append_nil] at hsplit
      rw [hsplit]
      refine ⟨required, u, hasked, ?_⟩
      rw [← hsplit]
      exact (Host.checkDemands_eq_ok_iff _ _).1 hverdict.symm
    · rintro ⟨required, u, hasked, hall⟩
      have hverdict := (Host.checkDemands_eq_ok_iff _ _).2 hall
      exact ⟨_, [], required, u, (List.append_nil _).symm, hasked, hverdict.symm, fun _ => rfl⟩
  -- Only the components up to the offending one were asked.
  · refine (hanswered (.error e)).trans ⟨?_, ?_⟩
    · rintro ⟨asked, rest, required, u, hsplit, hasked, hverdict, -⟩
      obtain ⟨f, hfirst, rfl⟩ := (Host.checkDemands_eq_error_iff _ _ _).1 hverdict.symm
      exact ⟨asked, rest, required, u, f, hsplit, hasked, hfirst, rfl⟩
    · rintro ⟨asked, rest, required, u, f, hsplit, hasked, hfirst, rfl⟩
      have hverdict := (Host.checkDemands_eq_error_iff _ _ _).2 ⟨f, hfirst, rfl⟩
      exact ⟨asked, rest, required, u, hsplit, hasked, hverdict.symm, fun h => by cases h⟩
  · have hcourse := ((perform_follows code.describes_any (depth + 1) (.validate c) w).ends
      hcoherent hexec).1
    -- A container is destroyed exactly if its teardown began, and then it stays so.
    have hdestroyed := hcourse.destroyed_iff hcoherent (hw.untorn (by rw [hphase]; decide))
    refine ⟨fun hnot => ?_, hdestroyed.2⟩
    have hphasev := Host.phase_of_validate hlawful hcoherent hc hphase hexec
    exact hphasev.resolve_right fun h => hnot (hdestroyed.1 h)

namespace Sample

/-- A container with nothing but a door. -/
def lonelyDoor : World Sample :=
  ((doors.run 1 do
    let c ← Program.request .create
    Program.request (.register c (.component (.named "Door") {}))).exec blank).2

/-- The door needs a lock, so it is rejected. -/
theorem lonely_door_rejected :
    ∃ v, (doors.perform 1 (.validate ⟨0⟩)).exec lonelyDoor =
        (some (.error (.definition
          ⟨.unsatisfied, .named "Lock", ∅, some "Door::new(arg 0)"⟩)), v) ∧
      (¬ v.WasTornDown ⟨0⟩ → (v.container ⟨0⟩).phase = .failed) := by
  have hvisits : doors.Visits blank lonelyDoor := Codebase.visits_of_run rfl
  have hhas : lonelyDoor.Has ⟨0⟩ := ⟨_, rfl⟩
  have hasked : (Host.interview (doors.hostAt 0) (lonelyDoor.container ⟨0⟩).registry.providers).exec
      (lonelyDoor.validating ⟨0⟩ (lonelyDoor.container ⟨0⟩).registry.size) =
        (some [("Door::new(arg 0)", .object (.named "Lock"))], _) := rfl
  obtain ⟨-, hreject, -, hphase⟩ := Codebase.validate_decides hvisits hhas rfl 0
  have hnone : ∀ p ∈ (lonelyDoor.container ⟨0⟩).registry.providers,
      ¬ p.Meets (.named "Lock", ∅) := by
    intro p hp
    obtain rfl := List.mem_singleton.1 hp
    decide
  have hfirst : FirstOffence (lonelyDoor.container ⟨0⟩).registry.providers
      [("Door::new(arg 0)", .object (.named "Lock"))]
      ⟨.unsatisfied, .named "Lock", ∅, some "Door::new(arg 0)"⟩ :=
    ⟨[], _, _, [], rfl, fun r hr => absurd hr List.not_mem_nil, .unsatisfied _ rfl hnone⟩
  obtain ⟨v, hexec⟩ :=
    (hreject _).2 ⟨_, [], _, _, _, (List.append_nil _).symm, hasked, hfirst, rfl⟩
  exact ⟨v, hexec, (hphase _ v hexec).1⟩

end Sample

end Wiring
