import Mathlib.Data.List.Count
import Wiring.Host.Validation
import Wiring.Proofs.Assembly
import Wiring.Proofs.Sample

/-!
# What validation foresees

A validation does not resolve anything. It asks a component for its constructor and its points, as
the construction does, and looks at each place where something will be needed. It does so in an
order of its own, methods before fields, so what it looks at and what a construction resolves can
agree up to the order only. That they do is read off the declaration: both are what was written
down, each place once, with the label under which it was written.

Main statement: `Host.validation_foresees_construction`.
-/

namespace Wiring

variable {C : Client}

/-! ## Places -/

/-- The places of a constructor, with their labels as they are read. -/
def Constructor.places (owner : String) (k : Constructor) : List (String × Dependency) :=
  k.parameters.mapIdx fun i d => (owner ++ "::" ++ "new" ++ "(arg " ++ toString i ++ ")", d)

/-- The places of a declaration, with their labels as they are read, in the order in which they are
written down. The places of a base count as places of the component that embeds it. -/
def Declaration.places (owner : String) : Declaration → List (String × Dependency)
  | nothing => []
  | field before name d => before.places owner ++ [(owner ++ "::" ++ name, d)]
  | method before name parameters =>
    before.places owner ++ parameters.mapIdx fun i d =>
      (owner ++ "::" ++ name ++ "(arg " ++ toString i ++ ")", d)
  | inherit before base => before.places owner ++ base.places owner

/-- Fields and methods taken apart are all places. -/
theorem Declaration.perm_places (owner : String) (t : Declaration) :
    (t.points.fields.flatMap (Point.resolutions owner) ++
      t.points.methods.flatMap (Point.resolutions owner)).Perm (t.places owner) := by
  -- How the places are interleaved does not matter to how often each of them occurs.
  rw [List.perm_iff_count]
  intro x
  rw [List.count_append]
  induction t with
  | nothing => rfl
  | field before name d ih =>
    simp only [points, places, Points.fields_field, Points.methods_field, List.flatMap_append,
      List.count_append, List.flatMap_singleton, Point.resolutions, Label.member]
    omega
  | method before name parameters ih =>
    simp only [points, places, Points.fields_method, Points.methods_method, List.flatMap_append,
      List.count_append, List.flatMap_singleton, Point.resolutions, Label.parameters,
      Label.parameter]
    omega
  | inherit before base ih ih' =>
    simp only [points, places, Points.fields_inherit, Points.methods_inherit, List.flatMap_append,
      List.count_append]
    omega

/-! ## What a validation looks at -/

/-- The demands at which a check looks, and how it ends: it stops at the first that is not met. -/
def Registry.examine (r : Registry C) :
    List (String × Dependency) → List (String × Dependency) × Attempted Unit
  | [] => ([], .ok ())
  | (member, d) :: rest =>
    match Host.checkDemand r member d with
    | .ok () => ((member, d) :: (r.examine rest).1, (r.examine rest).2)
    | .error e => ([(member, d)], .error e)

namespace Registry

variable {r : Registry C} {l : List (String × Dependency)}

/-- Looking at all the demands comes to the same verdict as checking them one by one. -/
theorem examine_snd (r : Registry C) (l : List (String × Dependency)) :
    (r.examine l).2 = Host.checkDemands r l := by
  induction l with
  | nil => rfl
  | cons x rest ih =>
    obtain ⟨member, d⟩ := x
    unfold examine Host.checkDemands
    rcases Host.checkDemand r member d with e | _
    · rfl
    · exact ih

/-- A check that finds nothing wrong has looked at all demands. -/
theorem examine_of_ok (h : (r.examine l).2 = .ok ()) : (r.examine l).1 = l := by
  induction l with
  | nil => rfl
  | cons x rest ih =>
    obtain ⟨member, d⟩ := x
    unfold examine at h ⊢
    rcases hcheck : Host.checkDemand r member d with e | _ <;> rw [hcheck] at h
    · cases h
    · exact congrArg ((member, d) :: ·) (ih h)

/-- A check that finds something wrong has looked at the demands up to there. -/
theorem examine_of_error {e : Failure} (h : (r.examine l).2 = .error e) :
    ∃ before member d after, l = before ++ (member, d) :: after ∧
      (r.examine l).1 = before ++ [(member, d)] ∧ Host.checkDemand r member d = .error e ∧
      ∀ x ∈ before, Host.checkDemand r x.1 x.2 = .ok () := by
  induction l with
  | nil => cases h
  | cons x rest ih =>
    obtain ⟨member, d⟩ := x
    unfold examine at h ⊢
    rcases hcheck : Host.checkDemand r member d with e' | _ <;> rw [hcheck] at h
    -- The first demand that fails ends the examination there.
    · cases h
      exact ⟨[], member, d, rest, rfl, rfl, hcheck, fun x hx => absurd hx List.not_mem_nil⟩
    -- One that is met stands before the failing one.
    · obtain ⟨before, member', d', after, hl, hexamined, hfails, hbefore⟩ := ih h
      refine ⟨(member, d) :: before, member', d', after, congrArg _ hl,
        congrArg ((member, d) :: ·) hexamined, hfails, ?_⟩
      intro x hx
      rcases List.mem_cons.1 hx with rfl | hx
      · exact hcheck
      · exact hbefore x hx

end Registry

namespace Host

/-- A component is checked: it says what its constructor and its points are, and the demands are
held against the definitions that there are then. -/
inductive Inspects (h : Host C) (c : ContainerId) (type : TypeKey) (k : Constructor) (p : Points)
    (w : World C) : List (String × Dependency) → Attempted Unit → World C → Prop
  | intro {u v : World C} {container : Container C} :
      (h.run (h.code.component type).constructor).exec w = (some k, u) →
      (h.run (h.code.component type).points).exec u = (some p, v) →
      v.containers.get? c = some container →
      Inspects h c type k p w (container.registry.examine (p.demands type.name k)).1
        (container.registry.examine (p.demands type.name k)).2 v

variable {h : Host C} {c : ContainerId} {type : TypeKey} {k : Constructor} {p : Points}
  {w v : World C} {r : Attempted Unit} {visited : List (String × Dependency)}

/-- The check of a component looks at its points, and its verdict is theirs. -/
theorem exec_checkComponent_iff :
    (checkComponent h c type).run.exec w = (some r, v) ↔
      ∃ k p visited, h.Inspects c type k p w visited r v := by
  unfold checkComponent
  constructor
  · intro hexec
    obtain ⟨k, u, hk, hexec⟩ := exec_bind_step_iff.1 hexec
    obtain ⟨p, u', hp, hexec⟩ := exec_bind_step_iff.1 hexec
    obtain ⟨container, u'', hcontainer, hend⟩ := exec_bind_step_iff.1 hexec
    -- The container is read after constructor and points were asked for; if it were gone, nothing
    -- would be answered.
    rcases hget : u'.containers.get? c with _ | found
    · rw [Machine.exec_container_of_none hget] at hcontainer
      cases hcontainer
    · rw [Machine.exec_container_of_some hget] at hcontainer
      cases hcontainer
      cases hend
      rw [← Registry.examine_snd]
      exact ⟨k, p, _, .intro hk hp hget⟩
  · rintro ⟨k, p, visited, hinspects⟩
    cases hinspects with
    | intro hk hp hget =>
      rw [Registry.examine_snd]
      refine exec_bind_step_iff.2 ⟨k, _, hk, exec_bind_step_iff.2 ⟨p, _, hp, ?_⟩⟩
      exact exec_bind_step_iff.2 ⟨_, _, Machine.exec_container_of_some hget, rfl⟩

/-- A check that accepts has seen every demand. -/
theorem Inspects.visited_of_ok (hinspects : h.Inspects c type k p w visited (.ok ()) v) :
    visited = p.demands type.name k := by
  generalize hr : (.ok () : Attempted Unit) = r at hinspects
  cases hinspects with
  | intro => exact Registry.examine_of_ok hr.symm

/-- A check that rejects has seen the demands up to the one it rejects. -/
theorem Inspects.visited_of_error {e : Failure}
    (hinspects : h.Inspects c type k p w visited (.error e) v) :
    ∃ unseen, visited ++ unseen = p.demands type.name k := by
  generalize hr : (.error e : Attempted Unit) = r at hinspects
  cases hinspects with
  | intro =>
    obtain ⟨before, member, d, after, hl, hexamined, -, -⟩ := Registry.examine_of_error hr.symm
    exact ⟨after, by rw [hexamined, hl, List.append_assoc, List.singleton_append]⟩

end Host

/-! ## What a construction resolves -/

/-- The steps that resolve a list of dependencies resolve exactly those. -/
theorem filterMap_resolveSteps (l : List (String × Dependency)) :
    (resolveSteps l : List (BuildStep C)).filterMap BuildStep.resolution? = l := by
  unfold resolveSteps
  rw [List.filterMap_map]
  exact List.filterMap_some

/-- The places for which a component's plan resolves dependencies, in its order. -/
theorem filterMap_assemblyPlan (owner : String) (k : Constructor) (p : Points)
    (l : Lifecycle C.Object (Routine C Unit)) :
    (assemblyPlan owner k p l).filterMap BuildStep.resolution? = p.resolutions owner k := by
  -- Of the steps of a point only the resolving ones resolve, and the injection itself does not.
  have hpoint : ∀ point : Point,
      (point.steps owner : List (BuildStep C)).filterMap BuildStep.resolution? =
        point.resolutions owner := by
    intro point
    unfold Point.steps
    rw [List.filterMap_append, filterMap_resolveSteps]
    cases point <;> exact List.append_nil _
  have hpoints : (p.steps owner : List (BuildStep C)).filterMap BuildStep.resolution? =
      p.injectionOrder.flatMap (Point.resolutions owner) := by
    unfold Points.steps
    rw [List.filterMap_flatMap]
    simp only [hpoint]
  have hhooks : (l.postConstruct.map BuildStep.runHook).filterMap BuildStep.resolution? = [] := by
    rw [List.filterMap_map]
    exact List.filterMap_eq_nil_iff.2 fun _ _ => rfl
  -- Nor do the steps that ask, construct or run hooks.
  unfold assemblyPlan Points.resolutions
  rw [List.filterMap_cons_none rfl, List.filterMap_append, filterMap_resolveSteps,
    List.filterMap_cons_none rfl, List.filterMap_cons_none rfl, List.filterMap_append, hpoints,
    List.filterMap_cons_none rfl, hhooks, List.append_nil]

/-- Construction resolves what validation demands, in another order. -/
theorem Points.resolutions_perm_demands (owner : String) (k : Constructor) (p : Points) :
    (p.resolutions owner k).Perm (p.demands owner k) := by
  unfold resolutions demands injectionOrder
  rw [List.flatMap_append, List.flatMap_append]
  exact List.perm_append_comm.append_left _

/-- What a build resolves is, up to order, what is declared: the parameters and the places of all
levels. -/
theorem Points.resolutions_perm_places (owner : String) (k : Constructor) (t : Declaration) :
    (t.points.resolutions owner k).Perm (k.places owner ++ t.places owner) := by
  unfold resolutions injectionOrder
  rw [List.flatMap_append]
  exact (t.perm_places owner).append_left _

/-- A validation looks at exactly the places for which a construction resolves dependencies. What a
component's constructor and declaration are is what it says when it is asked; whatever it says, a
construction that succeeds has resolved each declared place once, own or inherited, a check that
accepts has looked at the same places with the same labels, and a check that rejects has looked at
some of them, as far as it came. -/
theorem Host.validation_foresees_construction (h : Host C) (c : ContainerId) (type : TypeKey) :
    (∀ w r v, (checkComponent h c type).run.exec w = (some r, v) ↔
      ∃ k p visited, h.Inspects c type k p w visited r v) ∧
    (∀ w x v, (build h c type).run.exec w = (some (.ok x), v) ↔
      ∃ k p l o, h.Works c type (assemblyPlan type.name k p l) {} w (.ok ⟨[], some o⟩) v ∧
        x = .object o) ∧
    (∀ p : Points, ∃ t : Declaration, t.points = p) ∧
    ∀ k (t : Declaration) l resolved,
      (assemblyPlan (C := C) type.name k t.points l).filterMap BuildStep.resolution? = resolved →
      resolved.Perm (k.places type.name ++ t.places type.name) ∧
      (∀ w visited v, h.Inspects c type k t.points w visited (.ok ()) v → visited.Perm resolved) ∧
      ∀ w visited e v, h.Inspects c type k t.points w visited (.error e) v →
        ∃ unseen, (visited ++ unseen).Perm resolved := by
  refine ⟨fun w r v => exec_checkComponent_iff, fun w x v => exec_build_ok_iff,
    Declaration.exists_points, ?_⟩
  rintro k t l resolved rfl
  rw [filterMap_assemblyPlan]
  -- The plan and the check list the same places in a different order.
  have hdemands := Points.resolutions_perm_demands type.name k t.points
  refine ⟨Points.resolutions_perm_places type.name k t, ?_, ?_⟩
  · intro w visited v hinspects
    rw [hinspects.visited_of_ok]
    exact hdemands.symm
  · intro w visited e v hinspects
    obtain ⟨unseen, hvisited⟩ := hinspects.visited_of_error
    refine ⟨unseen, ?_⟩
    rw [hvisited]
    exact hdemands.symm

namespace Sample

/-- A door with a window that has a lamp of its own. -/
def doorway : Declaration :=
  .method (.inherit (.field .nothing "sign" (.object (.named "Lamp")))
    (.field (.method .nothing "open" [.container, .selection (.named "Lamp")]) "light"
      (.object (.named "Lamp")))) "paint" [.object (.named "Lamp")]

/-- Code of doors that are declared so. -/
def doorways : Codebase Sample where
  produce _ _ := .done (.ok (.object ()))
  dispose _ _ := .done (.ok ())
  component _ :=
    { constructor := .done (.inject [.object (.named "Lamp")])
      points := .done doorway.points
      construct := fun _ => .done (.ok ())
      setField := fun o _ _ => .done (o, .ok ())
      callMethod := fun o _ _ => .done (o, .ok ()) }

/-- A container with a lamp and a door. -/
def hallway : World Sample :=
  ((doorways.run 2 do
    let c ← Program.request .create
    let _ ← Program.request (.register c (.producer (.named "Lamp") ()))
    Program.request (.register c (.component (.named "Door") {}))).exec blank).2

/-- The places at which a validation of the door looks. -/
def doorwayVisited : List (String × Dependency) :=
  [("Door::new(arg 0)", .object (.named "Lamp")), ("Door::open(arg 0)", .container),
    ("Door::open(arg 1)", .selection (.named "Lamp")),
    ("Door::paint(arg 0)", .object (.named "Lamp")), ("Door::sign", .object (.named "Lamp")),
    ("Door::light", .object (.named "Lamp"))]

/-- The places for which a construction of the door resolves dependencies. -/
def doorwayResolved : List (String × Dependency) :=
  [("Door::new(arg 0)", .object (.named "Lamp")), ("Door::sign", .object (.named "Lamp")),
    ("Door::light", .object (.named "Lamp")), ("Door::open(arg 0)", .container),
    ("Door::open(arg 1)", .selection (.named "Lamp")),
    ("Door::paint(arg 0)", .object (.named "Lamp"))]

/-- The methods are looked at before the fields, which are resolved before them. -/
theorem doorway_foreseen :
    (doorways.hostAt 2).Inspects ⟨0⟩ (.named "Door") (.inject [.object (.named "Lamp")])
      doorway.points hallway doorwayVisited (.ok ()) hallway ∧
    doorwayVisited.Perm doorwayResolved := by
  have hinspects : (doorways.hostAt 2).Inspects ⟨0⟩ (.named "Door")
      (.inject [.object (.named "Lamp")]) doorway.points hallway doorwayVisited (.ok ())
        hallway := by
    -- The lamp is demanded by a parameter and by a field; both are met.
    have hexamined : (hallway.container ⟨0⟩).registry.examine
        (doorway.points.demands "Door" (.inject [.object (.named "Lamp")])) =
          (doorwayVisited, .ok ()) := by decide +kernel
    have hget : hallway.containers.get? ⟨0⟩ = some (hallway.container ⟨0⟩) := rfl
    have hsaid : (doorways.hostAt 2).Inspects ⟨0⟩ (.named "Door")
        (.inject [.object (.named "Lamp")]) doorway.points hallway _ _ hallway :=
      .intro rfl rfl hget
    rwa [show (TypeKey.named "Door").name = "Door" from rfl, hexamined] at hsaid
  obtain ⟨-, -, -, hplaces⟩ := (doorways.hostAt 2).validation_foresees_construction ⟨0⟩
    (.named "Door")
  obtain ⟨-, haccepts, -⟩ := hplaces (.inject [.object (.named "Lamp")]) doorway {}
    doorwayResolved rfl
  exact ⟨hinspects, haccepts _ _ _ hinspects⟩

end Sample

end Wiring
