import Mathlib.Data.List.Induction
import Wiring.Proofs.Invocation

/-!
# How a component is assembled

What a component asks for is known only when it is asked, and it is asked three times: for its
constructor, for its points, and for its hooks. What it says makes a plan, a list of single steps,
and the plan is worked off from the left. A step that fails is the last one that is taken.

A step works on a `Workpiece`: the values that were resolved for the next piece of client code, and
the object, once it is constructed. `Host.Takes` is one step, `Host.Works` a list of them.

Main statements: `Host.exec_build_iff`, `Host.build_works_off_plan`.
-/

namespace Wiring

variable {C : Client}

/-! ## Declarations -/

namespace Points

variable (p base : Points) (name : String) (d : Dependency) (parameters : List Dependency)

@[simp] theorem fields_field : (p.field name d).fields = p.fields ++ [.field name d] := by
  simp [fields, field, Point.isField]

@[simp] theorem fields_method : (p.method name parameters).fields = p.fields := by
  simp [fields, method, Point.isField]

/-- The fields of a base stand behind those declared before it was appended. -/
@[simp] theorem fields_inherit : (p.inherit base).fields = p.fields ++ base.fields := by
  simp [fields, inherit]

@[simp] theorem methods_field : (p.field name d).methods = p.methods := by
  simp [methods, field, Point.isField]

@[simp] theorem methods_method :
    (p.method name parameters).methods = p.methods ++ [.method name parameters] := by
  simp [methods, method, Point.isField]

/-- So do the methods. -/
@[simp] theorem methods_inherit : (p.inherit base).methods = p.methods ++ base.methods := by
  simp [methods, inherit]

end Points

/-- The points of a component as they are written down, one after the other; an embedded base has a
declaration of its own. -/
inductive Declaration
  | nothing
  | field (before : Declaration) (name : String) (d : Dependency)
  | method (before : Declaration) (name : String) (parameters : List Dependency)
  | inherit (before base : Declaration)

namespace Declaration

/-- The points that a declaration builds. -/
def points : Declaration → Points
  | nothing => {}
  | field before name d => before.points.field name d
  | method before name parameters => before.points.method name parameters
  | inherit before base => before.points.inherit base.points

/-- All fields, those of a base where it is embedded. -/
def fields : Declaration → List (String × Dependency)
  | nothing => []
  | field before name d => before.fields ++ [(name, d)]
  | method before _ _ => before.fields
  | inherit before base => before.fields ++ base.fields

/-- All methods with their parameters, those of a base where it is embedded. -/
def methods : Declaration → List (String × List Dependency)
  | nothing => []
  | field before _ _ => before.methods
  | method before name parameters => before.methods ++ [(name, parameters)]
  | inherit before base => before.methods ++ base.methods

/-- All points can be declared. -/
theorem exists_points (p : Points) : ∃ t : Declaration, t.points = p := by
  obtain ⟨l⟩ := p
  induction l using List.reverseRecOn with
  | nil => exact ⟨nothing, rfl⟩
  | append_singleton l point ih =>
    obtain ⟨t, ht⟩ := ih
    cases point with
    | field name d => exact ⟨t.field name d, by rw [points, ht]; rfl⟩
    | method name parameters => exact ⟨t.method name parameters, by rw [points, ht]; rfl⟩

/-- The fields of a declaration's points are its own, in order. -/
theorem points_fields (t : Declaration) :
    t.points.fields = t.fields.map fun f => .field f.1 f.2 := by
  induction t with
  | nothing => rfl
  | field before name d ih => simp [points, fields, ih]
  | method before name parameters ih => simp [points, fields, ih]
  | inherit before base ih ih' => simp [points, fields, ih, ih']

/-- The methods are its own, too. -/
theorem points_methods (t : Declaration) :
    t.points.methods = t.methods.map fun m => .method m.1 m.2 := by
  induction t with
  | nothing => rfl
  | field before name d ih => simp [points, methods, ih]
  | method before name parameters ih => simp [points, methods, ih]
  | inherit before base ih ih' => simp [points, methods, ih, ih']

end Declaration

/-! ## Steps and plans -/

/-- One step in the making of a component. -/
inductive BuildStep (C : Client)
  /-- The component is asked for its constructor and says this. -/
  | learnConstructor (constructor : Constructor)
  /-- A dependency is resolved for a place. -/
  | resolve (member : String) (d : Dependency)
  /-- The object is constructed. -/
  | construct
  /-- The component is asked for its points and says this. -/
  | learnPoints (points : Points)
  /-- A field is set. -/
  | setField (name : String)
  /-- An injection method is called. -/
  | callMethod (name : String)
  /-- The component is asked for its hooks and says this. -/
  | learnHooks (lifecycle : Lifecycle C.Object (Routine C Unit))
  /-- A hook for the time after construction is run. -/
  | runHook (hook : Hook C.Object (Routine C Unit))

/-- What there is of a component while it is made. -/
structure Workpiece (C : Client) where
  /-- What was resolved for the client code that runs next. -/
  values : List (Injected C) := []
  object : Option C.Object := none

namespace Workpiece

/-- The workpiece with more resolved values. -/
def supplied (a : Workpiece C) (l : List (Injected C)) : Workpiece C :=
  { a with values := a.values ++ l }

@[simp] theorem supplied_nil (a : Workpiece C) : a.supplied [] = a := by
  simp [supplied]

/-- What is supplied in two portions is supplied in the order of both. -/
@[simp] theorem supplied_supplied (a : Workpiece C) (l l' : List (Injected C)) :
    (a.supplied l).supplied l' = a.supplied (l ++ l') := by
  simp [supplied]

end Workpiece

namespace BuildStep

/-- The member whose client code a step runs on a workpiece, and that code. -/
def client? (m : Component C) (owner : String) :
    BuildStep C → Workpiece C → Option (String × Routine C (Workpiece C))
  | construct, a =>
    some (Label.member owner "construct",
      (m.construct ⟨Label.member owner "new", a.values⟩).bind fun r =>
        .done (r.map fun o => ⟨[], some o⟩))
  | setField name, ⟨[i], some o⟩ =>
    some (Label.member owner name,
      (m.setField o name i).bind fun r => .done (r.2.map fun _ => ⟨[], some r.1⟩))
  | callMethod name, ⟨values, some o⟩ =>
    some (Label.call owner name,
      (m.callMethod o name ⟨Label.call owner name, values⟩).bind fun r =>
        .done (r.2.map fun _ => ⟨[], some r.1⟩))
  | runHook hook, ⟨[], some o⟩ =>
    some (Label.call owner hook.name,
      (hook.act o).bind fun r => .done (r.map fun _ => ⟨[], some o⟩))
  | _, _ => none

/-- The dependency that a step resolves, with its place. -/
def resolution? : BuildStep C → Option (String × Dependency)
  | resolve member d => some (member, d)
  | _ => none

end BuildStep

def resolveSteps (l : List (String × Dependency)) : List (BuildStep C) :=
  l.map fun x => .resolve x.1 x.2

/-- The step that injects a point, once all that it needs is resolved. -/
def Point.injection : Point → BuildStep C
  | .field name _ => .setField name
  | .method name _ => .callMethod name

/-- A point's dependencies are resolved in order, then it is injected. -/
def Point.steps (owner : String) (point : Point) : List (BuildStep C) :=
  resolveSteps (point.resolutions owner) ++ [point.injection]

/-- The client code that injects a point. -/
def Point.code (m : Component C) (owner : String) (point : Point) (o : C.Object)
    (values : List (Injected C)) : Program C (C.Object × Outcome Unit) :=
  match point, values with
  | .field name _, i :: _ => m.setField o name i
  | .field name _, [] => .done (o, .error (.said ("no value for field " ++ name)))
  | .method name _, _ => m.callMethod o name ⟨point.label owner, values⟩

/-- All fields are injected, then all methods. -/
def Points.steps (owner : String) (p : Points) : List (BuildStep C) :=
  p.injectionOrder.flatMap (Point.steps owner)

/-- The plan that a component's constructor, points and hooks make. -/
def assemblyPlan (owner : String) (k : Constructor) (p : Points)
    (l : Lifecycle C.Object (Routine C Unit)) : List (BuildStep C) :=
  .learnConstructor k ::
    (resolveSteps (Label.parameters owner "new" k.parameters) ++ .construct ::
      .learnPoints p :: (p.steps owner ++ .learnHooks l :: l.postConstruct.map .runHook))

/-- The steps of a declaration: its fields as they are written down, each resolved and then set,
after them its methods, each with its parameters resolved and then called. -/
theorem Declaration.steps_eq (owner : String) (t : Declaration) :
    (t.points.steps owner : List (BuildStep C)) =
      (t.fields.flatMap fun f => [.resolve (Label.member owner f.1) f.2, .setField f.1]) ++
        t.methods.flatMap fun m =>
          resolveSteps (Label.parameters owner m.1 m.2) ++ [.callMethod m.1] := by
  unfold Points.steps Points.injectionOrder
  rw [List.flatMap_append, t.points_fields, t.points_methods, List.flatMap_map, List.flatMap_map]
  rfl

namespace Host

/-! ## Working off steps -/

/-- A step is taken on a workpiece, from the first world to the second one. -/
inductive Takes (h : Host C) (c : ContainerId) (type : TypeKey) :
    BuildStep C → Workpiece C → World C → Attempted (Workpiece C) → World C → Prop
  | learnConstructor {k : Constructor} {a : Workpiece C} {w v : World C} :
      (h.run (h.code.component type).constructor).exec w = (some k, v) →
      Takes h c type (.learnConstructor k) a w (.ok a) v
  | learnPoints {p : Points} {a : Workpiece C} {w v : World C} :
      (h.run (h.code.component type).points).exec w = (some p, v) →
      Takes h c type (.learnPoints p) a w (.ok a)
        (v.enter (.event c (.injecting type p.toList.length)))
  | learnHooks {l : Lifecycle C.Object (Routine C Unit)} {a : Workpiece C} {w v : World C} :
      (h.run (h.code.component type).lifecycle).exec w = (some l, v) →
      Takes h c type (.learnHooks l) a w (.ok a) v
  /-- What a resolution fails with is what the step fails with. -/
  | resolve {member : String} {d : Dependency} {a : Workpiece C} {r : Attempted (Injected C)}
      {w v : World C} : (resolve h c member d).run.exec w = (some r, v) →
      Takes h c type (.resolve member d) a w (r.map fun i => a.supplied [i]) v
  /-- What client code says of its own accord becomes a failure of its member. -/
  | client {step : BuildStep C} {member : String} {code : Routine C (Workpiece C)}
      {a : Workpiece C} {r : Attempted (Workpiece C)} {w v : World C} :
      step.client? (h.code.component type) type.name a = some (member, code) →
      h.Invokes member code w r v → Takes h c type step a w r v

/-- Steps are taken in order from the first world to the second one, up to the first that fails. -/
inductive Works (h : Host C) (c : ContainerId) (type : TypeKey) :
    List (BuildStep C) → Workpiece C → World C → Attempted (Workpiece C) → World C → Prop
  | done (a : Workpiece C) (w : World C) : Works h c type [] a w (.ok a) w
  | next {step : BuildStep C} {rest : List (BuildStep C)} {a b : Workpiece C}
      {r : Attempted (Workpiece C)} {w u v : World C} :
      h.Takes c type step a w (.ok b) u → Works h c type rest b u r v →
      Works h c type (step :: rest) a w r v
  | failed {step : BuildStep C} {rest : List (BuildStep C)} {a : Workpiece C} {e : Failure}
      {w v : World C} :
      h.Takes c type step a w (.error e) v → Works h c type (step :: rest) a w (.error e) v

variable {h : Host C} {c : ContainerId} {type : TypeKey} {a b : Workpiece C} {w u v : World C}
  {r : Attempted (Workpiece C)} {steps steps' : List (BuildStep C)} {e : Failure}

/-- A plan that is not empty is worked off by its first step and then the others, unless the first
fails. -/
theorem works_cons_iff {step : BuildStep C} :
    h.Works c type (step :: steps) a w r v ↔
      (∃ b u, h.Takes c type step a w (.ok b) u ∧ h.Works c type steps b u r v) ∨
        ∃ e, h.Takes c type step a w (.error e) v ∧ r = .error e := by
  constructor
  · intro hworks
    cases hworks with
    | next htakes hrest => exact .inl ⟨_, _, htakes, hrest⟩
    | failed htakes => exact .inr ⟨_, htakes, rfl⟩
  · rintro (⟨b, u, htakes, hrest⟩ | ⟨e, htakes, rfl⟩)
    · exact .next htakes hrest
    · exact .failed htakes

/-- Two lists of steps are worked off one after the other, the second one only if the first one
succeeds. -/
theorem works_append_iff :
    h.Works c type (steps ++ steps') a w r v ↔
      (∃ b u, h.Works c type steps a w (.ok b) u ∧ h.Works c type steps' b u r v) ∨
        ∃ e, h.Works c type steps a w (.error e) v ∧ r = .error e := by
  -- Induction on the first list, as the work takes it step by step; the workpiece changes with it.
  induction steps generalizing a w with
  | nil =>
    constructor
    · intro hworks
      exact .inl ⟨a, w, .done a w, hworks⟩
    · rintro (⟨b, u, hnil, hworks⟩ | ⟨e, hnil, -⟩)
      · cases hnil
        exact hworks
      · cases hnil
  | cons step rest ih =>
    rw [List.cons_append, works_cons_iff]
    constructor
    · rintro (⟨b, u, htakes, hworks⟩ | ⟨e, htakes, rfl⟩)
      -- The rest fails or succeeds by itself, and so does the whole.
      · rcases ih.1 hworks with ⟨b', u', hrest, hworks'⟩ | ⟨e, hrest, rfl⟩
        · exact .inl ⟨b', u', .next htakes hrest, hworks'⟩
        · exact .inr ⟨e, .next htakes hrest, rfl⟩
      · exact .inr ⟨e, .failed htakes, rfl⟩
    · rintro (⟨b, u, hcons, hworks⟩ | ⟨e, hcons, rfl⟩)
      · cases hcons with
        | next htakes hrest => exact .inl ⟨_, _, htakes, ih.2 (.inl ⟨b, u, hrest, hworks⟩)⟩
      · cases hcons with
        | next htakes hrest => exact .inl ⟨_, _, htakes, ih.2 (.inr ⟨e, hrest, rfl⟩)⟩
        | failed htakes => exact .inr ⟨e, htakes, rfl⟩

/-- Steps fail exactly if one of them does after all before it have succeeded. What comes after it
is not looked at. -/
theorem works_error_iff :
    h.Works c type steps a w (.error e) v ↔
      ∃ before step after b u, steps = before ++ step :: after ∧
        h.Works c type before a w (.ok b) u ∧ h.Takes c type step b u (.error e) v := by
  constructor
  · intro hworks
    -- The step that fails is the first one or, after a success, the one in the rest.
    induction steps generalizing a w with
    | nil => cases hworks
    | cons step rest ih =>
      rcases works_cons_iff.1 hworks with ⟨b, u, htakes, hrest⟩ | ⟨e', htakes, he⟩
      · obtain ⟨before, step', after, b', u', rfl, hbefore, hfails⟩ := ih hrest
        exact ⟨step :: before, step', after, b', u', rfl, .next htakes hbefore, hfails⟩
      · cases he
        exact ⟨[], step, rest, a, w, rfl, .done a w, htakes⟩
  · rintro ⟨before, step, after, b, u, rfl, hbefore, hfails⟩
    exact works_append_iff.2 (.inl ⟨b, u, hbefore, .failed hfails⟩)

/-- A plan of one step is that step. -/
theorem works_singleton_iff {step : BuildStep C} :
    h.Works c type [step] a w r v ↔ h.Takes c type step a w r v := by
  rw [works_cons_iff]
  constructor
  · rintro (⟨b, u, htakes, hnil⟩ | ⟨e, htakes, rfl⟩)
    · cases hnil
      exact htakes
    · exact htakes
  · intro htakes
    rcases r with e | b
    · exact .inr ⟨e, htakes, rfl⟩
    · exact .inl ⟨b, v, htakes, .done b v⟩

/-- The one step that runs client code is taken exactly as the code runs. -/
theorem takes_client_iff {step : BuildStep C} {member : String} {code : Routine C (Workpiece C)}
    (hstep : step.client? (h.code.component type) type.name a = some (member, code)) :
    h.Takes c type step a w r v ↔ h.Invokes member code w r v := by
  constructor
  · intro htakes
    cases htakes with
    | learnConstructor | learnPoints | learnHooks | resolve => cases hstep
    | client hstep' hinvokes =>
      obtain ⟨rfl, rfl⟩ := Prod.mk.inj (Option.some.inj (hstep.symm.trans hstep'))
      exact hinvokes
  · exact .client hstep

/-! ## What the operations make of the steps -/

/-- A member that is invoked says so and then runs its program. -/
theorem invokes_iff {α : Type} {member : String} {p : Routine C α} {r : Attempted α} :
    h.Invokes member p w r v ↔
      ∃ x, (h.run p).exec (w.enter (.milestone (.invoked member))) = (some x, v) ∧
        r = x.mapError (.ofProblem member) := by
  constructor
  · intro hinvokes
    cases hinvokes with
    | ok hrun => exact ⟨_, hrun, rfl⟩
    | error hrun => exact ⟨_, hrun, rfl⟩
  · rintro ⟨problem | x, hrun, rfl⟩
    · exact .error hrun
    · exact .ok hrun

/-- Client code that is followed by a last word runs as it does without. -/
theorem exec_run_bind_done {α β : Type} {p : Program C α} {g : α → β} {y : β} :
    (h.run (p.bind fun x => .done (g x))).exec w = (some y, v) ↔
      ∃ x, (h.run p).exec w = (some x, v) ∧ y = g x := by
  unfold run
  rw [Program.run_bind, Machine.exec_bind_iff]
  constructor
  · rintro ⟨x, u, hrun, hend⟩
    cases hend
    exact ⟨x, hrun, rfl⟩
  · rintro ⟨x, hrun, rfl⟩
    exact ⟨x, v, hrun, rfl⟩

/-- A member runs code whose result is told in other terms. -/
theorem invokes_bind_iff {α : Type} {member : String} {p : Program C α}
    {g : α → Outcome (Workpiece C)} :
    h.Invokes member (p.bind fun x => .done (g x)) w r v ↔
      ∃ x, (h.run p).exec (w.enter (.milestone (.invoked member))) = (some x, v) ∧
        r = (g x).mapError (.ofProblem member) := by
  constructor
  · intro hinvokes
    obtain ⟨y, hrun, rfl⟩ := invokes_iff.1 hinvokes
    obtain ⟨x, hrun', rfl⟩ := exec_run_bind_done.1 hrun
    exact ⟨x, hrun', rfl⟩
  · rintro ⟨x, hrun, rfl⟩
    exact invokes_iff.2 ⟨_, exec_run_bind_done.2 ⟨x, hrun, rfl⟩, rfl⟩

/-- A member's result is put into the workpiece. -/
theorem invokes_map_iff {α : Type} {member : String} {p : Routine C α} {f : α → Workpiece C} :
    h.Invokes member (p.bind fun x => .done (x.map f)) w r v ↔
      ∃ r', (h.invoke member p).run.exec w = (some r', v) ∧ r = r'.map f := by
  rw [invokes_bind_iff]
  constructor
  · rintro ⟨x, hrun, rfl⟩
    exact ⟨_, exec_invoke_iff.2 (invokes_iff.2 ⟨x, hrun, rfl⟩), by cases x <;> rfl⟩
  · rintro ⟨r', hinvoke, rfl⟩
    obtain ⟨x, hrun, rfl⟩ := invokes_iff.1 (exec_invoke_iff.1 hinvoke)
    exact ⟨x, hrun, by cases x <;> rfl⟩

/-- A constructor is learned by running the program that declares it. -/
theorem takes_learnConstructor_iff {k : Constructor} :
    h.Takes c type (.learnConstructor k) a w r v ↔
      (h.run (h.code.component type).constructor).exec w = (some k, v) ∧ r = .ok a := by
  constructor
  · intro htakes
    cases htakes with
    | learnConstructor hasked => exact ⟨hasked, rfl⟩
    | client hstep => cases hstep
  · rintro ⟨hasked, rfl⟩
    exact .learnConstructor hasked

/-- Points are learned by running the program that declares them, and their number is reported. -/
theorem takes_learnPoints_iff {p : Points} :
    h.Takes c type (.learnPoints p) a w r v ↔
      ∃ u, (h.run (h.code.component type).points).exec w = (some p, u) ∧ r = .ok a ∧
        v = u.enter (.event c (.injecting type p.toList.length)) := by
  constructor
  · intro htakes
    cases htakes with
    | learnPoints hasked => exact ⟨_, hasked, rfl, rfl⟩
    | client hstep => cases hstep
  · rintro ⟨u, hasked, rfl, rfl⟩
    exact .learnPoints hasked

/-- Hooks are learned by running the program that declares them. -/
theorem takes_learnHooks_iff {l : Lifecycle C.Object (Routine C Unit)} :
    h.Takes c type (.learnHooks l) a w r v ↔
      (h.run (h.code.component type).lifecycle).exec w = (some l, v) ∧ r = .ok a := by
  constructor
  · intro htakes
    cases htakes with
    | learnHooks hasked => exact ⟨hasked, rfl⟩
    | client hstep => cases hstep
  · rintro ⟨hasked, rfl⟩
    exact .learnHooks hasked

/-- A dependency that is resolved is supplied to the workpiece. -/
theorem takes_resolve_iff {member : String} {d : Dependency} :
    h.Takes c type (.resolve member d) a w r v ↔
      ∃ r', (resolve h c member d).run.exec w = (some r', v) ∧
        r = r'.map fun i => a.supplied [i] := by
  constructor
  · intro htakes
    cases htakes with
    | resolve hexec => exact ⟨_, hexec, rfl⟩
    | client hstep => cases hstep
  · rintro ⟨r', hexec, rfl⟩
    exact .resolve hexec

/-- Construction takes what was supplied and makes the object of it. -/
theorem takes_construct_iff {values : List (Injected C)} :
    h.Takes c type .construct ⟨values, none⟩ w r v ↔
      ∃ r', (h.invoke (Label.member type.name "construct")
          ((h.code.component type).construct ⟨Label.member type.name "new", values⟩)).run.exec w =
        (some r', v) ∧ r = r'.map fun o => ⟨[], some o⟩ :=
  (takes_client_iff rfl).trans invokes_map_iff

/-- A hook runs on the object and leaves it as it is. -/
theorem takes_runHook_iff {hook : Hook C.Object (Routine C Unit)} {o : C.Object} :
    h.Takes c type (.runHook hook) ⟨[], some o⟩ w r v ↔
      ∃ r', (h.invoke (Label.call type.name hook.name) (hook.act o)).run.exec w = (some r', v) ∧
        r = r'.map fun _ => ⟨[], some o⟩ :=
  (takes_client_iff rfl).trans invokes_map_iff

/-- The steps that resolve dependencies do what resolving all of them does. -/
theorem works_resolveSteps_iff {l : List (String × Dependency)} :
    h.Works c type (resolveSteps l) a w r v ↔
      ∃ r', (resolveAll h c l).run.exec w = (some r', v) ∧ r = r'.map a.supplied := by
  -- Induction on the list; what has been supplied so far is carried in the workpiece.
  induction l generalizing a w with
  | nil =>
    constructor
    · intro hworks
      cases hworks
      exact ⟨.ok [], rfl, by rw [Except.map, Workpiece.supplied_nil]⟩
    · rintro ⟨r', hexec, rfl⟩
      cases hexec
      rw [Except.map, Workpiece.supplied_nil]
      exact .done _ _
  | cons x rest ih =>
    obtain ⟨member, d⟩ := x
    unfold resolveAll
    constructor
    · intro hworks
      rcases works_cons_iff.1 hworks with ⟨b, u, htakes, hrest⟩ | ⟨e, htakes, rfl⟩
      -- A step that resolved has its value behind those supplied before.
      · obtain ⟨_ | i, hresolve, hb⟩ := takes_resolve_iff.1 htakes
        · cases hb
        cases hb
        obtain ⟨_ | is, hall, rfl⟩ := ih.1 hrest
        · exact ⟨_, (exec_bind_ok hresolve).trans (exec_bind_error hall), rfl⟩
        · refine ⟨.ok (i :: is), (exec_bind_ok hresolve).trans (exec_bind_ok hall), ?_⟩
          rw [Except.map, Except.map, Workpiece.supplied_supplied]
          rfl
      -- A step that failed ends the work and the resolving alike.
      · obtain ⟨e' | i, hresolve, he⟩ := takes_resolve_iff.1 htakes
        · cases he
          exact ⟨_, exec_bind_error hresolve, rfl⟩
        · cases he
    · rintro ⟨r', hexec, rfl⟩
      rcases exec_bind_iff.1 hexec with ⟨i, u, hresolve, hall⟩ | ⟨e, hresolve, rfl⟩
      · have htakes : h.Takes c type (.resolve member d) a w (.ok (a.supplied [i])) u :=
          takes_resolve_iff.2 ⟨_, hresolve, rfl⟩
        refine .next htakes (ih.2 ?_)
        rcases exec_bind_iff.1 hall with ⟨is, u', hrest, hend⟩ | ⟨e, hrest, rfl⟩
        · cases hend
          refine ⟨_, hrest, ?_⟩
          rw [Except.map, Except.map, Workpiece.supplied_supplied]
          rfl
        · exact ⟨_, hrest, rfl⟩
      · exact .failed (takes_resolve_iff.2 ⟨_, hresolve, rfl⟩)

/-! ## Injection -/

/-- As many values are resolved as there are dependencies. -/
theorem resolveAll_length {l : List (String × Dependency)} {values : List (Injected C)}
    (hexec : (resolveAll h c l).run.exec w = (some (.ok values), v)) :
    values.length = l.length := by
  induction l generalizing values w with
  | nil =>
    cases hexec
    rfl
  | cons x rest ih =>
    unfold resolveAll at hexec
    obtain ⟨i, u, -, hrest⟩ := exec_bind_ok_iff.1 hexec
    obtain ⟨is, u', hrest, hend⟩ := exec_bind_ok_iff.1 hrest
    cases hend
    exact congrArg (· + 1) (ih hrest)

/-- A point is injected once all that it needs is resolved. -/
theorem takes_injection_iff {point : Point} {o : C.Object} {values : List (Injected C)}
    (hlength : values.length = (point.resolutions type.name).length) :
    h.Takes c type point.injection ⟨values, some o⟩ w r v ↔
      ∃ x, (h.run (point.code (h.code.component type) type.name o values)).exec
          (w.enter (.milestone (.invoked (point.label type.name)))) = (some x, v) ∧
        r = (x.2.mapError (.ofProblem (point.label type.name))).map fun _ => ⟨[], some x.1⟩ := by
  -- Both points differ only in how their value is taken; the failure is labelled the same way.
  have hmap : ∀ {member : String} (x : C.Object × Outcome Unit),
      (x.2.map fun _ => (⟨[], some x.1⟩ : Workpiece C)).mapError (Failure.ofProblem member) =
        (x.2.mapError (Failure.ofProblem member)).map fun _ => ⟨[], some x.1⟩ := by
    rintro member ⟨o, _ | _⟩ <;> rfl
  cases point with
  | field name d =>
    obtain ⟨i, rfl⟩ := List.length_eq_one_iff.1 hlength
    refine (takes_client_iff rfl).trans (invokes_bind_iff.trans ?_)
    simp only [hmap]
    rfl
  | method name parameters =>
    refine (takes_client_iff rfl).trans (invokes_bind_iff.trans ?_)
    simp only [hmap]
    rfl

/-- The steps of one point are worked off exactly as it is injected. -/
theorem works_point_iff {point : Point} {o : C.Object} :
    h.Works c type (point.steps type.name) ⟨[], some o⟩ w r v ↔
      ∃ o' r', (injectPoint h c type point o).exec w = (some (o', r'), v) ∧
        r = r'.map fun _ => ⟨[], some o'⟩ := by
  unfold Point.steps
  rw [works_append_iff]
  unfold injectPoint
  constructor
  -- Either all dependencies resolve and the point is injected, or the first failing one ends both.
  · rintro (⟨b, u, hresolve, hinject⟩ | ⟨e, hresolve, rfl⟩)
    · obtain ⟨_ | values, hall, hb⟩ := works_resolveSteps_iff.1 hresolve <;> cases hb
      obtain ⟨x, hrun, rfl⟩ := (takes_injection_iff (resolveAll_length hall)).1
        (works_singleton_iff.1 hinject)
      refine ⟨x.1, _, (Machine.exec_bind_some hall).trans ?_, rfl⟩
      exact (Machine.exec_bind_some (Machine.exec_mark ..)).trans (Machine.exec_bind_some hrun)
    · obtain ⟨e' | values, hall, he⟩ := works_resolveSteps_iff.1 hresolve <;> cases he
      exact ⟨o, _, Machine.exec_bind_some hall, rfl⟩
  · rintro ⟨o', r', hexec, rfl⟩
    obtain ⟨e | values, u, hall, hexec⟩ := Machine.exec_bind_iff.1 hexec
    · cases hexec
      exact .inr ⟨e, works_resolveSteps_iff.2 ⟨_, hall, rfl⟩, rfl⟩
    · obtain ⟨_, u', hmark, hexec⟩ := Machine.exec_bind_iff.1 hexec
      cases hmark
      obtain ⟨x, u', hrun, hend⟩ := Machine.exec_bind_iff.1 hexec
      cases hend
      refine .inl ⟨⟨values, some o⟩, u, works_resolveSteps_iff.2 ⟨_, hall, rfl⟩, ?_⟩
      exact works_singleton_iff.2
        ((takes_injection_iff (resolveAll_length hall)).2 ⟨x, hrun, rfl⟩)

/-- The steps of several points are worked off exactly as they are injected. -/
theorem works_points_iff {l : List Point} {o : C.Object} :
    h.Works c type (l.flatMap (Point.steps type.name)) ⟨[], some o⟩ w r v ↔
      ∃ o' r', (injectPoints h c type l o).exec w = (some (o', r'), v) ∧
        r = r'.map fun _ => ⟨[], some o'⟩ := by
  -- Induction on the points; the object may change with each.
  induction l generalizing w o with
  | nil =>
    constructor
    · intro hworks
      cases hworks
      exact ⟨o, .ok (), rfl, rfl⟩
    · rintro ⟨o', r', hexec, rfl⟩
      cases hexec
      exact .done _ _
  | cons point rest ih =>
    rw [List.flatMap_cons, works_append_iff]
    unfold injectPoints
    constructor
    · rintro (⟨b, u, hfirst, hrest⟩ | ⟨e, hfirst, rfl⟩)
      · obtain ⟨o', _ | _, hpoint, hb⟩ := works_point_iff.1 hfirst <;> cases hb
        obtain ⟨o'', r', hpoints, rfl⟩ := ih.1 hrest
        exact ⟨o'', r', (Machine.exec_bind_some hpoint).trans hpoints, rfl⟩
      -- A point that fails ends the injection of the rest.
      · obtain ⟨o', e' | _, hpoint, he⟩ := works_point_iff.1 hfirst <;> cases he
        exact ⟨o', _, Machine.exec_bind_some hpoint, rfl⟩
    · rintro ⟨o', r', hexec, rfl⟩
      obtain ⟨⟨o'', e | _⟩, u, hpoint, hexec⟩ := Machine.exec_bind_iff.1 hexec
      · cases hexec
        exact .inr ⟨e, works_point_iff.2 ⟨_, _, hpoint, rfl⟩, rfl⟩
      · exact .inl ⟨_, u, works_point_iff.2 ⟨_, _, hpoint, rfl⟩, ih.2 ⟨_, _, hexec, rfl⟩⟩

/-! ## Hooks -/

/-- The hooks are worked off exactly as they are run. -/
theorem works_hooks_iff {l : List (Hook C.Object (Routine C Unit))} {o : C.Object} :
    h.Works c type (l.map .runHook) ⟨[], some o⟩ w r v ↔
      ∃ r', (runHooks h type o l).run.exec w = (some r', v) ∧
        r = r'.map fun _ => ⟨[], some o⟩ := by
  induction l generalizing w with
  | nil =>
    constructor
    · intro hworks
      cases hworks
      exact ⟨.ok (), rfl, rfl⟩
    · rintro ⟨r', hexec, rfl⟩
      cases hexec
      exact .done _ _
  | cons hook rest ih =>
    rw [List.map_cons, works_cons_iff]
    unfold runHooks
    constructor
    · rintro (⟨b, u, hfirst, hrest⟩ | ⟨e, hfirst, rfl⟩)
      -- A hook leaves the object as it is, so the rest starts from the same workpiece.
      · obtain ⟨_ | _, hinvoke, hb⟩ := takes_runHook_iff.1 hfirst <;> cases hb
        obtain ⟨r', hruns, rfl⟩ := ih.1 hrest
        exact ⟨r', (exec_bind_ok hinvoke).trans hruns, rfl⟩
      · obtain ⟨e' | _, hinvoke, he⟩ := takes_runHook_iff.1 hfirst <;> cases he
        exact ⟨_, exec_bind_error hinvoke, rfl⟩
    · rintro ⟨r', hexec, rfl⟩
      rcases exec_bind_iff.1 hexec with ⟨_, u, hinvoke, hruns⟩ | ⟨e, hinvoke, rfl⟩
      · exact .inl ⟨_, u, takes_runHook_iff.2 ⟨_, hinvoke, rfl⟩, ih.2 ⟨r', hruns, rfl⟩⟩
      · exact .inr ⟨e, takes_runHook_iff.2 ⟨_, hinvoke, rfl⟩, rfl⟩

/-- A component is asked for its hooks, and they are worked off. -/
theorem works_postConstruct_iff {o : C.Object} :
    (∃ l, h.Works c type (.learnHooks l :: l.postConstruct.map .runHook) ⟨[], some o⟩ w r v) ↔
      ∃ r', (postConstruct h type o).run.exec w = (some r', v) ∧
        r = r'.map fun _ => ⟨[], some o⟩ := by
  unfold postConstruct
  constructor
  · rintro ⟨l, hworks⟩
    rcases works_cons_iff.1 hworks with ⟨b, u, htakes, hrest⟩ | ⟨e, htakes, -⟩
    · obtain ⟨hasked, hb⟩ := takes_learnHooks_iff.1 htakes
      cases hb
      obtain ⟨r', hruns, rfl⟩ := works_hooks_iff.1 hrest
      exact ⟨r', exec_bind_step_iff.2 ⟨l, u, hasked, hruns⟩, rfl⟩
    · cases (takes_learnHooks_iff.1 htakes).2
  · rintro ⟨r', hexec, rfl⟩
    obtain ⟨l, u, hasked, hruns⟩ := exec_bind_step_iff.1 hexec
    exact ⟨l, .next (.learnHooks hasked) (works_hooks_iff.2 ⟨r', hruns, rfl⟩)⟩

/-- A component is asked for its points, and they are worked off. -/
theorem works_injectObject_iff {o : C.Object} :
    (∃ p : Points, h.Works c type (.learnPoints p :: p.steps type.name) ⟨[], some o⟩ w r v) ↔
      ∃ o' r', (injectObject h c type o).exec w = (some (o', r'), v) ∧
        r = r'.map fun _ => ⟨[], some o'⟩ := by
  unfold injectObject
  constructor
  -- Asking for the points is the one step that is not part of injecting them.
  · rintro ⟨p, hworks⟩
    rcases works_cons_iff.1 hworks with ⟨b, u, htakes, hrest⟩ | ⟨e, htakes, -⟩
    · obtain ⟨u, hasked, hb, rfl⟩ := takes_learnPoints_iff.1 htakes
      cases hb
      obtain ⟨o', r', hpoints, rfl⟩ := works_points_iff.1 hrest
      refine ⟨o', r', (Machine.exec_bind_some hasked).trans ?_, rfl⟩
      exact (Machine.exec_bind_some (Machine.exec_report ..)).trans hpoints
    · obtain ⟨_, _, he, _⟩ := takes_learnPoints_iff.1 htakes
      cases he
  · rintro ⟨o', r', hexec, rfl⟩
    obtain ⟨p, u, hasked, hexec⟩ := Machine.exec_bind_iff.1 hexec
    obtain ⟨_, u', hreport, hpoints⟩ := Machine.exec_bind_iff.1 hexec
    cases hreport
    exact ⟨p, .next (.learnPoints hasked) (works_points_iff.2 ⟨o', r', hpoints, rfl⟩)⟩

/-! ## The whole component -/

/-- What follows the construction of the object happens exactly as the rest of the plan is worked
off. -/
theorem exec_finish_iff {o : C.Object} {r : Attempted (Value C)} :
    Machine.exec (ExceptT.run (do
        let (o, injected) ← step (injectObject h c type o)
        settle injected
        postConstruct h type o
        return .object o)) w = (some r, v) ↔
      ∃ (p : Points) (l : Lifecycle C.Object (Routine C Unit)) (r' : Attempted C.Object),
        h.Works c type
          (.learnPoints p :: (p.steps type.name ++ .learnHooks l :: l.postConstruct.map .runHook))
          ⟨[], some o⟩ w (r'.map fun o => ⟨[], some o⟩) v ∧ r = r'.map .object := by
  have hsplit : ∀ {p : Points} {l : Lifecycle C.Object (Routine C Unit)} {r},
      h.Works c type
          ((.learnPoints p :: p.steps type.name) ++ .learnHooks l :: l.postConstruct.map .runHook)
          ⟨[], some o⟩ w r v ↔ _ := works_append_iff
  -- The result of the injection decides whether the hooks are asked for at all.
  rw [exec_bind_step_iff]
  constructor
  · rintro ⟨⟨o', e | _⟩, u, hinject, hexec⟩
    · cases hexec
      obtain ⟨p, hpoints⟩ := works_injectObject_iff.2 ⟨o', _, hinject, rfl⟩
      -- The component was not asked for its hooks, so any hooks complete the plan.
      exact ⟨p, {}, .error e, hsplit.2 (.inr ⟨e, hpoints, rfl⟩), rfl⟩
    obtain ⟨p, hpoints⟩ := works_injectObject_iff.2 ⟨o', _, hinject, rfl⟩
    have hexec : (postConstruct h type o' >>= fun _ => return .object o').run.exec u =
        (some r, v) := hexec
    rcases exec_bind_iff.1 hexec with ⟨_, u', hhooks, hend⟩ | ⟨e, hhooks, rfl⟩
    · cases hend
      obtain ⟨l, hworks⟩ := works_postConstruct_iff.2 ⟨_, hhooks, rfl⟩
      exact ⟨p, l, .ok o', hsplit.2 (.inl ⟨_, u, hpoints, hworks⟩), rfl⟩
    · obtain ⟨l, hworks⟩ := works_postConstruct_iff.2 ⟨_, hhooks, rfl⟩
      exact ⟨p, l, .error e, hsplit.2 (.inl ⟨_, u, hpoints, hworks⟩), rfl⟩
  · rintro ⟨p, l, r', hworks, rfl⟩
    rcases hsplit.1 hworks with ⟨b, u, hpoints, hhooks⟩ | ⟨e, hpoints, he⟩
    · obtain ⟨o', _ | _, hinject, hb⟩ := works_injectObject_iff.1 ⟨p, hpoints⟩ <;> cases hb
      refine ⟨_, u, hinject, ?_⟩
      show (postConstruct h type o' >>= fun _ => return Value.object o').run.exec u = _
      obtain ⟨r'', hruns, hr⟩ := works_postConstruct_iff.1 ⟨l, hhooks⟩
      rcases r'' with e | _ <;> rcases r' with e' | o'' <;> cases hr
      · exact exec_bind_error hruns
      · exact exec_bind_ok hruns
    · obtain ⟨o', e' | _, hinject, he'⟩ := works_injectObject_iff.1 ⟨p, hpoints⟩ <;> cases he'
      rcases r' with e'' | o'' <;> cases he
      exact ⟨_, v, hinject, rfl⟩

/-- A component is made exactly as its plan is worked off, and the plan is what the component says
when it is asked. -/
theorem exec_build_iff {r : Attempted (Value C)} :
    (build h c type).run.exec w = (some r, v) ↔
      ∃ (k : Constructor) (p : Points) (l : Lifecycle C.Object (Routine C Unit))
        (r' : Attempted C.Object),
        h.Works c type (assemblyPlan type.name k p l) {} w (r'.map fun o => ⟨[], some o⟩) v ∧
          r = r'.map .object := by
  unfold build assemblyPlan
  rw [exec_bind_step_iff]
  constructor
  · rintro ⟨k, u, hasked, hexec⟩
    rcases exec_bind_iff.1 hexec with ⟨values, u₁, hall, hexec⟩ | ⟨e, hall, rfl⟩
    · have hresolved : h.Works c type (resolveSteps _) {} u (.ok ⟨values, none⟩) u₁ :=
        works_resolveSteps_iff.2 ⟨_, hall, rfl⟩
      rcases exec_bind_iff.1 hexec with ⟨o, u₂, hinvoke, hfinish⟩ | ⟨e, hinvoke, rfl⟩
      · obtain ⟨p, l, r', hworks, rfl⟩ := exec_finish_iff.1 hfinish
        refine ⟨k, p, l, r', .next (.learnConstructor hasked) ?_, rfl⟩
        exact works_append_iff.2 (.inl ⟨_, u₁, hresolved,
          .next (takes_construct_iff.2 ⟨_, hinvoke, rfl⟩) hworks⟩)
      -- Points and hooks that the component was not asked for complete the plan in any way.
      · refine ⟨k, {}, {}, .error e, .next (.learnConstructor hasked) ?_, rfl⟩
        exact works_append_iff.2 (.inl ⟨_, u₁, hresolved,
          .failed (takes_construct_iff.2 ⟨_, hinvoke, rfl⟩)⟩)
    · have hresolved : h.Works c type (resolveSteps _) {} u (.error e) v :=
        works_resolveSteps_iff.2 ⟨_, hall, rfl⟩
      refine ⟨k, {}, {}, .error e, .next (.learnConstructor hasked) ?_, rfl⟩
      exact works_append_iff.2 (.inr ⟨e, hresolved, rfl⟩)
  · rintro ⟨k, p, l, r', hworks, rfl⟩
    rcases works_cons_iff.1 hworks with ⟨b, u, htakes, hworks⟩ | ⟨e, htakes, -⟩
    swap
    · cases (takes_learnConstructor_iff.1 htakes).2
    obtain ⟨hasked, hb⟩ := takes_learnConstructor_iff.1 htakes
    cases hb
    refine ⟨k, u, hasked, ?_⟩
    rcases works_append_iff.1 hworks with ⟨b, u₁, hresolved, hworks⟩ | ⟨e, hresolved, he⟩
    · obtain ⟨_ | values, hall, hb⟩ := works_resolveSteps_iff.1 hresolved <;> cases hb
      refine (exec_bind_ok hall).trans ?_
      rcases works_cons_iff.1 hworks with ⟨b, u₂, htakes, hworks⟩ | ⟨e, htakes, he⟩
      · obtain ⟨_ | o, hinvoke, hb⟩ := takes_construct_iff.1 htakes <;> cases hb
        refine (exec_bind_ok hinvoke).trans ?_
        exact exec_finish_iff.2 ⟨p, l, r', hworks, rfl⟩
      · obtain ⟨_ | o, hinvoke, he'⟩ := takes_construct_iff.1 htakes <;> cases he'
        rcases r' with e'' | o'' <;> cases he
        exact exec_bind_error hinvoke
    · obtain ⟨_ | values, hall, he'⟩ := works_resolveSteps_iff.1 hresolved <;> cases he'
      rcases r' with e'' | o'' <;> cases he
      exact exec_bind_error hall

/-- A component is made with success exactly if its whole plan is worked off. -/
theorem exec_build_ok_iff {x : Value C} :
    (build h c type).run.exec w = (some (.ok x), v) ↔
      ∃ k p l o, h.Works c type (assemblyPlan type.name k p l) {} w (.ok ⟨[], some o⟩) v ∧
        x = .object o := by
  rw [exec_build_iff]
  constructor
  · rintro ⟨k, p, l, e | o, hworks, hx⟩ <;> cases hx
    exact ⟨k, p, l, o, hworks, rfl⟩
  · rintro ⟨k, p, l, o, hworks, rfl⟩
    exact ⟨k, p, l, .ok o, hworks, rfl⟩

/-- A step fails only where a dependency is not resolved, as the resolution does, or where client
code fails: what that passes on stays as it is, and its own words get the label of its member. -/
theorem takes_error_iff {step : BuildStep C} :
    h.Takes c type step a w (.error e) v ↔
      (∃ member d, step = .resolve member d ∧
        (resolve h c member d).run.exec w = (some (.error e), v)) ∨
      ∃ member code problem,
        step.client? (h.code.component type) type.name a = some (member, code) ∧
          (h.run code).exec (w.enter (.milestone (.invoked member))) =
            (some (.error problem), v) ∧ e = .ofProblem member problem := by
  constructor
  · generalize hr : (.error e : Attempted (Workpiece C)) = r
    intro htakes
    cases htakes with
    -- Asking for constructor, points and hooks cannot fail; what remains is resolving and client
    -- code.
    | learnConstructor | learnPoints | learnHooks => cases hr
    | @resolve member d a r' =>
      rcases r' with e' | i <;> cases hr
      exact .inl ⟨member, d, rfl, ‹_›⟩
    | @client step member code a r w v hstep hinvokes =>
      subst hr
      cases hinvokes with
      | error hrun => exact .inr ⟨member, code, _, hstep, hrun, rfl⟩
  · rintro (⟨member, d, rfl, hexec⟩ | ⟨member, code, problem, hstep, hrun, rfl⟩)
    · exact takes_resolve_iff.2 ⟨_, hexec, rfl⟩
    · exact .client hstep (.error hrun)

/-- A component is made with success exactly if all steps of its plan succeed, and it fails exactly
if one of them fails after all before it have succeeded; the world is then left as that step leaves
it, and none that comes after it is taken. A step fails as its dependency does, or with the label of
its client code. The plan resolves the constructor's parameters and constructs; it resolves and sets
each field; then it resolves the parameters of each method and calls it; then it runs the hooks.
However the points are declared, the fields come first, those of a base where it is embedded. -/
theorem build_works_off_plan (h : Host C) (c : ContainerId) (type : TypeKey) :
    (∀ w v x, (build h c type).run.exec w = (some (.ok x), v) ↔
      ∃ k p l o, h.Works c type (assemblyPlan type.name k p l) {} w (.ok ⟨[], some o⟩) v ∧
        x = .object o) ∧
    (∀ w v e, (build h c type).run.exec w = (some (.error e), v) ↔
      ∃ k p l before step after a u, assemblyPlan type.name k p l = before ++ step :: after ∧
        h.Works c type before {} w (.ok a) u ∧ h.Takes c type step a u (.error e) v) ∧
    (∀ step a w v e, h.Takes c type step a w (.error e) v ↔
      (∃ member d, step = .resolve member d ∧
        (resolve h c member d).run.exec w = (some (.error e), v)) ∨
      ∃ member code problem,
        step.client? (h.code.component type) type.name a = some (member, code) ∧
          (h.run code).exec (w.enter (.milestone (.invoked member))) =
            (some (.error problem), v) ∧ e = .ofProblem member problem) ∧
    (∀ p : Points, ∃ t : Declaration, t.points = p) ∧
    ∀ k (t : Declaration) l, assemblyPlan (C := C) type.name k t.points l =
      [.learnConstructor k] ++ resolveSteps (Label.parameters type.name "new" k.parameters) ++
      [.construct, .learnPoints t.points] ++
      (t.fields.flatMap fun f => [.resolve (Label.member type.name f.1) f.2, .setField f.1]) ++
      (t.methods.flatMap fun m =>
        resolveSteps (Label.parameters type.name m.1 m.2) ++ [.callMethod m.1]) ++
      [.learnHooks l] ++ l.postConstruct.map .runHook := by
  refine ⟨fun w v x => exec_build_ok_iff, fun w v e => ?_, fun step a w v e => takes_error_iff,
    Declaration.exists_points, fun k t l => ?_⟩
  -- A failing build is one whose work fails, and the work fails at one step.
  · rw [exec_build_iff]
    constructor
    · rintro ⟨k, p, l, e' | o, hworks, he⟩ <;> cases he
      exact ⟨k, p, l, works_error_iff.1 hworks⟩
    · rintro ⟨k, p, l, hfails⟩
      exact ⟨k, p, l, .error e, works_error_iff.2 hfails, rfl⟩
  · unfold assemblyPlan
    rw [t.steps_eq]
    simp

end Host

end Wiring
