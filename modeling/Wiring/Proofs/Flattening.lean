import Wiring.Proofs.Invocation
import Wiring.Proofs.Singletons

/-!
# Hooks of embedded bases

The hooks of a type are written down one after the other, and where a base is embedded its hooks
stand for it, to any depth. So a declaration flattens to one list of hooks of both kinds, in which a
hook of a base acts on the part of the whole to which the projections lead. The two lists of a
lifecycle are the hooks of either kind in the order of this list, and they are run from the left up
to the first that fails.

Main statement: `Host.hooks_run_flattened`.
-/

namespace Wiring

namespace Lifecycle

variable {Root Target Part Effect : Type}

/-- The hooks of one kind. -/
def hooks (l : Lifecycle Target Effect) : HookTime → List (Hook Target Effect)
  | .afterConstruction => l.postConstruct
  | .beforeTeardown => l.preDestroy

section hooks

variable (l : Lifecycle Target Effect) (name : String) (act : Target → Effect) (time : HookTime)

/-- A construction hook goes to the end of the construction hooks and nowhere else. -/
theorem hooks_afterConstruction :
    (l.afterConstruction name act).hooks time =
      l.hooks time ++ if .afterConstruction = time then [⟨name, act⟩] else [] := by
  cases time <;> simp [hooks, afterConstruction]

/-- A teardown hook goes to the end of the teardown hooks and nowhere else. -/
theorem hooks_beforeTeardown :
    (l.beforeTeardown name act).hooks time =
      l.hooks time ++ if .beforeTeardown = time then [⟨name, act⟩] else [] := by
  cases time <;> simp [hooks, beforeTeardown]

/-- Inherited hooks come behind those declared so far, each run on the part it was declared for. -/
theorem hooks_inherit (part : Target → Part) (base : Lifecycle Part Effect) :
    (l.inherit part base).hooks time = l.hooks time ++ (base.hooks time).map (.on part) := by
  cases time <;> rfl

end hooks

/-- Hooks as they are written down, one after the other; an embedded base has a declaration of its
own. -/
inductive Declaration (Effect : Type) : Type → Type 1
  | nothing {Target : Type} : Declaration Effect Target
  | afterConstruction {Target : Type} (before : Declaration Effect Target) (name : String)
      (act : Target → Effect) : Declaration Effect Target
  | beforeTeardown {Target : Type} (before : Declaration Effect Target) (name : String)
      (act : Target → Effect) : Declaration Effect Target
  | inherit {Target Part : Type} (before : Declaration Effect Target) (part : Target → Part)
      (base : Declaration Effect Part) : Declaration Effect Target

namespace Declaration

/-- The lifecycle that a declaration builds. -/
def lifecycle : {Target : Type} → Declaration Effect Target → Lifecycle Target Effect
  | _, nothing => {}
  | _, afterConstruction before name act => before.lifecycle.afterConstruction name act
  | _, beforeTeardown before name act => before.lifecycle.beforeTeardown name act
  | _, inherit before part base => before.lifecycle.inherit part base.lifecycle

/-- The hooks of both kinds in the order in which they stand, those of a base in the place of the
base. They act on what can be reached from the root. -/
def flattened : {Target : Type} → Declaration Effect Target → (Root → Target) →
    List (HookTime × Hook Root Effect)
  | _, nothing, _ => []
  | _, afterConstruction before name act, reach =>
    before.flattened reach ++ [(.afterConstruction, ⟨name, fun root => act (reach root)⟩)]
  | _, beforeTeardown before name act, reach =>
    before.flattened reach ++ [(.beforeTeardown, ⟨name, fun root => act (reach root)⟩)]
  | _, inherit before part base, reach =>
    before.flattened reach ++ base.flattened fun root => part (reach root)

/-- The hooks of one kind in the order in which they stand. -/
def hooks (d : Declaration Effect Target) (time : HookTime) : List (Hook Target Effect) :=
  ((d.flattened id).filter (·.1 = time)).map (·.2)

/-- The declaration without the hooks of the other kind. -/
def only (time : HookTime) : {Target : Type} → Declaration Effect Target →
    Declaration Effect Target
  | _, nothing => nothing
  | _, afterConstruction before name act =>
    match time with
    | .afterConstruction => (before.only time).afterConstruction name act
    | .beforeTeardown => before.only time
  | _, beforeTeardown before name act =>
    match time with
    | .afterConstruction => before.only time
    | .beforeTeardown => (before.only time).beforeTeardown name act
  | _, inherit before part base => (before.only time).inherit part (base.only time)

/-- A lifecycle has the hooks of a kind in the order in which they stand in the declaration. -/
theorem filter_flattened (d : Declaration Effect Target) (time : HookTime)
    (reach : Root → Target) :
    ((d.flattened reach).filter (·.1 = time)).map (·.2) =
      (d.lifecycle.hooks time).map (.on reach) := by
  -- What a base declares is reached through its projection, so the way to it grows.
  induction d with
  | nothing => cases time <;> rfl
  | afterConstruction before name act ih =>
    simp only [flattened, lifecycle, hooks_afterConstruction, List.filter_append, List.map_append,
      ih]
    cases time <;> rfl
  | beforeTeardown before name act ih =>
    simp only [flattened, lifecycle, hooks_beforeTeardown, List.filter_append, List.map_append, ih]
    cases time <;> rfl
  | inherit before part base ih ihBase =>
    simp only [flattened, lifecycle, hooks_inherit, List.filter_append, List.map_append, ih, ihBase,
      List.map_map]
    rfl

/-- The lifecycle that a declaration builds has the hooks of the declaration, flattened. -/
theorem hooks_lifecycle (d : Declaration Effect Target) (time : HookTime) :
    d.lifecycle.hooks time = d.hooks time := by
  unfold hooks
  rw [filter_flattened]
  exact (List.map_id' _).symm

/-- Without the hooks of the other kind, the others stand as before. -/
theorem flattened_only (d : Declaration Effect Target) (time : HookTime)
    (reach : Root → Target) :
    (d.only time).flattened reach = (d.flattened reach).filter (·.1 = time) := by
  induction d with
  | nothing => rfl
  | afterConstruction before name act ih | beforeTeardown before name act ih =>
    cases time <;> simp [only, flattened, ih]
  | inherit before part base ih ihBase => simp [only, flattened, ih, ihBase]

/-- A declaration with the hooks of one time keeps those and their order. -/
theorem hooks_only (d : Declaration Effect Target) (time : HookTime) :
    (d.only time).hooks time = d.hooks time := by
  unfold hooks
  rw [flattened_only, List.filter_filter]
  simp

end Declaration

end Lifecycle

namespace Host

variable {C : Client} {h : Host C} {u v w : World C} {type : TypeKey} {o : C.Object}
  {l : List (Hook C.Object (Routine C Unit))}

/-- Runs the hooks of a type at one time. -/
def runsAt (h : Host C) : HookTime → TypeKey → C.Object → Attempt C Unit
  | .afterConstruction => postConstruct h
  | .beforeTeardown => preDestroy h

/-- A hook of a type runs on an object from the first world to the second one. -/
def RunsHook (h : Host C) (type : TypeKey) (o : C.Object) (hook : Hook C.Object (Routine C Unit))
    (w : World C) (r : Outcome Unit) (v : World C) : Prop :=
  (h.run (hook.act o)).exec
    (w.enter (.milestone (.invoked (Label.call type.name hook.name)))) = (some r, v)

/-- Hooks of a type run on an object in turn, and none of them fails. -/
inductive Passes (h : Host C) (type : TypeKey) (o : C.Object) :
    List (Hook C.Object (Routine C Unit)) → World C → World C → Prop
  | nil (w : World C) : Passes h type o [] w w
  | cons {hook : Hook C.Object (Routine C Unit)} {rest : List (Hook C.Object (Routine C Unit))}
      {w u v : World C} : h.RunsHook type o hook w (.ok ()) u → Passes h type o rest u v →
      Passes h type o (hook :: rest) w v

/-- Hooks of a type run on an object in turn up to one that fails, with this problem. -/
def FailsAt (h : Host C) (type : TypeKey) (o : C.Object)
    (l : List (Hook C.Object (Routine C Unit))) (w : World C)
    (hook : Hook C.Object (Routine C Unit)) (problem : Problem) (v : World C) : Prop :=
  ∃ before after u, l = before ++ hook :: after ∧ h.Passes type o before w u ∧
    h.RunsHook type o hook u (.error problem) v

/-- A sequence of hooks succeeds exactly if every hook passes. -/
theorem runsHooks_ok_iff : h.RunsHooks type o l w (.ok ()) v ↔ h.Passes type o l w v := by
  induction l generalizing w with
  | nil =>
    constructor
    · intro hruns
      cases hruns
      exact .nil _
    · intro hpasses
      cases hpasses
      exact .done _
  | cons hook rest ih =>
    constructor
    · intro hruns
      cases hruns with
      | next hinvokes hrest =>
        -- A hook that passes was invoked without a problem.
        cases hinvokes with
        | ok hrun => exact .cons hrun (ih.1 hrest)
    · intro hpasses
      cases hpasses with
      | cons hrun hrest => exact .next (.ok hrun) (ih.2 hrest)

/-- It fails exactly at its first failing hook, under the label of the type that runs it. -/
theorem runsHooks_error_iff {e : Failure} :
    h.RunsHooks type o l w (.error e) v ↔
      ∃ hook problem, h.FailsAt type o l w hook problem v ∧
        e = .ofProblem (Label.call type.name hook.name) problem := by
  induction l generalizing w with
  | nil =>
    constructor
    · intro hruns
      cases hruns
    -- No hook stands between two parts of an empty list.
    · rintro ⟨hook, problem, ⟨before, after, u, hl, -, -⟩, -⟩
      cases before <;> cases hl
  | cons first rest ih =>
    constructor
    · intro hruns
      cases hruns with
      -- The first hook passed, so the failing one is among the rest, with this one before it.
      | next hinvokes hrest =>
        cases hinvokes with
        | ok hrun =>
          obtain ⟨hook, problem, ⟨before, after, u, rfl, hbefore, hfails⟩, he⟩ := ih.1 hrest
          exact ⟨hook, problem, ⟨first :: before, after, u, rfl, .cons hrun hbefore, hfails⟩, he⟩
      | failed hinvokes =>
        cases hinvokes with
        | error hrun => exact ⟨first, _, ⟨[], rest, w, rfl, .nil w, hrun⟩, rfl⟩
    · rintro ⟨hook, problem, ⟨before, after, u, hl, hbefore, hfails⟩, rfl⟩
      -- The hooks before the failing one tell whether it is the first.
      cases hbefore with
      | nil =>
        cases hl
        exact .failed (.error hfails)
      | cons hrun hrest =>
        cases hl
        exact .next (.ok hrun) (ih.2 ⟨hook, problem, ⟨_, after, u, rfl, hrest, hfails⟩, rfl⟩)

/-- Once a type has said what its hooks are, those of the time are run. -/
theorem exec_runsAt_iff {time : HookTime} {lifecycle : Lifecycle C.Object (Routine C Unit)}
    (hlifecycle : (h.run (h.code.component type).lifecycle).exec w = (some lifecycle, u))
    {r : Attempted Unit} :
    (h.runsAt time type o).run.exec w = (some r, v) ↔
      h.RunsHooks type o (lifecycle.hooks time) u r v := by
  have hasked : (h.runsAt time type o).run.exec w = (some r, v) ↔
      -- The two times differ only in which hooks of the answered lifecycle are run.
      ∃ lifecycle u, (h.run (h.code.component type).lifecycle).exec w = (some lifecycle, u) ∧
        h.RunsHooks type o (lifecycle.hooks time) u r v := by
    cases time with
    | afterConstruction => exact exec_postConstruct_iff
    | beforeTeardown => exact exec_preDestroy_iff
  rw [hasked, hlifecycle]
  constructor
  · rintro ⟨_, _, ⟨⟩, hruns⟩
    exact hruns
  · intro hruns
    exact ⟨lifecycle, u, rfl, hruns⟩

/-- The hooks of a type are run as they stand in its flattened declaration, those of a base on the
part of the object to which the projections lead, from the left up to the first that fails. They
succeed exactly if none fails. The words of a hook that fails become a failure of that hook of the
type, whichever base declared it, and a failure that it passes on is the failure of all. What is
declared of the other kind makes no difference. -/
theorem hooks_run_flattened (h : Host C) (time : HookTime) {type : TypeKey} {o : C.Object}
    {d : Lifecycle.Declaration (Routine C Unit) C.Object} {w u : World C}
    (hlifecycle : (h.run (h.code.component type).lifecycle).exec w = (some d.lifecycle, u)) :
    (∀ v, (h.runsAt time type o).run.exec w = (some (.ok ()), v) ↔
      h.Passes type o (d.hooks time) u v) ∧
    (∀ e v, (h.runsAt time type o).run.exec w = (some (.error e), v) ↔
      ∃ hook problem, h.FailsAt type o (d.hooks time) u hook problem v ∧
        e = match problem with
          | .said words => .invocation (type.name ++ "::" ++ hook.name ++ "()") (.said words)
          | .failure f => f) ∧
    ∀ d' : Lifecycle.Declaration (Routine C Unit) C.Object, d'.only time = d.only time →
      d'.hooks time = d.hooks time := by
  refine ⟨fun v => ?_, fun e v => ?_, fun d' hd => ?_⟩
  · rw [exec_runsAt_iff hlifecycle, d.hooks_lifecycle]
    exact runsHooks_ok_iff
  · rw [exec_runsAt_iff hlifecycle, d.hooks_lifecycle, runsHooks_error_iff]
    -- The label of a failing hook is that of the running type and its own name.
    have hlabel : ∀ (hook : Hook C.Object (Routine C Unit)) (problem : Problem),
        Failure.ofProblem (Label.call type.name hook.name) problem = match problem with
          | .said words => .invocation (type.name ++ "::" ++ hook.name ++ "()") (.said words)
          | .failure f => f := by
      intro hook problem
      cases problem <;> rfl
    simp only [hlabel]
  -- The hooks of a time are those of the declaration reduced to it.
  · rw [← d'.hooks_only, hd, d.hooks_only]

end Host

namespace Sample

def idle {Target : Type} (_ : Target) : Routine Sample Unit := .done (.ok ())

/-- A fuse burns if there is too much load on it. -/
def check (load : Nat) : Routine Sample Unit :=
  .done (if load ≤ 10 then .ok () else .error (.said "burnt"))

def fuse : Lifecycle.Declaration (Routine Sample Unit) Nat :=
  .afterConstruction .nothing "check" check

/-- A socket has a fuse, on which both of its plugs load. -/
def socket : Lifecycle.Declaration (Routine Sample Unit) (Nat × Nat) :=
  .afterConstruction
    (.inherit (.beforeTeardown .nothing "unplug" idle) (fun plugs => plugs.1 + plugs.2) fuse)
    "power" idle

/-- A chandelier hangs on a socket. -/
def chandelier : Lifecycle.Declaration (Routine Sample Unit) Unit :=
  .inherit (.afterConstruction .nothing "hang" idle) (fun _ => (7, 7)) socket

/-- Code in which everything is a chandelier. -/
def chandeliers : Codebase Sample :=
  { lamps with
    component := fun _ =>
      { construct := fun _ => .done (.ok ())
        lifecycle := .done chandelier.lifecycle } }

def hung : World Sample := blank.enter (.milestone (.invoked "Chandelier::hang()"))

/-- The fuse in the socket of a chandelier burns after it was hung, and there is no power. -/
theorem chandelier_burns :
    ((chandeliers.hostAt 0).runsAt .afterConstruction (.named "Chandelier") ()).run.exec blank =
      (some (.error (.invocation "Chandelier::check()" (.said "burnt"))),
        hung.enter (.milestone (.invoked "Chandelier::check()"))) := by
  have hlifecycle : ((chandeliers.hostAt 0).run
      ((chandeliers.hostAt 0).code.component (.named "Chandelier")).lifecycle).exec blank =
      (some chandelier.lifecycle, blank) := rfl
  have hflat : chandelier.hooks .afterConstruction =
      [⟨"hang", idle⟩] ++ ⟨"check", fun _ => check 14⟩ :: [⟨"power", idle⟩] := rfl
  have hhang : (chandeliers.hostAt 0).Passes (.named "Chandelier") () [⟨"hang", idle⟩] blank hung :=
    .cons rfl (.nil hung)
  obtain ⟨-, hfails, -⟩ := Host.hooks_run_flattened (chandeliers.hostAt 0) .afterConstruction
    (o := ()) hlifecycle
  exact (hfails _ _).2 ⟨_, .said "burnt", ⟨_, _, hung, hflat, hhang, rfl⟩, rfl⟩

end Sample

end Wiring
