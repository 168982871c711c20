import Wiring.Host

/-!
# Construction

A component is made in a fixed order: its constructor's dependencies are resolved, the object
is constructed, all fields are injected, then all methods, and the hooks for the time after
construction run. The first failure ends it.
-/

namespace Wiring.Host

variable {C : Client}

/-- Resolves a dependency through the container. -/
def resolve (h : Host C) (c : ContainerId) (member : String) (d : Dependency) :
    Attempt C (Injected C) := do
  match d.want with
  | .object type =>
    let v ← ExceptT.mk (h.perform (.get c type d.qualifiers))
    return ⟨member, .value type v⟩
  | .selection type =>
    let s ← ExceptT.mk (h.perform (.select c type d.qualifiers))
    return ⟨member, .selection s⟩
  | .container => return ⟨member, .value .container (.container c)⟩

/-- Resolves labelled dependencies in order, up to the first that fails. -/
def resolveAll (h : Host C) (c : ContainerId) :
    List (String × Dependency) → Attempt C (List (Injected C))
  | [] => return []
  | (member, d) :: rest => do
    let i ← resolve h c member d
    return i :: (← resolveAll h c rest)

/-- Injects one point; the object as it is afterwards, and whether that worked. -/
def injectPoint (h : Host C) (c : ContainerId) (type : TypeKey) (p : Point) (o : C.Object) :
    Machine C (C.Object × Attempted Unit) := do
  let member := p.label type.name
  match ← (resolveAll h c (p.resolutions type.name)).run with
  | .error e => return (o, .error e)
  | .ok values =>
    Machine.mark (.invoked member)
    -- A field resolves to exactly one value.
    let (o, r) ← h.run <| match p, values with
      | .field name _, v :: _ => (h.code.component type).setField o name v
      | .field name _, [] => .done (o, .error (.said ("no value for field " ++ name)))
      | .method name _, _ => (h.code.component type).callMethod o name ⟨member, values⟩
    return (o, r.mapError (.ofProblem member))

/-- Injects points in order, up to the first that fails. -/
def injectPoints (h : Host C) (c : ContainerId) (type : TypeKey) :
    List Point → C.Object → Machine C (C.Object × Attempted Unit)
  | [], o => return (o, .ok ())
  | p :: rest, o => do
    match ← injectPoint h c type p o with
    | (o, .ok ()) => injectPoints h c type rest o
    | (o, .error e) => return (o, .error e)

/-- Injects what a type declares into an object. -/
def injectObject (h : Host C) (c : ContainerId) (type : TypeKey) (o : C.Object) :
    Machine C (C.Object × Attempted Unit) := do
  let points ← h.run (h.code.component type).points
  Machine.report c (.injecting type points.toList.length)
  injectPoints h c type points.injectionOrder o

/-- Runs hooks in order, up to the first that fails. -/
def runHooks (h : Host C) (type : TypeKey) (o : C.Object) :
    List (Hook C.Object (Routine C Unit)) → Attempt C Unit
  | [] => return ()
  | hook :: rest => do
    h.invoke (Label.call type.name hook.name) (hook.act o)
    runHooks h type o rest

/-- Runs the hooks of a type for the time after construction. -/
def postConstruct (h : Host C) (type : TypeKey) (o : C.Object) : Attempt C Unit := do
  let lifecycle ← step (h.run (h.code.component type).lifecycle)
  runHooks h type o lifecycle.postConstruct

/-- Runs the hooks of a type for the time before teardown. -/
def preDestroy (h : Host C) (type : TypeKey) (o : C.Object) : Attempt C Unit := do
  let lifecycle ← step (h.run (h.code.component type).lifecycle)
  runHooks h type o lifecycle.preDestroy

/-- Makes a component. -/
def build (h : Host C) (c : ContainerId) (type : TypeKey) : Attempt C (Value C) := do
  let owner := type.name
  let constructor ← step (h.run (h.code.component type).constructor)
  let values ← resolveAll h c (Label.parameters owner "new" constructor.parameters)
  let o ← h.invoke (Label.member owner "construct")
    ((h.code.component type).construct ⟨Label.member owner "new", values⟩)
  let (o, injected) ← step (injectObject h c type o)
  settle injected
  postConstruct h type o
  return .object o

end Wiring.Host
