import Wiring.Scripted.Declared

/-!
# What scripts do

Each step of a script is a program that calls the library, and each piece of the client's code
that the library runs is a program that runs a script.
-/

namespace Wiring.Scripted

abbrev Act := Program scripted

/-- A program of the scripted client that may fail. -/
abbrev Trial := ExceptT Problem Act

/-- What a step comes to, and the values that it adds to its script. -/
abbrev StepResult := Attempted Answer × List Held

/-! ## Small parts of steps -/

def ask (c : Call scripted) : Act (Reply scripted c) := Program.request c

def desk : Act Desk := Program.state

def alterDesk (f : Desk → Desk) : Act Unit := Program.alter f

def tell (n : Note) : Act Unit := Program.say n

/-- Takes the identity of a new object. -/
def freshId : Act Nat := do
  let d ← desk
  alterDesk fun d => { d with nextId := d.nextId + 1 }
  return d.nextId

/-- Keeps an object under a name, if there is a name. -/
def keepThing (keepAs : Option String) (t : Thing) : Act Unit :=
  match keepAs with
  | some name => alterDesk fun d => { d with objects := d.objects.put name t }
  | none => return ()

/-- Keeps a selection under a name, if there is a name. -/
def keepSelection (keepAs : Option String) (s : Selection) : Act Unit :=
  match keepAs with
  | some name => alterDesk fun d => { d with selections := d.selections.put name s }
  | none => return ()

/-- Shows a value and keeps it if it is an object of the client's kinds. -/
def showValue (v : Value scripted) (keepAs : Option String) : Act Shown := do
  let shown := (← desk).shown v
  if let .thing t := shown then keepThing keepAs t
  return shown

/-- Adds a handle. -/
def addHandle (c : ContainerId) : Act Nat := do
  let d ← desk
  alterDesk fun d => { d with handles := d.handles ++ [c] }
  return d.handles.length

/-- Makes the value of a recipe. -/
def Recipe.make (r : Recipe) (args : List Held) : Act (Value scripted) := do
  match r.content with
  | .object kind =>
    let id ← freshId
    return .object (.thing { kind, madeAs := kind, id, label := r.label.getD "", args })
  | .number n => return .object (.number n)
  | .text s => return .object (.text s)
  | .container handle => return .container ((← desk).handle handle)

/-! ## Registrations -/

/-- A copy of a value that shows that it was converted. -/
def markedCopy : Value scripted → Value scripted
  | .object (.thing t) => .object (.thing { t with marked := true })
  | v => v

/-- A value converted to the first specified kind; this always marks it. -/
def asFirst : Value scripted → Value scripted
  | .object (.thing t) => .object (.thing { t with kind := .first, marked := true })
  | v => v

/-- Whether conversions of a type mark a value on demand. -/
def canMark : TypeName → Bool
  | .kind (.specified _) | .kind .plain | .kind .bare => true
  | _ => false

/-- The conversion of a value of one type to another. -/
def conversion (own exposed : TypeName) (marked : Bool) : Value scripted → Value scripted :=
  if exposed = .kind .first ∧ exposed ≠ own then asFirst
  else if marked && canMark own then markedCopy
  else id

/-- One step of the description of a registration. -/
def BuildStep.apply (own : TypeName) (r : Registration scripted) :
    BuildStep StepScript → Registration scripted
  | .qualifier q => r.withQualifier q
  | .qualifiers qs => r.withQualifiers qs
  | .scope s => r.withScope s
  | .expose type marked => r.expose type.key (conversion own type marked)
  | .onDestroy script => r.withOnDestroy (.onDestroy script)

/-- What a kind declares about itself. -/
def declaredMarkers (kind : Kind) : Act Markers := do
  match kind with
  | .specified _ => return ((← desk).spec kind).markers
  | .plain | .bare => return {}
  | _ => return ((expansion? kind).map Derive.Expansion.markers).getD {}

/-- The registration that an origin stands for, and its type. -/
def Origin.registration : Origin StepScript → Act (TypeName × Registration scripted)
  | .ready recipe => do
    let v ← recipe.make []
    return (recipe.content.type, .ready recipe.content.type.key v)
  | .producer recipe script =>
    return (recipe.content.type, .producer recipe.content.type.key ⟨recipe, script⟩)
  | .managed recipe script markers dispose =>
    return (recipe.content.type, .managedProducer recipe.content.type.key ⟨recipe, script⟩
      (dispose.map .dispose) markers)
  | .component kind => do
    return (.kind kind, .component kind.key (← declaredMarkers kind))

/-! ## Steps -/

def plainly (r : Attempted Answer) : StepResult := (r, [])

/-- What a walk over a selection yields, for a number of steps. -/
def walk : Nat → Cursor → Act (List (Option (Attempted Shown) × Nat))
  | 0, _ => return []
  | n + 1, cursor => do
    let (r, cursor) ← ask (.advance cursor)
    let d ← desk
    let item := r.map (·.map d.shown)
    return (item, cursor.remaining) :: (← walk n cursor)

/-- The references to the values that a walk yielded. -/
def walked (items : List (Option (Attempted Shown) × Nat)) : List Held :=
  items.filterMap fun
    | (some (.ok v), _) => some (.ref v.ref)
    | _ => none

/-- Shows definitions; a component is asked for what it declares. -/
def reportDefinitions : List (Definition scripted) → Act (List DefinitionReport)
  | [] => return []
  | d :: rest => do
    let declared ←
      if d.isComponent then do
        let constructor ← ask (.constructorOf d.implementation)
        let points ← ask (.pointsOf d.implementation)
        pure (some (constructor, points))
      else pure none
    let report : DefinitionReport :=
      { implementation := d.implementation, types := d.types, qualifiers := d.qualifiers,
        scope := d.scope, declared, any := d.hasType .anything, layout := d.layout }
    return report :: (← reportDefinitions rest)

/-- Resolves the same request several times, each time on a thread of its own. -/
def getRepeatedly (c : ContainerId) (type : TypeName) (qualifiers : Qualifiers) :
    Nat → Act (List (Attempted Shown))
  | 0 => return []
  | n + 1 => do
    let r ← ask (.getApart c type.key qualifiers)
    let d ← desk
    return r.map d.shown :: (← getRepeatedly c type qualifiers n)

/-- Counts what came of resolutions. -/
def tally (rs : List (Attempted Shown)) : Answer :=
  let refs := rs.filterMap fun | .ok v => some v.ref | .error _ => none
  let messages := rs.filterMap fun | .ok _ => none | .error e => some e.message
  .tally refs.length refs.eraseDups.length (messages.mergeSort fun a b => decide (a ≤ b))

/-- Performs a step on a container. -/
def Step.perform (c : ContainerId) : Step → Act StepResult
  | .create _ => do
    return plainly (.ok (.count (← addHandle (← ask .create))))
  | .clone => return plainly (.ok (.count (← addHandle c)))
  | .sameAs other => return plainly (.ok (.flag ((← desk).handle other = c)))
  | .define kind spec => do
    alterDesk fun d => { d with specs := d.specs.put kind spec }
    return plainly (.ok .nothing)
  | .register origin build => do
    let (type, r) ← origin.registration
    let r ← ask (.register c (build.foldl (fun r step => step.apply type r) r))
    return plainly (r.map fun _ => .done)
  | .unregister type qualifiers =>
    return plainly ((← ask (.unregister c type.key qualifiers)).map .count)
  | .unregisterComponent type kind => do
    let markers ← declaredMarkers kind
    let r ← ask (.unregisterComponent c type.key markers)
    return plainly (r.map .count)
  | .validate => return plainly ((← ask (.validate c)).map fun _ => .done)
  | .destroy => return plainly ((← ask (.destroy c)).map fun _ => .done)
  | .get type qualifiers keepAs => do
    match ← ask (.get c type.key qualifiers) with
    | .ok v =>
      let shown ← showValue v keepAs
      return (.ok (.shown shown), [.ref shown.ref])
    | .error e => return plainly (.error e)
  | .tryGet type keepAs => do
    match ← ask (.get c type.key ∅) with
    | .ok v =>
      let shown ← showValue v keepAs
      return (.ok (.shown shown), [.ref shown.ref])
    | .error _ => return plainly (.ok .nothing)
  | .select type qualifiers keepAs => do
    match ← ask (.select c type.key qualifiers) with
    | .ok s =>
      keepSelection keepAs s
      return (.ok (.selection s), [.selection s])
    | .error e => return plainly (.error e)
  | .selectionInfo ref => do
    match (← desk).selection? ref with
    | some s => return plainly (.ok (.selection s))
    | none => return plainly (.ok .missing)
  | .selectionGet ref keepAs => do
    match (← desk).selection? ref with
    | none => return plainly (.ok .missing)
    | some s =>
      match ← ask (.single s) with
      | .ok v =>
        let shown ← showValue v keepAs
        return (.ok (.shown shown), [.ref shown.ref])
      | .error e => return plainly (.error e)
  | .selectionWalk ref limit => do
    match (← desk).selection? ref with
    | none => return plainly (.ok .missing)
    | some s =>
      let items ← walk (limit.getD s.size) s.cursor
      let answer : Answer :=
        if limit.isSome then .steps items else .walk (items.filterMap Prod.fst)
      return (.ok answer, walked items)
  | .selectionClone ref keepAs => do
    match (← desk).selection? ref with
    | none => return plainly (.ok .missing)
    | some s =>
      keepSelection (some keepAs) s
      return plainly (.ok (.selection s))
  | .inject kind label keepAs showFailed => do
    let id ← freshId
    let (o, r) ← ask (.inject c kind.key (.thing { kind, madeAs := kind, id, label }))
    let shown ← showValue (.object o) keepAs
    match r with
    | .ok () => return (.ok (.shown shown), [.ref shown.ref])
    | .error e =>
      return plainly (if showFailed then .ok (.failedShowing e shown) else .error e)
  | .runHooks time object => do
    match (← desk).objects.get? object with
    | none => return plainly (.ok .missing)
    | some t =>
      let r : Attempted Unit ← match time with
        | .afterConstruction => ask (.postConstruct t.kind.key (.thing t))
        | .beforeTeardown => ask (.preDestroy t.kind.key (.thing t))
      return plainly (r.map fun _ => .done)
  | .showObject object => do
    match (← desk).objects.get? object with
    | none => return plainly (.ok .missing)
    | some t => return plainly (.ok (.shown (.thing t)))
  | .contains type =>
    return plainly (.ok (.flag ((← ask (.survey c)).contains type.key)))
  | .size => return plainly (.ok (.extent (← ask (.survey c)).size))
  | .phase => return plainly (.ok (.words (← ask (.survey c)).phase.display))
  | .layout => return plainly (.ok (.words (← ask (.survey c)).layout))
  | .definitions => do
    let ds ← reportDefinitions (← ask (.survey c)).definitions
    return plainly (.ok (.definitions ds))
  | .concurrent type qualifiers threads => do
    return plainly (.ok (tally (← getRepeatedly c type qualifiers threads)))

/-! ## Scripts -/

/-- Evaluates the ending of a script. -/
def Ending.evaluate (e : Ending) : Trial Unit := do
  match e.times with
  | none => throw e.problem
  | some times =>
    let d ← desk
    let count := (d.evaluations.get? e.key).getD 0
    alterDesk fun d => { d with evaluations := d.evaluations.put e.key (count + 1) }
    if count < times then throw e.problem

/-- Runs actions in order and gathers their values; `here` is where they act if they do not say. -/
def runActions (here : ContainerId) : List (Action Step) → Trial (List Held)
  | [] => return []
  | a :: rest => do
    let d ← desk
    let (r, values) ← a.step.perform ((a.on.map d.handle).getD here)
    tell (.action a.step.name r)
    match r, a.must with
    | .error e, true => throw (.failure e)
    | _, _ => return values ++ (← runActions here rest)

/-- Runs a script. -/
def Script.run (here : ContainerId) (s : StepScript) : Trial (List Held) := do
  let values ← runActions here s.actions
  match s.ending with
  | none => return values
  | some e =>
    e.evaluate
    return values

/-- Runs a script that acts on the first handle if it does not say where. -/
def Script.runAtHome (s : StepScript) : Trial (List Held) := do
  let d ← desk
  s.run (d.handle 0)

/-! ## Code that the library runs -/

/-- Runs the script of a hook. -/
def hookScript (s : StepScript) : Act (Outcome Unit) := ExceptT.run do
  let _ ← s.runAtHome
  return ()

/-- The points that specifications declare. -/
def pointsOf : List (PointSpec StepScript) → Points
  | [] => {}
  | .field name dependency _ _ :: rest =>
    (Points.field {} name dependency).inherit (pointsOf rest)
  | .method name parameters _ _ :: rest =>
    (Points.method {} name parameters).inherit (pointsOf rest)
  | .inherit base :: rest => (pointsOf base).inherit (pointsOf rest)

/-- The form in which the first field of a name is taken, and what runs then. -/
def findField (name : String) : List (PointSpec StepScript) → Option (Want × StepScript)
  | [] => none
  | .field n _ take script :: rest => if n = name then some (take, script) else findField name rest
  | .method .. :: rest => findField name rest
  | .inherit base :: rest => findField name base <|> findField name rest

/-- The forms in which the first method of a name takes its arguments, and what runs then. -/
def findMethod (name : String) :
    List (PointSpec StepScript) → Option (List Want × StepScript)
  | [] => none
  | .method n _ takes script :: rest =>
    if n = name then some (takes, script) else findMethod name rest
  | .field .. :: rest => findMethod name rest
  | .inherit base :: rest => findMethod name base <|> findMethod name rest

/-- The hooks that specifications declare. -/
def lifecycleOf (inherited : Bool) :
    List (HookSpec StepScript) → Lifecycle Thing (Routine scripted Unit)
  | [] => {}
  | .hook time name script :: rest =>
    let act (t : Thing) : Act (Outcome Unit) := do
      tell (.hook time inherited t.ref name)
      hookScript script
    let first : Lifecycle Thing (Routine scripted Unit) :=
      match time with
      | .afterConstruction => Lifecycle.afterConstruction {} name act
      | .beforeTeardown => Lifecycle.beforeTeardown {} name act
    first.inherit id (lifecycleOf inherited rest)
  | .inherit base :: rest => (lifecycleOf true base).inherit id (lifecycleOf inherited rest)

/-- The object as one of the client's kinds; numbers and texts are never components. -/
def thingOf (kind : Kind) : ScriptObject → Thing
  | .thing t => t
  | _ => { kind, madeAs := kind, id := 0, label := "" }

/-- The hooks of a kind's specification, on the client's objects. -/
def specLifecycle (kind : Kind) : Act (Lifecycle ScriptObject (Routine scripted Unit)) := do
  let hooks := ((← desk).spec kind).hooks
  return Lifecycle.inherit {} (thingOf kind) (lifecycleOf false hooks)

def specPoints (kind : Kind) : Act Points := do
  return pointsOf ((← desk).spec kind).points

/-- Constructs an object of a kind as its specification says. -/
def construct (kind : Kind) (a : Arguments scripted) : Act (Outcome ScriptObject) :=
  ExceptT.run do
    tell (.construct kind a.size)
    let d ← desk
    let spec := d.spec kind
    match a.takeAll spec.takes with
    | .error e => throw (.failure e)
    | .ok taken =>
      let values ← spec.construct.runAtHome
      let id ← freshId
      return .thing
        { kind, madeAs := kind, id, label := spec.label, args := taken.map d.hold ++ values }

/-- Sets a field as the specification of a kind says. -/
def setField (kind : Kind) (t : Thing) (name : String) (i : Injected scripted) :
    Act (ScriptObject × Outcome Unit) := do
  tell (.field t.ref name i.member)
  let d ← desk
  let r : Outcome Held ← ExceptT.run do
    match findField name (d.spec kind).points with
    | none => throw (.said ("no injectable field `" ++ name ++ "`"))
    | some (take, script) =>
      match i.asWanted take with
      | .error e => throw (.failure e)
      | .ok taken =>
        let _ ← script.runAtHome
        return d.hold taken
  match r with
  | .ok held => return (.thing { t with fields := t.fields ++ [(name, held)] }, .ok ())
  | .error e => return (.thing t, .error e)

/-- Calls a method as the specification of a kind says. -/
def callMethod (kind : Kind) (t : Thing) (name : String) (a : Arguments scripted) :
    Act (ScriptObject × Outcome Unit) := do
  tell (.method t.ref name a.size)
  let d ← desk
  let r : Outcome (List Held) ← ExceptT.run do
    match findMethod name (d.spec kind).points with
    | none => throw (.said ("no injection method `" ++ name ++ "`"))
    | some (takes, script) =>
      match a.takeAll takes with
      | .error e => throw (.failure e)
      | .ok taken =>
        let _ ← script.runAtHome
        return taken.map d.hold
  match r with
  | .ok held => return (.thing { t with calls := t.calls ++ [(name, held)] }, .ok ())
  | .error e => return (.thing t, .error e)

/-- Asks a kind for its constructor; the actions that come with it may fail. -/
def specConstructor (kind : Kind) : Act Constructor := do
  let spec := (← desk).spec kind
  if !spec.constructorActions.isEmpty then
    tell (.constructor kind)
    let _ ← (Script.runAtHome { actions := spec.constructorActions }).run
  return spec.constructor

/-- What the hooks of a declared kind do. -/
def declaredCall (kind : Kind) (name : String) (o : ScriptObject) : Act (Outcome Unit) := do
  tell (.declaredHook name (thingOf kind o).ref)
  let spec := (← desk).spec kind
  let r ← hookScript ((spec.named.lookup name).getD {})
  return if name = "close" then
      r.mapError fun _ => .said "an error occurred when formatting an argument"
    else r

/-- What the names in the declaration of a kind stand for. -/
def declaredBinding (kind : Kind) : Derive.Binding scripted where
  type := writtenType kind
  make fields := do
    let d ← desk
    let args := fields.filterMap fun (_, taken) => taken.map d.hold
    let id ← freshId
    return .thing { kind, madeAs := kind, id, label := "derived", args }
  call := declaredCall kind

/-- The component of a kind. -/
def componentOf (kind : Kind) : Component scripted :=
  match kind with
  | .specified _ =>
    { constructor := specConstructor kind
      points := specPoints kind
      construct := construct kind
      setField := fun o name i => setField kind (thingOf kind o) name i
      callMethod := fun o name a => callMethod kind (thingOf kind o) name a
      lifecycle := specLifecycle kind }
  | .plain =>
    { points := specPoints kind, construct := construct kind, lifecycle := specLifecycle kind }
  | .bare => { construct := construct kind }
  | _ =>
    match expansion? kind with
    | some e => e.component (declaredBinding kind)
    | none => { construct := construct kind }

/-- What a producer does: it writes a note, runs its script and makes its value. -/
def produce (p : ScriptProducer) (c : ContainerId) : Act (Outcome (Value scripted)) :=
  ExceptT.run do
    tell (.produce p.recipe.content.type p.recipe.label)
    let values ← p.script.run c
    p.recipe.make values

/-- What disposing code does: it writes a note and runs its script. -/
def dispose (p : ScriptDisposer) (v : Value scripted) : Act (Outcome Unit) := do
  let ref := (← desk).refOf v
  match p with
  | .dispose script =>
    tell (.dispose ref)
    hookScript script
  | .onDestroy script =>
    tell (.onDestroy ref)
    hookScript script

/-- The code of the scripted client. -/
def codebase : Codebase scripted where
  produce := produce
  dispose := dispose
  component key :=
    match Kind.ofKey? key with
    | some kind => componentOf kind
    | none => { construct := fun _ => .done (.error (.said ("no component " ++ key.name))) }

end Wiring.Scripted
