import Wiring.Perform
import Wiring.Scripted.Language

/-!
# The scripted client

What the scripted client brings to the library: its objects, the names of its code, its state,
and the notes that it writes. `Answer` is what an operation of a script comes to.
-/

namespace Wiring.Scripted

/-- How a value is referred to. -/
inductive Ref
  | object (kind : Kind) (id : Nat)
  | number (n : Int)
  | text (s : String)
  /-- A container, by its lowest handle. -/
  | container (handle : Nat)
deriving DecidableEq

/-- The text of a reference. -/
def Ref.display : Ref → String
  | object kind id => kind.name ++ "#" ++ toString id
  | number n => "i64=" ++ toString n
  | text s => "String=" ++ s
  | container handle => "container#" ++ toString handle

/-- What an object holds of what was injected into it. -/
inductive Held
  | ref (r : Ref)
  | selection (s : Selection)
deriving DecidableEq

/-- An object of one of the client's kinds. -/
structure Thing where
  kind : Kind
  /-- The kind that the object was made as. -/
  madeAs : Kind
  id : Nat
  label : String
  /-- Whether the object went through a marking conversion. -/
  marked : Bool := false
  args : List Held := []
  fields : List (String × Held) := []
  calls : List (String × List Held) := []
deriving DecidableEq

def Thing.ref (t : Thing) : Ref := .object t.madeAs t.id

/-- The client's objects. -/
inductive ScriptObject
  | thing (t : Thing)
  | number (n : Int)
  | text (s : String)
deriving DecidableEq

/-- A value as a script shows it. -/
inductive Shown
  | thing (t : Thing)
  /-- A value of another type. -/
  | other (r : Ref)
deriving DecidableEq

/-- How a shown value is referred to. -/
def Shown.ref : Shown → Ref
  | thing t => t.ref
  | other r => r

/-- A definition as a script shows it. -/
structure DefinitionReport where
  implementation : TypeKey
  types : List TypeKey
  qualifiers : Qualifiers
  scope : Scope
  /-- What a component declares; nothing for other providers. -/
  declared : Option (Constructor × Points)
  /-- Whether the definition answers under the wildcard. -/
  any : Bool
  layout : String

/-- What an operation of a script comes to, if it does not fail. -/
inductive Answer
  | done
  | nothing
  /-- The named selection or object is not there. -/
  | missing
  | flag (b : Bool)
  | count (n : Nat)
  /-- A number of definitions, and whether there are none. -/
  | extent (n : Nat)
  | words (s : String)
  | shown (v : Shown)
  | selection (s : Selection)
  /-- The values of a whole walk. -/
  | walk (items : List (Attempted Shown))
  /-- The first steps of a walk, each with how many are still to come. -/
  | steps (items : List (Option (Attempted Shown) × Nat))
  /-- A failed injection, and the object as it was left. -/
  | failedShowing (f : Failure) (v : Shown)
  | definitions (ds : List DefinitionReport)
  /-- Resolutions at once: how many worked, how many different values, the messages. -/
  | tally (worked distinct : Nat) (messages : List String)

/-- What the client's code writes down. -/
inductive Note
  /-- An action of a script has run. -/
  | action (name : String) (r : Attempted Answer)
  /-- A producer runs. -/
  | produce (type : TypeName) (label : Option String)
  /-- Disposing code runs. -/
  | dispose (ref : Ref)
  /-- Disposing code of a registration runs. -/
  | onDestroy (ref : Ref)
  /-- A component is asked for its constructor. -/
  | constructor (kind : Kind)
  /-- A component is constructed. -/
  | construct (kind : Kind) (args : Nat)
  /-- A field is set. -/
  | field (ref : Ref) (name member : String)
  /-- A method is called. -/
  | method (ref : Ref) (name : String) (args : Nat)
  /-- A hook runs, on the object or on its embedded base. -/
  | hook (time : HookTime) (inherited : Bool) (ref : Ref) (name : String)
  /-- A hook of a declared type runs. -/
  | declaredHook (name : String) (ref : Ref)

abbrev StepScript := Script Step

/-- Producing code: a recipe and what runs before the value is made. -/
structure ScriptProducer where
  recipe : Recipe
  script : StepScript

/-- Disposing code: that of a producer, or that of a registration. -/
inductive ScriptDisposer
  | dispose (script : StepScript)
  | onDestroy (script : StepScript)

/-- What the scripted client keeps for itself. -/
structure Desk where
  /-- The containers that scripts refer to by number. -/
  handles : List ContainerId := []
  /-- The identity of the next object. -/
  nextId : Nat := 0
  objects : Table String Thing := ∅
  selections : Table String Selection := ∅
  specs : Table Kind (Spec Step) := ∅
  /-- How often endings were evaluated, by their keys. -/
  evaluations : Table String Nat := ∅

namespace Desk

def spec (d : Desk) (kind : Kind) : Spec Step := (d.specs.get? kind).getD {}

def handle (d : Desk) (n : Nat) : ContainerId := d.handles.getD n default

def handleOf (d : Desk) (c : ContainerId) : Nat := d.handles.idxOf c

/-- The selection that a script refers to. -/
def selection? (d : Desk) : SelectionRef → Option Selection
  | .kept name => d.selections.get? name
  | .field object name => do
    let t ← d.objects.get? object
    match (t.fields.find? (·.1 = name)).map Prod.snd with
    | some (.selection s) => some s
    | _ => none
  | .argument object index => do
    let t ← d.objects.get? object
    match t.args[index]? with
    | some (.selection s) => some s
    | _ => none

end Desk

/-- The scripted client. -/
abbrev scripted : Client where
  Object := ScriptObject
  Producer := ScriptProducer
  Disposer := ScriptDisposer
  State := Desk
  Note := Note

/-- How a value is referred to. -/
def Desk.refOf (d : Desk) : Value scripted → Ref
  | .container c => .container (d.handleOf c)
  | .object (.thing t) => t.ref
  | .object (.number n) => .number n
  | .object (.text s) => .text s

/-- How a value is shown. -/
def Desk.shown (d : Desk) : Value scripted → Shown
  | .object (.thing t) => .thing t
  | v => .other (d.refOf v)

/-- What is held of a value that was taken. -/
def Desk.hold (d : Desk) : Taken scripted → Held
  | .value v => .ref (d.refOf v)
  | .selection s => .selection s

end Wiring.Scripted
