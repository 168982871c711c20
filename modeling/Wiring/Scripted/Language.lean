import Wiring.Dependency
import Wiring.Lifecycle
import Wiring.Markers
import Wiring.Scripted.Kind

/-!
# Scripts

Scripts say what the client does: which library operations it calls, and what its types do
while the library runs them. A script runs its actions in order and may end in a failure. The
types of this module that take a parameter are the parts of a script that hold scripts again.
-/

namespace Wiring.Scripted

/-- How a script may end. -/
structure Ending where
  problem : Problem
  /-- How many evaluations fail; all of them if this is not given. -/
  times : Option Nat := none
  /-- The name under which the evaluations are counted. -/
  key : String := ""

/-- An operation within a script. -/
structure Action (Step : Type) where
  /-- The handle of the container that is acted on. -/
  on : Option Nat := none
  /-- Whether a failure ends the script. -/
  must : Bool := false
  step : Step

/-- Actions in order, and how the script ends. -/
structure Script (Step : Type) where
  actions : List (Action Step) := []
  ending : Option Ending := none

/-- A field or a method of a specified type, or those of an embedded base. -/
inductive PointSpec (S : Type)
  /-- A field: what it depends on, the form in which it is taken, and what runs then. -/
  | field (name : String) (dependency : Dependency) (take : Want) (script : S)
  /-- A method: its parameters, the forms in which they are taken, and what runs then. -/
  | method (name : String) (parameters : List Dependency) (takes : List Want) (script : S)
  | inherit (base : List (PointSpec S))

/-- A hook of a specified type, or those of an embedded base. -/
inductive HookSpec (S : Type)
  | hook (time : HookTime) (name : String) (script : S)
  | inherit (base : List (HookSpec S))

/-- What a type does. -/
structure Spec (Step : Type) where
  label : String := ""
  markers : Markers := {}
  constructor : Constructor := .noArgs
  constructorActions : List (Action Step) := []
  /-- The forms in which the constructor's arguments are taken. -/
  takes : List Want := []
  construct : Script Step := {}
  points : List (PointSpec (Script Step)) := []
  hooks : List (HookSpec (Script Step)) := []
  /-- What the hooks of a declared type run, by name. -/
  named : List (String × Script Step) := []

/-- What a value is made of. -/
inductive Content
  | object (kind : Kind)
  | number (n : Int)
  | text (s : String)
  | container (handle : Nat)

/-- The type of a value. -/
def Content.type : Content → TypeName
  | object kind => .kind kind
  | number _ => .number
  | text _ => .text
  | container _ => .container

/-- How a value is made: its content and its label. -/
structure Recipe where
  content : Content
  label : Option String := none

/-- Where a registration's value comes from. -/
inductive Origin (S : Type)
  | ready (recipe : Recipe)
  /-- Producing code. -/
  | producer (recipe : Recipe) (script : S)
  /-- Producing code with markers and, if it is given, disposing code. -/
  | managed (recipe : Recipe) (script : S) (markers : Markers) (dispose : Option S)
  | component (kind : Kind)

/-- A step of the description of a registration. -/
inductive BuildStep (S : Type)
  | qualifier (q : Qualifier)
  | qualifiers (qs : Qualifiers)
  | scope (scope : Scope)
  /-- Exposes a type; a marked conversion hands out a marked copy. -/
  | expose (type : TypeName) (marked : Bool)
  | onDestroy (script : S)

/-- A selection that a script refers to. -/
inductive SelectionRef
  /-- The one that was kept under a name. -/
  | kept (name : String)
  /-- The one in the first field of a name of a kept object. -/
  | field (object : String) (field : String)
  /-- The one among the arguments of a kept object. -/
  | argument (object : String) (index : Nat)

/-- The operations that scripts name. -/
inductive Step
  /-- Makes a container; one of two names for the same. -/
  | create (byDefault : Bool)
  | clone
  | sameAs (other : Nat)
  | define (kind : Kind) (spec : Spec Step)
  | register (origin : Origin (Script Step)) (build : List (BuildStep (Script Step)))
  | unregister (type : TypeName) (qualifiers : Qualifiers)
  | unregisterComponent (type : TypeName) (kind : Kind)
  | validate
  | destroy
  | get (type : TypeName) (qualifiers : Qualifiers) (keepAs : Option String)
  | tryGet (type : TypeName) (keepAs : Option String)
  | select (type : TypeName) (qualifiers : Qualifiers) (keepAs : Option String)
  | selectionInfo (s : SelectionRef)
  | selectionGet (s : SelectionRef) (keepAs : Option String)
  | selectionWalk (s : SelectionRef) (limit : Option Nat)
  | selectionClone (s : SelectionRef) (keepAs : String)
  | inject (kind : Kind) (label : String) (keepAs : Option String) (showFailed : Bool)
  | runHooks (time : HookTime) (object : String)
  | showObject (object : String)
  | contains (type : TypeName)
  | size
  | phase
  | layout
  | definitions
  | concurrent (type : TypeName) (qualifiers : Qualifiers) (threads : Nat)

/-- The name of a step in the journal. -/
def Step.name : Step → String
  | create byDefault => if byDefault then "default" else "new"
  | clone => "clone"
  | sameAs _ => "ptr_eq"
  | define .. => "define"
  | register .. => "register"
  | unregister .. => "unregister"
  | unregisterComponent .. => "unregister_component"
  | validate => "initialize"
  | destroy => "destroy"
  | get .. => "get"
  | tryGet .. => "try_get"
  | select .. => "select"
  | selectionInfo _ => "sel_info"
  | selectionGet .. => "sel_get"
  | selectionWalk .. => "sel_iter"
  | selectionClone .. => "sel_clone"
  | inject .. => "inject"
  | runHooks .afterConstruction _ => "post_construct"
  | runHooks .beforeTeardown _ => "pre_destroy"
  | showObject _ => "show"
  | contains _ => "contains"
  | size => "len"
  | phase => "state"
  | layout => "debug"
  | definitions => "definitions"
  | concurrent .. => "concurrent"

end Wiring.Scripted
