import Wiring.Derive.Expansion
import Wiring.Program

/-!
# Components from declarations

An expansion makes a component once the names in it are bound: types, the making of an object
from its fields, and the methods that are hooks.
-/

namespace Wiring.Derive

variable {C : Client}

/-- What the names in an expansion stand for. -/
structure Binding (C : Client) where
  /-- The key of a type as it is written. -/
  type : String → TypeKey
  /-- The object with these fields; a field that was not injected has its default. -/
  make : List (String × Option (Taken C)) → Program C C.Object
  /-- The method with a name. -/
  call : String → C.Object → Routine C Unit

/-- The want of a supply; what is taken is taken in this form. -/
def Supply.want (type : String → TypeKey) : Supply → Want
  | .object t => .object (type t)
  | .selection t => .selection (type t)
  | .container => .container

/-- The dependency that a supply is declared as. -/
def Supply.dependency (type : String → TypeKey) (qualifiers : List String) :
    Supply → Dependency
  | .object t => (qualifiers.map .named).foldl .qualified (.object (type t))
  | .selection t => (qualifiers.map .named).foldl .qualified (.selection (type t))
  | .container => .container

/-- Takes an argument for every injected field, in order of declaration. -/
def takeFields (type : String → TypeKey) (a : Arguments C) :
    List (String × FieldSource) → Attempted (List (String × Option (Taken C)))
  | [] => .ok []
  | (name, .byDefault) :: rest => (takeFields type a rest).map ((name, none) :: ·)
  | (name, .injected supply _) :: rest =>
    match a.take (·.asWanted (supply.want type)) with
    | (.error e, _) => .error e
    | (.ok t, a) => (takeFields type a rest).map ((name, some t) :: ·)

namespace Expansion

/-- The constructor: without injected fields it takes no arguments. -/
def constructor (e : Expansion) (type : String → TypeKey) : Constructor :=
  match e.dependencies with
  | [] => .noArgs
  | ds => .inject (ds.map fun (supply, qualifiers) => supply.dependency type qualifiers)

/-- The hooks, each kind in order of declaration. -/
def lifecycle (e : Expansion) (b : Binding C) : Lifecycle C.Object (Routine C Unit) :=
  let post := e.options.postConstruct.foldl (fun l name => l.afterConstruction name (b.call name))
    default
  e.options.preDestroy.foldl (fun l name => l.beforeTeardown name (b.call name)) post

/-- The component that an expansion describes. -/
def component (e : Expansion) (b : Binding C) : Component C where
  constructor := .done (e.constructor b.type)
  construct a :=
    match takeFields b.type a e.fields with
    | .ok fields => (b.make fields).bind fun o => .done (.ok o)
    | .error f => .done (.error (.failure f))
  lifecycle := .done (e.lifecycle b)

end Expansion

end Wiring.Derive
