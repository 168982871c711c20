import Wiring.Argument
import Wiring.Dependency
import Wiring.Lifecycle
import Wiring.Registration

/-!
# Programs of client code

Client code runs whenever a container makes, injects, or disposes of a value, and it may call
any container back while it runs. A `Program` is such code as data: it finishes, calls the
library and goes on with the reply, uses the client's state, or writes a note. Every program
makes finitely many calls on each of its ways.

`Call` lists the operations of the library and `Reply` what each of them answers. A `Codebase`
gives the programs behind the names that registrations hold.
-/

namespace Wiring

abbrev Outcome (α : Type) := Except Problem α

/-- The result of an operation that may fail. -/
abbrev Attempted (α : Type) := Except Failure α

/-- What can be read off a container. -/
structure Survey (C : Client) where
  phase : Phase
  definitions : List (Definition C)

namespace Survey

variable {C : Client}

def size (s : Survey C) : Nat := s.definitions.length

def contains (s : Survey C) (type : TypeKey) : Bool := s.definitions.any (·.hasType type)

def layout (s : Survey C) : String :=
  Text.record "Container" [("state", s.phase.layout), ("service_count", toString s.size)]

end Survey

/-- The operations of the library. -/
inductive Call (C : Client)
  /-- Makes a container. -/
  | create
  /-- Adds a provider. -/
  | register (c : ContainerId) (r : Registration C)
  /-- Removes the providers of a type that carry exactly some qualifiers. -/
  | unregister (c : ContainerId) (type : TypeKey) (qualifiers : Qualifiers)
  /-- Validates the definitions, once. -/
  | validate (c : ContainerId)
  /-- Resolves the only provider of a type with exactly some qualifiers. -/
  | get (c : ContainerId) (type : TypeKey) (qualifiers : Qualifiers)
  /-- Does the same on a thread of its own, and waits for it. -/
  | getApart (c : ContainerId) (type : TypeKey) (qualifiers : Qualifiers)
  /-- Makes a lazy handle on the providers of a type with at least some qualifiers. -/
  | select (c : ContainerId) (type : TypeKey) (qualifiers : Qualifiers)
  /-- Resolves the single match of a selection. -/
  | single (s : Selection)
  /-- Resolves the next match of a walk. -/
  | advance (cursor : Cursor)
  /-- Injects the fields and methods of an object that the container did not make. -/
  | inject (c : ContainerId) (type : TypeKey) (o : C.Object)
  /-- Runs the hooks for the time after construction. -/
  | postConstruct (type : TypeKey) (o : C.Object)
  /-- Runs the hooks for the time before teardown. -/
  | preDestroy (type : TypeKey) (o : C.Object)
  /-- Tears down the kept values. -/
  | destroy (c : ContainerId)
  /-- Reads off phase and definitions. -/
  | survey (c : ContainerId)
  /-- Asks a component for its constructor. -/
  | constructorOf (type : TypeKey)
  /-- Asks a component for its points. -/
  | pointsOf (type : TypeKey)

/-- Removes the providers of a type that carry exactly what a component declares. -/
abbrev Call.unregisterComponent {C : Client} (c : ContainerId) (type : TypeKey)
    (markers : Markers) : Call C :=
  .unregister c type markers.expandedQualifiers

/-- What an operation answers. -/
def Reply (C : Client) : Call C → Type
  | .create => ContainerId
  | .register .. => Attempted Unit
  | .unregister .. => Attempted Nat
  | .validate .. => Attempted Unit
  | .get .. => Attempted (Value C)
  | .getApart .. => Attempted (Value C)
  | .select .. => Attempted Selection
  | .single .. => Attempted (Value C)
  | .advance .. => Option (Attempted (Value C)) × Cursor
  | .inject .. => C.Object × Attempted Unit
  | .postConstruct .. => Attempted Unit
  | .preDestroy .. => Attempted Unit
  | .destroy .. => Attempted Unit
  | .survey .. => Survey C
  | .constructorOf .. => Constructor
  | .pointsOf .. => Points

/-- Client code that ends in an `α`. -/
inductive Program (C : Client) (α : Type) : Type
  | done (a : α)
  | call (c : Call C) (next : Reply C c → Program C α)
  | read (next : C.State → Program C α)
  | write (s : C.State) (next : Program C α)
  | note (n : C.Note) (next : Program C α)

namespace Program

variable {C : Client} {α β : Type}

/-- Goes on with a second program where the first one finishes. -/
protected def bind : Program C α → (α → Program C β) → Program C β
  | done a, f => f a
  | call c next, f => call c fun r => (next r).bind f
  | read next, f => read fun s => (next s).bind f
  | write s next, f => write s (next.bind f)
  | note n next, f => note n (next.bind f)

instance : Monad (Program C) where
  pure := done
  bind := Program.bind

def request (c : Call C) : Program C (Reply C c) := call c done

def state : Program C C.State := read done

def alter (f : C.State → C.State) : Program C Unit := read fun s => write (f s) (done ())

def say (n : C.Note) : Program C Unit := note n (done ())

end Program

abbrev Routine (C : Client) (α : Type) := Program C (Outcome α)

/-- How client code describes and makes a component. -/
structure Component (C : Client) where
  /-- The constructor to use; asked for whenever it is needed. -/
  constructor : Program C Constructor := .done .noArgs
  /-- The fields and methods to inject; asked for whenever they are needed. -/
  points : Program C Points := .done {}
  /-- Makes the object from the constructor's arguments. -/
  construct : Arguments C → Routine C C.Object
  /-- Sets a field; the object as it is afterwards, and whether that worked. -/
  setField : C.Object → String → Injected C → Program C (C.Object × Outcome Unit) :=
    fun o name _ => .done (o, .error (.said ("no injectable field `" ++ name ++ "`")))
  /-- Calls a method; the object as it is afterwards, and whether that worked. -/
  callMethod : C.Object → String → Arguments C → Program C (C.Object × Outcome Unit) :=
    fun o name _ => .done (o, .error (.said ("no injection method `" ++ name ++ "`")))
  /-- The hooks; asked for whenever they are run. -/
  lifecycle : Program C (Lifecycle C.Object (Routine C Unit)) := .done {}

/-- The programs behind the names that a client uses. -/
structure Codebase (C : Client) where
  /-- Makes a value for a container. -/
  produce : C.Producer → ContainerId → Routine C (Value C)
  /-- Disposes of a value. -/
  dispose : C.Disposer → Value C → Routine C Unit
  /-- The component behind a type. -/
  component : TypeKey → Component C

end Wiring
