import Wiring.Client
import Wiring.Dependency

/-!
# Resolved arguments

A resolved dependency travels to its place as an `Injected` value, which remembers the form
that it was resolved in. The receiver takes it in the form that it expects and fails if that
is another one. Constructors and methods get several at once as `Arguments` and take them in
order; each take uses up one argument, also when it fails.
-/

namespace Wiring

variable {C : Client}

/-- A resolved value in the form that its dependency asked for. -/
inductive Payload (C : Client)
  /-- A value requested as a type; the container travels under its own type. -/
  | value (type : TypeKey) (v : Value C)
  /-- A lazy handle. -/
  | selection (s : Selection)

/-- A resolved value on its way to a place. -/
structure Injected (C : Client) where
  /-- The label of the place. -/
  member : String
  payload : Payload C

/-- A value that was taken in an expected form. -/
inductive Taken (C : Client)
  | value (v : Value C)
  | selection (s : Selection)

namespace Injected

/-- Fails because the value does not have the expected form. -/
def mismatch {α : Type} (i : Injected C) (expected : Shape) : Except Failure α :=
  .error (.invocation i.member (.argumentMismatch expected))

/-- Takes the value as an object of a type. -/
def asObject (i : Injected C) (type : TypeKey) : Except Failure (Value C) :=
  match i.payload with
  | .value type' v => if type' = type then .ok v else i.mismatch (.object type)
  | .selection _ => i.mismatch (.object type)

/-- Takes the value as the container. -/
def asContainer (i : Injected C) : Except Failure ContainerId :=
  match i.payload with
  | .value .container (.container id) => .ok id
  | _ => i.mismatch (.object .container)

/-- Takes the value as a lazy handle on a type. -/
def asSelection (i : Injected C) (type : TypeKey) : Except Failure Selection :=
  match i.payload with
  | .selection s => if s.type = type then .ok s else i.mismatch (.selection type)
  | .value _ _ => i.mismatch (.selection type)

/-- Takes the value in the form that a want asks for. -/
def asWanted (i : Injected C) : Want → Except Failure (Taken C)
  | .object type => (i.asObject type).map .value
  | .container => i.asContainer.map fun id => .value (.container id)
  | .selection type => (i.asSelection type).map .selection

end Injected

/-- Resolved arguments, taken in order of declaration. -/
structure Arguments (C : Client) where
  /-- The label of the constructor or method. -/
  member : String
  values : List (Injected C)

namespace Arguments

def size (a : Arguments C) : Nat := a.values.length

/-- Takes the next argument in some form. -/
def take {α : Type} (a : Arguments C) (as : Injected C → Except Failure α) :
    Except Failure α × Arguments C :=
  match a.values with
  | [] => (.error (.invocation a.member .argumentMissing), a)
  | v :: rest => (as v, { a with values := rest })

def nextObject (a : Arguments C) (type : TypeKey) : Except Failure (Value C) × Arguments C :=
  a.take (·.asObject type)

def nextContainer (a : Arguments C) : Except Failure ContainerId × Arguments C :=
  a.take (·.asContainer)

def nextSelection (a : Arguments C) (type : TypeKey) : Except Failure Selection × Arguments C :=
  a.take (·.asSelection type)

/-- Takes one argument for every want, in order. -/
def takeAll (a : Arguments C) : List Want → Except Failure (List (Taken C))
  | [] => .ok []
  | want :: rest =>
    match a.take (·.asWanted want) with
    | (.error e, _) => .error e
    | (.ok t, a) => (a.takeAll rest).map (t :: ·)

end Arguments

end Wiring
