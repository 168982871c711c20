import Wiring.Selection

/-!
# What a client brings

The container holds objects that it knows nothing about and runs code that it does not own.
A `Client` names the kinds of things that come from outside: its objects, its pieces of
producing and disposing code, its own state, and the notes that its code writes.
-/

namespace Wiring

/-- The kinds of things that come from outside the library. -/
structure Client where
  /-- Objects of the client. -/
  Object : Type
  /-- Names of code that makes a value. -/
  Producer : Type
  /-- Names of code that disposes of a value. -/
  Disposer : Type
  /-- What the client keeps for itself. -/
  State : Type
  /-- What client code writes into the journal. -/
  Note : Type

/-- A value that a container hands out: a container or a client's object. -/
inductive Value (C : Client)
  | container (id : ContainerId)
  | object (o : C.Object)

end Wiring
