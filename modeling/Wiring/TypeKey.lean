import Wiring.Table

/-!
# Keys of requested types

Providers are requested by type. Two types have a meaning of their own: the wildcard, which
every provider answers, and the container, which answers a request for itself.
-/

namespace Wiring

/-- A type as a request names it. -/
inductive TypeKey
  /-- The type of all objects. -/
  | anything
  /-- The type of containers. -/
  | container
  /-- Any other type, known by its name. -/
  | named (name : String)
deriving DecidableEq, Inhabited

namespace TypeKey

/-- The name of the type in messages. -/
def name : TypeKey → String
  | anything => "dyn core::any::Any + core::marker::Send + core::marker::Sync"
  | container => "object_factory::container::Container"
  | named name => name

/-- Whether every provider answers a request for the type. -/
def isWildcard (key : TypeKey) : Bool := key = anything

/-- The position at which each type of a list first occurs in it. -/
def firstPositions (keys : List TypeKey) : List Nat := keys.map fun key => keys.idxOf key

def countDistinct (keys : List TypeKey) : Nat := keys.eraseDups.length

end TypeKey

end Wiring
