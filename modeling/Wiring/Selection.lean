import Wiring.Qualifier.Set
import Wiring.TypeKey

/-!
# Selections

A selection is a lazy handle on every provider of a type that carries some qualifiers. It
knows its matches, in order of registration, and resolves none of them. A `Cursor` walks over
it one match a step; the steps themselves are the container's.
-/

namespace Wiring

/-- The identity of a container. -/
structure ContainerId where
  number : Nat
deriving DecidableEq, Inhabited

/-- The identity of a provider that is or was registered in some container. -/
structure ProviderId where
  number : Nat
deriving DecidableEq, Inhabited

/-- A lazy handle on all matching providers. -/
structure Selection where
  container : ContainerId
  type : TypeKey
  qualifiers : Qualifiers
  providers : List ProviderId
deriving DecidableEq, Inhabited

namespace Selection

def size (s : Selection) : Nat := s.providers.length

def isUnsatisfied (s : Selection) : Bool := s.providers.isEmpty

def isAmbiguous (s : Selection) : Bool := s.size > 1

/-- The full form. -/
def layout (s : Selection) : String :=
  Text.record "Selection"
    [("type", s.type.name), ("qualifiers", s.qualifiers.layout), ("matches", toString s.size)]

end Selection

/-- A walk over a selection: the position of the next match. -/
structure Cursor where
  selection : Selection
  position : Nat
deriving DecidableEq, Inhabited

def Selection.cursor (s : Selection) : Cursor := ⟨s, 0⟩

namespace Cursor

def match? (c : Cursor) : Option ProviderId := c.selection.providers[c.position]?

def next (c : Cursor) : Cursor := { c with position := c.position + 1 }

def remaining (c : Cursor) : Nat := c.selection.size - c.position

/-- The matches that are still to come. -/
def rest (c : Cursor) : List ProviderId := c.selection.providers.drop c.position

theorem rest_of_none {c : Cursor} (h : c.match? = none) : c.rest = [] :=
  List.drop_eq_nil_of_le (List.getElem?_eq_none_iff.1 h)

theorem rest_of_some {c : Cursor} {id : ProviderId} (h : c.match? = some id) :
    c.rest = id :: c.next.rest :=
  (List.drop_eq_getElem?_toList_append ..).trans (congrArg (·.toList ++ c.next.rest) h)

theorem match?_of_rest {c : Cursor} {id : ProviderId} {l : List ProviderId}
    (h : c.rest = id :: l) : c.match? = some id := by
  rcases hnext : c.match? with _ | id'
  · cases (rest_of_none hnext).symm.trans h
  · cases (rest_of_some hnext).symm.trans h
    rfl

end Cursor

end Wiring
