import Wiring.Markers

/-!
# Declared items

A component type is declared as an item whose attributes say what the container should know.
-/

namespace Wiring.Derive

/-- The form of a declaration. -/
inductive ItemKind
  /-- A structure with named fields. -/
  | struct
  /-- A structure with numbered fields. -/
  | tuple
  /-- A structure without fields. -/
  | unit
  | enum
  | union
deriving DecidableEq

/-- What an entry gives to its key. -/
inductive EntryValue
  | text (s : String)
  /-- Anything that is no text. -/
  | other
  /-- Nothing: the list ends. -/
  | missing
deriving DecidableEq

/-- An entry of an attribute's list. -/
structure Entry where
  key : String
  /-- What stands behind the `=`, if there is one. -/
  value : Option EntryValue := none
deriving DecidableEq

/-- The brackets around an attribute's list. -/
inductive Delimiter
  | parentheses
  | brackets
  | braces
deriving DecidableEq

/-- What keeps a list from being read to its end. -/
inductive ListFault
  /-- A literal stands where a key should. -/
  | literalKey
  /-- Something else that is no name stands where a key should. -/
  | tokenKey
  /-- The list ends behind the `::` with which a key begins. -/
  | keyMissing
  /-- Within a key, a `::` is not followed by a name. -/
  | segmentExpected
  /-- Within a key, the list ends behind a `::`. -/
  | segmentMissing
  /-- An entry is not followed by a comma. -/
  | commaMissing
deriving DecidableEq

/-- The list of an attribute: the entries up to a fault, if there is one. -/
structure AttributeList where
  delimiter : Delimiter := .parentheses
  entries : List Entry
  fault : Option ListFault := none
deriving DecidableEq

/-- What follows the path of an attribute. -/
inductive AttributeForm
  | bare
  | assigned
  | list (l : AttributeList)
deriving DecidableEq

/-- An attribute. -/
structure Attribute where
  path : String
  form : AttributeForm
deriving DecidableEq

/-- A named field. -/
structure Field where
  name : String
  /-- The type as it is written. -/
  type : String
  attributes : List Attribute := []

/-- A declared item. -/
structure Item where
  kind : ItemKind
  name : String
  /-- The generic parameters as they are written, with their brackets. -/
  generics : String := ""
  /-- The `where` clause as it is written. -/
  whereClause : String := ""
  attributes : List Attribute := []
  fields : List Field := []

end Wiring.Derive
