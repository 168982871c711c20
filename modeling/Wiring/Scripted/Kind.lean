import Wiring.TypeKey

/-!
# Types of the scripted client

The scripted client has a fixed set of component types, two plain types and two interfaces
that all component types have.
-/

namespace Wiring.Scripted

/-- The types whose values are the client's own objects. -/
inductive Kind
  /-- Types that read all of their behaviour from a specification. -/
  | specified (n : Fin 10)
  /-- A type that declares points and hooks only. -/
  | plain
  /-- A type that declares nothing. -/
  | bare
  /-- Types that are declared by attributes. -/
  | declared (n : Fin 5)
  /-- A declared generic type around the first specified one. -/
  | wrapObject
  /-- The same around numbers. -/
  | wrapNumber
deriving DecidableEq, Inhabited

namespace Kind

/-- The first specified kind, to which objects of other kinds can be converted. -/
def first : Kind := specified 0

/-- All kinds. -/
def all : List Kind :=
  (List.finRange 10).map specified ++ [plain, bare] ++ (List.finRange 5).map declared ++
    [wrapObject, wrapNumber]

/-- The short name of a kind. -/
def name : Kind → String
  | specified n => "T" ++ toString n.val
  | plain => "Plain"
  | bare => "Bare"
  | declared n => "D" ++ toString n.val
  | wrapObject => "Wrap<T0>"
  | wrapNumber => "Wrap<i64>"

/-- The full name of a kind. -/
def fullName : Kind → String
  | specified n =>
    (if n.val < 8 then "app::types::" else "app::types::net::") ++ (specified n).name
  | wrapObject => "app::types::Wrap<app::types::T0>"
  | kind => "app::types::" ++ kind.name

def key (kind : Kind) : TypeKey := .named kind.fullName

def ofKey? (key : TypeKey) : Option Kind := all.find? (·.key = key)

def ofName? (name : String) : Option Kind := all.find? (·.name = name)

end Kind

/-- The types that scripts name. -/
inductive TypeName
  | kind (kind : Kind)
  | number
  | text
  | container
  | alpha
  | beta
  | anything
deriving DecidableEq, Inhabited

namespace TypeName

/-- The short name of a type. -/
def name : TypeName → String
  | kind k => k.name
  | number => "i64"
  | text => "String"
  | container => "Container"
  | alpha => "Alpha"
  | beta => "Beta"
  | anything => "AnyObject"

/-- The key of a type. -/
def key : TypeName → TypeKey
  | kind k => k.key
  | number => .named "i64"
  | text => .named "alloc::string::String"
  | container => .container
  | alpha => .named "dyn app::types::Alpha"
  | beta => .named "dyn app::types::Beta"
  | anything => .anything

/-- The type with a short name. -/
def ofName? (name : String) : Option TypeName :=
  match [number, text, container, alpha, beta, anything].find? (·.name = name) with
  | some type => some type
  | none => (Kind.ofName? name).map kind

end TypeName

end Wiring.Scripted
