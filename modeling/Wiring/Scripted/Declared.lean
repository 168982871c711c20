import Wiring.Derive.Component
import Wiring.Scripted.Thing

/-!
# Declared types of the scripted client

Seven types are declared by attributes, and all that the container needs to make them is
expanded from their declarations.
-/

namespace Wiring.Scripted

open Derive

def attributeOf (path : String) (entries : List (String × String)) : Attribute :=
  ⟨path, .list { entries := entries.map fun (key, value) => ⟨key, some (.text value)⟩ }⟩

def injectedField (name type : String) (qualifiers : List String) : Field :=
  { name, type, attributes := [attributeOf "inject" (qualifiers.map fun q => ("qualifier", q))] }

def structureOf (name : String) (entries : List (String × String)) (fields : List Field) : Item :=
  { kind := .struct, name, attributes := [attributeOf "component" entries], fields }

/-- The declaration of each declared kind. -/
def declaration? : Kind → Option Item
  | .declared 0 => some <| structureOf "D0"
      [("scope", "prototype"), ("qualifier", "users"), ("qualifier", "eu"),
       ("post_construct", "warm_up")]
      [injectedField "db" "Arc<T0>" ["primary"], injectedField "all" "Selection<dyn Alpha>" []]
  | .declared 1 => some <| structureOf "D1"
      [("post_construct", "open"), ("post_construct", "ping"), ("pre_destroy", "flush"),
       ("pre_destroy", "close")]
      [injectedField "container" "Container" []]
  | .declared 2 => some <| structureOf "D2" [] []
  | .declared 3 => some <| structureOf "D3" [("qualifier", "q")]
      [injectedField "beta" "Arc<dyn Beta>" ["b", "a"],
       injectedField "tagged" "Selection<AnyObject>" ["tag"]]
  | .declared 4 => some <| structureOf "D4" [("scope", "singleton")]
      [injectedField "users" "Arc<D0>" ["users", "eu"], injectedField "plain" "Arc<D2>" [],
       injectedField "container" "Container" []]
  | .wrapObject | .wrapNumber => some
      { structureOf "Wrap" [] [injectedField "inner" "Arc<T>" []] with generics := "<T>" }
  | _ => none

/-- What the declaration of a kind expands to. -/
def expansion? (kind : Kind) : Option Expansion := do
  match (← declaration? kind).expand with
  | .ok e => some e
  | .error _ => none

/-- The key of a type as the declaration of a kind writes it. -/
def writtenType (kind : Kind) : String → TypeKey
  | "T" => if kind = .wrapNumber then TypeName.number.key else Kind.first.key
  | "dynAlpha" => TypeName.alpha.key
  | "dynBeta" => TypeName.beta.key
  | name => ((TypeName.ofName? name).map TypeName.key).getD (.named name)

end Wiring.Scripted
