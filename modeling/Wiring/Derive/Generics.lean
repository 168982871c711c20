import Wiring.Derive.Tree

/-!
# Generic parameters

An implementation repeats the parameters of its type: the full parameters, less their
defaults, on the implementation, and only the names on the type. Lifetimes come first.
-/

namespace Wiring.Derive

/-- A generic parameter. -/
structure GenericParameter where
  isLifetime : Bool
  /-- The name under which the type takes the parameter. -/
  name : String
  /-- The parameter with its attributes and bounds and without its default. -/
  declaration : String
  /-- Whether a comma follows. -/
  comma : Bool

/-- The trees behind attributes. -/
def behindAttributes : List Tree → List Tree
  | .leaf (.mark "#") :: .group '[' _ :: rest => behindAttributes rest
  | ts => ts

/-- Reads one parameter. -/
def genericParameter (entry : List Tree) (comma : Bool) : GenericParameter :=
  let declared := entry.takeWhile (!·.isMark "=")
  -- A colon without bounds says nothing.
  let declared := if declared.getLast?.any (·.isMark ":") then declared.dropLast else declared
  let declaration := Tree.texts declared
  match behindAttributes entry with
  | .leaf (.lifetime a) :: _ => { isLifetime := true, name := a, declaration, comma }
  | .leaf (.word "const") :: t :: _ | t :: _ =>
    { isLifetime := false, name := t.text, declaration, comma }
  | [] => { isLifetime := false, name := "", declaration, comma }

/-- The parameters between angle brackets; none if there are no brackets. -/
def genericParameters : List Tree → List GenericParameter
  | .angle _ entries :: _ => entries.map fun (entry, comma) => genericParameter entry comma
  | _ => []

/-- Parameters under some text, with the lifetimes first. -/
def parameterList (text : GenericParameter → String) (ps : List GenericParameter) : String :=
  AngleEntry.lifetimesFirst
    (ps.map fun p => { isLifetime := p.isLifetime, text := text p, comma := p.comma })

def implementationParameters (ps : List GenericParameter) : String :=
  parameterList (·.declaration) ps

def appliedType (name : String) (ps : List GenericParameter) : String :=
  if ps.isEmpty then name else name ++ "<" ++ parameterList (·.name) ps ++ ">"

/-- The predicates of a `where` clause; none if there are none. -/
def wherePredicates? : List Tree → Option String
  | .leaf (.word "where") :: t :: rest => some (Tree.texts (t :: rest))
  | _ => none

end Wiring.Derive
