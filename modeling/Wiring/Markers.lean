import Wiring.Qualifier.Set

/-!
# Scopes and declared markers

A provider may declare a scope and qualifiers of its own, and stereotypes, which are named
bundles of both. Declarations stand in for what a registration leaves open.
-/

namespace Wiring

/-- How long a materialized value lives. -/
inductive Scope
  /-- Made on the first request and kept until teardown. -/
  | singleton
  /-- Made anew for every request and never kept. -/
  | prototype
deriving DecidableEq, Inhabited

namespace Scope

/-- The scope in messages. -/
def display : Scope → String
  | singleton => "singleton"
  | prototype => "prototype"

/-- The scope in full layouts. -/
def layout : Scope → String
  | singleton => "Singleton"
  | prototype => "Prototype"

end Scope

/-- A named bundle of qualifiers and an optional scope. -/
structure Stereotype where
  name : String
  qualifiers : Qualifiers := ∅
  scope : Option Scope := none
deriving DecidableEq

/-- What a provider declares about itself. -/
structure Markers where
  scope : Option Scope := none
  qualifiers : Qualifiers := ∅
  stereotypes : List Stereotype := []
deriving Inhabited

namespace Markers

def expandedScope (m : Markers) : Option Scope :=
  m.scope <|> m.stereotypes.findSome? (·.scope)

/-- The declared qualifiers together with those of every stereotype. -/
def expandedQualifiers (m : Markers) : Qualifiers :=
  m.stereotypes.foldl (fun s stereotype => s.putAll stereotype.qualifiers.toList) m.qualifiers

/-- The expanded scope; a provider for which nothing declares one is a singleton. -/
def resolvedScope (m : Markers) : Scope := m.expandedScope.getD .singleton

end Markers

end Wiring
