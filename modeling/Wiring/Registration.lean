import Wiring.Client
import Wiring.Markers

/-!
# Registrations and definitions

A `Registration` describes a provider while it is put together, a `Definition` once it is
handed to a container. What the registration leaves open, scope and qualifiers, is taken from
the provider's declared markers.
-/

namespace Wiring

variable {C : Client}

/-- A type under which a provider answers, with the conversion from the made value. -/
structure Exposure (C : Client) where
  type : TypeKey
  convert : Value C → Value C

/-- Where a provider's value comes from. -/
inductive Source (C : Client)
  /-- A value made beforehand. -/
  | ready (value : Value C)
  /-- The client's producing code, and its disposing code if it has any. -/
  | producer (produce : C.Producer) (dispose : Option C.Disposer)
  /-- The container constructs the implementation type as a component. -/
  | component

/-- An immutable description of one provider. -/
structure Definition (C : Client) where
  implementation : TypeKey
  exposures : List (Exposure C)
  qualifiers : Qualifiers
  scope : Scope
  source : Source C
  /-- Disposing code that runs after the source's own. -/
  onDestroy : Option C.Disposer

namespace Definition

def types (d : Definition C) : List TypeKey := d.exposures.map (·.type)

def hasType (d : Definition C) (type : TypeKey) : Bool := type.isWildcard || d.types.contains type

/-- Whether the provider is a component. -/
def isComponent (d : Definition C) : Bool :=
  match d.source with
  | .component => true
  | _ => false

/-- The value as a requested type: itself for the wildcard, else what the exposure makes of it. -/
def convert? (d : Definition C) (type : TypeKey) (v : Value C) : Option (Value C) :=
  if type.isWildcard then some v
  else (d.exposures.find? (·.type = type)).map (·.convert v)

/-- The full form. -/
def layout (d : Definition C) : String :=
  Text.record "Definition"
    [("implementation", d.implementation.name),
     ("types", Text.listed (d.types.map TypeKey.name)),
     ("qualifiers", d.qualifiers.layout),
     ("scope", d.scope.layout),
     ("source", Text.quoted (if d.isComponent then "reflective" else "producer"))]

end Definition

/-- A provider that is being described. -/
structure Registration (C : Client) where
  implementation : TypeKey
  exposures : List (Exposure C)
  scope : Option Scope
  qualifiers : Option Qualifiers
  markers : Markers
  source : Source C
  onDestroy : Option C.Disposer

namespace Registration

/-- A provider of a type that is described no further. -/
def ofSource (type : TypeKey) (source : Source C) (markers : Markers) : Registration C :=
  { implementation := type, exposures := [⟨type, id⟩], scope := none, qualifiers := none,
    markers, source, onDestroy := none }

/-- A provider of a value made beforehand. -/
def ready (type : TypeKey) (value : Value C) : Registration C := ofSource type (.ready value) {}

/-- A provider that runs the client's producing code. -/
def producer (type : TypeKey) (produce : C.Producer) : Registration C :=
  ofSource type (.producer produce none) {}

/-- A provider with disposing code and declared markers. -/
def managedProducer (type : TypeKey) (produce : C.Producer) (dispose : Option C.Disposer)
    (markers : Markers) : Registration C :=
  ofSource type (.producer produce dispose) markers

/-- A provider that constructs a component type with declared markers. -/
def component (type : TypeKey) (markers : Markers) : Registration C :=
  ofSource type .component markers

/-- Lets the provider answer under a type, over the conversion that the type had. -/
def expose (r : Registration C) (type : TypeKey) (convert : Value C → Value C) :
    Registration C :=
  { r with exposures :=
      if r.exposures.any (·.type = type) then
        r.exposures.map fun e => if e.type = type then ⟨type, convert⟩ else e
      else r.exposures ++ [⟨type, convert⟩] }

def withScope (r : Registration C) (scope : Scope) : Registration C :=
  { r with scope := some scope }

def withQualifier (r : Registration C) (q : Qualifier) : Registration C :=
  { r with qualifiers := some ((r.qualifiers.getD ∅).put q) }

def withQualifiers (r : Registration C) (qs : Qualifiers) : Registration C :=
  { r with qualifiers := some qs }

def withOnDestroy (r : Registration C) (dispose : C.Disposer) : Registration C :=
  { r with onDestroy := some dispose }

/-- The described provider; declared markers fill what was left open. -/
def definition (r : Registration C) : Definition C :=
  { implementation := r.implementation
    exposures := r.exposures
    qualifiers := r.qualifiers.getD r.markers.expandedQualifiers
    scope := r.scope.getD r.markers.resolvedScope
    source := r.source
    onDestroy := r.onDestroy }

end Registration

end Wiring
