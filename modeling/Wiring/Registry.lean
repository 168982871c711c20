import Wiring.Failure
import Wiring.Registration

/-!
# Registries

A registry keeps the providers of a container in order of registration and answers which of
them meet a request. A request for the only provider is remembered once it has been met;
every change of the providers forgets what was remembered.
-/

namespace Wiring

variable {C : Client}

/-- A registered provider. -/
structure Provider (C : Client) where
  id : ProviderId
  definition : Definition C

/-- A request: a type and the qualifiers. -/
abbrev Request := TypeKey × Qualifiers

namespace Provider

/-- Whether the provider answers a request for the only one. -/
def isExact (p : Provider C) (r : Request) : Bool :=
  p.definition.hasType r.1 && p.definition.qualifiers.matchesExactly r.2

/-- Whether the provider answers a request for all. -/
def isAmong (p : Provider C) (r : Request) : Bool :=
  p.definition.hasType r.1 && p.definition.qualifiers.matchesAmong r.2

end Provider

/-- The providers of a container and the requests that were met. -/
structure Registry (C : Client) where
  providers : List (Provider C) := []
  remembered : Table Request (Provider C) := ∅

namespace Registry

instance : Inhabited (Registry C) := ⟨{}⟩

def size (r : Registry C) : Nat := r.providers.length

def definitions (r : Registry C) : List (Definition C) := r.providers.map (·.definition)

def provider? (r : Registry C) (id : ProviderId) : Option (Provider C) :=
  r.providers.find? (·.id = id)

/-- Forgets the requests that were met. -/
def forget (r : Registry C) : Registry C := { r with remembered := ∅ }

def insert (r : Registry C) (p : Provider C) : Registry C :=
  { providers := r.providers ++ [p], remembered := ∅ }

def removeWhere (r : Registry C) (bad : Provider C → Bool) : Registry C :=
  { providers := r.providers.filter (!bad ·), remembered := ∅ }

def countExact (r : Registry C) (request : Request) : Nat := r.providers.countP (·.isExact request)

/-- The only provider that answers a request, found by looking at all of them. -/
def scan (r : Registry C) (request : Request) : Except Failure (Provider C) :=
  match r.providers.filter (·.isExact request) with
  | [only] => .ok only
  | [] => .error (.unsatisfied request.1 request.2)
  | _ => .error (.ambiguous request.1 request.2)

/-- The only provider that answers a request; remembers it. -/
def findUnique (r : Registry C) (request : Request) : Except Failure (Provider C) × Registry C :=
  match r.remembered.get? request with
  | some p => (.ok p, r)
  | none =>
    match r.scan request with
    | .ok p => (.ok p, { r with remembered := r.remembered.put request p })
    | .error e => (.error e, r)

/-- All providers that answer a request. -/
def findAll (r : Registry C) (request : Request) : List (Provider C) :=
  r.providers.filter (·.isAmong request)

/-- Whether some provider answers under a type. -/
def contains (r : Registry C) (type : TypeKey) : Bool := !(r.findAll (type, ∅)).isEmpty

end Registry

end Wiring
