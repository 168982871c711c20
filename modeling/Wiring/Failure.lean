import Wiring.Phase
import Wiring.Qualifier.Set
import Wiring.TypeKey

/-!
# Failures

A failure says what went wrong as data; `Failure.message` is its wording. Client code reports
a `Problem`: either a failure that it got from a container and passes on, or words of its own.
`Failure.ofProblem` keeps the former as it is and labels the latter with the member that the
client code stood in.
-/

namespace Wiring

/-- Why a dependency was not matched to exactly one provider. -/
inductive Mismatch
  /-- No provider matches. -/
  | unsatisfied
  /-- More than one provider matches. -/
  | ambiguous
  /-- The provider is already under construction. -/
  | circular
deriving DecidableEq, Inhabited

/-- The mismatch in messages. -/
def Mismatch.display : Mismatch → String
  | unsatisfied => "Unsatisfied"
  | ambiguous => "Ambiguous"
  | circular => "Circular"

/-- A dependency that was not matched, and the member that declared it. -/
structure LookupFailure where
  mismatch : Mismatch
  type : TypeKey
  qualifiers : Qualifiers
  member : Option String := none
deriving DecidableEq

/-- The wording of an unmatched dependency. -/
def LookupFailure.message (f : LookupFailure) : String :=
  f.mismatch.display ++ " dependency (type=" ++ f.type.name ++ ", qualifiers=" ++
    f.qualifiers.display ++
    (match f.member with
     | some member => ", member=" ++ member
     | none => "") ++ ")"

/-- The form in which a resolved argument is taken. -/
inductive Shape
  | object (type : TypeKey)
  | selection (type : TypeKey)
deriving DecidableEq

/-- The form in messages. -/
def Shape.display : Shape → String
  | object type => "alloc::sync::Arc<" ++ type.name ++ ">"
  | selection type => "object_factory::selection::Selection<" ++ type.name ++ ">"

/-- Why a member could not be invoked. -/
inductive InvocationCause
  /-- An argument was taken after the last one. -/
  | argumentMissing
  /-- An argument was taken in a form that it does not have. -/
  | argumentMismatch (expected : Shape)
  /-- A value was requested as a type that its provider does not expose. -/
  | notExposed (type : TypeKey)
  /-- What client code said. -/
  | said (words : String)
deriving DecidableEq

/-- The wording of a cause. -/
def InvocationCause.message : InvocationCause → String
  | argumentMissing => "wrong number of arguments"
  | argumentMismatch expected => "argument type mismatch, expected " ++ expected.display
  | notExposed type => "value is not exposed as " ++ type.name
  | said words => words

/-- Why an operation is not legal. -/
inductive ConfigurationCause
  /-- A change of the definitions in a phase that has them frozen. -/
  | frozen (change : Change) (phase : Phase)
  /-- An initialization after teardown. -/
  | tornDown
  /-- A resolution after teardown. -/
  | resolvedTornDown
  /-- What client code said. -/
  | said (words : String)
deriving DecidableEq

/-- The wording of a cause. -/
def ConfigurationCause.message : ConfigurationCause → String
  | frozen change phase =>
    "cannot " ++ change.display ++ " definitions: container is " ++ phase.display
  | tornDown => "container has been destroyed"
  | resolvedTornDown => "cannot resolve objects: container has been destroyed"
  | said words => words

/-- What a container's operation fails with. -/
inductive Failure
  /-- A declared dependency cannot be met; found by validation. -/
  | definition (lookup : LookupFailure)
  /-- A request could not be met. -/
  | resolution (lookup : LookupFailure)
  /-- Construction, injection or a hook failed. -/
  | invocation (member : String) (cause : InvocationCause)
  /-- The operation is not legal in the container's phase. -/
  | configuration (cause : ConfigurationCause)
deriving DecidableEq

/-- What client code fails with. -/
inductive Problem
  /-- A container's failure, passed on. -/
  | failure (failure : Failure)
  /-- The client's own words. -/
  | said (words : String)
deriving DecidableEq

namespace Failure

def unsatisfied (type : TypeKey) (qualifiers : Qualifiers) : Failure :=
  resolution { mismatch := .unsatisfied, type, qualifiers }

def ambiguous (type : TypeKey) (qualifiers : Qualifiers) : Failure :=
  resolution { mismatch := .ambiguous, type, qualifiers }

/-- A provider is needed for its own construction. -/
def circular (type : TypeKey) (qualifiers : Qualifiers) : Failure :=
  resolution { mismatch := .circular, type, qualifiers }

/-- A failure passed on by client code stays as it is; other words get the member's label. -/
def ofProblem (member : String) : Problem → Failure
  | .failure f => f
  | .said words => invocation member (.said words)

/-- The unmatched dependency, if that is what failed. -/
def lookup? : Failure → Option LookupFailure
  | definition lookup | resolution lookup => some lookup
  | _ => none

def isMismatch (f : Failure) (mismatch : Mismatch) : Bool :=
  f.lookup?.any (·.mismatch = mismatch)

/-- The wording of a failure. -/
def message : Failure → String
  | definition lookup => "Invalid definition: " ++ lookup.message
  | resolution lookup => "Resolution failed: " ++ lookup.message
  | invocation member cause => "Failed to invoke " ++ member ++ ": " ++ cause.message
  | configuration cause => "Configuration error: " ++ cause.message

end Failure

/-- The wording of a client's problem. -/
def Problem.message : Problem → String
  | failure f => f.message
  | said words => words

/-- A container's failure retold in the client's own words. -/
def Problem.nested (f : Failure) : Problem := .said ("nested: " ++ f.message)

end Wiring
