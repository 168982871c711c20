import Wiring.Failure
import Wiring.Markers

/-!
# Events

A container reports what it does as events. Each has a level, a message and named fields.
-/

namespace Wiring

/-- How grave an event is, the gravest first. -/
inductive Level
  | error
  | warn
  | info
  | debug
  | trace
deriving DecidableEq, Inhabited

namespace Level

/-- The place of a level from the gravest on. -/
def rank : Level → Nat
  | error => 0
  | warn => 1
  | info => 2
  | debug => 3
  | trace => 4

def hears (listening event : Level) : Bool := event.rank ≤ listening.rank

/-- The level in filters and messages. -/
def display : Level → String
  | error => "ERROR"
  | warn => "WARN"
  | info => "INFO"
  | debug => "DEBUG"
  | trace => "TRACE"

/-- The level in full layouts. -/
def layout : Level → String
  | error => "Error"
  | warn => "Warn"
  | info => "Info"
  | debug => "Debug"
  | trace => "Trace"

end Level

/-- The content of a field. -/
inductive FieldValue
  | text (s : String)
  | count (n : Nat)
deriving DecidableEq

/-- What a container reports. -/
inductive Event
  /-- A container was made. -/
  | created
  /-- A provider is added; `size` counts it. -/
  | registering (service : TypeKey) (scope : Scope) (qualifiers : Qualifiers) (types size : Nat)
  /-- Providers were removed. -/
  | unregistered (service : TypeKey) (qualifiers : Qualifiers) (removed : Nat)
  /-- Validation begins. -/
  | validating (size : Nat)
  /-- Validation found a dependency that cannot be met. -/
  | rejected (service : TypeKey) (failure : Failure)
  /-- Validation found nothing. -/
  | ready (size : Nat)
  /-- A request for the only provider was not met. -/
  | unmatched (service : TypeKey) (qualifiers : Qualifiers) (failure : Failure)
  /-- A request for the only provider was met. -/
  | resolving (service : TypeKey) (qualifiers : Qualifiers)
  /-- A request for all providers was answered. -/
  | selecting (service : TypeKey) (qualifiers : Qualifiers) (matched : Nat)
  /-- The kept value of a singleton is handed out. -/
  | reused (service : TypeKey)
  /-- A value is about to be made. -/
  | materializing (service : TypeKey) (scope : Scope)
  /-- Fields and methods are about to be injected. -/
  | injecting (service : TypeKey) (points : Nat)
  /-- A value's teardown failed. -/
  | teardownFailed (service : TypeKey) (failure : Failure)
  /-- The container was torn down. -/
  | destroyed (count : Nat) (previous : Phase)
deriving DecidableEq

namespace Event

/-- The level of an event. -/
def level : Event → Level
  | rejected .. | teardownFailed .. => .warn
  | validating .. | ready .. | destroyed .. => .info
  | created | registering .. | unregistered .. | unmatched .. | materializing .. => .debug
  | resolving .. | selecting .. | reused .. | injecting .. => .trace

/-- The message of an event. -/
def message : Event → String
  | created => "Creating new object factory container"
  | registering .. => "Registering object definition"
  | unregistered .. => "Unregistered object definitions"
  | validating .. => "Validating object definitions"
  | rejected .. => "Definition validation failed"
  | ready .. => "Container ready"
  | unmatched .. => "Unique resolution failed"
  | resolving .. => "Resolving object"
  | selecting .. => "Selecting objects"
  | reused .. => "Singleton already materialized, returning cached value"
  | materializing .. => "Materializing object"
  | injecting .. => "Injecting fields and methods"
  | teardownFailed .. => "Teardown failed"
  | destroyed .. => "Container destroyed"

/-- The fields of an event, in order. -/
def fields : Event → List (String × FieldValue)
  | created => []
  | registering service scope qualifiers types size =>
    [("service", .text service.name), ("scope", .text scope.display),
     ("qualifiers", .text qualifiers.display), ("types", .count types),
     ("service_count", .count size)]
  | unregistered service qualifiers removed =>
    [("service", .text service.name), ("qualifiers", .text qualifiers.display),
     ("removed", .count removed)]
  | validating size => [("service_count", .count size)]
  | rejected service failure =>
    [("service", .text service.name), ("error", .text failure.message)]
  | ready size => [("service_count", .count size)]
  | unmatched service qualifiers failure =>
    [("service", .text service.name), ("qualifiers", .text qualifiers.display),
     ("error", .text failure.message)]
  | resolving service qualifiers =>
    [("service", .text service.name), ("qualifiers", .text qualifiers.display)]
  | selecting service qualifiers matched =>
    [("service", .text service.name), ("qualifiers", .text qualifiers.display),
     ("matches", .count matched)]
  | reused service => [("service", .text service.name)]
  | materializing service scope =>
    [("service", .text service.name), ("scope", .text scope.display)]
  | injecting service points => [("service", .text service.name), ("points", .count points)]
  | teardownFailed service failure =>
    [("service", .text service.name), ("error", .text failure.message)]
  | destroyed count previous =>
    [("destroyed", .count count), ("previous_state", .text previous.display)]

end Event

end Wiring
