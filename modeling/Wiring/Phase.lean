/-!
# Phases of a container
-/

namespace Wiring

/-- Where a container stands in its life. -/
inductive Phase
  /-- Definitions may still be added and removed. -/
  | unconfigured
  /-- The declared dependencies are being checked. -/
  | validating
  /-- Objects are resolved. -/
  | ready
  /-- The check failed; every resolution fails the same way. -/
  | failed
  /-- Torn down. -/
  | destroyed
deriving DecidableEq, Inhabited

namespace Phase

/-- The phase in messages. -/
def display : Phase → String
  | unconfigured => "unconfigured"
  | validating => "validating"
  | ready => "ready"
  | failed => "failed"
  | destroyed => "destroyed"

/-- The phase in full layouts. -/
def layout : Phase → String
  | unconfigured => "Unconfigured"
  | validating => "Validating"
  | ready => "Ready"
  | failed => "Failed"
  | destroyed => "Destroyed"

end Phase

/-- A change of the definitions that a container holds. -/
inductive Change
  | register
  | unregister
deriving DecidableEq

/-- The change in messages. -/
def Change.display : Change → String
  | register => "register"
  | unregister => "unregister"

end Wiring
