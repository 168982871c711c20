import Wiring.Demo.Stage

/-!
# Demonstration of the events

Definitions are registered, validated, resolved in every way, asked for in vain and torn down,
so that a listener hears each kind of event.
-/

namespace Wiring.Demo.Logging

/-- The objects of the demonstration. -/
inductive Thing
  | database (url : String)
  | service (name : String)
  | request (id : Nat)

/-- The pieces of producing code. -/
inductive Producer
  | service
  | request

/-- The client of the demonstration. -/
abbrev client : Client where
  Object := Thing
  Producer := Producer
  Disposer := Empty
  State := Unit
  Note := String

def key (name : String) : TypeKey := .named ("app::programs::demos::logging::" ++ name)

def databaseKey : TypeKey := key "Database"
def serviceKey : TypeKey := key "UserService"
def requestKey : TypeKey := key "RequestContext"

/-- Makes a service, which it says, or a request. -/
def produce : Producer → ContainerId → Program client (Outcome (Value client))
  | .service, _ => ExceptT.run do
    printLine "  [App] UserService being created..."
    return .object (.service "UserService")
  | .request, _ => .done (.ok (.object (.request 12345)))

/-- The code of the demonstration; there are no components. -/
def code : Codebase client where
  produce := produce
  dispose d _ := nomatch d
  component _ := { construct := fun _ => .done (.error (.said "no component")) }

/-- Whether something failed. -/
def failed {α : Type} : Attempted α → Bool
  | .error _ => true
  | .ok _ => false

/-- The demonstration. -/
def main : Act client Unit := do
  printLine "=== Object Factory Logging Demo ===\n"
  let c ← ask .create
  let register (r : Registration client) : Act client Unit := do expect (← ask (.register c r))
  let resolve (type : TypeKey) (qualifiers : Qualifiers) : Act client Unit := do
    let _ ← expect (← ask (.get c type qualifiers))
  let database (url : String) : Registration client :=
    .ready databaseKey (.object (.database url))
  register (database "postgres://localhost/mydb")
  register ((database "postgres://replica/mydb").withQualifier (.named "replica"))
  register (.producer serviceKey .service)
  let request : Registration client := .producer requestKey .request
  register (request.withScope .prototype)
  expect (← ask (.validate c))
  resolve serviceKey ∅
  resolve serviceKey ∅
  resolve requestKey ∅
  resolve requestKey ∅
  resolve databaseKey (.ofList [.named "replica"])
  require (failed (← ask (.get c (.named "i32") ∅)))
  let all ← expect (← ask (.select c databaseKey ∅))
  require (failed (← ask (.single all)))
  expect (← ask (.destroy c))
  printLine "\n=== Demo Complete ==="
  printLine "Check the log output above to see structured logging in action!"
  printLine "\nTip: Use --features logging-json for production (JSON output)"
  printLine "     Use --features logging-pretty for development (colorful output)"

end Wiring.Demo.Logging
