import Wiring.Demo.Stage
import Wiring.Derive.Component

/-!
# Demonstration of declared components

A service and a controller are declared by attributes alone: the service takes a qualified
object, another object and a lazy handle on all plugins, the controller takes the service and
the container and is made anew for every request.
-/

namespace Wiring.Demo.Declared

open Derive

/-- The objects of the demonstration; those that are compared have an identity. -/
inductive Thing
  | database (url : String)
  | cache (size : Nat)
  | plugin (name : String)
  | service (identity : Nat) (url : String) (cacheSize : Nat) (plugins : Selection)
      (requests : Nat)
  | controller (identity : Nat) (service : Nat)

/-- The pieces of producing code. -/
inductive Producer
  | audit
  | metrics

/-- The client of the demonstration; its state is the next identity. -/
abbrev client : Client where
  Object := Thing
  Producer := Producer
  Disposer := Empty
  State := Nat
  Note := String

def fullName (name : String) : String := "app::programs::demos::derive::" ++ name

def key (name : String) : TypeKey := .named (fullName name)

def databaseKey : TypeKey := key "Database"
def cacheKey : TypeKey := key "Cache"
def serviceKey : TypeKey := key "UserService"
def controllerKey : TypeKey := key "ApiController"

def pluginKey : TypeKey := .named ("dyn " ++ fullName "Plugin")

/-- The key of a type as a declaration writes it. -/
def writtenType : String → TypeKey
  | "dynPlugin" => pluginKey
  | name => key name

/-- The declaration of the service. -/
def serviceItem : Item :=
  { kind := .struct, name := "UserService"
    attributes :=
      [⟨"component", .list { entries := [⟨"post_construct", some (.text "announce")⟩] }⟩]
    fields :=
      [{ name := "db", type := "Arc<Database>"
         attributes := [⟨"inject", .list { entries := [⟨"qualifier", some (.text "primary")⟩] }⟩] },
       { name := "cache", type := "Arc<Cache>", attributes := [⟨"inject", .bare⟩] },
       { name := "plugins", type := "Selection<dyn Plugin>", attributes := [⟨"inject", .bare⟩] },
       { name := "request_count", type := "u64" }] }

/-- The declaration of the controller. -/
def controllerItem : Item :=
  { kind := .struct, name := "ApiController"
    attributes := [⟨"component", .list { entries := [⟨"scope", some (.text "prototype")⟩] }⟩]
    fields :=
      [{ name := "user_service", type := "Arc<UserService>", attributes := [⟨"inject", .bare⟩] },
       { name := "container", type := "Container", attributes := [⟨"inject", .bare⟩] }] }

/-- Takes the next identity. -/
def nextIdentity : Program client Nat := do
  let n : Nat ← Program.state
  Program.write (n + 1) (.done n)

/-- The service from its fields. -/
def makeService (fields : List (String × Option (Taken client))) : Program client Thing := do
  let field (name : String) := (fields.lookup name).join
  let url := match field "db" with
    | some (.value (.object (.database url))) => url
    | _ => ""
  let size := match field "cache" with
    | some (.value (.object (.cache size))) => size
    | _ => 0
  let plugins := match field "plugins" with
    | some (.selection s) => s
    | _ => default
  return .service (← nextIdentity) url size plugins 0

/-- The controller from its fields. -/
def makeController (fields : List (String × Option (Taken client))) : Program client Thing := do
  let service := match (fields.lookup "user_service").join with
    | some (.value (.object (.service identity ..))) => identity
    | _ => 0
  return .controller (← nextIdentity) service

/-- What a service does once it is constructed. -/
def announce (_ : String) (_ : Thing) : Program client (Outcome Unit) := ExceptT.run do
  printLine "  [UserService] constructed"

/-- The component that a declaration stands for. -/
def componentOf (item : Item) (make : List (String × Option (Taken client)) →
    Program client Thing) : Component client :=
  match item.expand with
  | .ok e => e.component { type := writtenType, make, call := announce }
  | .error p => { construct := fun _ => .done (.error (.said p.message)) }

/-- The markers that a declaration stands for. -/
def markersOf (item : Item) : Markers :=
  match item.expand with
  | .ok e => e.markers
  | .error _ => {}

/-- The code of the demonstration. -/
def code : Codebase client where
  produce p _ :=
    match p with
    | .audit => .done (.ok (.object (.plugin "audit")))
    | .metrics => .done (.ok (.object (.plugin "metrics")))
  dispose d _ := nomatch d
  component type :=
    if type = controllerKey then componentOf controllerItem makeController
    else componentOf serviceItem makeService

/-- The names of the plugins that a walk yields. -/
def pluginNames : Nat → Cursor → Act client (List String)
  | 0, _ => return []
  | n + 1, cursor => do
    let (r, cursor) ← ask (.advance cursor)
    let rest ← pluginNames n cursor
    match r with
    | some (.ok (.object (.plugin name))) => return name :: rest
    | _ => return rest

/-- The description of a service. -/
def describe : Thing → Act client String
  | .service _ url size plugins requests => do
    let names ← pluginNames plugins.size plugins.cursor
    return "UserService connected to " ++ url ++ " with cache size " ++ toString size ++
      " (plugins: " ++ Text.listed names ++ ", requests: " ++ toString requests ++ ")"
  | _ => return ""

/-- Resolves an object of the demonstration. -/
def resolve (c : ContainerId) (type : TypeKey) : Act client Thing := do
  match ← expect (← ask (.get c type ∅)) with
  | .object t => return t
  | .container _ => throw (.said "not an object")

/-- The demonstration. -/
def main : Act client Unit := do
  printLine "=== Object Factory Derive Macro Demo ===\n"
  let c ← ask .create
  let database : Registration client :=
    .ready databaseKey (.object (.database "postgres://localhost:5432/myapp"))
  let register (r : Registration client) : Act client Unit := do expect (← ask (.register c r))
  register (database.withQualifier (.named "primary"))
  register (.ready cacheKey (.object (.cache 1024)))
  let audit : Registration client := .producer (key "AuditPlugin") .audit
  register (audit.expose pluginKey id)
  let metrics : Registration client := .producer (key "MetricsPlugin") .metrics
  register (metrics.expose pluginKey id)
  register (.component serviceKey (markersOf serviceItem))
  register (.component controllerKey (markersOf controllerItem))
  expect (← ask (.validate c))
  printLine "Resolving UserService..."
  printLine ("  " ++ (← describe (← resolve c serviceKey)))
  printLine ""
  printLine "Resolving two ApiControllers..."
  match ← resolve c controllerKey, ← resolve c controllerKey with
  | .controller a aService, .controller b bService =>
    printLine ("  distinct controllers: " ++ toString (a != b))
    printLine ("  shared UserService:   " ++ toString (aService == bService))
  | _, _ => require false
  expect (← ask (.destroy c))
  printLine "\n=== Demo Complete ==="
  printLine "\nThe #[derive(Component)] macro generated a constructor that:"
  printLine "  - Resolves #[inject] fields from the container, honoring qualifiers"
  printLine "  - Injects Selection<T> lazily and the Container itself"
  printLine "  - Uses Default::default() for non-injected fields"

end Wiring.Demo.Declared
