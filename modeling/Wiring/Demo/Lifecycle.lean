import Wiring.Demo.Stage

/-!
# Demonstration of the lifecycle

Settings are a ready value, a pool is produced from them, and a repository is a component with
constructor, field and method injection and with hooks. They are validated, resolved and torn
down.
-/

namespace Wiring.Demo.Lifecycle

/-- The objects of the demonstration. -/
inductive Thing
  | settings (poolSize : Nat)
  | pool (size : Nat)
  | repository (poolSize : Nat) (settings : Option Nat) (configured : Bool)

/-- The one piece of producing code. -/
inductive Producer
  | pool

/-- The pieces of disposing code. -/
inductive Disposer
  | pool
  | settings

/-- The client of the demonstration. -/
abbrev client : Client where
  Object := Thing
  Producer := Producer
  Disposer := Disposer
  State := Unit
  Note := String

def key (name : String) : TypeKey := .named ("app::programs::demos::lifecycle::" ++ name)

def settingsKey : TypeKey := key "Settings"
def poolKey : TypeKey := key "Pool"
def repositoryKey : TypeKey := key "Repository"

def primary : Qualifier := .named "primary"

/-- The size that settings or a pool say. -/
def sizeOf? : Value client → Option Nat
  | .object (.settings n) | .object (.pool n) => some n
  | _ => none

/-- Opens the pool with as many connections as the settings say. -/
def produce : Producer → ContainerId → Program client (Outcome (Value client))
  | .pool, c => ExceptT.run do
    let settings ← expect (← ask (.get c settingsKey ∅))
    let size := (sizeOf? settings).getD 0
    printLine ("  [PoolProducer] opening " ++ toString size ++ " connections")
    return .object (.pool size)

/-- Closes the pool, or lets go of the settings. -/
def dispose : Disposer → Value client → Program client (Outcome Unit)
  | .pool, v => ExceptT.run do
    let size := (sizeOf? v).getD 0
    printLine ("  [PoolProducer] closing " ++ toString size ++ " connections")
  | .settings, _ => ExceptT.run do
    printLine "  [Settings] released"

/-- The repository. -/
def repository : Component client where
  constructor := .done (.inject [(Dependency.object poolKey).qualified primary])
  points := .done ((Points.field {} "settings" (.object settingsKey)).method "configure"
    [.object settingsKey])
  construct a := ExceptT.run do
    printLine "  [Repository] constructor"
    let pool ← expect (a.nextObject poolKey).1
    return .repository ((sizeOf? pool).getD 0) none false
  setField o name i := do
    match o, name with
    | .repository pool _ configured, "settings" =>
      match i.asObject settingsKey with
      | .ok v => return (.repository pool (sizeOf? v) configured, .ok ())
      | .error e => return (o, .error (.failure e))
    | _, _ => return (o, .error (.said ("unknown field " ++ name)))
  callMethod o name a := do
    match o, name with
    | .repository pool settings _, "configure" =>
      match (a.nextObject settingsKey).1 with
      | .ok v =>
        let size := (sizeOf? v).getD 0
        Program.say ("  [Repository] configure(pool_size = " ++ toString size ++ ")")
        return (.repository pool settings true, .ok ())
      | .error e => return (o, .error (.failure e))
    | _, _ => return (o, .error (.said ("unknown method " ++ name)))
  lifecycle :=
    let opened (o : Thing) : Program client (Outcome Unit) := ExceptT.run do
      match o with
      | .repository pool _ configured =>
        printLine ("  [Repository] post_construct (pool " ++ toString pool ++ ", configured " ++
          toString configured ++ ")")
      | _ => return ()
    let closed (_ : Thing) : Program client (Outcome Unit) := ExceptT.run do
      printLine "  [Repository] pre_destroy"
    .done ((Wiring.Lifecycle.afterConstruction {} "open" opened).beforeTeardown "close" closed)

/-- The code of the demonstration; only the repository is a component. -/
def code : Codebase client where
  produce := produce
  dispose := dispose
  component _ := repository

def phaseLine (c : ContainerId) : Act client String := do
  return "  state: " ++ (← ask (.survey c)).phase.display

/-- The demonstration. -/
def main : Act client Unit := do
  printLine "=== Object Factory Lifecycle Demo ===\n"
  let c ← ask .create
  let settings : Registration client := .ready settingsKey (.object (.settings 8))
  expect (← ask (.register c (settings.withOnDestroy .settings)))
  let infrastructure : Stereotype := { name := "infrastructure", qualifiers := .ofList [primary] }
  let pool : Registration client := .managedProducer poolKey .pool (some .pool)
    { stereotypes := [infrastructure] }
  expect (← ask (.register c pool))
  expect (← ask (.register c (.component repositoryKey {})))
  printLine "Initializing (validation only, nothing is built)..."
  expect (← ask (.validate c))
  printLine ((← phaseLine c) ++ "\n")
  printLine "Resolving Repository..."
  match ← expect (← ask (.get c repositoryKey ∅)) with
  | .object (.repository _ settings configured) => require (configured && settings.isSome)
  | _ => require false
  printLine ""
  printLine "Destroying (newest definition first)..."
  expect (← ask (.destroy c))
  printLine (← phaseLine c)
  let refused ← ask (.get c repositoryKey ∅)
  require (match refused with | .error _ => true | .ok _ => false)
  printLine "\n=== Demo Complete ==="

end Wiring.Demo.Lifecycle
