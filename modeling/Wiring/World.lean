import Wiring.Event
import Wiring.Program
import Wiring.Registry

/-!
# The world that operations act on

A `World` holds all containers, the kept values, the providers that are under construction,
the journal and the client's state. A `Machine` is a step on it. It gets stuck when client code
calls itself without end, waits for a validation or a construction that waits for it, or uses
a container that was never made; it then leaves the world where it got stuck.

Every change of the world is one of the small steps of this module.
-/

namespace Wiring

/-- What a container holds besides the kept values. -/
structure Container (C : Client) where
  phase : Phase := .unconfigured
  /-- The result of validation, once it is there. -/
  validation : Option (Attempted Unit) := none
  registry : Registry C := {}

instance (C : Client) : Inhabited (Container C) := ⟨{}⟩

/-- A point in the life of a value, or the start of client code. -/
inductive Milestone (C : Client)
  /-- Client code that belongs to a member starts. -/
  | invoked (member : String)
  /-- A provider begins to make a value. -/
  | started (p : ProviderId)
  /-- A provider has made a value. -/
  | made (p : ProviderId) (v : Value C)
  /-- The value of a singleton is kept from now on. -/
  | kept (p : ProviderId) (v : Value C)
  /-- The value of a singleton is no longer kept and is about to be torn down. -/
  | released (p : ProviderId) (v : Value C)
  /-- The teardown of a singleton's value has run, failed or not. -/
  | disposed (p : ProviderId) (v : Value C)

/-- An entry of the journal. -/
inductive Entry (C : Client)
  /-- What a container reports. -/
  | event (c : ContainerId) (e : Event)
  /-- What client code writes. -/
  | note (n : C.Note)
  /-- What is recorded of values and client code. -/
  | milestone (m : Milestone C)

/-- All that operations act on. -/
structure World (C : Client) where
  containers : Table ContainerId (Container C) := ∅
  containerCount : Nat := 0
  providerCount : Nat := 0
  /-- The kept values of singletons. -/
  kept : Table ProviderId (Value C) := ∅
  /-- The providers under construction on the running thread, the innermost first. -/
  building : List ProviderId := []
  /-- The providers under construction on each thread that waits, the latest thread first. -/
  waiting : List (List ProviderId) := []
  /-- What happened, the latest first. -/
  journal : List (Entry C) := []
  client : C.State

namespace World

variable {C : Client}

def container (w : World C) (c : ContainerId) : Container C := (w.containers.get? c).getD {}

def withContainer (w : World C) (c : ContainerId) (f : Container C → Container C) : World C :=
  { w with containers := w.containers.put c (f (w.container c)) }

def enter (w : World C) (e : Entry C) : World C := { w with journal := e :: w.journal }

@[simp] theorem container_withContainer_self (w : World C) (c : ContainerId)
    (f : Container C → Container C) : (w.withContainer c f).container c = f (w.container c) := by
  simp [container, withContainer]

@[simp] theorem container_withContainer_of_ne (w : World C) {c d : ContainerId}
    (f : Container C → Container C) (h : d ≠ c) :
    (w.withContainer c f).container d = w.container d := by
  simp [container, withContainer, h]

end World

/-- A step on the world that may get stuck. -/
abbrev Machine (C : Client) := OptionT (StateM (World C))

/-- A step on the world that may fail. -/
abbrev Attempt (C : Client) := ExceptT Failure (Machine C)

namespace Machine

variable {C : Client}

def report (c : ContainerId) (e : Event) : Machine C Unit := modify (·.enter (.event c e))

def mark (m : Milestone C) : Machine C Unit := modify (·.enter (.milestone m))

def note (n : C.Note) : Machine C Unit := modify (·.enter (.note n))

/-- Runs a step in a world: its answer, if it does not get stuck, and the world that it leaves. -/
def exec {α : Type} (m : Machine C α) (w : World C) : Option α × World C := m.run.run w

/-- Reads a container. -/
def container (c : ContainerId) : Machine C (Container C) := do
  match (← get).containers.get? c with
  | some k => return k
  | none => failure

/-- Makes a container without definitions. -/
def addContainer : Machine C ContainerId := do
  let c : ContainerId := ⟨(← get).containerCount⟩
  modify fun w =>
    { w with containers := w.containers.put c {}, containerCount := w.containerCount + 1 }
  return c

def setRegistry (c : ContainerId) (r : Registry C) : Machine C Unit :=
  modify (·.withContainer c fun k => { k with registry := r })

/-- Adds a provider to a container. -/
def addProvider (c : ContainerId) (d : Definition C) : Machine C Unit := do
  let id : ProviderId := ⟨(← get).providerCount⟩
  modify fun w => { w with providerCount := w.providerCount + 1 }
  setRegistry c ((← container c).registry.insert ⟨id, d⟩)

/-- Moves a container from one phase to another, if it is in the first. -/
def advancePhase (c : ContainerId) (old new : Phase) : Machine C Unit :=
  modify (·.withContainer c fun k => if k.phase = old then { k with phase := new } else k)

/-- Moves a container to a phase and says which one it was in. -/
def swapPhase (c : ContainerId) (new : Phase) : Machine C Phase := do
  let old := (← container c).phase
  modify (·.withContainer c fun k => { k with phase := new })
  return old

def settleValidation (c : ContainerId) (r : Attempted Unit) : Machine C Unit :=
  modify (·.withContainer c fun k => { k with validation := some r })

def kept? (p : ProviderId) : Machine C (Option (Value C)) := return (← get).kept.get? p

/-- Keeps a value of a provider. -/
def keep (p : ProviderId) (v : Value C) : Machine C Unit := do
  modify fun w => { w with kept := w.kept.put p v }
  mark (.kept p v)

/-- Takes away the kept value of a provider. -/
def release? (p : ProviderId) : Machine C (Option (Value C)) := do
  match ← kept? p with
  | none => return none
  | some v =>
    modify fun w => { w with kept := w.kept.erase p }
    mark (.released p v)
    return some v

def beginBuilding (p : ProviderId) : Machine C Unit :=
  modify fun w => { w with building := p :: w.building }

/-- Ends the innermost construction of a provider's value. -/
def endBuilding (p : ProviderId) : Machine C Unit :=
  modify fun w => { w with building := w.building.erase p }

/-- Gets stuck if a thread that waits for the running one is making the provider's value: that
thread would have to end first. -/
def awaitMaking (p : ProviderId) : Machine C Unit := do
  if (← get).waiting.any (·.contains p) then failure

/-- Runs a step on a thread of its own, for which the running one waits. Nothing is under
construction on the new thread. -/
def apart {α : Type} (m : Machine C α) : Machine C α := do
  let w ← get
  set { w with building := [], waiting := w.building :: w.waiting }
  let a ← m
  modify fun v => { v with building := w.building, waiting := w.waiting }
  return a

def client : Machine C C.State := return (← get).client

def setClient (s : C.State) : Machine C Unit := modify fun w => { w with client := s }

end Machine

/-- Runs a program with some way of performing its calls. -/
def Program.run {C : Client} {α : Type} (perform : (c : Call C) → Machine C (Reply C c)) :
    Program C α → Machine C α
  | .done a => pure a
  | .call c next => do (next (← perform c)).run perform
  | .read next => do (next (← Machine.client)).run perform
  | .write s next => do Machine.setClient s; next.run perform
  | .note n next => do Machine.note n; next.run perform

end Wiring
