import Wiring.Host

/-!
# Changing the definitions

Definitions may be added and removed as long as the container is unconfigured.
-/

namespace Wiring.Host

variable {C : Client}

/-- Fails unless the definitions of a container may be changed. -/
def checkConfigurable (c : ContainerId) (change : Change) : Attempt C Unit := do
  match (← step (Machine.container c)).phase with
  | .unconfigured => return ()
  | phase => throw (.configuration (.frozen change phase))

/-- Makes a container. -/
def create : Machine C ContainerId := do
  let c ← Machine.addContainer
  Machine.report c .created
  return c

/-- Adds a provider. -/
def register (c : ContainerId) (r : Registration C) : Attempt C Unit := do
  checkConfigurable c .register
  let d := r.definition
  let size := (← step (Machine.container c)).registry.size + 1
  step (Machine.report c (.registering d.implementation d.scope d.qualifiers d.types.length size))
  step (Machine.addProvider c d)

/-- Removes the providers of a type that carry exactly some qualifiers, and counts them. -/
def unregister (c : ContainerId) (type : TypeKey) (qualifiers : Qualifiers) : Attempt C Nat := do
  checkConfigurable c .unregister
  let old := (← step (Machine.container c)).registry
  let new := old.removeWhere (·.isExact (type, qualifiers))
  let removed := old.size - new.size
  step (Machine.setRegistry c new)
  step (Machine.report c (.unregistered type qualifiers removed))
  return removed

/-- Reads off phase and definitions. -/
def survey (c : ContainerId) : Machine C (Survey C) := do
  let k ← Machine.container c
  return ⟨k.phase, k.registry.definitions⟩

end Wiring.Host
