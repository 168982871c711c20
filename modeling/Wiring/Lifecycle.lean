/-!
# Lifecycle hooks

A type has hooks for the time after its construction and for the time before its teardown.
It inherits the hooks of an embedded base, which then act on that part of the value.
-/

namespace Wiring

/-- When a hook runs. -/
inductive HookTime
  | afterConstruction
  | beforeTeardown
deriving DecidableEq

/-- A named action on a target. -/
structure Hook (Target Effect : Type) where
  name : String
  act : Target → Effect

/-- Makes a hook on a part into a hook on the whole. -/
def Hook.on {Target Part Effect : Type} (part : Target → Part) (h : Hook Part Effect) :
    Hook Target Effect :=
  ⟨h.name, fun target => h.act (part target)⟩

/-- The hooks of a type, each kind in the order in which it runs. -/
structure Lifecycle (Target Effect : Type) where
  postConstruct : List (Hook Target Effect) := []
  preDestroy : List (Hook Target Effect) := []

namespace Lifecycle

variable {Target Part Effect : Type}

instance : Inhabited (Lifecycle Target Effect) := ⟨⟨[], []⟩⟩

/-- Adds a hook that runs after construction. -/
def afterConstruction (l : Lifecycle Target Effect) (name : String) (act : Target → Effect) :
    Lifecycle Target Effect :=
  { l with postConstruct := l.postConstruct ++ [⟨name, act⟩] }

/-- Adds a hook that runs before teardown. -/
def beforeTeardown (l : Lifecycle Target Effect) (name : String) (act : Target → Effect) :
    Lifecycle Target Effect :=
  { l with preDestroy := l.preDestroy ++ [⟨name, act⟩] }

/-- Appends the hooks of an embedded base. -/
def inherit (l : Lifecycle Target Effect) (part : Target → Part) (base : Lifecycle Part Effect) :
    Lifecycle Target Effect :=
  { postConstruct := l.postConstruct ++ base.postConstruct.map (.on part)
    preDestroy := l.preDestroy ++ base.preDestroy.map (.on part) }

end Lifecycle

end Wiring
