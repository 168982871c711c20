import Wiring.Proofs.Conduct.Calls

/-!
# A client for small examples

Its objects carry nothing, and its components say of themselves what a table says, without a
call. What such code does is found by evaluation.
-/

namespace Wiring

/-- A client whose objects carry nothing. -/
abbrev Sample : Client where
  Object := Unit
  Producer := Unit
  Disposer := Unit
  State := Unit
  Note := Empty

namespace Sample

/-- Code with one producer, and with components that need what a table says. -/
def code (produce : ContainerId → Routine Sample (Value Sample))
    (constructor : TypeKey → Constructor) : Codebase Sample where
  produce _ := produce
  dispose _ _ := .done (.ok ())
  component type :=
    { constructor := .done (constructor type)
      construct := fun _ => .done (.ok ()) }

/-- The sample code describes the constructor it was given and no points. -/
theorem code_describes (produce : ContainerId → Routine Sample (Value Sample))
    (constructor : TypeKey → Constructor) :
    (code produce constructor).Describes (.exactly constructor fun _ => {}) := by
  constructor
  · intro type stop depth w v k h
    cases h
    rfl
  · intro type stop depth w v p h
    cases h
    rfl

/-- Code that makes a value without further ado. -/
def lamps : Codebase Sample := code (fun _ => .done (.ok (.object ()))) fun _ => .noArgs

/-- The world before anything has happened. -/
abbrev blank : World Sample := .blank ()

end Sample

end Wiring
