import Wiring.Host.Configuration
import Wiring.Host.Resolution
import Wiring.Host.Teardown

/-!
# Performing calls

`Host.answer` performs one call, and the calls that come up on the way as its host says.
`Codebase.perform` performs calls that are nested to a given depth at most: an object that
resolves a dependency that resolves a dependency is nested twice. Deeper ones have no answer,
and what is answered at some depth is answered alike at every greater one.
-/

namespace Wiring

variable {C : Client} {α : Type}

/-- Performs one call. -/
def Host.answer (h : Host C) : (c : Call C) → Machine C (Reply C c)
  | .create => create
  | .register c r => (register c r).run
  | .unregister c type qualifiers => (unregister c type qualifiers).run
  | .validate c => (validate h c).run
  | .get c type qualifiers => (getObject h c type qualifiers).run
  | .getApart c type qualifiers => Machine.apart (getObject h c type qualifiers).run
  | .select c type qualifiers => (select h c type qualifiers).run
  | .single s => (single h s).run
  | .advance cursor => advance h cursor
  | .inject c type o => inject h c type o
  | .postConstruct type o => (postConstruct h type o).run
  | .preDestroy type o => (preDestroy h type o).run
  | .destroy c => (destroy h c).run
  | .survey c => survey c
  | .constructorOf type => h.run (h.code.component type).constructor
  | .pointsOf type => h.run (h.code.component type).points

/-- Performs a call whose nested calls go no deeper than a given depth. -/
def Codebase.perform (code : Codebase C) : Nat → (c : Call C) → Machine C (Reply C c)
  | 0, _ => failure
  | depth + 1, c => Host.answer ⟨code, code.perform depth⟩ c

/-- Runs a program whose calls are nested no deeper than a given depth. -/
def Codebase.run (code : Codebase C) (depth : Nat) (p : Program C α) : Machine C α :=
  p.run (code.perform depth)

end Wiring
