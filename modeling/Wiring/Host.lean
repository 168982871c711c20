import Wiring.World

/-!
# Hosts

The operations of the library run client code, and client code calls operations. A `Host`
cuts this circle: it knows the client's code and some way of performing calls, and each
operation is written for any host. `Codebase.perform` closes the circle again.
-/

namespace Wiring

/-- The client's code and a way of performing the calls of the library. -/
structure Host (C : Client) where
  code : Codebase C
  perform : (c : Call C) → Machine C (Reply C c)

namespace Host

variable {C : Client} {α : Type}

def step (m : Machine C α) : Attempt C α := ExceptT.lift m

def settle (r : Attempted α) : Attempt C α := ExceptT.mk (pure r)

def resultOf (a : Attempt C α) : Attempt C (Attempted α) := ExceptT.lift a.run

/-- Runs client code that cannot fail. -/
def run (h : Host C) (p : Program C α) : Machine C α := p.run h.perform

/-- Runs client code of a member; its own words become a failure of that member. -/
def invoke (h : Host C) (member : String) (p : Routine C α) : Attempt C α := do
  step (Machine.mark (.invoked member))
  match ← step (h.run p) with
  | .ok a => return a
  | .error problem => throw (.ofProblem member problem)

end Host

end Wiring
