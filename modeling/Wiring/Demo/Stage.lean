import Wiring.Log
import Wiring.Perform

/-!
# The stage of the demonstrations

A demonstration is a program that prints lines while it shows what a container does.
-/

namespace Wiring.Demo

variable {C : Client} {α : Type}

/-- The program of a demonstration; it ends early where something fails that should not. -/
abbrev Act (C : Client) := ExceptT Problem (Program C)

def ask (c : Call C) : Act C (Reply C c) := ExceptT.lift (Program.request c)

/-- Goes on with a result that should be there. -/
def expect (r : Attempted α) : Act C α := ExceptT.mk (.done (r.mapError .failure))

def require (b : Bool) : Act C Unit := if b then return () else throw (.said "assertion failed")

def printLine (line : C.Note) : Act C Unit := ExceptT.lift (Program.say line)

/-- How deep the calls of a demonstration may be nested. -/
def stageDepth : Nat := 1000

/-- The log of a demonstration; none if it has no answer or ends early. -/
def play? (code : Codebase C) (start : C.State) (listening : Option Level) (act : Act C Unit) :
    Option (List (LogEntry C.Note)) :=
  match (code.run stageDepth act.run).exec { client := start } with
  | (some (.ok ()), w) => some (logSince listening 0 w.journal)
  | _ => none

end Wiring.Demo
