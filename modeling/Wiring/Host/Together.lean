import Wiring.Perform

/-!
# Threads that resolve at once

Threads that resolve the same singleton wait for each other in one place: behind their first look
for a kept value, until it is their turn to make one. So a thread's request comes in two parts, and
the parts of several threads may be performed in any order. A thread that is alone performs the
second part right behind the first.
-/

namespace Wiring

variable {C : Client}

/-- How far a thread has come that resolves an object. -/
inductive Progress (C : Client)
  /-- It has its value. -/
  | arrived (v : Value C)
  /-- It has looked for the value of a singleton in vain and waits for its turn to make one. -/
  | waiting (p : Provider C)

namespace Host

/-- Asks a provider for its value as a requested type, up to where threads wait for each other. -/
def approachProvider (h : Host C) (c : ContainerId) (p : Provider C) (type : TypeKey) :
    Attempt C (Progress C) := do
  ensureReady h c
  match p.definition.scope with
  | .prototype => return .arrived (← asType p type (← provide h c p))
  | .singleton =>
    match ← step (look c p) with
    | some v => return .arrived (← asType p type v)
    | none => return .waiting p

/-- Resolves the only provider of a type, up to where threads wait for each other. -/
def approach (h : Host C) (c : ContainerId) (type : TypeKey) (qualifiers : Qualifiers) :
    Attempt C (Progress C) :=
  askOnly h c type qualifiers (.arrived (.container c)) fun p => approachProvider h c p type

/-- What a thread does when it is its turn. -/
def takeTurn (h : Host C) (c : ContainerId) (p : Provider C) (type : TypeKey) :
    Attempt C (Value C) := do
  let v ← makeOnce h c p
  asType p type v

/-- Comes to the end of a request. -/
def finish (h : Host C) (c : ContainerId) (type : TypeKey) :
    Attempted (Progress C) → Attempt C (Value C)
  | .error e => throw e
  | .ok (.arrived v) => return v
  | .ok (.waiting p) => takeTurn h c p type

/-- Threads come to the end of their requests one after the other. -/
def finishAll (h : Host C) (c : ContainerId) (type : TypeKey) :
    List (Attempted (Progress C)) → Machine C (List (Attempted (Value C)))
  | [] => return []
  | t :: rest => do
    let r ← (finish h c type t).run
    return r :: (← finishAll h c type rest)

/-- Threads make the same request and come as far as they get before the first of them has its
turn. -/
def approachAll (h : Host C) (c : ContainerId) (type : TypeKey) (qualifiers : Qualifiers) :
    Nat → Machine C (List (Attempted (Progress C)))
  | 0 => return []
  | n + 1 => do
    let r ← (approach h c type qualifiers).run
    return r :: (← approachAll h c type qualifiers n)

end Host

/-- Performs one request on a number of threads that start together, where nothing is under
construction. -/
def Codebase.performTogether (code : Codebase C) (depth : Nat) (c : ContainerId) (type : TypeKey)
    (qualifiers : Qualifiers) (threads : Nat) : Machine C (List (Attempted (Value C))) := do
  let h : Host C := ⟨code, code.perform depth⟩
  let ts ← Host.approachAll h c type qualifiers threads
  Host.finishAll h c type ts

end Wiring
