import Wiring.Host.Together
import Wiring.Log
import Wiring.Scripted.Behaviour

/-!
# Sessions

A session makes one container and performs steps one after the other. After each step it
reports the result, what was written down since the last report, and how the container stands.
-/

namespace Wiring.Scripted

/-- The report on one step. -/
structure StepReport where
  result : Attempted Answer
  log : List (LogEntry Note)
  phase : Phase
  size : Nat

/-- Performs a step of the session. Threads that the session starts itself resolve at once; those
that a script starts do so one after the other. -/
def performStep (depth : Nat) (c : ContainerId) : Step → Machine scripted (Attempted Answer)
  | .concurrent type qualifiers threads => do
    let rs ← codebase.performTogether depth c type.key qualifiers threads
    let d ← Machine.client
    return .ok (tally (rs.map (·.map d.shown)))
  | step => codebase.run depth do
    let (result, _) ← step.perform c
    return result

/-- Performs steps and reports on each; `seen` is how much of the journal was reported. -/
def performSteps (depth : Nat) (listening : Option Level) (seen : Nat) :
    List (Action Step) → Machine scripted (List StepReport)
  | [] => return []
  | a :: rest => do
    let c := (← Machine.client).handle (a.on.getD 0)
    let result ← performStep depth c a.step
    let survey ← codebase.run depth (ask (.survey c))
    let journal := (← get).journal
    let report : StepReport :=
      { result, log := logSince listening seen journal, phase := survey.phase,
        size := survey.size }
    return report :: (← performSteps depth listening journal.length rest)

/-- How deep the calls of a session may be nested. -/
def sessionDepth : Nat := 100000

/-- The reports of a session; none if a step has no answer. -/
def session? (listening : Option Level) (steps : List (Action Step)) :
    Option (List StepReport) := do
  let start : World scripted := { client := {} }
  let run : Machine scripted (List StepReport) := do
    let _ ← codebase.run sessionDepth do addHandle (← ask .create)
    performSteps sessionDepth listening 0 steps
  (run.exec start).1

end Wiring.Scripted
