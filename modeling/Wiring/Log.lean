import Wiring.World

/-!
# Logs

A log is what a listener sees of the journal: the notes of client code and, as far as the
listener hears them, the events of containers, in order of time.
-/

namespace Wiring

/-- An entry of a log. -/
inductive LogEntry (Note : Type)
  | event (e : Event)
  | note (n : Note)

variable {C : Client}

/-- What a listener sees of an entry of the journal; without a listener no event is heard. -/
def Entry.heard? (listening : Option Level) : Entry C → Option (LogEntry C.Note)
  | .event _ e => if listening.any (·.hears e.level) then some (.event e) else none
  | .note n => some (.note n)
  | .milestone _ => none

/-- The log of the entries beyond the first ones of a journal. -/
def logSince (listening : Option Level) (seen : Nat) (journal : List (Entry C)) :
    List (LogEntry C.Note) :=
  ((journal.take (journal.length - seen)).filterMap (·.heard? listening)).reverse

end Wiring
