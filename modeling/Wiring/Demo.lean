import Wiring.Demo.Declared
import Wiring.Demo.Lifecycle
import Wiring.Demo.Logging

/-!
# Demonstrations
-/

namespace Wiring

/-- The demonstrations. -/
inductive Demo
  | lifecycle
  | declared
  | logging
deriving DecidableEq

/-- The log of a demonstration as a listener sees it; its notes are the printed lines. -/
def Demo.log? (listening : Option Level) : Demo → Option (List (LogEntry String))
  | lifecycle => Demo.play? Lifecycle.code () listening Lifecycle.main
  | declared => Demo.play? Declared.code 0 listening Declared.main
  | logging => Demo.play? Logging.code () listening Logging.main

end Wiring
