import Wiring.Event

/-!
# Listeners

A listener is described step by step: how grave an event must be, where it must come from,
how it is written. `Listener.directive` is the filter that the description stands for.
-/

namespace Wiring

/-- How events are written. -/
inductive ListenerFormat
  | json
  | pretty
  | compact
deriving DecidableEq, Inhabited

/-- The format in full layouts. -/
def ListenerFormat.layout : ListenerFormat → String
  | json => "Json"
  | pretty => "Pretty"
  | compact => "Compact"

/-- A description of who listens to events. -/
structure Listener where
  level : Level := .debug
  format : ListenerFormat := .json
  /-- The only target whose events are heard. -/
  target : Option String := none
  /-- Whether the environment may name another filter. -/
  respectEnvironment : Bool := true
  withFile : Bool := false
  withLineNumber : Bool := false
  withThreadIds : Bool := false
  withThreadNames : Bool := false
deriving DecidableEq, Inhabited

namespace Listener

/-- The target of every event that a container reports. -/
def factoryTarget : String := "object_factory"

/-- One step of a description. -/
inductive Step
  | level (level : Level)
  | target (target : String)
  | factoryOnly
  | ignoreEnvironment
  | withFile
  | withLineNumber
  | withThreadIds
  | withThreadNames
  | format (format : ListenerFormat)
deriving DecidableEq

/-- The description after one more step. -/
def apply (l : Listener) : Step → Listener
  | .level level => { l with level }
  | .target target => { l with target := some target }
  | .factoryOnly => { l with target := some factoryTarget }
  | .ignoreEnvironment => { l with respectEnvironment := false }
  | .withFile => { l with withFile := true }
  | .withLineNumber => { l with withLineNumber := true }
  | .withThreadIds => { l with withThreadIds := true }
  | .withThreadNames => { l with withThreadNames := true }
  | .format format => { l with format }

/-- The filter: a level, for one target or for all. -/
def directive (l : Listener) : String :=
  match l.target with
  | some target => target ++ "=" ++ l.level.display
  | none => l.level.display

/-- The full form. -/
def layout (l : Listener) : String :=
  let flag (b : Bool) := if b then "true" else "false"
  Text.record "LoggingBuilder"
    [("level", Text.wrapped "Level" l.level.layout),
     ("format", l.format.layout),
     ("target", match l.target with
        | some target => Text.wrapped "Some" (Text.quoted target)
        | none => "None"),
     ("respect_env", flag l.respectEnvironment),
     ("with_file", flag l.withFile),
     ("with_line_number", flag l.withLineNumber),
     ("with_thread_ids", flag l.withThreadIds),
     ("with_thread_names", flag l.withThreadNames)]

/-- Whether a listener can be installed: without a way to write events, never. -/
def install (_ : Listener) : Bool := false

end Listener

end Wiring
