import Wiring.Derive.Tree

/-!
# Types of injected fields

An injected field is the container, a shared object or a lazy handle. Which of them it is
shows in the last segment of its type's path: `Container` without arguments, or `Arc` or
`Selection` with a type as first argument.
-/

namespace Wiring.Derive

/-- What follows the name of a path's segment. -/
inductive SegmentArguments
  | absent
  /-- Arguments in angle brackets, each with whether a comma follows. -/
  | angled (entries : List (List Tree × Bool))
  /-- Parameters in round brackets. -/
  | parameters

/-- A segment of a path. -/
structure Segment where
  name : String
  arguments : SegmentArguments := .absent

/-- Whether round brackets hold one type, and so are only around it. -/
def isOneType (inner : List Tree) : Bool :=
  match inner with
  | [] => false
  | t :: _ => !t.isMark "?" && inner.all (!·.isMark ",")

/-- The last segment of a path, of which one segment and what follows it are left. A path goes on
behind parameters unless their result does: it ends with a type that is not in round brackets. -/
def lastSegment? (segment : Segment) : List Tree → Option Segment
  | [] => some segment
  | .leaf (.mark "::") :: .leaf (.word name) :: rest => lastSegment? { name } rest
  | .leaf (.mark "::") :: .angle _ entries :: rest | .angle _ entries :: rest =>
    lastSegment? { segment with arguments := .angled entries } rest
  | .group '(' _ :: .leaf (.mark "->") :: .group '(' result :: rest =>
    if isOneType result then lastSegment? { segment with arguments := .parameters } rest
    else none
  | .group '(' _ :: rest => lastSegment? { segment with arguments := .parameters } rest
  | _ => none

/-- Words that begin a type that is no path. -/
def nonPathWords : List String := ["dyn", "impl", "fn", "for", "unsafe", "extern"]

/-- The last segment of a type, if it is a path. -/
def typeSegment? : List Tree → Option Segment
  | .leaf (.word name) :: rest =>
    if nonPathWords.contains name then none else lastSegment? { name } rest
  | .leaf (.mark "::") :: .leaf (.word name) :: rest
  | .angle _ _ :: .leaf (.mark "::") :: .leaf (.word name) :: rest => lastSegment? { name } rest
  | _ => none

/-- Whether a generic argument is a type, and not a lifetime, a constant or a binding. -/
def isTypeArgument (argument : List Tree) : Bool :=
  match argument with
  | [] => false
  | [.leaf (.lifetime _)] => false
  | .leaf (.literal _) :: _ => false
  | .leaf (.word "true") :: _ | .leaf (.word "false") :: _ => false
  | .leaf (.mark "-") :: _ => false
  | .group '\x7b' _ :: _ => false
  | _ => argument.all fun t => !t.isMark "=" && !t.isMark ":"

/-- What an injected field receives. -/
inductive Supply
  | object (type : String)
  | selection (type : String)
  | container
deriving DecidableEq

/-- What a field of a type receives, if it can be injected. -/
def supply? (type : List Tree) : Option Supply := do
  let segment ← typeSegment? type
  match segment.arguments with
  | .absent => if segment.name = "Container" then some .container else none
  | .angled entries =>
    let (argument, _) ← entries.head?
    guard (isTypeArgument argument)
    match segment.name with
    | "Arc" => some (.object (Tree.texts argument))
    | "Selection" => some (.selection (Tree.texts argument))
    | _ => none
  | .parameters => none

end Wiring.Derive
