import Wiring.Derive.Token

/-!
# Trees of tokens

Brackets nest, and where types stand angle brackets nest too; elsewhere `<` and `>` compare.
`Tree.read` builds the trees of a text. `Tree.texts` writes them without blanks, and in the one
form that all spellings of a type share: among generic arguments the lifetimes come first, and
`::` does not stand before parameters in round brackets.
-/

namespace Wiring.Derive

/-- A token, or all that stands between two brackets. -/
inductive Tree
  | leaf (t : Token)
  | group (bracket : Char) (inner : List Tree)
  /-- What stands between `<` and `>`: entries, each with whether a comma follows. They are
  written in a `fixed` order, or with the lifetimes first. -/
  | angle (fixed : Bool) (entries : List (List Tree × Bool))

namespace Tree

/-- Whether a tree is a certain mark. -/
def isMark (t : Tree) (text : String) : Bool :=
  match t with
  | leaf (.mark s) => s = text
  | _ => false

/-- Whether a tree is a certain word. -/
def isWord (t : Tree) (text : String) : Bool :=
  match t with
  | leaf (.word s) => s = text
  | _ => false

/-- The bracket that closes what another one opens. -/
def partner : Char → Char
  | '(' => ')'
  | '[' => ']'
  | '<' => '>'
  | _ => '\x7d'

/-- The entries of a list, each with whether a comma follows; `entry` holds the trees of the
current one, the latest first. -/
def commaSeparated (entry : List Tree) : List Tree → List (List Tree × Bool)
  | [] => if entry.isEmpty then [] else [(entry.reverse, false)]
  | t :: rest =>
    if t.isMark "," then (entry.reverse, true) :: commaSeparated [] rest
    else commaSeparated (t :: entry) rest

/-- Drops the colon behind a lifetime that has no bounds; `entry` has its last tree first. -/
def dropEmptyBounds (entry : List Tree) : List Tree :=
  match entry with
  | t :: .leaf (.lifetime a) :: rest =>
    if t.isMark ":" then .leaf (.lifetime a) :: rest else entry
  | _ => entry

/-- What stands between angle brackets, the latest tree first. -/
def ofAngle (fixed : Bool) (inner : List Tree) : Tree :=
  .angle fixed ((commaSeparated [] inner.reverse).map fun (entry, comma) =>
    ((dropEmptyBounds entry.reverse).reverse, comma))

end Tree

/-! ## Reading -/

/-- What stands at a place in a text. -/
inductive Place
  /-- Text whose meaning is not known: what is given to macros and attributes. -/
  | verbatim
  /-- Types, bounds and paths. -/
  | types
  /-- The type of an array's elements, up to a `;` with the array's length behind it. -/
  | element
  /-- A bound whose generic arguments keep their order, up to one of some marks. -/
  | fixed (ends : List String) (around : Place)
  /-- Expressions and statements. -/
  | code
deriving DecidableEq

/-- The marks behind which no type goes on. -/
def typeEnds : List String := [",", ":", "=", ";"]

/-- Words behind which a value or a type begins. -/
def leadingWords : List String :=
  ["as", "break", "else", "for", "if", "impl", "in", "let", "match", "move", "mut", "ref",
   "return", "while"]

/-- Whether the trees before a place, the latest first, end in a path to a type within code. -/
def endsInTypePath : List Tree → Bool
  | .leaf (.word _) :: t :: rest =>
    if t.isMark "::" then endsInTypePath rest
    else ["as", "const", "dyn"].any (t.isWord ·) || t.isMark "->"
  | _ => false

/-- Whether the trees before a bracket, the latest first, give what it holds to a macro or to an
attribute. -/
def opensVerbatim : List Tree → Bool
  | .leaf (.mark "#") :: _ => true
  | .leaf (.mark "!") :: .leaf (.mark "#") :: _ => true
  | .leaf (.mark "!") :: .leaf (.word w) :: _ => !leadingWords.contains w
  | _ => false

/-- Whether a `const` behind some trees, the latest first, qualifies a bound: it does not where it
begins a parameter or is part of a pointer type. -/
def qualifiesBound : List Tree → Bool
  | .leaf (.mark m) :: _ => m ≠ "*" && m ≠ ","
  | .leaf (.word _) :: _ | .angle _ _ :: _ => true
  | _ => false

namespace Place

/-- Whether a `<` behind some trees, the latest first, opens a group. In code it does where no
value stands before it. -/
def opensAngle (place : Place) (before : List Tree) : Bool :=
  match place with
  | .verbatim => false
  | .types | .element | .fixed .. => true
  | .code =>
    match before with
    | [] => true
    | .leaf (.mark m) :: _ => m ≠ "?" && m ≠ "<"
    | .leaf (.word w) :: _ => leadingWords.contains w || endsInTypePath before
    | _ => false

/-- What stands in a bracket that opens at a place behind some trees, the latest first. -/
def inside (place : Place) (bracket : Char) (before : List Tree) : Place :=
  if place = .verbatim || opensVerbatim before then .verbatim
  else
    match place, bracket with
    | .code, _ | _, '\x7b' => .code
    | .fixed .., _ => .fixed [] .types
    | _, '[' => .element
    | _, _ => .types

/-- What stands between angle brackets at a place. -/
def insideAngle : Place → Place
  | .fixed .. => .fixed [] .types
  | _ => .types

/-- What stands behind a tree at a place; `before` holds the trees before it, the latest first. -/
def behind (place : Place) (before : List Tree) (t : Tree) : Place :=
  let bound :=
    match t with
    | .leaf (.mark "*") =>
      if before.head?.any (·.isWord "dyn") then .fixed typeEnds place else place
    | .leaf (.word "const") =>
      if qualifiesBound before then .fixed ("+" :: typeEnds) place else place
    | .group '[' [.leaf (.word "const")] => .fixed ("+" :: typeEnds) place
    | _ => place
  match place with
  | .verbatim | .code => place
  | .types => bound
  | .element => if t.isMark ";" then .code else bound
  | .fixed ends around => if ends.any (t.isMark ·) then around.behind before t else place

/-- The trees before a token at a place, the latest first, as they stand in front of it: there is
no `::` before parameters, and one pair of brackets around a relaxed bound. -/
def ahead (place : Place) (before : List Tree) (t : Token) : List Tree :=
  if place = .types || place = .element then
    match t, before with
    | .opening '(', .leaf (.mark "::") :: rest => rest
    | .mark "+", .group '(' [.group '(' (.leaf (.mark "?") :: bound)] :: rest =>
      .group '(' (.leaf (.mark "?") :: bound) :: rest
    | _, _ => before
  else before

end Place

/-- A bracket that is open. -/
structure OpenBracket where
  bracket : Char
  /-- The place at which it opens. -/
  place : Place
  /-- The trees before it, the latest first. -/
  before : List Tree

namespace OpenBracket

/-- The group of an angle bracket and the trees in it, the latest first. The parameters behind a
`for` keep their order. -/
def closeAngle (o : OpenBracket) (inner : List Tree) : Tree :=
  let fixed :=
    match o.place with
    | .fixed .. => true
    | _ => o.before.head?.any (·.isWord "for")
  .ofAngle fixed inner

end OpenBracket

namespace Tree

/-- Builds trees from the tokens at a place, with the brackets that are open, the innermost first,
and the trees before the place, the latest first. -/
def build : List Token → Place → List OpenBracket → List Tree → Option (List Tree)
  | [], _, [], done => some done.reverse
  | [], _, _ :: _, _ => none
  | .opening bracket :: rest, place, brackets, done =>
    build rest (place.inside bracket done)
      ({ bracket, place, before := place.ahead done (.opening bracket) } :: brackets) []
  | .closing bracket :: rest, _, o :: brackets, done =>
    if partner o.bracket = bracket then
      let t := .group o.bracket done.reverse
      build rest (o.place.behind o.before t) brackets (t :: o.before)
    else none
  | .closing _ :: _, _, [], _ => none
  | .mark "<" :: rest, place, brackets, done =>
    if place.opensAngle done then
      build rest place.insideAngle ({ bracket := '<', place, before := done } :: brackets) []
    else build rest place brackets (.leaf (.mark "<") :: done)
  | .mark ">" :: rest, place, brackets, done =>
    match brackets with
    | { bracket := '<', place := around, before } :: brackets =>
      let o : OpenBracket := { bracket := '<', place := around, before }
      build rest around brackets (o.closeAngle done :: before)
    | _ =>
      if place = .verbatim || place = .code then
        build rest place brackets (.leaf (.mark ">") :: done)
      else none
  | t :: rest, place, brackets, done =>
    build rest (place.behind done (.leaf t)) brackets (.leaf t :: place.ahead done t)

/-- The trees of a text that stands at a place; none if it cannot be read. -/
def read (place : Place) (text : String) : Option (List Tree) :=
  (tokens? text).bind (build · place [] [])

end Tree

/-! ## Writing -/

/-- How a token is written, without spaces. -/
def Token.text : Token → String
  | word s | lifetime s | mark s => s
  | literal s => String.ofList (s.toList.filter (· ≠ ' '))
  | opening c | closing c => c.toString

/-- An entry between angle brackets as it is written. -/
structure AngleEntry where
  isLifetime : Bool
  text : String
  /-- Whether a comma follows. -/
  comma : Bool

namespace AngleEntry

/-- An entry with the comma that follows it. -/
def written (e : AngleEntry) : String := e.text ++ if e.comma then "," else ""

/-- Entries with the lifetimes first. A comma is added where the lifetimes end without one, as they
do if a lifetime was the last entry. -/
def lifetimesFirst (es : List AngleEntry) : String :=
  let lifetimes := es.filter (·.isLifetime)
  let others := es.filter (!·.isLifetime)
  let joint := if others.isEmpty || lifetimes.getLast?.all (·.comma) then "" else ","
  String.join (lifetimes.map written) ++ joint ++ String.join (others.map written)

def inOrder (es : List AngleEntry) : String := String.join (es.map written)

end AngleEntry

namespace Tree

/-- Whether an entry between angle brackets is a lifetime. -/
def isLifetime : List Tree → Bool
  | [.leaf (.lifetime _)] => true
  | _ => false

mutual

/-- A tree as it is written, without spaces. -/
def text : Tree → String
  | leaf t => t.text
  | group bracket inner => bracket.toString ++ texts inner ++ (partner bracket).toString
  | angle fixed entries =>
    let es := entryTexts entries
    "<" ++ (if fixed then AngleEntry.inOrder es else AngleEntry.lifetimesFirst es) ++ ">"

/-- Trees as they are written, without spaces. -/
def texts : List Tree → String
  | [] => ""
  | t :: rest => t.text ++ texts rest

/-- Entries as they are written. -/
def entryTexts : List (List Tree × Bool) → List AngleEntry
  | [] => []
  | (entry, comma) :: rest =>
    { isLifetime := isLifetime entry, text := texts entry, comma } :: entryTexts rest

end

example : (read .types "dyn A<T, 'a> + Fn::(B) -> C").map texts =
    some "dynA<'a,T,>+Fn(B)->C" := by
  decide +kernel
example : (read .types "[A<T, 'a>; N < 3]").map texts = some "[A<'a,T,>;N<3]" := by decide +kernel
example : (read .types "m!(A<T, 'a>)").map texts = some "m!(A<T,'a>)" := by decide +kernel
example : (read .types "A<T").isNone = true := by decide +kernel

end Tree

end Wiring.Derive
