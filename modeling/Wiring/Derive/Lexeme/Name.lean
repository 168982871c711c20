import Wiring.Text.Identifier

/-!
# Names

A name is an identifier or a keyword, as long as the identifier goes on. With `r#` before it, it
is raw: then a keyword is an identifier too, except for the few in `neverRaw`.

What a lexeme is shows in how many characters of a text it takes; none if it does not stand at
the text's start.
-/

namespace Wiring.Derive

/-- How many characters at the start of a text continue an identifier. -/
def continuingLength (cs : List Char) : Nat := (cs.takeWhile Text.isIdentifierContinue).length

/-- How many characters a name that is not raw takes. -/
def plainNameLength? : List Char → Option Nat
  | [] => none
  | c :: rest => if Text.isIdentifierStart c then some (continuingLength rest + 1) else none

/-- Words that are no identifiers even when they are marked as raw. -/
def neverRaw : List String := ["_", "super", "self", "Self", "crate"]

/-- How many characters a name takes, the mark of a raw one included. -/
def nameLength? : List Char → Option Nat
  | 'r' :: '#' :: rest =>
    match plainNameLength? rest with
    | none => none
    | some n => if neverRaw.contains (String.ofList (rest.take n)) then none else some (n + 2)
  | cs => plainNameLength? cs

/-- The literals that begin with a letter; no name begins like one of them. -/
def literalOpenings : List String :=
  ["r\"", "r#\"", "r##", "b\"", "b'", "br\"", "br#", "c\"", "cr\"", "cr#"]

def opensLiteral (cs : List Char) : Bool :=
  literalOpenings.any fun opening => opening.toList.isPrefixOf cs

/-- How many characters after a `'` make it a lifetime. A second `'` would make it a character,
and a `#` belongs only to a raw name. -/
def lifetimeLength? (cs : List Char) : Option Nat :=
  match nameLength? cs with
  | none => none
  | some n =>
    match cs.drop n with
    | '\'' :: _ => none
    | '#' :: _ => if ['r', '#'].isPrefixOf cs then some n else none
    | _ => some n

example : nameLength? "r#type x".toList = some 6 ∧ nameLength? "r#self".toList = none := by
  decide +kernel

end Wiring.Derive
