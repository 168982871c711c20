import Wiring.Text.Layout

/-!
# Comments

A comment goes from two slashes to the end of the line, or is a block that may hold further
blocks. Plain comments are passed over. Those that begin with three slashes or with `/**`, and
those that begin with `!` in place of the third character, are documentation, whose text is
kept.
-/

namespace Wiring.Derive

/-- The characters that stand between tokens. -/
def isBlank (c : Char) : Bool :=
  let n := c.toNat
  (9 ≤ n && n ≤ 13) || n = 0x20 || n = 0x85 || n = 0xa0 || n = 0x1680 ||
    (0x2000 ≤ n && n ≤ 0x200a) || n = 0x200e || n = 0x200f || n = 0x2028 || n = 0x2029 ||
    n = 0x202f || n = 0x205f || n = 0x3000

/-- How many characters are left up to the end of the line. -/
def lineLength : List Char → Nat
  | [] => 0
  | '\n' :: _ => 0
  | '\r' :: '\n' :: _ => 0
  | _ :: rest => lineLength rest + 1

/-- How many characters are left of a block, its end included, with `depth` blocks around it. -/
def blockLength? : Nat → List Char → Option Nat
  | depth, '/' :: '*' :: rest => (blockLength? (depth + 1) rest).map (· + 2)
  | 0, '*' :: '/' :: _ => some 2
  | depth + 1, '*' :: '/' :: rest => (blockLength? depth rest).map (· + 2)
  | depth, _ :: rest => (blockLength? depth rest).map (· + 1)
  | _, [] => none

/-- How many characters a plain comment takes. -/
def commentLength? : List Char → Option Nat
  | '/' :: '/' :: rest =>
    match rest with
    | '!' :: _ => none
    | '/' :: more => if more.head? = some '/' then some (lineLength rest + 2) else none
    | _ => some (lineLength rest + 2)
  | '/' :: '*' :: rest =>
    match rest with
    | '*' :: '/' :: _ => some 4
    | '!' :: _ => none
    | '*' :: more =>
      if more.head? = some '*' then (blockLength? 0 rest).map (· + 2) else none
    | _ => (blockLength? 0 rest).map (· + 2)
  | _ => none

/-- A comment that documents. -/
structure Documentation where
  /-- Whether it is about what surrounds it, and not about what follows. -/
  isInner : Bool
  text : List Char
  /-- How many characters it takes. -/
  length : Nat

/-- The documentation in a line, from its fourth character on. -/
def lineDocumentation (isInner : Bool) (cs : List Char) : Documentation :=
  { isInner, text := cs.take (lineLength cs), length := lineLength cs + 3 }

/-- The documentation in a block, from its fourth character on. -/
def blockDocumentation? (isInner : Bool) (cs : List Char) : Option Documentation :=
  (blockLength? 0 cs).map fun n => { isInner, text := cs.take (n - 2), length := n + 3 }

/-- Whether every carriage return stands at the end of a line. -/
def returnsEndLines : List Char → Bool
  | [] => true
  | '\r' :: '\n' :: rest => returnsEndLines rest
  | c :: rest => c ≠ '\r' && returnsEndLines rest

/-- The documentation at the start of a text. -/
def documentation? (cs : List Char) : Option Documentation :=
  let found :=
    match cs with
    | '/' :: '/' :: '!' :: rest => some (lineDocumentation true rest)
    | '/' :: '/' :: '/' :: rest =>
      if rest.head? = some '/' then none else some (lineDocumentation false rest)
    | '/' :: '*' :: '!' :: rest => blockDocumentation? true rest
    | '/' :: '*' :: '*' :: rest =>
      if rest.head? = some '*' || rest.head? = some '/' then none
      else blockDocumentation? false rest
    | _ => none
  found.filter (returnsEndLines ·.text)

/-- The text of a documentation as the body of a quoted literal. -/
def documentationBody : List Char → String
  | [] => ""
  | c :: rest =>
    let written :=
      -- The digits after `\0` would read as part of it.
      if c = '\x00' && rest.head?.any (fun d => '0' ≤ d && d ≤ '7') then "\\x00"
      else Text.quotedChar c
    written ++ documentationBody rest

example : commentLength? "// a\nb".toList = some 4 ∧ commentLength? "/// a".toList = none ∧
    commentLength? "/* a /* b */ c */ d".toList = some 17 ∧
    commentLength? "/* open".toList = none := by
  decide +kernel
example : (documentation? "/** a */b".toList).map (fun d => (d.isInner, d.text, d.length)) =
    some (false, [' ', 'a', ' '], 8) := by
  decide +kernel

end Wiring.Derive
