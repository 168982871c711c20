import Wiring.Derive.Lexeme.Quoted

/-!
# Numbers and literals

A number is read as a decimal fraction if it has a point or an exponent, and else as a whole
number, with a letter after the first `0` for a base other than ten. No literal may run into
further characters of an identifier.
-/

namespace Wiring.Derive

def isDecimal (c : Char) : Bool := '0' ≤ c && c ≤ '9'

/-- How many digits and underscores a text begins with. -/
def decimalsLength (cs : List Char) : Nat := (cs.takeWhile fun c => isDecimal c || c = '_').length

/-- How many characters after its letter belong to an exponent: digits, with at most one sign
before the first of them. -/
def exponentLength? (signed valued : Bool) : List Char → Option Nat
  | [] => if valued then some 0 else none
  | c :: rest =>
    if isDecimal c then (exponentLength? signed true rest).map (· + 1)
    else if c = '_' then (exponentLength? signed valued rest).map (· + 1)
    else if valued then some 0
    else if (c = '+' || c = '-') && !signed then (exponentLength? true false rest).map (· + 1)
    else none

/-- How many characters an exponent takes, its letter included. -/
def exponentPartLength? : List Char → Option Nat
  | c :: rest =>
    if c = 'e' || c = 'E' then (exponentLength? false false rest).map (· + 1) else none
  | [] => none

/-- How many characters a fraction takes. Its point has no name and no second point behind it. -/
def fractionLength? (cs : List Char) : Option Nat :=
  if !cs.head?.any isDecimal then none
  else
    let whole := decimalsLength cs
    match cs.drop whole with
    | '.' :: rest =>
      if rest.head?.any fun c => c = '.' || Text.isIdentifierStart c then none
      else
        let places := decimalsLength rest
        some (whole + 1 + places + (exponentPartLength? (rest.drop places)).getD 0)
    | rest => (exponentPartLength? rest).map (· + whole)

/-- How many digits of a base a text begins with; none if there are none, or if a decimal digit
is too large for the base. `started` says whether one stands before. -/
def digitsLength? (base : Nat) (started : Bool) : List Char → Option Nat
  | [] => if started then some 0 else none
  | c :: rest =>
    if c = '_' then
      if !started && base = 10 then none
      else (digitsLength? base started rest).map (· + 1)
    else
      match hexDigit? c with
      | some d =>
        if d < base then (digitsLength? base true rest).map (· + 1)
        else if d < 10 then none
        else if started then some 0 else none
      | none => if started then some 0 else none

/-- How many characters a whole number takes. -/
def wholeLength? : List Char → Option Nat
  | '0' :: 'x' :: rest => (digitsLength? 16 false rest).map (· + 2)
  | '0' :: 'o' :: rest => (digitsLength? 8 false rest).map (· + 2)
  | '0' :: 'b' :: rest => (digitsLength? 2 false rest).map (· + 2)
  | cs => digitsLength? 10 false cs

/-- How many characters the first `n` take with the suffix behind them. -/
def withSuffix (cs : List Char) (n : Nat) : Nat := n + (plainNameLength? (cs.drop n)).getD 0

/-- How many characters a number takes that has `n` without its suffix; none if it runs into an
identifier. -/
def unbroken? (cs : List Char) (n : Nat) : Option Nat :=
  let n := withSuffix cs n
  if (cs.drop n).head?.any Text.isIdentifierContinue then none else some n

/-- How many characters a literal takes. -/
def literalLength? (cs : List Char) : Option Nat :=
  match quotedLiteralLength? cs with
  | some n => some (withSuffix cs n)
  | none =>
    match (fractionLength? cs).bind (unbroken? cs) with
    | some n => some n
    | none => (wholeLength? cs).bind (unbroken? cs)

example : literalLength? "1.5e-3f64;".toList = some 9 ∧ literalLength? "1.e5".toList = some 1 ∧
    literalLength? "1e".toList = some 2 ∧ literalLength? "1..2".toList = some 1 ∧
    literalLength? "0b12".toList = none ∧ literalLength? "0x_fu8 ".toList = some 6 := by
  decide +kernel

end Wiring.Derive
