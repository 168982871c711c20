import Wiring.Derive.Lexeme.Name

/-!
# Quoted literals

Texts stand between double quotes, characters between single ones; a letter before the quote
makes them bytes or text that ends in a zero. Within them a backslash begins an escape. A raw
literal has no escapes and ends at a quote with as many `#` behind it as stand before its first
quote. A plain name may follow a literal as its suffix.
-/

namespace Wiring.Derive

/-- What a quoted literal holds. -/
inductive QuotedKind
  | text
  /-- Bytes, written as ASCII. -/
  | bytes
  /-- Text that ends at the first zero, and so holds none. -/
  | zeroEnded
deriving DecidableEq

/-- The value of a hexadecimal digit. -/
def hexDigit? (c : Char) : Option Nat :=
  if '0' ≤ c && c ≤ '9' then some (c.toNat - 48)
  else if 'a' ≤ c && c ≤ 'f' then some (c.toNat - 87)
  else if 'A' ≤ c && c ≤ 'F' then some (c.toNat - 55)
  else none

/-- The code point that is written up to a closing brace, and how many characters are left of it,
the brace included; `digits` digits with the value `value` stand before. -/
def codePoint? (value digits : Nat) : List Char → Option (Nat × Nat)
  | [] => none
  | c :: rest =>
    if c = '\x7d' then if 0 < digits && value.isValidChar then some (value, 1) else none
    else if c = '_' then
      if 0 < digits then (codePoint? value digits rest).map fun (v, n) => (v, n + 1) else none
    else
      match hexDigit? c with
      | none => none
      | some d =>
        if digits = 6 then none
        else (codePoint? (value * 16 + d) (digits + 1) rest).map fun (v, n) => (v, n + 1)

/-- How many characters after a backslash are part of an escape. -/
def escapeLength? (kind : QuotedKind) : List Char → Option Nat
  | 'x' :: high :: low :: _ =>
    match hexDigit? high, hexDigit? low with
    | some high, some low =>
      let fits : Bool :=
        match kind with
        | .text => high < 8
        | .bytes => true
        | .zeroEnded => 0 < high + low
      if fits then some 3 else none
    | _, _ => none
  | 'u' :: '\x7b' :: rest =>
    match kind, codePoint? 0 0 rest with
    | .text, some (_, n) => some (n + 2)
    | .zeroEnded, some (value, n) => if value = 0 then none else some (n + 2)
    | _, _ => none
  | '0' :: _ => if kind = .zeroEnded then none else some 1
  | c :: _ => if ['n', 'r', 't', '\\', '\'', '"'].contains c then some 1 else none
  | [] => none

/-- How many characters a line's end and the blanks after it take; the text goes on behind
them. -/
def continuationLength? : List Char → Option Nat
  | [] => none
  | '\r' :: '\n' :: rest => (continuationLength? rest).map (· + 2)
  | c :: rest =>
    if c = '\n' || c = ' ' || c = '\t' then (continuationLength? rest).map (· + 1)
    else if c = '\r' then none
    else some 0

/-- How many characters after a backslash belong to it: an escape, or a line's end with the blanks
after it. -/
def escapedLength? (kind : QuotedKind) (cs : List Char) : Option Nat :=
  match cs with
  | '\n' :: _ | '\r' :: _ => continuationLength? cs
  | _ => escapeLength? kind cs

/-- Whether a character may stand for itself in a literal, with what follows it. -/
def QuotedKind.admits (kind : QuotedKind) (c : Char) (rest : List Char) : Bool :=
  (c ≠ '\r' || rest.head? = some '\n') &&
    match kind with
    | .text => true
    | .bytes => c.toNat < 128
    | .zeroEnded => c ≠ '\x00'

/-- How many characters are left of a literal, its closing quote included. The first argument
counts those that belong to the last backslash. -/
def quotedLength? (kind : QuotedKind) : Nat → List Char → Option Nat
  | _, [] => none
  | escaped + 1, _ :: rest => (quotedLength? kind escaped rest).map (· + 1)
  | 0, c :: rest =>
    if c = '"' then some 1
    else if c = '\\' then
      match escapedLength? kind rest with
      | none => none
      | some n => (quotedLength? kind n rest).map (· + 1)
    else if kind.admits c rest then (quotedLength? kind 0 rest).map (· + 1)
    else none

/-- How many `#` stand before a quote. -/
def hashCount? : List Char → Option Nat
  | '"' :: _ => some 0
  | '#' :: rest => (hashCount? rest).map (· + 1)
  | _ => none

/-- How many characters are left of a raw literal that is marked with some `#`, its end
included. -/
def rawBodyLength? (kind : QuotedKind) (hashes : Nat) : List Char → Option Nat
  | [] => none
  | c :: rest =>
    if c = '"' && (List.replicate hashes '#').isPrefixOf rest then some (hashes + 1)
    else if kind.admits c rest then (rawBodyLength? kind hashes rest).map (· + 1)
    else none

/-- How many characters a raw literal takes behind its letters. -/
def rawLength? (kind : QuotedKind) (cs : List Char) : Option Nat :=
  match hashCount? cs with
  | none => none
  | some hashes =>
    if hashes ≤ 255 then
      (rawBodyLength? kind hashes (cs.drop (hashes + 1))).map (· + (hashes + 1))
    else none

/-- How many characters are left of a character or a byte, its closing quote included. -/
def characterLength? (kind : QuotedKind) : List Char → Option Nat
  | '\\' :: rest =>
    match escapeLength? kind rest with
    | none => none
    | some n => if rest[n]? = some '\'' then some (n + 2) else none
  | c :: '\'' :: _ => if kind = .bytes && 128 ≤ c.toNat then none else some 2
  | _ => none

/-- How many characters a quoted literal takes without a suffix. -/
def quotedLiteralLength? : List Char → Option Nat
  | '"' :: rest => (quotedLength? .text 0 rest).map (· + 1)
  | '\'' :: rest => (characterLength? .text rest).map (· + 1)
  | 'r' :: rest => (rawLength? .text rest).map (· + 1)
  | 'b' :: '"' :: rest => (quotedLength? .bytes 0 rest).map (· + 2)
  | 'b' :: '\'' :: rest => (characterLength? .bytes rest).map (· + 2)
  | 'b' :: 'r' :: rest => (rawLength? .bytes rest).map (· + 2)
  | 'c' :: '"' :: rest => (quotedLength? .zeroEnded 0 rest).map (· + 2)
  | 'c' :: 'r' :: rest => (rawLength? .zeroEnded rest).map (· + 2)
  | _ => none

/-- The character that an escape behind a backslash stands for; a line's end stands for none. -/
def escapedCharacter? : List Char → Option Char
  | 'x' :: high :: low :: _ => do
    let high ← hexDigit? high
    let low ← hexDigit? low
    return Char.ofNat (high * 16 + low)
  | 'u' :: '\x7b' :: rest => (codePoint? 0 0 rest).map fun (value, _) => Char.ofNat value
  | 'n' :: _ => some '\n'
  | 'r' :: _ => some '\r'
  | 't' :: _ => some '\t'
  | '0' :: _ => some '\x00'
  | c :: _ => if ['\\', '\'', '"'].contains c then some c else none
  | [] => none

/-- What a text says that is left up to its closing quote. The first argument counts the characters
that belong to the last backslash. A carriage return stands only before a line feed, and is dropped
there. -/
def quotedText : Nat → List Char → List Char
  | _, [] => []
  | escaped + 1, _ :: rest => quotedText escaped rest
  | 0, c :: rest =>
    if c = '"' then []
    else if c = '\\' then
      (escapedCharacter? rest).toList ++ quotedText ((escapedLength? .text rest).getD 0) rest
    else if c = '\r' then quotedText 0 rest
    else c :: quotedText 0 rest

/-- What a raw text says, from where its `#` begin. -/
def rawText? (cs : List Char) : Option (List Char) :=
  match hashCount? cs with
  | none => none
  | some hashes =>
    let body := cs.drop (hashes + 1)
    (rawBodyLength? .text hashes body).map fun n => body.take (n - (hashes + 1))

/-- What a literal says if it is a text; a suffix does not count. -/
def literalText? (literal : String) : Option String :=
  match literal.toList with
  | '"' :: rest => some (String.ofList (quotedText 0 rest))
  | 'r' :: rest => (rawText? rest).map String.ofList
  | _ => none

example : literalText? "\"a\\\"\\x62\\u\x7b63\x7d\\\n d\"" = some "a\"bcd" ∧
    literalText? "r#\"a\"\\n\"#s" = some "a\"\\n" ∧ literalText? "b\"a\"" = none := by
  decide +kernel
example : quotedLiteralLength? "\"a\\\"b\" c".toList = some 6 ∧
    quotedLiteralLength? "r#\"a\"b\"#".toList = some 8 ∧
    quotedLiteralLength? "b'\\xff'".toList = some 7 ∧
    quotedLiteralLength? "'\\xff'".toList = none := by
  decide +kernel

end Wiring.Derive
