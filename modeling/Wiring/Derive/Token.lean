import Wiring.Derive.Lexeme.Comment
import Wiring.Derive.Lexeme.Number

/-!
# Tokens of declarations

Types, generic parameters and names of methods in a declaration are text. `tokens?` cuts such
text into tokens and passes over blanks and plain comments; documentation stands for the
attribute it means. It refuses text in which some character starts no token.
-/

namespace Wiring.Derive

/-- A token; it knows how it is written. -/
inductive Token
  /-- An identifier or a keyword. -/
  | word (text : String)
  | lifetime (text : String)
  | literal (text : String)
  /-- Punctuation; the pairs for paths and results are one mark each. -/
  | mark (text : String)
  | opening (bracket : Char)
  | closing (bracket : Char)
deriving DecidableEq

def markCharacters : List Char := "~!@#$%^&*-=+|;:,<.>/?".toList

/-- The attribute that documentation stands for. -/
def Documentation.tokens (d : Documentation) : List Token :=
  .mark "#" :: (if d.isInner then [.mark "!"] else []) ++
    [.opening '[', .word "doc", .mark "=",
     .literal ("\"" ++ documentationBody d.text ++ "\""), .closing ']']

/-- The mark at the start of a text, and how many characters it takes. A slash that could begin
a comment is none. -/
def mark? : List Char → Option (Token × Nat)
  | ':' :: ':' :: _ => some (.mark "::", 2)
  | '-' :: '>' :: _ => some (.mark "->", 2)
  | '/' :: '/' :: _ | '/' :: '*' :: _ => none
  | c :: _ => if markCharacters.contains c then some (.mark c.toString, 1) else none
  | [] => none

/-- The lifetime at the start of a text. If a literal could begin behind its `'`, that is read by
itself. -/
def lifetime? : List Char → Option (Token × Nat)
  | '\'' :: rest =>
    match lifetimeLength? rest with
    | none => none
    | some n =>
      if opensLiteral rest then some (.mark "'", 1)
      else some (.lifetime (String.ofList ('\'' :: rest.take n)), n + 1)
  | _ => none

/-- The word at the start of a text. -/
def word? (cs : List Char) : Option (Token × Nat) :=
  if opensLiteral cs then none
  else (nameLength? cs).map fun n => (.word (String.ofList (cs.take n)), n)

/-- The literal at the start of a text. -/
def literal? (cs : List Char) : Option (Token × Nat) :=
  (literalLength? cs).map fun n => (.literal (String.ofList (cs.take n)), n)

/-- The text that stands for a faulty literal; it reads as one literal again. -/
def faultyLiteral : String := "(/*ERROR*/)"

/-- The bracket at the start of a text. -/
def bracket? (cs : List Char) : Option (Token × Nat) :=
  match cs with
  | c :: _ =>
    if c = '(' && faultyLiteral.toList.isPrefixOf cs then
      some (.literal faultyLiteral, faultyLiteral.length)
    else if c = '(' || c = '[' || c = '\x7b' then some (.opening c, 1)
    else if c = ')' || c = ']' || c = '\x7d' then some (.closing c, 1)
    else none
  | [] => none

/-- The tokens of what a text begins with, and how many characters that takes. -/
def lexeme? (cs : List Char) : Option (List Token × Nat) :=
  match commentLength? cs with
  | some n => some ([], n)
  | none =>
    match documentation? cs with
    | some d => some (d.tokens, d.length)
    | none =>
      let token :=
        bracket? cs <|> literal? cs <|> lifetime? cs <|> mark? cs <|> word? cs
      token.map fun (t, n) => ([t], n)

/-- The tokens of a text; none if some character starts no token. The first argument counts the
characters that belong to the last token. -/
def tokensFrom? : Nat → List Char → Option (List Token)
  | _, [] => some []
  | taken + 1, _ :: rest => tokensFrom? taken rest
  | 0, c :: rest =>
    if isBlank c then tokensFrom? 0 rest
    else
      match lexeme? (c :: rest) with
      | none => none
      | some (ts, n) => (tokensFrom? (n - 1) rest).map (ts ++ ·)

/-- The tokens of a text, which a byte order mark may precede. -/
def tokens? (text : String) : Option (List Token) :=
  match text.toList with
  | '\ufeff' :: rest => tokensFrom? 0 rest
  | cs => tokensFrom? 0 cs

/-- What names are declared under: a text that is one word counts as that word. -/
def plainName (text : String) : String :=
  match tokens? text with
  | some [.word w] => w
  | _ => text

example : tokens? "Arc</* c */dyn A> // d" =
    some [.word "Arc", .mark "<", .word "dyn", .word "A", .mark ">"] := by
  decide +kernel
example : tokens? "'a 'b' r#fn" = some [.lifetime "'a", .literal "'b'", .word "r#fn"] := by
  decide +kernel

end Wiring.Derive
