import Wiring.Text.Hidden

/-!
# How values are laid out as text

Two notations are in use. A *display* is what messages show; a *layout* is the full text of a
value, in which every part is named and text is quoted:

* `quoted` puts text between double quotes and writes hidden characters by number;
* `record`, `wrapped`, `listed` and `braced` lay out a value from the texts of its parts.
-/

namespace Wiring.Text

/-- A hidden character by its code point in hexadecimal. -/
def escapedByNumber (c : Char) : String :=
  "\\u\x7b" ++ String.ofList (Nat.toDigits 16 c.toNat) ++ "\x7d"

/-- One character as it stands between double quotes. -/
def quotedChar (c : Char) : String :=
  if c = '"' then "\\\""
  else if c = '\\' then "\\\\"
  else if c = '\n' then "\\n"
  else if c = '\t' then "\\t"
  else if c = '\r' then "\\r"
  else if c = '\x00' then "\\0"
  else if isHidden c then escapedByNumber c
  else c.toString

def quoted (s : String) : String :=
  "\"" ++ String.join (s.toList.map quotedChar) ++ "\""

def commaed (parts : List String) : String := String.intercalate ", " parts

def listed (parts : List String) : String := "[" ++ commaed parts ++ "]"

def braced (parts : List String) : String := "\x7b" ++ commaed parts ++ "\x7d"

/-- A value with named parts, `Name { part: text, .. }`. -/
def record (name : String) (parts : List (String × String)) : String :=
  name ++ " \x7b " ++ commaed (parts.map fun (part, text) => part ++ ": " ++ text) ++ " \x7d"

/-- A value with one unnamed part, `Name(text)`. -/
def wrapped (name text : String) : String := name ++ "(" ++ text ++ ")"

example : quoted "a\"b\n\x01é\u0301" = "\"a\\\"b\\n\\u\x7b1\x7dé\\u\x7b301\x7d\"" := by
  decide +kernel
example : record "Point" [("x", "1"), ("y", "2")] = "Point \x7b x: 1, y: 2 \x7d" := by
  decide +kernel

end Wiring.Text
