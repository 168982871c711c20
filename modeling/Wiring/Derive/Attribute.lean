import Wiring.Derive.Item
import Wiring.Derive.Tree

/-!
# Attributes as they are written

An attribute is written as a path, alone, with a value behind a `=`, or with a list in brackets of
any kind. The entries of a list are separated by commas, of which one may stand at the end. Each has
a key, which is a path itself, and should have a value behind a `=`. What a key or an entry is not
followed by is a fault, and so is what cannot begin a key; behind a fault nothing is read.
-/

namespace Wiring.Derive

/-- What stands around a group, by its opening bracket. -/
def Delimiter.ofBracket : Char → Delimiter
  | '(' => .parentheses
  | '[' => .brackets
  | _ => .braces

/-! ## Keys

Whether a comma follows an entry matters where the entry stops too early: with a comma it stops at a
token, without one at the end of the list. -/

/-- A key that goes on behind a name, and what stands behind the key. -/
def keyBehind (comma : Bool) (key : String) : List Tree → Except ListFault (String × List Tree)
  | .leaf (.mark "::") :: .leaf (.word name) :: rest => keyBehind comma (key ++ "::" ++ name) rest
  | .leaf (.mark "::") :: rest =>
    .error (if rest.isEmpty && !comma then .segmentMissing else .segmentExpected)
  | rest => .ok (key, rest)

/-- Whether a literal is a number, which a minus may precede. -/
def isNumber (literal : String) : Bool := literal.toList.head?.any isDecimal

/-- A key from its first name on, behind a `::` if it begins with one. -/
def keyFrom (comma : Bool) (root : String) : List Tree → Except ListFault (String × List Tree)
  | .leaf (.word name) :: rest => keyBehind comma (root ++ name) rest
  | .leaf (.literal _) :: _ => .error .literalKey
  | .leaf (.mark "-") :: .leaf (.literal s) :: _ =>
    .error (if isNumber s then .literalKey else .tokenKey)
  | [] => .error (if comma then .tokenKey else .keyMissing)
  | _ :: _ => .error .tokenKey

/-- The key with which an entry begins, and what stands behind it. -/
def keyOf (comma : Bool) : List Tree → Except ListFault (String × List Tree)
  | .leaf (.mark "::") :: rest => keyFrom comma "::" rest
  | trees => keyFrom comma "" trees

/-! ## Entries and lists -/

/-- What stands behind the `=` of an entry, and whether nothing follows it. -/
def EntryValue.ofTrees (comma : Bool) : List Tree → EntryValue × Bool
  | [] => (if comma then .other else .missing, true)
  | .leaf (.literal s) :: rest =>
    match literalText? s with
    | some value => (.text value, rest.isEmpty)
    | none => (.other, true)
  | _ :: _ => (.other, true)

/-- An entry, and whether nothing follows its value. What stands behind an entry without a text does
not matter: nothing is read behind it. -/
def Entry.ofTrees (comma : Bool) (trees : List Tree) : Except ListFault (Entry × Bool) := do
  match ← keyOf comma trees with
  | (name, .leaf (.mark "=") :: rest) =>
    let (value, whole) := EntryValue.ofTrees comma rest
    return (⟨name, some value⟩, whole)
  | (name, _) => return (⟨name, none⟩, true)

/-- The entries of a list up to a fault, from what stands between its commas. -/
def listEntries : List (List Tree × Bool) → List Entry × Option ListFault
  | [] => ([], none)
  | (trees, comma) :: rest =>
    match Entry.ofTrees comma trees with
    | .error fault => ([], some fault)
    | .ok (e, false) => ([e], some .commaMissing)
    | .ok (e, true) =>
      let (entries, fault) := listEntries rest
      (e :: entries, fault)

/-- The list that stands in brackets. -/
def AttributeList.ofTrees (bracket : Char) (inner : List Tree) : AttributeList :=
  let (entries, fault) := listEntries (Tree.commaSeparated [] inner)
  { delimiter := .ofBracket bracket, entries, fault }

/-- Whether a tree may be part of a path without arguments. -/
def Tree.isPathPart : Tree → Bool
  | leaf (.word _) | leaf (.mark "::") => true
  | _ => false

/-- The attribute that is written as a text. Of what is assigned to it nothing matters, and a text
that is no attribute stands for itself. -/
def Attribute.read (text : String) : Attribute :=
  let trees := (Tree.read .verbatim text).getD []
  let path := Tree.texts (trees.takeWhile Tree.isPathPart)
  match trees.dropWhile Tree.isPathPart with
  | [.group bracket inner] => ⟨path, .list (.ofTrees bracket inner)⟩
  | .leaf (.mark "=") :: _ => ⟨path, .assigned⟩
  | _ => ⟨text, .bare⟩

example : Attribute.read "component" = ⟨"component", .bare⟩ ∧
    Attribute.read "component[scope = \"prototype\",]" = ⟨"component", .list
      { delimiter := .brackets, entries := [⟨"scope", some (.text "prototype")⟩] }⟩ ∧
    Attribute.read "component(a::b, \"c\")" = ⟨"component", .list
      { entries := [⟨"a::b", none⟩], fault := some .literalKey }⟩ ∧
    Attribute.read "inject\x7bqualifier = \"a\" \"b\"\x7d" = ⟨"inject", .list
      { delimiter := .braces, entries := [⟨"qualifier", some (.text "a")⟩],
        fault := some .commaMissing }⟩ ∧
    Attribute.read "component(scope = )" = ⟨"component", .list
      { entries := [⟨"scope", some .missing⟩] }⟩ := by
  decide +kernel

end Wiring.Derive
