import Wiring.Dependency
import Wiring.Derive.FieldType
import Wiring.Derive.Generics
import Wiring.Derive.Options

/-!
# Expansion of declarations

A declared item expands to all that the container needs to make the type: its markers, its
constructor's dependencies, where each field comes from, and its hooks. `Item.expand` reports
the first problem in the order item kind, item attributes, fields, hook names.
-/

namespace Wiring.Derive

/-- Words that name no method. -/
def keywords : List String :=
  ["_", "abstract", "as", "async", "await", "become", "box", "break", "const", "continue",
   "crate", "do", "dyn", "else", "enum", "extern", "false", "final", "fn", "for", "if", "impl",
   "in", "let", "loop", "macro", "match", "mod", "move", "mut", "override", "priv", "pub",
   "ref", "return", "Self", "self", "static", "struct", "super", "trait", "true", "try",
   "type", "typeof", "unsafe", "unsized", "use", "virtual", "where", "while", "yield"]

/-- Fails unless a text is the name of a method. -/
def checkMethodName (name : String) : Reading Unit :=
  match Tree.read .verbatim name with
  | none => .error .nameUnreadable
  | some [] => .error .nameMissing
  | some (.leaf (.word w) :: rest) =>
    if keywords.contains w then .error (.nameIsKeyword w)
    else if rest.isEmpty then .ok ()
    else .error .nameFollowed
  | some (_ :: _) => .error .nameExpected

/-- Where a field's value comes from. -/
inductive FieldSource
  /-- The default of the field's type. -/
  | byDefault
  /-- The next argument of the constructor. -/
  | injected (supply : Supply) (qualifiers : List String)
deriving DecidableEq

/-- What a field's attributes and type say. -/
def Field.source (f : Field) : Reading FieldSource := do
  match ← findInject f.attributes with
  | none => return .byDefault
  | some qualifiers =>
    match (Tree.read .types f.type).bind supply? with
    -- The container is injected whatever the qualifiers.
    | some .container => return .injected .container []
    | some supply => return .injected supply qualifiers
    | none => throw .fieldTypeUnsupported

/-- What an item expands to. -/
structure Expansion where
  /-- The parameters of the implementation. -/
  parameters : String
  /-- The type with its parameters. -/
  self : String
  wherePredicates : Option String
  options : Options
  /-- The fields in order of declaration, each with where its value comes from. -/
  fields : List (String × FieldSource)
deriving DecidableEq

namespace Expansion

/-- The dependencies of the constructor: what the injected fields receive, in order. -/
def dependencies (e : Expansion) : List (Supply × List String) :=
  e.fields.filterMap fun (_, source) =>
    match source with
    | .byDefault => none
    | .injected supply qualifiers => some (supply, qualifiers)

/-- What is declared about scope and qualifiers. -/
def markers (e : Expansion) : Markers :=
  { scope := e.options.scope
    qualifiers := Sorted.ofList (e.options.qualifiers.map .named) }

end Expansion

/-- Reads the fields in order. -/
def fieldSources : List Field → Reading (List (String × FieldSource))
  | [] => return []
  | f :: rest => do
    let source ← f.source
    return (plainName f.name, source) :: (← fieldSources rest)

/-- Checks names of methods in order. -/
def checkMethodNames : List String → Reading Unit
  | [] => return ()
  | name :: rest => do
    checkMethodName name
    checkMethodNames rest

/-- Expands an item. -/
def Item.expand (item : Item) : Reading Expansion := do
  match item.kind with
  | .struct => pure ()
  | .tuple | .unit => throw .fieldsNotNamed
  | .enum | .union => throw .notStruct
  let options ← Options.ofAttributes item.attributes
  let fields ← fieldSources item.fields
  checkMethodNames options.postConstruct
  checkMethodNames options.preDestroy
  let parameters := genericParameters ((Tree.read .types item.generics).getD [])
  return {
    parameters := implementationParameters parameters
    self := appliedType (plainName item.name) parameters
    wherePredicates := wherePredicates? ((Tree.read .types item.whereClause).getD [])
    options, fields }

end Wiring.Derive
