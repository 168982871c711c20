import Wiring.Derive.Item

/-!
# Problems of declarations

A declaration that is no component is refused for one problem, with a message of its own.
-/

namespace Wiring.Derive

/-- Why a declaration is no component. -/
inductive DeclarationProblem
  | fieldsNotNamed
  | notStruct
  /-- An attribute that needs a list has none. -/
  | listMissing (path : String)
  /-- An attribute that may have a list has a value. -/
  | listExpected (path : String)
  /-- A key stands alone. -/
  | equalsMissing
  /-- A value is no text. -/
  | textExpected
  /-- The list ends where a value should stand. -/
  | valueMissing
  /-- A list cannot be read to its end. -/
  | listBroken (fault : ListFault)
  | unknownScope
  | unknownComponentKey
  | unknownInjectKey
  /-- An injected field has a type that is not injected. -/
  | fieldTypeUnsupported
  /-- A hook has no name. -/
  | nameMissing
  /-- A hook is named by a keyword. -/
  | nameIsKeyword (word : String)
  /-- A hook's name is no identifier. -/
  | nameExpected
  /-- Something follows a hook's name. -/
  | nameFollowed
  /-- A hook's name cannot be read at all. -/
  | nameUnreadable
deriving DecidableEq

/-- The wording of a fault. -/
def ListFault.message : ListFault → String
  | literalKey => "unexpected literal in nested attribute, expected ident"
  | tokenKey => "unexpected token in nested attribute, expected ident"
  | keyMissing => "unexpected end of input, expected nested attribute"
  | segmentExpected => "expected ident"
  | segmentMissing => "unexpected end of input, expected ident"
  | commaMissing => "expected `,`"

/-- The wording of a problem. -/
def DeclarationProblem.message : DeclarationProblem → String
  | fieldsNotNamed => "Component can only be derived for structs with named fields"
  | notStruct => "Component can only be derived for structs"
  | listMissing path =>
    "expected attribute arguments in parentheses: #[" ++ path ++ "(...)]"
  | listExpected path => "expected parentheses: #[" ++ path ++ "(...)]"
  | equalsMissing => "expected `=`"
  | textExpected => "expected string literal"
  | valueMissing => "unexpected end of input, expected string literal"
  | listBroken fault => fault.message
  | unknownScope => "scope must be \"singleton\" or \"prototype\""
  | unknownComponentKey => "unknown component attribute"
  | unknownInjectKey => "unknown inject attribute"
  | fieldTypeUnsupported =>
    "Fields marked with #[inject] must have type Arc<T>, Container or Selection<T>"
  | nameMissing => "unexpected end of input, expected identifier"
  | nameIsKeyword word => "expected identifier, found keyword `" ++ word ++ "`"
  | nameExpected => "expected identifier"
  | nameFollowed => "unexpected token"
  | nameUnreadable => "cannot parse string into token stream"

end Wiring.Derive
