import Wiring.Derive.Problem
import Wiring.Derive.Token

/-!
# Options in attributes

The `component` attributes of an item and the first `inject` attribute of a field are read
from left to right, up to the first problem.
-/

namespace Wiring.Derive

/-- Reads on, or stops with a problem. -/
abbrev Reading (α : Type) := Except DeclarationProblem α

/-- The text that an entry gives to its key. -/
def Entry.text (e : Entry) : Reading String :=
  match e.value with
  | none => .error .equalsMissing
  | some .other => .error .textExpected
  | some .missing => .error .valueMissing
  | some (.text s) => .ok s

/-- Fails with the fault of a list behind whose entries something is left. -/
def AttributeList.finish (l : AttributeList) : Reading Unit :=
  match l.fault with
  | none => .ok ()
  | some fault => .error (.listBroken fault)

/-- What the `component` attributes of an item say. -/
structure Options where
  scope : Option Scope := none
  qualifiers : List String := []
  postConstruct : List String := []
  preDestroy : List String := []
deriving DecidableEq

namespace Options

/-- Reads one entry of a `component` attribute; of several scopes the last one counts. -/
def add (o : Options) (e : Entry) : Reading Options := do
  let value ← e.text
  match plainName e.key with
  | "scope" =>
    match value with
    | "singleton" => return { o with scope := some .singleton }
    | "prototype" => return { o with scope := some .prototype }
    | _ => throw .unknownScope
  | "qualifier" => return { o with qualifiers := o.qualifiers ++ [value] }
  | "post_construct" => return { o with postConstruct := o.postConstruct ++ [value] }
  | "pre_destroy" => return { o with preDestroy := o.preDestroy ++ [value] }
  | _ => throw .unknownComponentKey

/-- Reads entries in order. -/
def addAll (o : Options) : List Entry → Reading Options
  | [] => return o
  | e :: rest => do (← o.add e).addAll rest

/-- Reads the `component` attributes in order and passes over all others. -/
def addAttributes (o : Options) : List Attribute → Reading Options
  | [] => return o
  | a :: rest =>
    if plainName a.path = "component" then
      match a.form with
      | .bare => throw (.listMissing "component")
      | .assigned => throw (.listExpected "component")
      | .list l => do
        let o ← o.addAll l.entries
        l.finish
        o.addAttributes rest
    else o.addAttributes rest

def ofAttributes (attributes : List Attribute) : Reading Options :=
  addAttributes {} attributes

end Options

/-- The qualifiers in the entries of an `inject` attribute. -/
def injectQualifiers : List Entry → Reading (List String)
  | [] => return []
  | e :: rest =>
    if plainName e.key = "qualifier" then do
      let value ← e.text
      return value :: (← injectQualifiers rest)
    else throw .unknownInjectKey

/-- The qualifiers in the first `inject` attribute; none if there is no such attribute. -/
def findInject (attributes : List Attribute) : Reading (Option (List String)) :=
  match attributes.find? (plainName ·.path = "inject") with
  | none => return none
  | some a =>
    match a.form with
    | .bare => return some []
    | .assigned => throw (.listExpected "inject")
    | .list l => do
      let qualifiers ← injectQualifiers l.entries
      l.finish
      return some qualifiers

end Wiring.Derive
