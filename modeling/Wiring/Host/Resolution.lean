import Wiring.Host.Construction
import Wiring.Host.Validation

/-!
# Resolution

A request is met by one provider. The provider of a singleton makes its value once and keeps
it; that of a prototype makes a new one each time. A provider that is needed for its own
construction on the same thread fails as circular.
-/

namespace Wiring.Host

variable {C : Client} {α : Type}

/-- Runs a step while a provider counts as under construction. A singleton is made by one thread
at a time. -/
def whileBuilding (p : Provider C) (body : Attempt C α) : Attempt C α := do
  if (← get).building.contains p.id then
    throw (.circular p.definition.implementation p.definition.qualifiers)
  if p.definition.scope = .singleton then
    step (Machine.awaitMaking p.id)
  step (Machine.beginBuilding p.id)
  let r ← resultOf body
  -- Construction ends before a failure goes on.
  step (Machine.endBuilding p.id)
  settle r

/-- Makes a value the way its source says. -/
def makeBySource (h : Host C) (c : ContainerId) (d : Definition C) : Attempt C (Value C) :=
  match d.source with
  | .ready v => return v
  | .producer produce _ =>
    h.invoke (Label.member d.implementation.name "produce") (h.code.produce produce c)
  | .component => build h c d.implementation

/-- Makes a value, whatever the scope. -/
def materialize (h : Host C) (c : ContainerId) (p : Provider C) : Attempt C (Value C) := do
  step (Machine.report c (.materializing p.definition.implementation p.definition.scope))
  step (Machine.mark (.started p.id))
  let v ← makeBySource h c p.definition
  step (Machine.mark (.made p.id v))
  return v

/-- Looks for the kept value of a singleton; one that is there is handed out. -/
def look (c : ContainerId) (p : Provider C) : Machine C (Option (Value C)) := do
  match ← Machine.kept? p.id with
  | some v =>
    Machine.report c (.reused p.definition.implementation)
    return some v
  | none => return none

/-- The value of a singleton for which a thread has looked in vain. By the time that the thread may
make one, another thread may have kept a value, which is then handed out without a word. -/
def makeOnce (h : Host C) (c : ContainerId) (p : Provider C) : Attempt C (Value C) :=
  whileBuilding p do
    match ← step (Machine.kept? p.id) with
    | some v => return v
    | none =>
      let v ← materialize h c p
      -- The phase is not looked at again: client code may have torn the container down.
      step (Machine.keep p.id v)
      return v

/-- The value of a provider: a new one or, for a singleton, the kept one if there is one. -/
def provide (h : Host C) (c : ContainerId) (p : Provider C) : Attempt C (Value C) := do
  match p.definition.scope with
  | .prototype => whileBuilding p (materialize h c p)
  | .singleton =>
    match ← step (look c p) with
    | some v => return v
    | none => makeOnce h c p

/-- A provider's value as one of its types. -/
def asType (p : Provider C) (type : TypeKey) (v : Value C) : Attempt C (Value C) :=
  match p.definition.convert? type v with
  | some v => return v
  | none =>
    throw (.invocation (Label.member p.definition.implementation.name "cast") (.notExposed type))

/-- The value of a provider as a requested type. -/
def provideAs (h : Host C) (c : ContainerId) (p : Provider C) (type : TypeKey) :
    Attempt C (Value C) := do
  ensureReady h c
  let v ← provide h c p
  asType p type v

/-- Asks the only provider of a type in some way; the container answers for itself. -/
def askOnly (h : Host C) (c : ContainerId) (type : TypeKey) (qualifiers : Qualifiers) (itself : α)
    (ask : Provider C → Attempt C α) : Attempt C α := do
  ensureReady h c
  -- The qualifiers do not matter here, and no provider is asked, not even one of containers.
  if type = .container then
    return itself
  let (found, registry) := (← step (Machine.container c)).registry.findUnique (type, qualifiers)
  step (Machine.setRegistry c registry)
  match found with
  | .error e =>
    step (Machine.report c (.unmatched type qualifiers e))
    throw e
  | .ok p =>
    step (Machine.report c (.resolving type qualifiers))
    ask p

/-- Resolves the only provider of a type. -/
def getObject (h : Host C) (c : ContainerId) (type : TypeKey) (qualifiers : Qualifiers) :
    Attempt C (Value C) :=
  askOnly h c type qualifiers (.container c) fun p => provideAs h c p type

/-- Makes a lazy handle on all matching providers. -/
def select (h : Host C) (c : ContainerId) (type : TypeKey) (qualifiers : Qualifiers) :
    Attempt C Selection := do
  ensureReady h c
  let found := (← step (Machine.container c)).registry.findAll (type, qualifiers)
  step (Machine.report c (.selecting type qualifiers found.length))
  return ⟨c, type, qualifiers, found.map (·.id)⟩

/-- Resolves one match of a selection. There is no answer for a match that its container never
held, nor for a container that has not been validated: neither makes such a selection. -/
def resolveMatch (h : Host C) (s : Selection) (id : ProviderId) : Attempt C (Value C) := do
  let k ← step (Machine.container s.container)
  if k.phase = .unconfigured then
    step (failure : Machine C Unit)
  match k.registry.provider? id with
  | some p => provideAs h s.container p s.type
  | none => step (failure : Machine C (Value C))

/-- Resolves the single match of a selection. -/
def single (h : Host C) (s : Selection) : Attempt C (Value C) :=
  match s.providers with
  | [only] => resolveMatch h s only
  | [] => throw (.unsatisfied s.type s.qualifiers)
  | _ => throw (.ambiguous s.type s.qualifiers)

/-- Resolves the next match of a walk; a failure does not end the walk. -/
def advance (h : Host C) (cursor : Cursor) :
    Machine C (Option (Attempted (Value C)) × Cursor) :=
  match cursor.match? with
  | none => return (none, cursor)
  | some id => do
    let r ← (resolveMatch h cursor.selection id).run
    return (some r, cursor.next)

/-- Injects what a type declares into an object that the container did not make. -/
def inject (h : Host C) (c : ContainerId) (type : TypeKey) (o : C.Object) :
    Machine C (C.Object × Attempted Unit) := do
  match ← (ensureReady h c).run with
  | .error e => return (o, .error e)
  | .ok () => injectObject h c type o

end Wiring.Host
