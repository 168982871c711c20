import Mathlib.Data.List.Forall2
import Wiring.Derive.Component
import Wiring.Proofs.Invocation
import Wiring.Proofs.Sample

/-!
# Derived components are wired right

A derived component says twice what its injected fields receive: its constructor names a dependency
for each of them, and its construction takes an argument for each. Both follow the declaration field
by field (`Corresponds`), so what the dependencies resolve to is what the initialisers take, one
value each and in the same form (`Fills`).

Main statement: `Derive.Item.expand_wires`.
-/

namespace Wiring

variable {C : Client}

namespace Derive

/-! ## What fields declare -/

def Field.IsInjected (f : Field) : Prop := ∃ a ∈ f.attributes, plainName a.path = "inject"

/-- What an injected field receives is in its type, with which qualifiers in its first `inject`
attribute. The container has none. -/
structure Field.Injects (f : Field) (supply : Supply) (qualifiers : List String) : Prop where
  typed : (Tree.read .types f.type).bind supply? = some supply
  qualified : ∃ given, findInject f.attributes = .ok (some given) ∧
    qualifiers = if supply = .container then [] else given

/-- When the search for `inject` finds nothing, no attribute goes by that name. -/
theorem not_mem_of_findInject {attributes : List Attribute}
    (h : findInject attributes = .ok none) : ∀ a ∈ attributes, plainName a.path ≠ "inject" := by
  unfold findInject at h
  rcases hfind : attributes.find? (plainName ·.path = "inject") with _ | a
  · simpa using hfind
  · rw [hfind] at h
    rcases hform : a.form with _ | _ | l <;> simp only [hform] at h
    · cases h
    · cases h
    · rcases hread : injectQualifiers l.entries with e | qualifiers <;> rw [hread] at h
      · cases h
      · rcases hend : l.finish with e | _ <;> simp only [bind, Except.bind, hend] at h <;> cases h

/-- A field that says how it is injected is injected. -/
theorem Field.Injects.isInjected {f : Field} {supply : Supply} {qualifiers : List String}
    (h : f.Injects supply qualifiers) : f.IsInjected := by
  obtain ⟨given, hgiven, -⟩ := h.qualified
  unfold findInject at hgiven
  rcases hfind : f.attributes.find? (plainName ·.path = "inject") with _ | a
  · rw [hfind] at hgiven
    cases hgiven
  · exact ⟨a, List.mem_of_find?_eq_some hfind, by simpa using List.find?_some hfind⟩

/-- Where a field's value comes from is what the field declares. -/
theorem Field.source_cases {f : Field} {source : FieldSource} (h : f.source = .ok source) :
    (¬ f.IsInjected ∧ source = .byDefault) ∨
      ∃ supply qualifiers, f.Injects supply qualifiers ∧ source = .injected supply qualifiers := by
  unfold Field.source at h
  rcases hfind : findInject f.attributes with e | _ | given <;> rw [hfind] at h
  · cases h
  -- Without an inject attribute the field is made by default.
  · cases h
    left
    refine ⟨?_, rfl⟩
    rintro ⟨a, ha, hpath⟩
    exact not_mem_of_findInject hfind a ha hpath
  · right
    dsimp only [bind, Except.bind] at h
    -- With one, the type says what supplies the field, or the reading fails.
    rcases htype : (Tree.read .types f.type).bind supply? with _ | t | t | _ <;>
      simp only [Option.bind] at h htype <;> rw [htype] at h <;> cases h
    · exact ⟨_, _, ⟨htype, given, hfind, rfl⟩, rfl⟩
    · exact ⟨_, _, ⟨htype, given, hfind, rfl⟩, rfl⟩
    · exact ⟨_, _, ⟨htype, given, hfind, rfl⟩, rfl⟩

/-! ## Dependencies and initialisers -/

/-- A dependency asks for what is taken in some form: the same kind and type, but an object that is
the container is asked for as the container. -/
def Asks (d : Dependency) (want : Want) : Prop :=
  d.want = if want = .object .container then .container else want

/-- The form in which an initialiser takes an argument, if it takes one. -/
def FieldSource.want? (type : String → TypeKey) : FieldSource → Option Want
  | .byDefault => none
  | .injected supply _ => some (supply.want type)

/-- The initialisers of fields: the name, and the form in which an argument is taken. -/
def initialisers (type : String → TypeKey) (sources : List (String × FieldSource)) :
    List (String × Option Want) :=
  sources.map fun (name, source) => (name, source.want? type)

/-- Fields in order of declaration, the dependencies of a constructor and the initialisers
correspond: a field that is not injected has no dependency and takes its default, and an injected
one has the next dependency and takes the next argument, both for what it declares. -/
inductive Corresponds (type : String → TypeKey) :
    List Field → List Dependency → List (String × Option Want) → Prop
  | nil : Corresponds type [] [] []
  | plain {f : Field} {fields : List Field} {ds : List Dependency}
      {inits : List (String × Option Want)} : ¬ f.IsInjected → Corresponds type fields ds inits →
      Corresponds type (f :: fields) ds ((plainName f.name, none) :: inits)
  | injected {f : Field} {supply : Supply} {qualifiers : List String} {d : Dependency}
      {fields : List Field} {ds : List Dependency} {inits : List (String × Option Want)} :
      f.Injects supply qualifiers → Asks d (supply.want type) →
      (∀ q, q ∈ d.qualifiers ↔ ∃ name ∈ qualifiers, q = .named name) →
      Corresponds type fields ds inits →
      Corresponds type (f :: fields) (d :: ds)
        ((plainName f.name, some (supply.want type)) :: inits)

/-- Qualifiers say nothing of what is wanted. -/
theorem want_foldl_qualified (qualifiers : List Qualifier) (d : Dependency) :
    (qualifiers.foldl Dependency.qualified d).want = d.want := by
  induction qualifiers generalizing d with
  | nil => rfl
  | cons q rest ih => exact ih (d.qualified q)

/-- The qualifiers of a dependency are those it had and those that were added. -/
theorem mem_foldl_qualified (qualifiers : List Qualifier) (d : Dependency) (q : Qualifier) :
    q ∈ (qualifiers.foldl Dependency.qualified d).qualifiers ↔
      q ∈ qualifiers ∨ q ∈ d.qualifiers := by
  induction qualifiers generalizing d with
  | nil => simp
  | cons r rest ih =>
    rw [List.foldl_cons, ih, List.mem_cons]
    unfold Dependency.qualified
    dsimp only
    rw [Qualifiers.mem_put, or_assoc, or_left_comm]

/-- The dependency that stands for a supply asks for what its initialiser takes. -/
theorem Supply.asks_dependency (supply : Supply) (type : String → TypeKey)
    (qualifiers : List String) :
    Asks (supply.dependency type qualifiers) (supply.want type) := by
  unfold Asks
  cases supply with
  | object t =>
    unfold dependency want
    rw [want_foldl_qualified]
    unfold Dependency.object
    -- An object that is the container is asked for as the container.
    by_cases ht : type t = .container
    · rw [if_pos ht]
      exact (if_pos (congrArg Want.object ht)).symm
    · rw [if_neg ht]
      exact (if_neg fun h => ht (Want.object.inj h)).symm
  | selection t =>
    unfold dependency want
    rw [want_foldl_qualified, if_neg nofun]
    rfl
  | container => rfl

/-- The qualifiers of an injected field are exactly those its attribute names. -/
theorem Field.Injects.mem_qualifiers {f : Field} {supply : Supply} {qualifiers : List String}
    (h : f.Injects supply qualifiers) (type : String → TypeKey) (q : Qualifier) :
    q ∈ (supply.dependency type qualifiers).qualifiers ↔ ∃ name ∈ qualifiers, q = .named name := by
  -- A fresh dependency has no qualifiers of its own.
  have hnone : ∀ t, q ∉ (Dependency.object t).qualifiers := by
    intro t
    unfold Dependency.object
    split <;> exact Sorted.not_mem_empty
  have hmap : q ∈ qualifiers.map Qualifier.named ↔ ∃ name ∈ qualifiers, q = .named name := by
    simp [eq_comm]
  cases supply with
  | object t =>
    unfold Supply.dependency
    rw [mem_foldl_qualified, hmap, or_iff_left (hnone _)]
  | selection t =>
    unfold Supply.dependency Dependency.selection
    rw [mem_foldl_qualified, hmap]
    exact or_iff_left Sorted.not_mem_empty
  | container =>
    obtain ⟨given, -, rfl⟩ := h.qualified
    simp [Supply.dependency, Dependency.container]

/-- The dependencies of fields that come from arguments, in order. -/
def dependenciesOf (type : String → TypeKey) (sources : List (String × FieldSource)) :
    List Dependency :=
  sources.filterMap fun (_, source) =>
    match source with
    | .byDefault => none
    | .injected supply qualifiers => some (supply.dependency type qualifiers)

/-- What is read off the fields corresponds to them. -/
theorem corresponds_of_fieldSources (type : String → TypeKey) {fields : List Field}
    {sources : List (String × FieldSource)} (h : fieldSources fields = .ok sources) :
    Corresponds type fields (dependenciesOf type sources) (initialisers type sources) := by
  induction fields generalizing sources with
  | nil =>
    cases h
    exact .nil
  -- Field by field: one that is not injected adds an initialiser and no dependency.
  | cons f rest ih =>
    unfold fieldSources at h
    rcases hsource : f.source with e | source <;> rw [hsource] at h
    · cases h
    rcases hrest : fieldSources rest with e | sources' <;> rw [hrest] at h
    · cases h
    cases h
    rcases Field.source_cases hsource with ⟨hplain, rfl⟩ | ⟨supply, qualifiers, hinjects, rfl⟩
    · exact .plain hplain (ih hrest)
    · exact .injected hinjects (supply.asks_dependency type qualifiers)
        (hinjects.mem_qualifiers type) (ih hrest)

/-- There are no dependencies exactly if no field is injected. -/
theorem Corresponds.eq_nil_iff {type : String → TypeKey} {fields : List Field}
    {ds : List Dependency} {inits : List (String × Option Want)}
    (h : Corresponds type fields ds inits) : ds = [] ↔ ∀ f ∈ fields, ¬ f.IsInjected := by
  induction h with
  | nil => simp
  | plain hplain _ ih => simp [ih, hplain]
  | injected hinjects _ _ _ _ => simp [hinjects.isInjected]

namespace Expansion

/-- The parameters of the generated constructor are the dependencies of the injected fields, in
order. -/
theorem parameters_constructor (e : Expansion) (type : String → TypeKey) :
    (e.constructor type).parameters = dependenciesOf type e.fields := by
  have hmap : dependenciesOf type e.fields =
      e.dependencies.map fun d => d.1.dependency type d.2 := by
    unfold dependenciesOf dependencies
    rw [List.map_filterMap]
    refine List.filterMap_congr fun entry _ => ?_
    rcases entry with ⟨name, _ | ⟨supply, qualifiers⟩⟩ <;> rfl
  rw [hmap]
  unfold constructor
  rcases e.dependencies with _ | ⟨d, rest⟩ <;> rfl

/-- The generated constructor takes nothing exactly if it asks for nothing. -/
theorem constructor_eq_noArgs_iff (e : Expansion) (type : String → TypeKey) :
    e.constructor type = .noArgs ↔ (e.constructor type).parameters = [] := by
  unfold constructor
  rcases e.dependencies with _ | ⟨d, rest⟩ <;> simp [Constructor.parameters]

end Expansion

/-! ## Arguments -/

/-- Initialisers take arguments in turn, each one that takes any the next argument in its form, and
all arguments are used up. What is made of each field stands beside its name. -/
inductive Fills :
    List (String × Option Want) → List (Injected C) → List (String × Option (Taken C)) → Prop
  | nil : Fills [] [] []
  | plain {name : String} {inits : List (String × Option Want)} {values : List (Injected C)}
      {filled : List (String × Option (Taken C))} : Fills inits values filled →
      Fills ((name, none) :: inits) values ((name, none) :: filled)
  | taken {name : String} {want : Want} {i : Injected C} {t : Taken C}
      {inits : List (String × Option Want)} {values : List (Injected C)}
      {filled : List (String × Option (Taken C))} : i.asWanted want = .ok t →
      Fills inits values filled →
      Fills ((name, some want) :: inits) (i :: values) ((name, some t) :: filled)

/-- The construction of a derived component takes what its initialisers say, and leaves the rest. -/
theorem takeFields_eq_ok_iff {type : String → TypeKey} {sources : List (String × FieldSource)}
    {member : String} {values : List (Injected C)} {filled : List (String × Option (Taken C))} :
    takeFields type ⟨member, values⟩ sources = .ok filled ↔
      ∃ used left, values = used ++ left ∧ Fills (initialisers type sources) used filled := by
  induction sources generalizing values filled with
  | nil =>
    constructor
    · intro h
      cases h
      exact ⟨[], values, rfl, .nil⟩
    · rintro ⟨used, left, -, hfills⟩
      cases hfills
      rfl
  | cons entry rest ih =>
    obtain ⟨name, _ | ⟨supply, qualifiers⟩⟩ := entry
    -- A field made by default takes no value.
    · unfold takeFields
      constructor
      · intro h
        rcases hrest : takeFields type ⟨member, values⟩ rest with e | filled' <;> rw [hrest] at h
        · cases h
        cases h
        obtain ⟨used, left, hvalues, hfills⟩ := ih.1 hrest
        exact ⟨used, left, hvalues, .plain hfills⟩
      · rintro ⟨used, left, hvalues, hfills⟩
        cases hfills with
        | plain hfills =>
          rw [ih.2 ⟨used, left, hvalues, hfills⟩]
          rfl
    -- An injected field takes the first value that is left, if it fits.
    · unfold takeFields Arguments.take
      constructor
      · intro h
        rcases values with _ | ⟨i, values⟩
        · cases h
        dsimp only at h
        rcases htake : i.asWanted (supply.want type) with e | t <;> rw [htake] at h
        · cases h
        dsimp only at h
        rcases hrest : takeFields type ⟨member, values⟩ rest with e | filled' <;> rw [hrest] at h
        · cases h
        cases h
        obtain ⟨used, left, rfl, hfills⟩ := ih.1 hrest
        exact ⟨i :: used, left, rfl, .taken htake hfills⟩
      · rintro ⟨used, left, rfl, hfills⟩
        cases hfills with
        | taken htake hfills =>
          dsimp only [List.cons_append]
          rw [htake]
          dsimp only
          rw [ih.2 ⟨_, left, rfl, hfills⟩]
          rfl

/-- A value was resolved in the form that a want asks for. -/
inductive Answers : Want → Payload C → Prop
  | object (type : TypeKey) (x : Value C) : Answers (.object type) (.value type x)
  | container (c : ContainerId) : Answers .container (.value .container (.container c))
  | selection (s : Selection) : Answers (.selection s.type) (.selection s)

/-- What a dependency was resolved to can be taken in the form that the dependency asks for. -/
theorem Answers.taken {d : Dependency} {want : Want} {i : Injected C} (hasks : Asks d want)
    (h : Answers d.want i.payload) : ∃ t, i.asWanted want = .ok t := by
  obtain ⟨member, payload⟩ := i
  unfold Asks at hasks
  rw [hasks] at h
  by_cases hcontainer : want = .object .container
  · -- An object that is the container was resolved as the container, and is taken as an object.
    subst hcontainer
    rw [if_pos rfl] at h
    cases h with
    | container c => exact ⟨.value (.container c), rfl⟩
  · rw [if_neg hcontainer] at h
    cases h with
    | object type x => exact ⟨.value x, by simp [Injected.asWanted, Injected.asObject, Except.map]⟩
    | container c => exact ⟨.value (.container c), rfl⟩
    | selection s =>
      exact ⟨.selection s, by simp [Injected.asWanted, Injected.asSelection, Except.map]⟩

/-- What the dependencies of a constructor were resolved to fills the fields. -/
theorem Corresponds.fills {type : String → TypeKey} {fields : List Field} {ds : List Dependency}
    {inits : List (String × Option Want)} (h : Corresponds type fields ds inits)
    {values : List (Injected C)}
    (hvalues : List.Forall₂ (fun d i => Answers d.want i.payload) ds values) :
    ∃ filled, Fills inits values filled := by
  induction h generalizing values with
  | nil =>
    cases hvalues
    exact ⟨[], .nil⟩
  | plain _ _ ih =>
    -- A field made by default is filled whatever the values.
    obtain ⟨filled, hfills⟩ := ih hvalues
    exact ⟨_, .plain hfills⟩
  | injected _ hasks _ _ ih =>
    cases hvalues with
    | cons hanswers hrest =>
      obtain ⟨t, htaken⟩ := hanswers.taken hasks
      obtain ⟨filled, hfills⟩ := ih hrest
      exact ⟨_, .taken htaken hfills⟩

end Derive

/-! ## Resolved dependencies -/

theorem Label.parameters_map_snd (owner callable : String) (wanted : List Dependency) :
    (parameters owner callable wanted).map Prod.snd = wanted := by
  unfold parameters
  apply List.ext_getElem
  · simp
  · intro index _ _
    simp

namespace Host

open Derive

variable {h : Host C} {c : ContainerId} {w v : World C}

/-- Lazy handles are of the type that was asked for. -/
def Selects (h : Host C) : Prop :=
  ∀ c type qualifiers w v s,
    (h.perform (.select c type qualifiers)).exec w = (some (.ok s), v) → s.type = type

/-- A dependency that resolves is answered in the form it asked for. -/
theorem resolve_asked (hs : h.Selects) {member : String} {d : Dependency} {i : Injected C}
    (hexec : (resolve h c member d).run.exec w = (some (.ok i), v)) :
    Answers d.want i.payload := by
  unfold resolve at hexec
  rcases hwant : d.want with type | _ | type <;> rw [hwant] at hexec <;> dsimp only at hexec
  · obtain ⟨x, u, -, hend⟩ := exec_bind_ok_iff.1 hexec
    cases hend
    exact .object type x
  · cases hexec
    exact .container c
  · obtain ⟨s, u, hselect, hend⟩ := exec_bind_ok_iff.1 hexec
    cases hend
    obtain rfl := hs c type d.qualifiers _ _ s hselect
    exact .selection s

/-- Values come in the order of their dependencies, each in its form; by induction on the list. -/
theorem resolveAll_asked (hs : h.Selects) {labelled : List (String × Dependency)}
    {values : List (Injected C)}
    (hexec : (resolveAll h c labelled).run.exec w = (some (.ok values), v)) :
    List.Forall₂ (fun d i => Answers d.want i.payload) (labelled.map Prod.snd) values := by
  induction labelled generalizing w values with
  | nil =>
    cases hexec
    exact .nil
  | cons entry rest ih =>
    unfold resolveAll at hexec
    obtain ⟨i, u, hfirst, hrest⟩ := exec_bind_ok_iff.1 hexec
    obtain ⟨values', u', hvalues, hend⟩ := exec_bind_ok_iff.1 hrest
    cases hend
    exact .cons (resolve_asked hs hfirst) (ih hvalues)

/-- What is left of the making of a component once the object has been constructed. -/
def complete (h : Host C) (c : ContainerId) (type : TypeKey) (o : C.Object) :
    Attempt C (Value C) := do
  let (o, injected) ← step (injectObject h c type o)
  settle injected
  postConstruct h type o
  return .object o

end Host

/-- Selections answered at any depth belong to the request they answer. -/
theorem Codebase.hostAt_selects (code : Codebase C) (depth : Nat) :
    (code.hostAt depth).Selects := by
  intro c type qualifiers w v s hexec
  -- At depth zero nothing is answered; above it the selection carries the type it was made for.
  cases depth with
  | zero => cases hexec
  | succ depth =>
    have hselect : (Host.select (code.hostAt depth) c type qualifiers).run.exec w =
        (some (.ok s), v) := hexec
    unfold Host.select at hselect
    obtain ⟨_, u, -, hrest⟩ := Host.exec_bind_ok_iff.1 hselect
    obtain ⟨k, u', -, hrest⟩ := Host.exec_bind_ok_iff.1 hrest
    obtain ⟨_, u'', -, hend⟩ := Host.exec_bind_ok_iff.1 hrest
    cases hend
    rfl

namespace Derive

/-- An item that expands has been read field by field. -/
theorem Item.fieldSources_of_expand {item : Item} {e : Expansion} (h : item.expand = .ok e) :
    fieldSources item.fields = .ok e.fields := by
  unfold expand at h
  rcases hkind : item.kind <;> simp only [hkind] at h
  -- Only a struct is expanded; the other kinds are refused.
  case struct =>
    rcases hoptions : Options.ofAttributes item.attributes with _ | options <;>
      rw [hoptions] at h
    · cases h
    rcases hfields : fieldSources item.fields with _ | fields <;> rw [hfields] at h
    · cases h
    rcases hpost : checkMethodNames options.postConstruct with _ | _ <;>
      simp only [bind, Except.bind, pure, Except.pure, hpost] at h
    · cases h
    rcases hpre : checkMethodNames options.preDestroy with _ | _ <;> simp only [hpre] at h
    · cases h
    cases h
    rfl
  all_goals cases h

/-- The constructor and the construction of a derived component agree. Its dependencies and the
initialisers that take an argument follow the declaration: the same fields in the same order, the
same kinds and types. Fields that are not injected take their default, and the constructor is
without arguments exactly if all fields do. So whenever the dependencies of the constructor have
been resolved, the construction takes every value once, fails with no argument, and the making of
the component goes on with the object. -/
theorem Item.expand_wires {item : Item} {e : Expansion} (h : item.expand = .ok e)
    (b : Binding C) :
    Corresponds b.type item.fields (e.constructor b.type).parameters
      (initialisers b.type e.fields) ∧
    (e.constructor b.type = .noArgs ↔ ∀ f ∈ item.fields, ¬ f.IsInjected) ∧
    (∀ member (values : List (Injected C)) filled,
      takeFields b.type ⟨member, values⟩ e.fields = .ok filled ↔
        ∃ used left, values = used ++ left ∧ Fills (initialisers b.type e.fields) used filled) ∧
    ∀ (code : Codebase C) type, code.component type = e.component b →
      ∀ depth c w v values,
        (Host.resolveAll (code.hostAt depth) c (Label.parameters type.name "new"
          (e.constructor b.type).parameters)).run.exec w = (some (.ok values), v) →
        ∃ filled, Fills (initialisers b.type e.fields) values filled ∧
          (code.component type).construct ⟨Label.member type.name "new", values⟩ =
            ((b.make filled).bind fun o => .done (.ok o)) ∧
          (Host.build (code.hostAt depth) c type).run.exec w =
            ((code.hostAt depth).invoke (Label.member type.name "construct")
              ((b.make filled).bind fun o => .done (.ok o)) >>=
                (code.hostAt depth).complete c type).run.exec v := by
  have hcorresponds : Corresponds b.type item.fields (e.constructor b.type).parameters
      (initialisers b.type e.fields) := by
    rw [e.parameters_constructor]
    exact corresponds_of_fieldSources b.type (Item.fieldSources_of_expand h)
  refine ⟨hcorresponds, ?_, fun _ _ _ => takeFields_eq_ok_iff, ?_⟩
  · rw [e.constructor_eq_noArgs_iff, hcorresponds.eq_nil_iff]
  · intro code type hcomponent depth c w v values hexec
    -- The values fit their dependencies, so the fields can be filled and the constructor has no
    -- argument to complain of.
    have hanswers := Host.resolveAll_asked (code.hostAt_selects depth) hexec
    rw [Label.parameters_map_snd] at hanswers
    obtain ⟨filled, hfills⟩ := hcorresponds.fills hanswers
    have htake : takeFields b.type ⟨Label.member type.name "new", values⟩ e.fields = .ok filled :=
      takeFields_eq_ok_iff.2 ⟨values, [], (List.append_nil values).symm, hfills⟩
    have hconstruct : (code.component type).construct ⟨Label.member type.name "new", values⟩ =
        ((b.make filled).bind fun o => .done (.ok o)) := by
      rw [hcomponent]
      unfold Expansion.component
      dsimp only
      rw [htake]
    refine ⟨filled, hfills, hconstruct, ?_⟩
    rw [← hconstruct]
    -- The generated constructor is a constant.
    have hask : ((code.hostAt depth).run (code.component type).constructor).exec w =
        (some (e.constructor b.type), w) := by
      rw [hcomponent]
      rfl
    unfold Host.build
    refine (Host.exec_bind_ok (Host.exec_step_some hask)).trans ?_
    exact Host.exec_bind_ok hexec

end Derive

namespace Sample

open Derive

/-- A room with a door, windows of glass and the house that it is in. -/
def room : Item where
  kind := .struct
  name := "Room"
  fields :=
    [{ name := "door", type := "Arc<Door>", attributes := [⟨"inject", .bare⟩] },
     { name := "open", type := "bool" },
     { name := "windows", type := "Selection<Window>",
       attributes := [⟨"inject", .list { entries := [⟨"qualifier", some (.text "glass")⟩] }⟩] },
     { name := "house", type := "Arc<Container>", attributes := [⟨"inject", .bare⟩] }]

/-- What a room expands to. -/
def roomExpansion : Expansion where
  parameters := ""
  self := "Room"
  wherePredicates := none
  options := {}
  fields :=
    [("door", .injected (.object "Door") []), ("open", .byDefault),
     ("windows", .injected (.selection "Window") ["glass"]),
     ("house", .injected (.object "Container") [])]

/-- Of the types that a room names, only the container has a meaning of its own. -/
def roomBinding : Binding Sample where
  type name := if name = "Container" then .container else .named name
  make _ := .done ()
  call _ _ := .done (.ok ())

/-- The house is asked for as the container and taken as an object. -/
theorem room_wired :
    room.expand = .ok roomExpansion ∧
      Corresponds roomBinding.type room.fields
        [.object (.named "Door"), (Dependency.selection (.named "Window")).qualified
          (.named "glass"), .container]
        [("door", some (.object (.named "Door"))), ("open", none),
         ("windows", some (.selection (.named "Window"))), ("house", some (.object .container))] ∧
      roomExpansion.constructor roomBinding.type ≠ .noArgs := by
  have hexpand : room.expand = .ok roomExpansion := by decide +kernel
  obtain ⟨hcorresponds, hnoArgs, -, -⟩ := Item.expand_wires hexpand roomBinding
  have hdoor : ∃ f ∈ room.fields, f.IsInjected :=
    ⟨_, List.mem_cons_self, _, List.mem_cons_self, by decide +kernel⟩
  obtain ⟨f, hf, hinjected⟩ := hdoor
  exact ⟨hexpand, hcorresponds, fun h => hnoArgs.1 h f hf hinjected⟩

end Sample

end Wiring
