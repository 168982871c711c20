import Mathlib.Logic.Relation
import Wiring.Proofs.Describing
import Wiring.Proofs.Grammar
import Wiring.Proofs.Unwinding

/-!
# Attributes compose

What an item says of itself in `component` attributes is the list of all their entries: attributes
may be split and merged, and others may stand between them. Of that list each key takes its own
entries, in order, so two neighbours under different keys may be exchanged. What an item expands to
has the last scope, and all qualifiers and hooks in order; its component runs these hooks.

Main statement: `Derive.Item.expand_composes`.
-/

namespace Wiring

namespace Derive

/-! ## Other distributions of the same entries -/

/-- Attributes differ by one step: a `component` attribute is split in two, an empty one is put in,
or one of another name. The brackets around the lists may be of any kind. -/
inductive Regroups : List Attribute → List Attribute → Prop
  | split {path path₁ path₂ : String} {d d₁ d₂ : Delimiter} (before after : List Attribute)
      (l m : List Entry) : plainName path = "component" → plainName path₁ = "component" →
      plainName path₂ = "component" →
      Regroups (before ++ ⟨path, .list { delimiter := d, entries := l ++ m }⟩ :: after)
        (before ++ ⟨path₁, .list { delimiter := d₁, entries := l }⟩ ::
          ⟨path₂, .list { delimiter := d₂, entries := m }⟩ :: after)
  | empty {path : String} {d : Delimiter} (before after : List Attribute) :
      plainName path = "component" → Regroups (before ++ after)
        (before ++ ⟨path, .list { delimiter := d, entries := [] }⟩ :: after)
  | other {a : Attribute} (before after : List Attribute) : plainName a.path ≠ "component" →
      Regroups (before ++ after) (before ++ a :: after)

section Attributes

variable {attributes attributes' : List Attribute} {a : Attribute} {e e' : Entry}
  {l r : List Entry}

/-- The component attributes of two lists behind each other. -/
theorem componentsOf_append (before after : List Attribute) :
    componentsOf (before ++ after) = componentsOf before ++ componentsOf after :=
  List.filter_append ..

theorem componentsOf_cons_self (h : plainName a.path = "component") (after : List Attribute) :
    componentsOf (a :: after) = a :: componentsOf after :=
  List.filter_cons_of_pos (by simpa using h)

/-- A list without a fault can be read to its end. -/
theorem lists_of_whole (d : Delimiter) (l : List Entry) :
    (AttributeForm.list { delimiter := d, entries := l }).Lists fun _ => True :=
  ⟨_, rfl, rfl, fun _ _ => True.intro⟩

theorem componentsOf_cons_of_ne (h : plainName a.path ≠ "component") (after : List Attribute) :
    componentsOf (a :: after) = componentsOf after :=
  List.filter_cons_of_neg (by simpa using h)

/-- Regrouping changes neither an entry nor the order of the entries. -/
theorem Regroups.entries (h : Regroups attributes attributes') :
    componentEntries attributes' = componentEntries attributes := by
  unfold componentEntries
  cases h with
  -- A list that is split has its entries in the same order, the second part right behind the first.
  | split before after l m hpath h₁ h₂ =>
    rw [componentsOf_append, componentsOf_append, componentsOf_cons_self (a := ⟨_, .list _⟩) h₁,
      componentsOf_cons_self (a := ⟨_, .list _⟩) h₂,
      componentsOf_cons_self (a := ⟨_, .list _⟩) hpath]
    simp [AttributeForm.entries]
  | empty before after hpath =>
    rw [componentsOf_append, componentsOf_append, componentsOf_cons_self (a := ⟨_, .list _⟩) hpath]
    simp [AttributeForm.entries]
  | other before after hpath =>
    rw [componentsOf_append, componentsOf_append, componentsOf_cons_of_ne hpath]

/-- Regrouping turns no written list into an absent one. -/
theorem Regroups.listed_iff (h : Regroups attributes attributes') :
    Options.Listed attributes' ↔ Options.Listed attributes := by
  unfold Options.Listed
  cases h with
  | split before after l m hpath h₁ h₂ =>
    rw [componentsOf_append, componentsOf_append, componentsOf_cons_self (a := ⟨_, .list _⟩) h₁,
      componentsOf_cons_self (a := ⟨_, .list _⟩) h₂,
      componentsOf_cons_self (a := ⟨_, .list _⟩) hpath]
    simp only [List.forall_mem_append, List.forall_mem_cons, lists_of_whole, true_and]
  | empty before after hpath =>
    rw [componentsOf_append, componentsOf_append, componentsOf_cons_self (a := ⟨_, .list _⟩) hpath]
    simp only [List.forall_mem_append, List.forall_mem_cons, lists_of_whole, true_and]
  | other before after hpath =>
    rw [componentsOf_append, componentsOf_append, componentsOf_cons_of_ne hpath]

/-- However attributes are regrouped, they have the same entries, in lists as before. -/
theorem same_of_regrouped (h : Relation.EqvGen Regroups attributes attributes') :
    componentEntries attributes' = componentEntries attributes ∧
      (Options.Listed attributes' ↔ Options.Listed attributes) := by
  induction h with
  | rel _ _ h => exact ⟨h.entries, h.listed_iff⟩
  | refl => exact ⟨rfl, Iff.rfl⟩
  | symm _ _ _ ih => exact ⟨ih.1.symm, ih.2.symm⟩
  | trans _ _ _ _ _ ih ih' => exact ⟨ih'.1.trans ih.1, ih'.2.trans ih.2⟩

/-! ## What the entries say -/

/-- Entries under different keys may be exchanged. -/
theorem textsUnder_swap (h : plainName e.key ≠ plainName e'.key) (key : String) :
    textsUnder key (l ++ e :: e' :: r) = textsUnder key (l ++ e' :: e :: r) := by
  rw [textsUnder_append, textsUnder_append]
  refine congrArg _ ?_
  unfold textsUnder
  simp only [List.filterMap_cons]
  by_cases he : plainName e.key = key
  · have he' : plainName e'.key ≠ key := fun h' => h (he.trans h'.symm)
    rw [if_neg he']
  · rw [if_neg he]

/-- Two neighbours about different things may change places. -/
theorem Options.said_swap (h : plainName e.key ≠ plainName e'.key) :
    said (l ++ e :: e' :: r) = said (l ++ e' :: e :: r) := by
  unfold said
  simp only [textsUnder_swap h]

/-- Attributes with the same entries in lists are read alike. -/
theorem Options.ofAttributes_congr (h : Listed attributes) (h' : Listed attributes')
    (hentries : componentEntries attributes' = componentEntries attributes) :
    ofAttributes attributes' = ofAttributes attributes := by
  unfold ofAttributes
  rw [addAttributes_eq_addAll h, addAttributes_eq_addAll h', hentries]

/-- So are attributes in which two neighbours are exchanged. -/
theorem Options.ofAttributes_swap (h : Valid attributes) (h' : Listed attributes')
    (hentries : componentEntries attributes = l ++ e :: e' :: r)
    (hkeys : plainName e.key ≠ plainName e'.key)
    (hentries' : componentEntries attributes' = l ++ e' :: e :: r) :
    ofAttributes attributes' = ofAttributes attributes := by
  -- The entries are the same but for their order, so they are options here as well.
  have hvalid : Valid attributes' := by
    refine ⟨h', fun x hx => h.options x ?_⟩
    rw [hentries'] at hx
    rw [hentries]
    simp only [List.mem_append, List.mem_cons] at hx ⊢
    tauto
  rw [ofAttributes_said h, ofAttributes_said hvalid, hentries, hentries', said_swap hkeys]

/-- Of several scopes the last one counts. -/
theorem Options.scope_said {scope : Scope} (h : e.Gives "scope" scope.display)
    (hlast : ∀ e' ∈ r, plainName e'.key ≠ "scope") :
    (said (l ++ e :: r)).scope = some scope := by
  have hnone : textsUnder "scope" r = [] := by
    refine List.filterMap_eq_nil_iff.2 fun e' he' => ?_
    rw [if_neg (hlast e' he')]
  have htexts : textsUnder "scope" (l ++ e :: r) = textsUnder "scope" l ++ [scope.display] := by
    have hsplit : l ++ e :: r = (l ++ [e]) ++ r := by simp
    rw [hsplit, textsUnder_append, textsUnder_concat h, if_pos rfl, hnone, List.append_nil]
  unfold said
  simp only [htexts, List.getLast?_concat, Option.bind_some]
  cases scope <;> rfl

/-- Without an entry about the scope, no scope is said. -/
theorem Options.scope_said_none (h : ∀ e ∈ l, plainName e.key ≠ "scope") :
    (said l).scope = none := by
  have hnone : textsUnder "scope" l = [] := by
    refine List.filterMap_eq_nil_iff.2 fun e he => ?_
    rw [if_neg (h e he)]
  unfold said
  simp [hnone]

end Attributes

/-! ## What is expanded -/

namespace Item

variable {item : Item}

/-- An item's attributes matter for what options are read of them. -/
theorem expand_congr {attributes : List Attribute}
    (h : Options.ofAttributes attributes = Options.ofAttributes item.attributes) :
    { item with attributes }.expand = item.expand := by
  unfold expand
  rw [h]

/-- What is expanded has the options that were read. -/
theorem options_of_expand {x : Expansion} (h : item.expand = .ok x) :
    Options.ofAttributes item.attributes = .ok x.options := by
  -- An item that is expanded is a component, so its expansion is the four readings in turn.
  have hcomponent : item.IsComponent := rules_hold_iff.1 ((expand_heeds item).ok_iff.1 ⟨x, h⟩)
  rw [expand_struct hcomponent.kind] at h
  rcases hread : Options.ofAttributes item.attributes with p | options <;> rw [hread] at h
  · cases h
  rcases hfields : fieldSources item.fields with p | fields <;>
    simp only [bind, Except.bind, hfields] at h
  · cases h
  rcases hpost : checkMethodNames options.postConstruct with p | _ <;> simp only [hpost] at h
  · cases h
  rcases hpre : checkMethodNames options.preDestroy with p | _ <;> simp only [hpre] at h
  · cases h
  cases h
  rfl

end Item

section Component

variable {C : Client}

def Binding.hooks (b : Binding C) (names : List String) : List (Hook C.Object (Routine C Unit)) :=
  names.map fun name => ⟨name, b.call name⟩

namespace Expansion

/-- Hooks that are added one by one stand behind those already there, in the order they are added.
-/
theorem foldl_afterConstruction (b : Binding C) (names : List String)
    (l : Lifecycle C.Object (Routine C Unit)) :
    names.foldl (fun l name => l.afterConstruction name (b.call name)) l =
      { l with postConstruct := l.postConstruct ++ b.hooks names } := by
  induction names generalizing l with
  | nil => simp [Binding.hooks]
  | cons name rest ih =>
    rw [List.foldl_cons, ih]
    simp [Lifecycle.afterConstruction, Binding.hooks]

/-- Teardown hooks are added the same way. -/
theorem foldl_beforeTeardown (b : Binding C) (names : List String)
    (l : Lifecycle C.Object (Routine C Unit)) :
    names.foldl (fun l name => l.beforeTeardown name (b.call name)) l =
      { l with preDestroy := l.preDestroy ++ b.hooks names } := by
  induction names generalizing l with
  | nil => simp [Binding.hooks]
  | cons name rest ih =>
    rw [List.foldl_cons, ih]
    simp [Lifecycle.beforeTeardown, Binding.hooks]

/-- The hooks of a component are those of the options, each kind in order. -/
theorem lifecycle_eq (x : Expansion) (b : Binding C) :
    x.lifecycle b = ⟨b.hooks x.options.postConstruct, b.hooks x.options.preDestroy⟩ := by
  unfold lifecycle
  rw [foldl_afterConstruction, foldl_beforeTeardown]
  rfl

end Expansion

end Component

/-- The markers have the qualifiers of the options, without order or repetition. -/
theorem Expansion.mem_expandedQualifiers_markers {x : Expansion} {q : Qualifier} :
    q ∈ x.markers.expandedQualifiers ↔ ∃ name ∈ x.options.qualifiers, q = .named name := by
  rw [Markers.mem_expandedQualifiers]
  unfold markers Sorted.ofList
  dsimp only
  rw [Qualifiers.mem_putAll]
  simp [eq_comm]

/-- After its construction an object runs hooks with some names, and before its teardown hooks with
others, whatever host makes and disposes of it: each kind in order, up to the first that fails. -/
structure RunsMethods {C : Client} (component : Component C) (b : Binding C)
    (post pre : List String) : Prop where
  postConstruct : ∀ (h : Host C) type, h.code.component type = component → ∀ o w r v,
    (Host.postConstruct h type o).run.exec w = (some r, v) ↔
      h.RunsHooks type o (b.hooks post) w r v
  preDestroy : ∀ (h : Host C) (d : Definition C), h.code.component d.implementation = component →
    d.source = .component → ∀ o w r v,
    (Host.disposeBySource h d (.object o)).run.exec w = (some r, v) ↔
      h.RunsHooks d.implementation o (b.hooks pre) w r v

/-- What is generated runs the methods that the attributes name, and no other. -/
theorem Expansion.runsMethods {C : Client} (x : Expansion) (b : Binding C) :
    RunsMethods (x.component b) b x.options.postConstruct x.options.preDestroy := by
  -- The generated lifecycle is a constant: asking for it runs nothing and changes nothing.
  have hrun : ∀ (h : Host C) type, h.code.component type = x.component b → ∀ w,
      (h.run (h.code.component type).lifecycle).exec w = (some (x.lifecycle b), w) := by
    intro h type hcomponent w
    rw [hcomponent]
    rfl
  constructor
  · intro h type hcomponent o w r v
    rw [Host.exec_postConstruct_iff, hrun h type hcomponent, x.lifecycle_eq]
    constructor
    · rintro ⟨_, _, ⟨⟩, hruns⟩
      exact hruns
    · intro hruns
      exact ⟨_, _, rfl, hruns⟩
  · intro h d hcomponent hsource o w r v
    -- A component's own teardown is its teardown hooks.
    have hdispose : Host.disposeBySource h d (.object o) =
        Host.preDestroy h d.implementation o := by
      unfold Host.disposeBySource
      rw [hsource]
    rw [hdispose, Host.exec_preDestroy_iff, hrun h _ hcomponent, x.lifecycle_eq]
    constructor
    · rintro ⟨_, _, ⟨⟩, hruns⟩
      exact hruns
    · intro hruns
      exact ⟨_, _, rfl, hruns⟩

/-- What an item with valid options expands to depends on the list of all their entries. It is the
same for all attributes that have these entries, so for regrouped ones, and neighbours under
different keys may be exchanged in it. If the item expands, the last scope counts; the qualifiers
and the names of hooks are kept in order and with repetitions; the markers resolve to that scope, or
to a singleton if there is none, and to the set of the qualifiers; and the component runs the
hooks in order. -/
theorem Item.expand_composes {item : Item} (h : Options.Valid item.attributes) :
    (∀ attributes, Options.Listed attributes →
      componentEntries attributes = componentEntries item.attributes →
        { item with attributes }.expand = item.expand) ∧
    (∀ attributes, Relation.EqvGen Regroups item.attributes attributes →
      { item with attributes }.expand = item.expand) ∧
    (∀ attributes l e e' r, Options.Listed attributes → plainName e.key ≠ plainName e'.key →
      componentEntries item.attributes = l ++ e :: e' :: r →
      componentEntries attributes = l ++ e' :: e :: r →
        { item with attributes }.expand = item.expand) ∧
    ∀ x, item.expand = .ok x →
      x.options.qualifiers = textsUnder "qualifier" (componentEntries item.attributes) ∧
      x.options.postConstruct = textsUnder "post_construct" (componentEntries item.attributes) ∧
      x.options.preDestroy = textsUnder "pre_destroy" (componentEntries item.attributes) ∧
      (∀ l e r (scope : Scope), componentEntries item.attributes = l ++ e :: r →
        e.Gives "scope" scope.display → (∀ e' ∈ r, plainName e'.key ≠ "scope") →
          x.options.scope = some scope ∧ x.markers.resolvedScope = scope) ∧
      ((∀ e ∈ componentEntries item.attributes, plainName e.key ≠ "scope") →
        x.options.scope = none ∧ x.markers.resolvedScope = .singleton) ∧
      (∀ q, q ∈ x.markers.expandedQualifiers ↔
        ∃ name ∈ textsUnder "qualifier" (componentEntries item.attributes), q = .named name) ∧
      ∀ (C : Client) (b : Binding C), RunsMethods (x.component b) b
        (textsUnder "post_construct" (componentEntries item.attributes))
        (textsUnder "pre_destroy" (componentEntries item.attributes)) := by
  refine ⟨fun attributes hlisted hentries => ?_, fun attributes hregrouped => ?_,
    fun attributes l e e' r hlisted hkeys hentries hentries' => ?_, fun x hx => ?_⟩
  · exact expand_congr (Options.ofAttributes_congr h.listed hlisted hentries)
  · obtain ⟨hentries, hlisted⟩ := same_of_regrouped hregrouped
    exact expand_congr (Options.ofAttributes_congr h.listed (hlisted.2 h.listed) hentries)
  · exact expand_congr (Options.ofAttributes_swap h hlisted hentries hkeys hentries')
  -- A valid item's options are what its entries say, read in one pass.
  · have hoptions : x.options = Options.said (componentEntries item.attributes) :=
      Except.ok.inj ((options_of_expand hx).symm.trans (Options.ofAttributes_said h))
    -- Without a scope among the markers the default is a singleton.
    have hresolved : x.markers.resolvedScope = x.options.scope.getD .singleton := by
      unfold Expansion.markers Markers.resolvedScope Markers.expandedScope
      rcases x.options.scope with _ | scope <;> rfl
    have hmarkers := fun q => x.mem_expandedQualifiers_markers (q := q)
    have hruns := fun C (b : Binding C) => x.runsMethods b
    rw [hoptions] at hmarkers
    simp only [hoptions] at hruns
    refine ⟨by rw [hoptions]; rfl, by rw [hoptions]; rfl, by rw [hoptions]; rfl, ?_, ?_, hmarkers,
      hruns⟩
    -- An entry about the scope that no other follows has the last word.
    · intro l e r scope hentries hgives hlast
      have hscope : x.options.scope = some scope := by
        rw [hoptions, hentries]
        exact Options.scope_said hgives hlast
      rw [hresolved, hscope]
      exact ⟨rfl, rfl⟩
    · intro hnone
      have hscope : x.options.scope = none := by
        rw [hoptions]
        exact Options.scope_said_none hnone
      rw [hresolved, hscope]
      exact ⟨rfl, rfl⟩

end Derive

namespace Sample

open Derive

def passing : Derive.Entry := ⟨"scope", some (.text "prototype")⟩

def warming : Derive.Entry := ⟨"post_construct", some (.text "warm")⟩

/-- The other options of a dimmer. -/
def dimming : List Derive.Entry :=
  [⟨"scope", some (.text "singleton")⟩, ⟨"qualifier", some (.text "red")⟩,
   ⟨"post_construct", some (.text "glow")⟩, ⟨"pre_destroy", some (.text "cool")⟩, warming]

/-- A dimmer whose options are in two attributes, with another one between them. -/
def dimmer : Item where
  kind := .struct
  name := "Dimmer"
  attributes :=
    [⟨"component", .list { entries := [passing, warming] }⟩, ⟨"doc", .assigned⟩,
     ⟨"component", .list { entries := dimming }⟩]

/-- The options in one attribute, the first two exchanged. -/
def exchanged : List Attribute :=
  [⟨"component", .list { entries := warming :: passing :: dimming }⟩]

/-- What a dimmer expands to. -/
def dimmerExpansion : Expansion where
  parameters := ""
  self := "Dimmer"
  wherePredicates := none
  options :=
    { scope := some .singleton, qualifiers := ["red"],
      postConstruct := ["warm", "glow", "warm"], preDestroy := ["cool"] }
  fields := []

theorem dimmer_valid : Options.Valid dimmer.attributes := by
  have hcomponents : componentsOf dimmer.attributes =
      [⟨"component", .list { entries := [passing, warming] }⟩,
       ⟨"component", .list { entries := dimming }⟩] := by
    decide +kernel
  have hplain : ∀ key ∈ ["scope", "qualifier", "post_construct", "pre_destroy"],
      plainName key = key := by decide +kernel
  simp only [List.forall_mem_cons, List.not_mem_nil, false_implies, implies_true, and_true]
    at hplain
  obtain ⟨hscope, hqualifier, hpost, hpre⟩ := hplain
  constructor
  · unfold Options.Listed
    rw [hcomponents]
    simp only [List.forall_mem_cons, lists_of_whole, true_and]
    exact fun _ h => absurd h List.not_mem_nil
  · unfold componentEntries
    rw [hcomponents]
    simp [AttributeForm.entries, passing, warming, dimming, Entry.IsOption, Entry.Gives, hscope,
      hqualifier, hpost, hpre]

/-- In one attribute and in another order the options say the same: the later scope counts, and a
hook that is named twice runs twice. -/
theorem dimmer_composes :
    { dimmer with attributes := exchanged }.expand = dimmer.expand ∧
      dimmer.expand = .ok dimmerExpansion ∧
      dimmerExpansion.markers.resolvedScope = .singleton ∧
      RunsMethods (dimmerExpansion.component roomBinding) roomBinding ["warm", "glow", "warm"]
        ["cool"] := by
  have hexpand : dimmer.expand = .ok dimmerExpansion := by decide +kernel
  have hlisted : Options.Listed exchanged := by
    have hcomponents : componentsOf exchanged = exchanged := by decide +kernel
    unfold Options.Listed
    rw [hcomponents]
    exact List.forall_mem_singleton.2 (lists_of_whole _ _)
  have hkeys : plainName passing.key ≠ plainName warming.key := by decide +kernel
  have hentries : componentEntries dimmer.attributes = [] ++ passing :: warming :: dimming := by
    decide +kernel
  have hentries' : componentEntries exchanged = [] ++ warming :: passing :: dimming := by
    decide +kernel
  have hnames : textsUnder "post_construct" (componentEntries dimmer.attributes) =
      ["warm", "glow", "warm"] := by decide +kernel
  have hnames' : textsUnder "pre_destroy" (componentEntries dimmer.attributes) = ["cool"] := by
    decide +kernel
  obtain ⟨-, -, hexchange, hexpands⟩ := Item.expand_composes dimmer_valid
  obtain ⟨-, -, -, -, -, -, hruns⟩ := hexpands dimmerExpansion hexpand
  have hruns := hruns Sample roomBinding
  rw [hnames, hnames'] at hruns
  exact ⟨hexchange exchanged [] passing warming dimming hlisted hkeys hentries hentries', hexpand,
    by decide +kernel, hruns⟩

end Sample

end Wiring
