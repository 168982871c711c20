import Wiring.Derive.Attribute
import Wiring.Proofs.Reading

/-!
# What declarations are accepted

Beside the rules by which an item is read, in their order (`Item.rules`), stands what an item needs
to be a component without any order (`Item.IsComponent`). An item expands exactly if it is one, and
otherwise the first broken rule is reported.

Main statement: `Item.expand_decides`.
-/

namespace Wiring.Derive

/-! ## Types of injected fields -/

/-- A path goes on with some trees: of the first segment and what they add to it or put behind it,
the second one is the last. -/
inductive Segment.Leads : Segment → List Tree → Segment → Prop
  | last (s : Segment) : Leads s [] s
  /-- Another segment follows. -/
  | next {s last : Segment} {name : String} {rest : List Tree} : Leads { name } rest last →
      Leads s (.leaf (.mark "::") :: .leaf (.word name) :: rest) last
  /-- Arguments follow the name. -/
  | angled {s last : Segment} {fixed : Bool} {entries : List (List Tree × Bool)}
      {rest : List Tree} : Leads { s with arguments := .angled entries } rest last →
      Leads s (.angle fixed entries :: rest) last
  /-- Arguments follow behind the mark that they have within code. -/
  | turbofish {s last : Segment} {fixed : Bool} {entries : List (List Tree × Bool)}
      {rest : List Tree} : Leads { s with arguments := .angled entries } rest last →
      Leads s (.leaf (.mark "::") :: .angle fixed entries :: rest) last
  /-- Parameters follow the name. -/
  | parameters {s last : Segment} {inner rest : List Tree} :
      Leads { s with arguments := .parameters } rest last →
      Leads s (.group '(' inner :: rest) last
  /-- Parameters follow the name, and their result, a type in round brackets. -/
  | result {s last : Segment} {inner result rest : List Tree} : isOneType result = true →
      Leads { s with arguments := .parameters } rest last →
      Leads s (.group '(' inner :: .leaf (.mark "->") :: .group '(' result :: rest) last

/-- A type is a path with a last segment. It may begin at the root of all paths, or with what it
takes a type as. -/
inductive IsPath : List Tree → Segment → Prop
  | relative {name : String} {rest : List Tree} {last : Segment} : name ∉ nonPathWords →
      Segment.Leads { name } rest last → IsPath (.leaf (.word name) :: rest) last
  | absolute {name : String} {rest : List Tree} {last : Segment} :
      Segment.Leads { name } rest last →
      IsPath (.leaf (.mark "::") :: .leaf (.word name) :: rest) last
  | qualified {name : String} {fixed : Bool} {entries : List (List Tree × Bool)}
      {rest : List Tree} {last : Segment} : Segment.Leads { name } rest last →
      IsPath (.angle fixed entries :: .leaf (.mark "::") :: .leaf (.word name) :: rest) last

/-- The parameters of a path are not followed by a result that goes on with the path. -/
theorem Segment.not_leads_result {s last : Segment} {rest : List Tree} :
    ¬ s.Leads (.leaf (.mark "->") :: rest) last := by
  generalize htrees : Tree.leaf (.mark "->") :: rest = trees
  rintro (_ | _ | _ | _ | _ | _) <;> simp at htrees

/-- The last segment is found exactly if the tokens lead to it. -/
theorem Segment.leads_iff {s last : Segment} {rest : List Tree} :
    s.Leads rest last ↔ lastSegment? s rest = some last := by
  -- The cases are those of the reader, each the only rule that fits its tokens.
  fun_induction lastSegment? s rest with
  | case1 s =>
    constructor
    · rintro ⟨⟩
      rfl
    · rintro ⟨⟩
      exact .last _
  | case2 s name rest ih =>
    rw [← ih]
    exact ⟨fun | .next h => h, .next⟩
  | case3 s fixed entries rest ih =>
    rw [← ih]
    exact ⟨fun | .turbofish h => h, .turbofish⟩
  | case4 s fixed entries rest ih =>
    rw [← ih]
    exact ⟨fun | .angled h => h, .angled⟩
  -- Parameters may be followed by an arrow and a result, which must then be whole.
  | case5 s inner result rest hresult ih =>
    rw [← ih]
    constructor
    · rintro (_ | _ | _ | _ | h | ⟨-, h⟩)
      · exact absurd h not_leads_result
      · exact h
    · exact .result hresult
  | case6 s inner result rest hresult =>
    constructor
    · rintro (_ | _ | _ | _ | h | ⟨h, -⟩)
      · exact absurd h not_leads_result
      · exact absurd h hresult
    · rintro ⟨⟩
  | case7 s inner rest hplain ih =>
    rw [← ih]
    constructor
    · rintro (_ | _ | _ | _ | h | _)
      · exact h
      · exact absurd rfl (hplain _ _)
    · exact .parameters
  -- Where no case of the reader applies, no rule does.
  | case8 s rest h₁ h₂ h₃ h₄ h₅ h₆ =>
    constructor
    · rintro (_ | _ | _ | _ | _ | _)
      · exact (h₁ rfl).elim
      · exact (h₂ _ _ rfl).elim
      · exact (h₄ _ _ _ rfl).elim
      · exact (h₃ _ _ _ rfl).elim
      · exact (h₆ _ _ rfl).elim
      · exact (h₅ _ _ _ rfl).elim
    · rintro ⟨⟩

/-- A type is a path exactly if its last segment is found. -/
theorem isPath_iff {type : List Tree} {last : Segment} :
    IsPath type last ↔ typeSegment? type = some last := by
  fun_cases typeSegment? type with
  | case1 name rest hname =>
    constructor
    -- A leading identifier may be a keyword that no path starts with.
    · rintro ⟨hother, -⟩
      exact absurd (by simpa using hname) hother
    · rintro ⟨⟩
  | case2 name rest hname =>
    rw [← Segment.leads_iff]
    constructor
    · rintro ⟨-, h⟩
      exact h
    · exact .relative (by simpa using hname)
  | case3 name rest =>
    rw [← Segment.leads_iff]
    exact ⟨fun | .absolute h => h, .absolute⟩
  | case4 fixed entries name rest =>
    rw [← Segment.leads_iff]
    exact ⟨fun | .qualified h => h, .qualified⟩
  | case5 _ h₁ h₂ h₃ =>
    constructor
    · rintro (_ | _ | _)
      · exact (h₁ _ _ rfl).elim
      · exact (h₂ _ _ rfl).elim
      · exact (h₃ _ _ _ _ rfl).elim
    · rintro ⟨⟩

/-- The trees of a type say what a field receives: it is a path that ends in the container, or in a
shared object or a lazy handle with a type as first argument. -/
def IsSupplied (type : List Tree) : Prop :=
  ∃ last, IsPath type last ∧
    (last.name = "Container" ∧ last.arguments = .absent ∨
      (last.name = "Arc" ∨ last.name = "Selection") ∧ ∃ first rest,
        last.arguments = .angled (first :: rest) ∧ isTypeArgument first.1 = true)

/-- What is supplied by a path with arguments. -/
theorem supply?_angled {type : List Tree} {name : String} {first : List Tree × Bool}
    {rest : List (List Tree × Bool)}
    (h : typeSegment? type = some ⟨name, .angled (first :: rest)⟩) :
    (supply? type).isSome ↔
      (name = "Arc" ∨ name = "Selection") ∧ isTypeArgument first.1 = true := by
  obtain ⟨argument, comma⟩ := first
  unfold supply? guard
  rw [h]
  by_cases hargument : isTypeArgument argument = true
  · by_cases harc : name = "Arc"
    · simp [harc, hargument]
    · by_cases hselection : name = "Selection"
      · simp [hselection, hargument]
      · simp [harc, hselection]
  · simp [hargument]

/-- A type says what supplies it exactly if it is one of the supplied forms. -/
theorem supply?_isSome_iff {type : List Tree} : (supply? type).isSome ↔ IsSupplied type := by
  unfold IsSupplied
  simp only [isPath_iff]
  rcases hpath : typeSegment? type with _ | ⟨name, _ | (_ | ⟨first, rest⟩) | _⟩
  case some.angled.cons =>
    rw [supply?_angled hpath]
    constructor
    · rintro ⟨hname, hargument⟩
      exact ⟨_, rfl, .inr ⟨hname, first, rest, rfl, hargument⟩⟩
    · rintro ⟨_, ⟨⟩, ⟨-, habsent⟩ | ⟨hname, _, _, harguments, hargument⟩⟩
      · cases habsent
      · cases harguments
        exact ⟨hname, hargument⟩
  -- No other path has a first argument.
  all_goals
    unfold supply? guard
    rw [hpath]
  · simp
  · by_cases hname : name = "Container" <;> simp [hname]
  · simp
  · simp

/-- A field can be injected: its type can be read and says what the field receives. -/
def Field.IsInjectable (f : Field) : Prop :=
  ∃ type, Tree.read .types f.type = some type ∧ IsSupplied type

/-- A field can be injected exactly if its type says what supplies it. -/
theorem Field.isInjectable_iff {f : Field} :
    f.IsInjectable ↔ ((Tree.read .types f.type).bind supply?).isSome := by
  unfold IsInjectable
  rcases Tree.read .types f.type with _ | type
  · simp
  · simp [supply?_isSome_iff]

/-- What a field needs: its first `inject` attribute is read before its type. -/
def Field.rules (f : Field) : List Rule :=
  f.injection?.elim [] fun a => a.injectRules ++ [⟨f.IsInjectable, .fieldTypeUnsupported⟩]

/-- Reading a field stops at the first of its rules that is broken. -/
theorem Field.source_heeds (f : Field) : Heeds f.source f.rules := by
  have hinject := findInject_heeds f
  unfold source rules
  rcases hfirst : f.injection? with _ | a
  -- A field that no attribute speaks of is not injected and has no rules.
  · have hnone : findInject f.attributes = .ok none := by
      unfold findInject
      unfold injection? at hfirst
      rw [hfirst]
      rfl
    rw [hnone]
    exact .ok _
  · rw [hfirst] at hinject
    refine hinject.bind fun found hfound => ?_
    rcases found with _ | qualifiers
    · have hcalled : plainName a.path = "inject" := by simpa using List.find?_some hfirst
      exact absurd hcalled (not_mem_of_findInject hfound a (List.mem_of_find?_eq_some hfirst))
    · dsimp only
      refine .cons (fun hinjectable => ?_) fun hinjectable => ?_
      -- The type comes last: it is asked for only after the attribute was read.
      · rw [Field.isInjectable_iff, Option.isSome_iff_exists] at hinjectable
        obtain ⟨supply, hsupply⟩ := hinjectable
        rw [hsupply]
        cases supply <;> exact .ok _
      · rw [Field.isInjectable_iff, Option.not_isSome_iff_eq_none] at hinjectable
        rw [hinjectable]
        rfl

/-- So does reading the fields one by one. -/
theorem fieldSources_heeds (fields : List Field) :
    Heeds (fieldSources fields) (fields.flatMap Field.rules) := by
  induction fields with
  | nil => exact .ok []
  | cons f rest ih =>
    unfold fieldSources
    rw [List.flatMap_cons]
    exact f.source_heeds.bind fun source _ => ih.bind_ok _

/-! ## Names of hooks -/

/-- A text is the name of a method: what is read of it is one word, and no keyword. -/
def IsMethodName (name : String) : Prop :=
  ∃ w, Tree.read .verbatim name = some [.leaf (.word w)] ∧ w ∉ keywords

/-- The first of the trees that were read, if any were, is a certain word. -/
def Begins (trees : Option (List Tree)) (w : String) : Prop :=
  ∃ rest, trees = some (.leaf (.word w) :: rest)

/-- What the trees of a hook's name need: there is a first one, it is a word but no keyword, and it
is the only one. -/
def hookRules (trees : Option (List Tree)) : List Rule :=
  [⟨trees ≠ none, .nameUnreadable⟩, ⟨trees ≠ some [], .nameMissing⟩,
   ⟨∃ w, Begins trees w, .nameExpected⟩] ++
    keywords.map (fun w => ⟨¬ Begins trees w, .nameIsKeyword w⟩) ++
    [⟨∃ w, trees = some [.leaf (.word w)], .nameFollowed⟩]

def nameRules (name : String) : List Rule := hookRules (Tree.read .verbatim name)

section Names

variable {w k : String} {rest : List Tree}

theorem begins_word_iff : Begins (some (.leaf (.word w) :: rest)) k ↔ w = k := by
  simp [Begins]

/-- A keyword is reported as such. -/
theorem hookRules_keyword (h : w ∈ keywords) :
    FirstBroken (hookRules (some (.leaf (.word w) :: rest))) (.nameIsKeyword w) := by
  -- No keyword before this one is the word.
  obtain ⟨before, after, hsplit, hbefore⟩ := List.eq_append_cons_of_mem h
  unfold hookRules
  rw [hsplit, List.map_append, List.map_cons, firstBroken_append_iff, firstBroken_append_iff]
  refine .inl (.inr ⟨by simp [begins_word_iff], before.map _, _, _, rfl, ?_, ?_, rfl⟩)
  · rw [List.forall_mem_map]
    intro k hk hbegins
    rw [begins_word_iff.1 hbegins] at hbefore
    exact hbefore hk
  · simp [begins_word_iff]

/-- For a word that is no keyword only what follows it matters. -/
theorem hookRules_word (rest : List Tree) (h : w ∉ keywords) :
    ∃ before, hookRules (some (.leaf (.word w) :: rest)) =
        before ++ [⟨∃ w', some (Tree.leaf (.word w) :: rest) = some [.leaf (.word w')],
          .nameFollowed⟩] ∧ ∀ r ∈ before, r.Holds := by
  refine ⟨_, rfl, ?_⟩
  simp only [List.forall_mem_append, List.forall_mem_map, begins_word_iff]
  refine ⟨by simp, ?_⟩
  rintro k hk rfl
  exact h hk

/-- A method's name is checked by its rules. -/
theorem checkMethodName_heeds (name : String) : Heeds (checkMethodName name) (nameRules name) := by
  unfold checkMethodName nameRules
  rcases Tree.read .verbatim name with _ | _ | ⟨t, rest⟩
  -- A text that cannot be read, or that has no token.
  · exact .of_firstBroken ⟨[], _, _, rfl, by simp, by simp, rfl⟩
  · exact .of_firstBroken ⟨[_], _, _, rfl, by simp, by simp, rfl⟩
  by_cases hword : ∃ w, t = .leaf (.word w)
  · obtain ⟨w, rfl⟩ := hword
    dsimp only
    by_cases hkeyword : w ∈ keywords
    · rw [if_pos (by simpa using hkeyword)]
      exact .of_firstBroken (hookRules_keyword hkeyword)
    · obtain ⟨before, hrules, hbefore⟩ := hookRules_word rest hkeyword
      rw [if_neg (by simpa using hkeyword), hrules]
      rcases rest with _ | ⟨t, rest⟩
      · exact .of_all () (List.forall_mem_append.2 ⟨hbefore, by simp⟩)
      · exact .of_firstBroken ⟨before, _, [], rfl, hbefore, by simp, rfl⟩
  -- The first token is no identifier, so the reader expected one.
  · have hexpected : FirstBroken (hookRules (some (t :: rest))) .nameExpected :=
      ⟨[_, _], _, _, rfl, by simp, by simpa [Begins] using hword, rfl⟩
    split
    case h_1 heq => cases heq
    case h_2 heq => cases heq
    case h_3 w rest' heq =>
      cases heq
      exact absurd ⟨w, rfl⟩ hword
    case h_4 => exact .of_firstBroken hexpected

/-- The names of a list are checked in their order. -/
theorem checkMethodNames_heeds (names : List String) :
    Heeds (checkMethodNames names) (names.flatMap nameRules) := by
  induction names with
  | nil => exact .ok ()
  | cons name rest ih =>
    unfold checkMethodNames
    rw [List.flatMap_cons]
    exact (checkMethodName_heeds name).bind fun _ _ => ih

/-- A name keeps its rules exactly if it names a method. -/
theorem nameRules_hold_iff {name : String} :
    (∀ r ∈ nameRules name, r.Holds) ↔ IsMethodName name := by
  unfold nameRules hookRules IsMethodName
  simp only [List.forall_mem_append, List.forall_mem_map, List.forall_mem_cons]
  constructor
  · rintro ⟨⟨-, hkeyword⟩, ⟨w, hw⟩, -⟩
    refine ⟨w, hw, fun hmem => ?_⟩
    rw [hw] at hkeyword
    exact hkeyword w hmem (begins_word_iff.2 rfl)
  · rintro ⟨w, hw, hkeyword⟩
    rw [hw]
    refine ⟨⟨by simp [begins_word_iff], fun k hk hbegins => ?_⟩, ⟨w, rfl⟩, by simp⟩
    rw [begins_word_iff.1 hbegins] at hkeyword
    exact hkeyword hk

end Names

/-! ## Items -/

namespace Item

def entries (item : Item) : List Entry := componentEntries item.attributes

/-- What an item needs to be a component, in the order in which it is read. -/
def rules (item : Item) : List Rule :=
  [⟨item.kind ≠ .tuple ∧ item.kind ≠ .unit, .fieldsNotNamed⟩,
   ⟨item.kind ≠ .enum ∧ item.kind ≠ .union, .notStruct⟩] ++
    ((componentsOf item.attributes).flatMap Attribute.componentRules ++
    (item.fields.flatMap Field.rules ++
    ((textsUnder "post_construct" item.entries).flatMap nameRules ++
    (textsUnder "pre_destroy" item.entries).flatMap nameRules)))

/-- An item is a component: a structure with named fields, where each `component` attribute is a
list of options, the first `inject` attribute of each field that has one is bare or a list of
qualifiers, such a field has a type that is injected, and every hook is named by a method. The
lists stand in brackets of any kind and have nothing in them beside their entries. -/
structure IsComponent (item : Item) : Prop where
  kind : item.kind = .struct
  options : ∀ a ∈ item.attributes, plainName a.path = "component" → a.form.Lists Entry.IsOption
  injections : ∀ f ∈ item.fields, ∀ a, f.injection? = some a →
    (a.form = .bare ∨ a.form.Lists Entry.IsQualifier) ∧ f.IsInjectable
  hooks : ∀ e ∈ item.entries, ∀ name,
    e.Gives "post_construct" name ∨ e.Gives "pre_destroy" name → IsMethodName name

end Item

/-- A component attribute keeps its rules exactly if it is a list, in any delimiter, of options. -/
theorem Attribute.componentRules_hold_iff {a : Attribute} :
    (∀ r ∈ a.componentRules, r.Holds) ↔ a.form.Lists Entry.IsOption := by
  unfold componentRules AttributeForm.Lists
  simp only [List.forall_mem_append, List.forall_mem_flatMap, Entry.optionRules_hold_iff]
  rcases a.form with _ | _ | l
  · simp
  · simp
  · simp [AttributeForm.entries, AttributeForm.endRules, AttributeList.endRules_hold_iff, and_comm]

/-- An inject attribute keeps its rules exactly if it is bare or a list of qualifiers. -/
theorem Attribute.injectRules_hold_iff {a : Attribute} :
    (∀ r ∈ a.injectRules, r.Holds) ↔ a.form = .bare ∨ a.form.Lists Entry.IsQualifier := by
  unfold injectRules AttributeForm.Lists
  simp only [List.forall_mem_cons, List.forall_mem_append, List.forall_mem_flatMap,
    Entry.qualifierRules_hold_iff]
  rcases a.form with _ | _ | l
  · simp [AttributeForm.entries, AttributeForm.endRules]
  · simp
  · simp [AttributeForm.entries, AttributeForm.endRules, AttributeList.endRules_hold_iff, and_comm]

/-- A field keeps its rules exactly if its inject attribute does and its type can be injected. -/
theorem Field.rules_hold_iff {f : Field} :
    (∀ r ∈ f.rules, r.Holds) ↔ ∀ a, f.injection? = some a →
      (a.form = .bare ∨ a.form.Lists Entry.IsQualifier) ∧ f.IsInjectable := by
  unfold rules
  rcases f.injection? with _ | a
  · simp
  · simp only [Option.elim_some, List.forall_mem_append, Attribute.injectRules_hold_iff]
    simp

namespace Item

variable {item : Item}

/-- An item keeps its rules exactly if it is a component. -/
theorem rules_hold_iff : (∀ r ∈ item.rules, r.Holds) ↔ item.IsComponent := by
  have hkind : item.kind = .struct ↔ (item.kind ≠ .tuple ∧ item.kind ≠ .unit) ∧
      item.kind ≠ .enum ∧ item.kind ≠ .union := by
    cases item.kind <;> simp
  unfold rules
  simp only [List.forall_mem_append, List.forall_mem_flatMap, List.forall_mem_cons,
    Attribute.componentRules_hold_iff, Field.rules_hold_iff, nameRules_hold_iff, mem_textsUnder]
  constructor
  · rintro ⟨⟨hnamed, hstruct, -⟩, hoptions, hfields, hpost, hpre⟩
    refine ⟨hkind.2 ⟨hnamed, hstruct⟩, fun a ha hpath => ?_, hfields, ?_⟩
    · exact hoptions a (List.mem_filter.2 ⟨ha, by simpa using hpath⟩)
    · rintro e he name (h | h)
      · exact hpost name ⟨e, he, h⟩
      · exact hpre name ⟨e, he, h⟩
  · intro h
    obtain ⟨hnamed, hstruct⟩ := hkind.1 h.kind
    refine ⟨⟨hnamed, hstruct, by simp⟩, fun a ha => ?_, h.injections, ?_, ?_⟩
    · obtain ⟨ha, hpath⟩ := List.mem_filter.1 ha
      exact h.options a ha (by simpa using hpath)
    · rintro name ⟨e, he, hgives⟩
      exact h.hooks e he name (.inl hgives)
    · rintro name ⟨e, he, hgives⟩
      exact h.hooks e he name (.inr hgives)

/-- Attributes whose rules hold are lists of options. -/
theorem valid_of_componentRules {attributes : List Attribute}
    (h : ∀ r ∈ (componentsOf attributes).flatMap Attribute.componentRules, r.Holds) :
    Options.Valid attributes := by
  rw [List.forall_mem_flatMap] at h
  simp only [Attribute.componentRules_hold_iff] at h
  constructor
  · intro a ha
    obtain ⟨l, hform, hwhole, -⟩ := h a ha
    exact ⟨l, hform, hwhole, fun _ _ => True.intro⟩
  · intro e he
    obtain ⟨a, ha, he⟩ := List.mem_flatMap.1 he
    obtain ⟨l, hform, -, hentries⟩ := h a ha
    rw [hform] at he
    exact hentries e he

/-- What is expanded from options and sources of fields. -/
def expansion (item : Item) (options : Options) (fields : List (String × FieldSource)) :
    Expansion :=
  let parameters := genericParameters ((Tree.read .types item.generics).getD [])
  { parameters := implementationParameters parameters
    self := appliedType (plainName item.name) parameters
    wherePredicates := wherePredicates? ((Tree.read .types item.whereClause).getD [])
    options, fields }

/-- A struct is expanded in four steps: its options, its fields and the names of both lists of
methods. -/
theorem expand_struct (h : item.kind = .struct) :
    item.expand = Options.ofAttributes item.attributes >>= fun options =>
      fieldSources item.fields >>= fun fields =>
        checkMethodNames options.postConstruct >>= fun _ =>
          checkMethodNames options.preDestroy >>= fun _ => .ok (item.expansion options fields) := by
  unfold expand
  rw [h]
  rfl

/-- Expansion stops at the first of the item's rules that is broken, with that rule's problem. -/
theorem expand_heeds (item : Item) : Heeds item.expand item.rules := by
  refine .cons (fun hnamed => .cons (fun hstruct => ?_) fun hstruct => ?_) fun hnamed => ?_
  · have hkind : item.kind = .struct := by
      rcases hkind : item.kind <;> simp_all
    rw [expand_struct hkind]
    refine (Options.addAttributes_heeds {} item.attributes).bind fun options hread => ?_
    -- The options that were read are those of the entries, and so are the names of the hooks.
    have hholds := (Options.addAttributes_heeds {} item.attributes).ok_iff.1 ⟨options, hread⟩
    cases (Options.ofAttributes_said (valid_of_componentRules hholds)).symm.trans hread
    refine (fieldSources_heeds item.fields).bind fun fields _ => ?_
    refine (checkMethodNames_heeds _).bind fun _ _ => ?_
    exact (checkMethodNames_heeds _).bind_ok fun _ => _
  · unfold expand
    rcases hkind : item.kind <;> simp_all <;> rfl
  · unfold expand
    rcases hkind : item.kind <;> simp_all <;> rfl

/-- An item expands exactly if it is a component. Otherwise it fails with the problem of the first
broken rule: of the kind, then of the `component` attributes, then of the fields, then of the names
of the hooks that run after construction, then of those that run before teardown. -/
theorem expand_decides (item : Item) :
    ((∃ e, item.expand = .ok e) ↔ item.IsComponent) ∧
      (∀ p, item.expand = .error p ↔ FirstBroken item.rules p) ∧
      (item.IsComponent ∨ ∃ p, FirstBroken item.rules p) := by
  have h := item.expand_heeds
  refine ⟨h.ok_iff.trans rules_hold_iff, h, ?_⟩
  rw [exists_firstBroken_iff, rules_hold_iff]
  exact em _

end Item

namespace Sample

/-- A lamp whose options stand in square brackets. -/
def bracketedLamp : Item where
  kind := .struct
  name := "Lamp"
  attributes := [.read "component[scope = \"prototype\"]"]

/-- The list of a `component` attribute need not stand in round brackets for an item to expand. -/
theorem bracketedLamp_expands :
    (∃ e, bracketedLamp.expand = .ok e) ∧
      ∃ a ∈ bracketedLamp.attributes, plainName a.path = "component" ∧
        ∀ entries fault, a.form ≠ .list ⟨.parentheses, entries, fault⟩ := by
  have hread : bracketedLamp.attributes = [⟨"component", .list
      { delimiter := .brackets, entries := [⟨"scope", some (.text "prototype")⟩] }⟩] := by
    decide +kernel
  have hexpand : bracketedLamp.expand = .ok
      { parameters := "", self := "Lamp", wherePredicates := none,
        options := { scope := some .prototype }, fields := [] } := by
    decide +kernel
  rw [hread]
  exact ⟨⟨_, hexpand⟩, _, List.mem_cons_self, by decide +kernel, nofun⟩

end Sample

/-- Of an unknown key without a value, an option is blamed for the value and an injection for the
key. -/
example :
    Options.ofAttributes
      [{ path := "component", form := .list { entries := [{ key := "colour" }] } }] =
        .error .equalsMissing ∧
      findInject [{ path := "inject", form := .list { entries := [{ key := "colour" }] } }] =
        .error .unknownInjectKey := ⟨rfl, rfl⟩

end Wiring.Derive
