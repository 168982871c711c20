import Wiring.Proofs.Derivation

/-!
# How attributes are read

An item is read part by part, and the first problem ends the reading. So what a part needs is a list
of requirements in the order in which they are looked at, each with the problem that is reported if
it is broken, and reading comes down to looking for the first broken one (`Heeds`). If one reading
heeds some rules and the next one others, both of them together heed all of these (`Heeds.bind`).

The entries of `component` attributes are options, and what they say together is read off the list
of all of them (`Options.said`): how they are distributed over attributes does not matter.

Main statements: `Options.addAttributes_heeds`, `findInject_heeds`, `Options.ofAttributes_said`.
-/

namespace Wiring.Derive

/-! ## Rules -/

/-- A requirement on a declaration, and the problem that is reported if it is broken. -/
structure Rule where
  Holds : Prop
  problem : DeclarationProblem

/-- The first broken rule of a list has a problem. -/
def FirstBroken (rules : List Rule) (p : DeclarationProblem) : Prop :=
  ∃ before r after, rules = before ++ r :: after ∧ (∀ b ∈ before, b.Holds) ∧ ¬ r.Holds ∧
    r.problem = p

section FirstBroken

variable {r : Rule} {rules l m : List Rule} {p : DeclarationProblem}

/-- Where every rule holds, none is the first broken one. -/
theorem not_firstBroken_of_all (h : ∀ r ∈ rules, r.Holds) : ¬ FirstBroken rules p := by
  rintro ⟨before, r, after, rfl, -, hr, -⟩
  exact hr (h r (by simp))

/-- The first broken rule of a list is its head or the first broken one of the rest. -/
theorem firstBroken_cons_iff :
    FirstBroken (r :: rules) p ↔
      ¬ r.Holds ∧ r.problem = p ∨ r.Holds ∧ FirstBroken rules p := by
  constructor
  · rintro ⟨_ | ⟨b, before⟩, r', after, heq, hbefore, hr, hp⟩
    · obtain ⟨rfl, rfl⟩ := List.cons.inj heq
      exact .inl ⟨hr, hp⟩
    · obtain ⟨rfl, rfl⟩ := List.cons.inj heq
      obtain ⟨hb, hbefore⟩ := List.forall_mem_cons.1 hbefore
      exact .inr ⟨hb, before, r', after, rfl, hbefore, hr, hp⟩
  · rintro (⟨hr, hp⟩ | ⟨hr, before, r', after, rfl, hbefore, hr', hp⟩)
    · exact ⟨[], r, rules, rfl, by simp, hr, hp⟩
    · exact ⟨r :: before, r', after, rfl, List.forall_mem_cons.2 ⟨hr, hbefore⟩, hr', hp⟩

/-- The first broken rule of two lists: that of the first list, or that of the second when the first
list holds. -/
theorem firstBroken_append_iff :
    FirstBroken (l ++ m) p ↔ FirstBroken l p ∨ (∀ r ∈ l, r.Holds) ∧ FirstBroken m p := by
  induction l with
  | nil => simp [not_firstBroken_of_all]
  | cons r l ih =>
    rw [List.cons_append, firstBroken_cons_iff, firstBroken_cons_iff, ih, List.forall_mem_cons]
    tauto

/-- There is at most one first problem. -/
theorem FirstBroken.unique {q : DeclarationProblem} (hp : FirstBroken rules p)
    (hq : FirstBroken rules q) : p = q := by
  induction rules with
  | nil => exact absurd hp (not_firstBroken_of_all (by simp))
  | cons r rules ih =>
    rw [firstBroken_cons_iff] at hp hq
    rcases hp with ⟨hr, rfl⟩ | ⟨hr, hp⟩
    · rcases hq with ⟨-, rfl⟩ | ⟨hr', -⟩
      · rfl
      · exact absurd hr' hr
    · rcases hq with ⟨hr', -⟩ | ⟨-, hq⟩
      · exact absurd hr hr'
      · exact ih hp hq

/-- Some rule is the first broken one unless all of them hold. -/
theorem exists_firstBroken_iff : (∃ p, FirstBroken rules p) ↔ ¬ ∀ r ∈ rules, r.Holds := by
  constructor
  · rintro ⟨p, hp⟩ hall
    exact not_firstBroken_of_all hall hp
  · intro hbroken
    induction rules with
    | nil => simp at hbroken
    | cons r rules ih =>
      -- If the first rule holds, the broken one is further on.
      by_cases hr : r.Holds
      · have hrest : ¬ ∀ r ∈ rules, r.Holds := fun h =>
          hbroken (List.forall_mem_cons.2 ⟨hr, h⟩)
        obtain ⟨p, hp⟩ := ih hrest
        exact ⟨p, firstBroken_cons_iff.2 (.inr ⟨hr, hp⟩)⟩
      · exact ⟨r.problem, firstBroken_cons_iff.2 (.inl ⟨hr, rfl⟩)⟩

end FirstBroken

/-- A reading stops with a problem exactly if that is the problem of the first broken rule. -/
def Heeds {α : Type} (m : Reading α) (rules : List Rule) : Prop :=
  ∀ p, m = .error p ↔ FirstBroken rules p

namespace Heeds

variable {α β : Type} {m : Reading α} {f : α → Reading β} {r : Rule} {rules rules' : List Rule}

/-- A reading succeeds exactly if all the rules hold. -/
theorem ok_iff (h : Heeds m rules) : (∃ a, m = .ok a) ↔ ∀ r ∈ rules, r.Holds := by
  rcases hm : m with p | a
  · have hbroken : ∃ p, FirstBroken rules p := ⟨p, (h p).1 hm⟩
    rw [exists_firstBroken_iff] at hbroken
    simp [hbroken]
  · have hnone : ¬ ∃ p, FirstBroken rules p := by
      rintro ⟨p, hp⟩
      rw [← h p, hm] at hp
      cases hp
    rw [exists_firstBroken_iff, not_not] at hnone
    exact ⟨fun _ => hnone, fun _ => ⟨a, rfl⟩⟩

/-- A reading that answers heeds rules that all hold. -/
theorem of_all (a : α) (h : ∀ r ∈ rules, r.Holds) : Heeds (.ok a) rules := by
  intro p
  simp [not_firstBroken_of_all h]

/-- A reading that stops heeds the rules of which its problem is the first. -/
theorem of_firstBroken {p : DeclarationProblem} (h : FirstBroken rules p) :
    Heeds (.error p : Reading α) rules := by
  intro q
  constructor
  · rintro ⟨⟩
    exact h
  · intro hq
    rw [h.unique hq]

theorem ok (a : α) : Heeds (.ok a) [] := of_all a (by simp)

/-- The first rule decides first. -/
theorem cons (hholds : r.Holds → Heeds m rules) (hbroken : ¬ r.Holds → m = .error r.problem) :
    Heeds m (r :: rules) := by
  intro p
  rw [firstBroken_cons_iff]
  by_cases hr : r.Holds
  · rw [hholds hr p]
    simp [hr]
  · rw [hbroken hr]
    simp [hr]

/-- What is read next heeds its rules after those of what was read before. -/
theorem bind (hm : Heeds m rules) (hf : ∀ a, m = .ok a → Heeds (f a) rules') :
    Heeds (m >>= f) (rules ++ rules') := by
  intro p
  rw [firstBroken_append_iff, ← hm.ok_iff, ← hm p]
  rcases hread : m with q | a
  · show Except.error q = Except.error p ↔ _
    simp
  · show f a = Except.error p ↔ _
    rw [hf a hread p]
    simp

/-- A last step that cannot fail adds no rule. -/
theorem bind_ok (hm : Heeds m rules) (g : α → β) : Heeds (m >>= fun a => .ok (g a)) rules := by
  have h := hm.bind (f := fun a => .ok (g a)) fun a _ => .ok (g a)
  rwa [List.append_nil] at h

end Heeds

/-! ## Entries and attributes -/

/-- The text that is given to a key, if it is one. -/
def EntryValue.text? : EntryValue → Option String
  | .text s => some s
  | .other | .missing => none

/-- The entries of an attribute's list; none if there is no list. -/
def AttributeForm.entries : AttributeForm → List Entry
  | .list l => l.entries
  | _ => []

/-- The list of an attribute can be read to its end, and its entries are of some sort. -/
def AttributeForm.Lists (form : AttributeForm) (P : Entry → Prop) : Prop :=
  ∃ l, form = .list l ∧ l.fault = none ∧ ∀ e ∈ l.entries, P e

namespace Entry

/-- The entry gives a text to its key. -/
def Gives (e : Entry) (key value : String) : Prop :=
  plainName e.key = key ∧ e.value = some (.text value)

/-- The entry is one of a `component` attribute. -/
def IsOption (e : Entry) : Prop :=
  e.Gives "scope" "singleton" ∨ e.Gives "scope" "prototype" ∨
    ∃ value, e.Gives "qualifier" value ∨ e.Gives "post_construct" value ∨
      e.Gives "pre_destroy" value

def IsQualifier (e : Entry) : Prop := ∃ value, e.Gives "qualifier" value

/-- What any entry needs for its value to be a text. -/
def textRules (e : Entry) : List Rule :=
  [⟨e.value ≠ none, .equalsMissing⟩, ⟨e.value ≠ some .other, .textExpected⟩,
   ⟨e.value ≠ some .missing, .valueMissing⟩]

/-- What an entry of a `component` attribute needs: its value is read before its key. -/
def optionRules (e : Entry) : List Rule :=
  e.textRules ++
    [⟨plainName e.key = "scope" →
        e.value = some (.text "singleton") ∨ e.value = some (.text "prototype"), .unknownScope⟩,
     ⟨plainName e.key ∈ ["scope", "qualifier", "post_construct", "pre_destroy"],
        .unknownComponentKey⟩]

/-- What an entry of an `inject` attribute needs: its key is read before its value. -/
def qualifierRules (e : Entry) : List Rule :=
  ⟨plainName e.key = "qualifier", .unknownInjectKey⟩ :: e.textRules

end Entry

/-- The texts that entries give to a key, in order. -/
def textsUnder (key : String) (entries : List Entry) : List String :=
  entries.filterMap fun e => if plainName e.key = key then e.value.bind EntryValue.text? else none

def componentsOf (attributes : List Attribute) : List Attribute :=
  attributes.filter (plainName ·.path = "component")

/-- The entries of all `component` attributes, in order. -/
def componentEntries (attributes : List Attribute) : List Entry :=
  (componentsOf attributes).flatMap (·.form.entries)

/-- What a list needs behind its entries: that it has no fault. -/
def AttributeList.endRules (l : AttributeList) : List Rule :=
  match l.fault with
  | none => []
  | some fault => [⟨l.fault = none, .listBroken fault⟩]

/-- What an attribute needs behind the entries of its list, if it has one. -/
def AttributeForm.endRules : AttributeForm → List Rule
  | .list l => l.endRules
  | _ => []

/-- What a `component` attribute needs. -/
def Attribute.componentRules (a : Attribute) : List Rule :=
  [⟨a.form ≠ .bare, .listMissing "component"⟩, ⟨a.form ≠ .assigned, .listExpected "component"⟩] ++
    (a.form.entries.flatMap Entry.optionRules ++ a.form.endRules)

/-- What an `inject` attribute needs. -/
def Attribute.injectRules (a : Attribute) : List Rule :=
  ⟨a.form ≠ .assigned, .listExpected "inject"⟩ ::
    (a.form.entries.flatMap Entry.qualifierRules ++ a.form.endRules)

/-- The texts under a key are those its entries give. -/
theorem mem_textsUnder {key value : String} {entries : List Entry} :
    value ∈ textsUnder key entries ↔ ∃ e ∈ entries, e.Gives key value := by
  unfold textsUnder Entry.Gives
  rw [List.mem_filterMap]
  refine exists_congr fun e => and_congr_right fun _ => ?_
  rcases e.value with _ | s | _ | _ <;> simp [EntryValue.text?]

theorem textsUnder_append (key : String) (l m : List Entry) :
    textsUnder key (l ++ m) = textsUnder key l ++ textsUnder key m :=
  List.filterMap_append ..

/-- An entry adds a text to its own key. -/
theorem textsUnder_concat {e : Entry} {key value : String} (h : e.Gives key value)
    (other : String) (l : List Entry) :
    textsUnder other (l ++ [e]) = textsUnder other l ++ if key = other then [value] else [] := by
  obtain ⟨hkey, hvalue⟩ := h
  rw [textsUnder_append]
  refine congrArg _ ?_
  by_cases hother : key = other
  · simp [textsUnder, hkey, hvalue, hother, EntryValue.text?]
  · simp [textsUnder, hkey, hother]

/-- The scope that a text names. -/
def scopeNamed? : String → Option Scope
  | "singleton" => some .singleton
  | "prototype" => some .prototype
  | _ => none

/-- What options say together: of the scopes the last one counts, and the rest is kept in order. -/
def Options.said (entries : List Entry) : Options where
  scope := (textsUnder "scope" entries).getLast?.bind scopeNamed?
  qualifiers := textsUnder "qualifier" entries
  postConstruct := textsUnder "post_construct" entries
  preDestroy := textsUnder "pre_destroy" entries

section Attributes

variable {e : Entry} {entries : List Entry} {o o' : Options}

/-- A text is read exactly from an entry that gives one. -/
theorem Entry.text_eq_ok_iff {s : String} : e.text = .ok s ↔ e.value = some (.text s) := by
  unfold Entry.text
  rcases e.value with _ | s' | _ | _ <;> simp

/-- An entry keeps its text rules exactly if it gives a text. -/
theorem Entry.textRules_hold_iff :
    (∀ r ∈ e.textRules, r.Holds) ↔ ∃ s, e.value = some (.text s) := by
  unfold textRules
  rcases e.value with _ | s | _ | _ <;> simp

/-- The rules of an option say that it is one. -/
theorem Entry.optionRules_hold_iff : (∀ r ∈ e.optionRules, r.Holds) ↔ e.IsOption := by
  unfold optionRules IsOption Gives
  rw [List.forall_mem_append, textRules_hold_iff]
  constructor
  · rintro ⟨⟨s, hs⟩, hrules⟩
    rw [List.forall_mem_cons, List.forall_mem_cons] at hrules
    obtain ⟨hscope, hkey, -⟩ := hrules
    simp only [List.mem_cons, List.not_mem_nil, or_false] at hkey
    -- The scope has only two values; the other keys take any text.
    rcases hkey with hkey | hkey | hkey | hkey
    · rcases hscope hkey with h | h
      · exact .inl ⟨hkey, h⟩
      · exact .inr (.inl ⟨hkey, h⟩)
    · exact .inr (.inr ⟨s, .inl ⟨hkey, hs⟩⟩)
    · exact .inr (.inr ⟨s, .inr (.inl ⟨hkey, hs⟩)⟩)
    · exact .inr (.inr ⟨s, .inr (.inr ⟨hkey, hs⟩)⟩)
  · rintro (⟨hkey, hs⟩ | ⟨hkey, hs⟩ | ⟨s, ⟨hkey, hs⟩ | ⟨hkey, hs⟩ | ⟨hkey, hs⟩⟩) <;>
      simp [hkey, hs]

/-- The rules of a qualifier say that it is one. -/
theorem Entry.qualifierRules_hold_iff : (∀ r ∈ e.qualifierRules, r.Holds) ↔ e.IsQualifier := by
  unfold qualifierRules IsQualifier Gives
  rw [List.forall_mem_cons, textRules_hold_iff, exists_and_left]

/-- Reading an entry's text stops at the first of its text rules that is broken. -/
theorem Entry.text_heeds (e : Entry) : Heeds e.text e.textRules := by
  unfold Entry.text textRules
  refine .cons (fun hsome => .cons (fun htext => .cons (fun hpresent => ?_) fun hmissing => ?_)
    fun hother => ?_) fun hnone => ?_
  · rcases hvalue : e.value with _ | s | _ | _
    · exact absurd hvalue hsome
    · exact .ok s
    · exact absurd hvalue htext
    · exact absurd hvalue hpresent
  · rw [not_not.1 hmissing]
  · rw [not_not.1 hother]
  · rw [not_not.1 hnone]

namespace AttributeList

variable {l : AttributeList}

/-- What stands behind the entries of a list is looked at last. -/
theorem finish_heeds (l : AttributeList) : Heeds l.finish l.endRules := by
  unfold finish endRules
  rcases hfault : l.fault with _ | fault
  · exact .ok ()
  · exact .of_firstBroken ⟨[], _, [], rfl, by simp, nofun, rfl⟩

/-- A list without a fault reads to its end. -/
theorem finish_of_whole (h : l.fault = none) : l.finish = .ok () := by
  unfold finish
  rw [h]

/-- The rule for the end of a list says that it has no fault. -/
theorem endRules_hold_iff : (∀ r ∈ l.endRules, r.Holds) ↔ l.fault = none := by
  unfold endRules
  rcases hfault : l.fault with _ | fault <;> simp

end AttributeList

namespace Options

theorem add_scope (scope : Scope) (h : e.Gives "scope" scope.display) :
    o.add e = .ok { o with scope := some scope } := by
  unfold add
  rw [Entry.text_eq_ok_iff.2 h.2, h.1]
  cases scope <;> rfl

theorem add_qualifier {value : String} (h : e.Gives "qualifier" value) :
    o.add e = .ok { o with qualifiers := o.qualifiers ++ [value] } := by
  unfold add
  rw [Entry.text_eq_ok_iff.2 h.2, h.1]
  rfl

theorem add_postConstruct {value : String} (h : e.Gives "post_construct" value) :
    o.add e = .ok { o with postConstruct := o.postConstruct ++ [value] } := by
  unfold add
  rw [Entry.text_eq_ok_iff.2 h.2, h.1]
  rfl

theorem add_preDestroy {value : String} (h : e.Gives "pre_destroy" value) :
    o.add e = .ok { o with preDestroy := o.preDestroy ++ [value] } := by
  unfold add
  rw [Entry.text_eq_ok_iff.2 h.2, h.1]
  rfl

/-- A scope has to be one of the two. -/
theorem add_unknownScope {value : String} (h : e.Gives "scope" value)
    (hvalue : value ≠ "singleton" ∧ value ≠ "prototype") : o.add e = .error .unknownScope := by
  unfold add
  rw [Entry.text_eq_ok_iff.2 h.2, h.1]
  dsimp only [bind, Except.bind]
  split
  case h_1 =>
    split
    · exact absurd rfl hvalue.1
    · exact absurd rfl hvalue.2
    · rfl
  -- The key is known, so no other case is left.
  all_goals simp at *

/-- An entry under a key that is no option's is refused, after its text was read. -/
theorem add_unknownKey {value : String} (htext : e.text = .ok value)
    (hkey : plainName e.key ∉ ["scope", "qualifier", "post_construct", "pre_destroy"]) :
    o.add e = .error .unknownComponentKey := by
  unfold add
  rw [htext]
  dsimp only [bind, Except.bind]
  generalize plainName e.key = key at hkey ⊢
  split
  case h_5 => rfl
  all_goals simp at hkey

/-- Adding an entry stops at the first of its option rules that is broken. -/
theorem add_heeds (o : Options) (e : Entry) : Heeds (o.add e) e.optionRules := by
  -- The value is read first, whatever the key.
  have hfirst : o.add e = e.text >>= fun _ => o.add e := by
    rcases htext : e.text with p | value
    · unfold add
      rw [htext]
      rfl
    · rfl
  rw [hfirst]
  refine e.text_heeds.bind fun value htext => ?_
  have hvalue := Entry.text_eq_ok_iff.1 htext
  refine .cons (fun hscope => .cons (fun hkey => ?_) fun hkey => ?_) fun hscope => ?_
  · simp only [List.mem_cons, List.not_mem_nil, or_false] at hkey
    rcases hkey with hkey | hkey | hkey | hkey
    · rcases hscope hkey with hscope | hscope
      · rw [add_scope .singleton ⟨hkey, hscope⟩]
        exact .ok _
      · rw [add_scope .prototype ⟨hkey, hscope⟩]
        exact .ok _
    · rw [add_qualifier ⟨hkey, hvalue⟩]
      exact .ok _
    · rw [add_postConstruct ⟨hkey, hvalue⟩]
      exact .ok _
    · rw [add_preDestroy ⟨hkey, hvalue⟩]
      exact .ok _
  · exact add_unknownKey htext hkey
  · obtain ⟨hkey, hneither⟩ := Classical.not_imp.1 hscope
    refine add_unknownScope ⟨hkey, hvalue⟩ ?_
    rw [hvalue] at hneither
    simpa using hneither

/-- Entries are added one by one, so the first broken rule of all of them decides. -/
theorem addAll_heeds (o : Options) (entries : List Entry) :
    Heeds (o.addAll entries) (entries.flatMap Entry.optionRules) := by
  induction entries generalizing o with
  | nil => exact .ok o
  | cons e rest ih =>
    unfold addAll
    rw [List.flatMap_cons]
    exact (o.add_heeds e).bind fun o' _ => ih o'

/-- Attributes are read one by one, each with its entries first and its end behind them. -/
theorem addAttributes_heeds (o : Options) (attributes : List Attribute) :
    Heeds (o.addAttributes attributes)
      ((componentsOf attributes).flatMap Attribute.componentRules) := by
  induction attributes generalizing o with
  | nil => exact .ok o
  | cons a rest ih =>
    unfold addAttributes componentsOf
    -- Attributes that go by another name are passed over.
    by_cases hcalled : plainName a.path = "component"
    · rw [if_pos hcalled, List.filter_cons_of_pos (by simpa using hcalled),
        List.flatMap_cons]
      unfold Attribute.componentRules
      rw [List.append_assoc]
      -- The form comes first, then the entries one by one, then how the list ends.
      refine .cons (fun hbare => .cons (fun hassigned => ?_) fun hassigned => ?_) fun hbare => ?_
      · rcases hform : a.form with _ | _ | l
        · exact absurd hform hbare
        · exact absurd hform hassigned
        · rw [List.append_assoc]
          refine (o.addAll_heeds l.entries).bind fun o' _ => ?_
          exact l.finish_heeds.bind fun _ _ => ih o'
      · rw [not_not.1 hassigned]
        rfl
      · rw [not_not.1 hbare]
        rfl
    · rw [if_neg hcalled, List.filter_cons_of_neg (by simpa using hcalled)]
      exact ih o

/-- An option is read as what it says behind the ones before it. -/
theorem add_said {l : List Entry} (h : e.IsOption) : (said l).add e = .ok (said (l ++ [e])) := by
  rcases h with h | h | ⟨value, h | h | h⟩
  · rw [add_scope .singleton h]
    simp [said, textsUnder_concat h, scopeNamed?]
  · rw [add_scope .prototype h]
    simp [said, textsUnder_concat h, scopeNamed?]
  · rw [add_qualifier h]
    simp [said, textsUnder_concat h]
  · rw [add_postConstruct h]
    simp [said, textsUnder_concat h]
  · rw [add_preDestroy h]
    simp [said, textsUnder_concat h]

/-- Options that are added to what was said are what is said then. -/
theorem addAll_said {l : List Entry} (h : ∀ e ∈ entries, e.IsOption) :
    (said l).addAll entries = .ok (said (l ++ entries)) := by
  induction entries generalizing l with
  | nil =>
    rw [List.append_nil]
    rfl
  | cons e rest ih =>
    obtain ⟨he, hrest⟩ := List.forall_mem_cons.1 h
    unfold addAll
    rw [add_said he]
    show (said (l ++ [e])).addAll rest = _
    rw [ih hrest, List.append_assoc]
    rfl

/-- Entries are read alike in one attribute or in several. -/
theorem addAll_append (o : Options) (l m : List Entry) :
    o.addAll (l ++ m) = o.addAll l >>= fun o => o.addAll m := by
  induction l generalizing o with
  | nil => rfl
  | cons e rest ih =>
    show o.add e >>= (fun o => o.addAll (rest ++ m)) =
      (o.add e >>= fun o => o.addAll rest) >>= fun o => o.addAll m
    rw [bind_assoc]
    exact congrArg _ (funext fun o => ih o)

/-- The `component` attributes all have lists that can be read to their ends. -/
def Listed (attributes : List Attribute) : Prop :=
  ∀ a ∈ componentsOf attributes, a.form.Lists fun _ => True

/-- Attributes that have lists are read as one that has all the entries. -/
theorem addAttributes_eq_addAll {attributes : List Attribute} (h : Listed attributes) :
    o.addAttributes attributes = o.addAll (componentEntries attributes) := by
  induction attributes generalizing o with
  | nil => rfl
  | cons a rest ih =>
    unfold Listed componentEntries componentsOf at *
    unfold addAttributes
    by_cases hcalled : plainName a.path = "component"
    · rw [List.filter_cons_of_pos (by simpa using hcalled)] at h ⊢
      obtain ⟨⟨l, hform, hfault, -⟩, hrest⟩ := List.forall_mem_cons.1 h
      rw [if_pos hcalled, List.flatMap_cons, addAll_append, hform]
      dsimp only [AttributeForm.entries]
      rw [AttributeList.finish_of_whole hfault]
      exact congrArg _ (funext fun o => ih hrest)
    · rw [List.filter_cons_of_neg (by simpa using hcalled)] at h ⊢
      rw [if_neg hcalled]
      exact ih h

/-- The `component` attributes are lists of options. -/
structure Valid (attributes : List Attribute) : Prop where
  listed : Listed attributes
  options : ∀ e ∈ componentEntries attributes, e.IsOption

/-- What is read is what the entries say. -/
theorem ofAttributes_said {attributes : List Attribute} (h : Valid attributes) :
    ofAttributes attributes = .ok (said (componentEntries attributes)) := by
  unfold ofAttributes
  rw [addAttributes_eq_addAll h.listed]
  exact addAll_said (l := []) h.options

end Options

/-- Qualifiers are read one by one. -/
theorem injectQualifiers_heeds (entries : List Entry) :
    Heeds (injectQualifiers entries) (entries.flatMap Entry.qualifierRules) := by
  induction entries with
  | nil => exact .ok []
  | cons e rest ih =>
    unfold injectQualifiers
    rw [List.flatMap_cons]
    unfold Entry.qualifierRules
    refine .cons (fun hkey => ?_) fun hkey => ?_
    · rw [if_pos hkey]
      exact e.text_heeds.bind fun value _ => ih.bind_ok _
    · rw [if_neg hkey]
      rfl

/-- The first `inject` attribute of a field, if it has any. -/
def Field.injection? (f : Field) : Option Attribute :=
  f.attributes.find? (plainName ·.path = "inject")

/-- The injection of a field is read by the rules of the first attribute that speaks of it. -/
theorem findInject_heeds (f : Field) :
    Heeds (findInject f.attributes) (f.injection?.elim [] Attribute.injectRules) := by
  unfold findInject
  have hfirst : f.attributes.find? (plainName ·.path = "inject") = f.injection? := rfl
  rw [hfirst]
  rcases f.injection? with _ | a
  · exact .ok none
  · dsimp only [Option.elim_some]
    -- The list form is asked for before its entries are read.
    refine .cons (fun hassigned => ?_) fun hassigned => ?_
    · rcases hform : a.form with _ | _ | l
      · exact .ok _
      · exact absurd hform hassigned
      · refine (injectQualifiers_heeds l.entries).bind fun qualifiers _ => ?_
        exact l.finish_heeds.bind_ok fun _ => some qualifiers
    · rw [not_not.1 hassigned]
      rfl

end Attributes

end Wiring.Derive
