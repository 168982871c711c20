import Mathlib.Data.List.Induction
import Mathlib.Tactic.TFAE
import Wiring.Qualifier.Set
import Wiring.Registry

/-!
# Qualifiers have one form

However a qualifier or a set of qualifiers was built, nothing is left of how: a qualifier is its
name and the last value of every key, and a set is its members. So there is one order, one text and
one look-up key for each. The order compares names first and then the attributes in order of their
keys, a key before its value, where what ends first comes first; sets are compared member by member.

Main statement: `Qualifiers.canonical`.
-/

namespace Wiring

/-! ## Comparisons -/

/-- A comparison is a total order: it is turned around with its sides, goes on over a third element,
and its only ties are equal elements. -/
structure OrdersTotally (α : Type) [Ord α] : Prop where
  eq_iff : ∀ a b : α, compare a b = .eq ↔ a = b
  swap : ∀ a b : α, compare b a = (compare a b).swap
  antisymm : ∀ a b : α, (compare a b).isLE = true → (compare b a).isLE = true → a = b
  trans : ∀ a b c : α, (compare a b).isLE = true → (compare b c).isLE = true →
    (compare a c).isLE = true

/-- A lawful comparison is a total order, and equal by it is equal. -/
theorem ordersTotally (α : Type) [Ord α] [Std.TransOrd α] [Std.LawfulEqOrd α] :
    OrdersTotally α where
  eq_iff _ _ := Std.LawfulEqCmp.compare_eq_iff_eq
  swap _ _ := Std.OrientedCmp.eq_swap
  antisymm _ _ hab hba := Std.LawfulEqCmp.eq_of_compare (Std.OrientedCmp.isLE_antisymm hab hba)
  trans _ _ _ := Std.TransCmp.isLE_trans

/-! ## One qualifier -/

namespace Sorted

variable {α κ : Type} [Ord κ] [Std.TransOrd κ] {key : α → κ}

/-- What is found under a key is the element that has it. -/
theorem find?_eq_some_iff {s : Sorted key} {k : κ} {a : α} :
    s.find? k = some a ↔ a ∈ s ∧ compare (key a) k = .eq := by
  unfold find?
  constructor
  · intro h
    exact ⟨List.mem_of_find?_eq_some h, by simpa using List.find?_some h⟩
  · rintro ⟨hmem, hkey⟩
    have hsome : (s.toList.find? fun b => compare (key b) k == .eq).isSome = true :=
      List.find?_isSome.2 ⟨a, hmem, by simpa using hkey⟩
    obtain ⟨b, hb⟩ := Option.isSome_iff_exists.1 hsome
    have hkey' : compare (key b) k = .eq := by simpa using List.find?_some hb
    rw [hb, eq_of_compare_eq (List.mem_of_find?_eq_some hb) hmem
      (Std.TransCmp.eq_trans hkey' (Std.OrientedCmp.eq_symm hkey))]

end Sorted

namespace Qualifier

variable {q r : Qualifier} {key value name : String}

/-- A key has a value exactly if both are an attribute. -/
theorem attribute?_eq_some_iff : q.attribute? key = some value ↔ (key, value) ∈ q.attributes := by
  unfold attribute?
  constructor
  · intro h
    obtain ⟨⟨key', value'⟩, hfind, rfl⟩ := Option.map_eq_some_iff.1 h
    obtain ⟨hmem, hkey⟩ := Sorted.find?_eq_some_iff.1 hfind
    obtain rfl : key' = key := Std.LawfulEqCmp.eq_of_compare hkey
    exact hmem
  · intro hmem
    rw [Sorted.find?_eq_some_iff.2 ⟨hmem, Std.ReflCmp.compare_self⟩]
    rfl

/-- A qualifier is its name and the values of its attributes. -/
theorem ext_attribute? (hname : q.name = r.name)
    (hvalues : ∀ key, q.attribute? key = r.attribute? key) : q = r := by
  have hmem : ∀ e, e ∈ q.attributes ↔ e ∈ r.attributes := by
    intro ⟨key, value⟩
    rw [← attribute?_eq_some_iff, ← attribute?_eq_some_iff, hvalues]
  have hattributes : q.attributes = r.attributes := Sorted.ext_of_mem hmem
  cases q
  cases r
  cases hname
  cases hattributes
  rfl

/-- Setting an attribute changes that attribute alone. -/
theorem attribute?_withAttribute (q : Qualifier) (key value other : String) :
    (q.withAttribute key value).attribute? other =
      if other = key then some value else q.attribute? other := by
  apply Option.ext
  intro found
  have hput : (other, found) ∈ (q.withAttribute key value).attributes ↔
      (other, found) = (key, value) ∨
        (other, found) ∈ q.attributes ∧ compare key other ≠ .eq := Sorted.mem_put
  have hkey : compare key other ≠ .eq ↔ key ≠ other :=
    not_congr Std.LawfulEqCmp.compare_eq_iff_eq
  rw [attribute?_eq_some_iff, hput, hkey, ← attribute?_eq_some_iff]
  by_cases h : other = key
  · simp [h, eq_comm]
  · simp [h, Ne.symm h]

/-- The qualifier that attributes make of a name, set one after the other. -/
def build (name : String) (l : List (String × String)) : Qualifier :=
  l.foldl (fun q e => q.withAttribute e.1 e.2) (.named name)

/-- What is set last is set on what was built before. -/
theorem build_concat (name : String) (l : List (String × String)) (e : String × String) :
    build name (l ++ [e]) = (build name l).withAttribute e.1 e.2 := by
  unfold build
  rw [List.foldl_append]
  rfl

theorem name_build (name : String) (l : List (String × String)) : (build name l).name = name := by
  induction l using List.reverseRecOn with
  | nil => rfl
  | append_singleton l e ih =>
    rw [build_concat]
    exact ih

/-- Under every key stands the value that was set last. -/
theorem attribute?_build (name : String) (l : List (String × String)) (key : String) :
    (build name l).attribute? key = l.reverse.lookup key := by
  induction l using List.reverseRecOn with
  | nil => rfl
  | append_singleton l e ih =>
    rw [build_concat, attribute?_withAttribute, ih, List.reverse_concat, List.lookup_cons]
    by_cases h : key = e.1
    · rw [if_pos h, beq_iff_eq.2 h]
    · rw [if_neg h, beq_eq_false_iff_ne.2 h]

/-- Qualifiers are equal if they have the same name and the same last value of every key, in
whatever order and however often the keys were set. -/
theorem build_eq_build_iff {name name' : String} {l l' : List (String × String)} :
    build name l = build name' l' ↔
      name = name' ∧ ∀ key, l.reverse.lookup key = l'.reverse.lookup key := by
  constructor
  · intro h
    refine ⟨?_, fun key => ?_⟩
    · rw [← name_build name l, h, name_build]
    · rw [← attribute?_build name, h, attribute?_build]
  · rintro ⟨rfl, hvalues⟩
    refine ext_attribute? ?_ fun key => ?_
    · rw [name_build, name_build]
    · rw [attribute?_build, attribute?_build, hvalues]

/-- The comparison of attributes, pair by pair and a key before its value; what ends first comes
first. -/
def compareAttributes : List (String × String) → List (String × String) → Ordering
  | [], [] => .eq
  | [], _ :: _ => .lt
  | _ :: _, [] => .gt
  | (key, value) :: l, (key', value') :: l' =>
    ((compare key key').then (compare value value')).then (compareAttributes l l')

/-- Attributes compare as the lists of their keys and values do. -/
theorem compare_flattened (l l' : List (String × String)) :
    compare (flattened l) (flattened l') = compareAttributes l l' := by
  induction l generalizing l' with
  | nil => cases l' <;> rfl
  | cons e l ih =>
    cases l' with
    | nil => rfl
    | cons e' l' =>
      unfold flattened compareAttributes
      rw [List.compare_cons_cons, List.compare_cons_cons, ih, Ordering.then_assoc]

/-- Names decide before attributes. -/
theorem compare_eq_then (q r : Qualifier) :
    compare q r =
      (compare q.name r.name).then (compareAttributes q.attributes.toList r.attributes.toList) := by
  rw [compare_def]
  unfold words
  rw [List.compare_cons_cons, compare_flattened]

end Qualifier

/-! ## Sets of qualifiers -/

namespace Qualifiers

instance : Std.TransOrd Qualifiers where
  eq_swap {s t} := by
    show compare s.toList t.toList = (compare t.toList s.toList).swap
    exact Std.OrientedCmp.eq_swap
  isLE_trans {s t u} hst htu := by
    show (compare s.toList u.toList).isLE = true
    exact Std.TransCmp.isLE_trans (b := t.toList) hst htu

instance : Std.LawfulEqOrd Qualifiers where
  eq_of_compare {s t} h := by
    have hlist : compare s.toList t.toList = .eq := h
    exact Sorted.ext (Std.LawfulEqCmp.eq_of_compare hlist)

/-- How a set of qualifiers comes about. -/
inductive Recipe
  /-- No qualifier. -/
  | new
  /-- A single qualifier. -/
  | ofOne (q : Qualifier)
  /-- The qualifiers of a list. -/
  | collect (l : List Qualifier)
  /-- One more qualifier, with the answer whether it is new. -/
  | insert (before : Recipe) (q : Qualifier)
  /-- One more qualifier. -/
  | adding (before : Recipe) (q : Qualifier)
  /-- The qualifiers of a list as well. -/
  | extend (before : Recipe) (l : List Qualifier)

namespace Recipe

/-- The set that a recipe makes. -/
def build : Recipe → Qualifiers
  | new => ∅
  | ofOne q => (∅ : Qualifiers).put q
  | collect l => .ofList l
  | insert before q => (before.build.insert q).2
  | adding before q => before.build.put q
  | extend before l => before.build.putAll l

/-- All qualifiers that a recipe mentions. -/
def mentioned : Recipe → List Qualifier
  | new => []
  | ofOne q => [q]
  | collect l => l
  | insert before q | adding before q => before.mentioned ++ [q]
  | extend before l => before.mentioned ++ l

/-- The members of a set are the qualifiers that were mentioned. -/
theorem mem_build {a : Recipe} {q : Qualifier} : q ∈ a.build ↔ q ∈ a.mentioned := by
  induction a with
  | new => simp [build, mentioned]
  | ofOne r => simp [build, mentioned, mem_put]
  | collect l => simp [build, mentioned, Sorted.ofList, mem_putAll]
  | insert before r ih | adding before r ih =>
    simp [build, mentioned, Qualifiers.insert, mem_put, ih, or_comm]
  | extend before l ih => simp [build, mentioned, mem_putAll, ih]

end Recipe

/-- An insertion says whether the qualifier was new. -/
theorem insert_fst_iff {s : Qualifiers} {q : Qualifier} : (s.insert q).1 = true ↔ q ∉ s :=
  decide_eq_true_iff

/-- Exact matching is equality of the sets. -/
theorem matchesExactly_iff {s t : Qualifiers} : s.matchesExactly t = true ↔ s = t :=
  decide_eq_true_iff

/-- Sets match exactly if each one is among the other. -/
theorem matchesAmong_and_iff {s t : Qualifiers} :
    s.matchesAmong t = true ∧ t.matchesAmong s = true ↔ s = t := by
  unfold matchesAmong
  rw [isSubset_iff, isSubset_iff]
  constructor
  · rintro ⟨hts, hst⟩
    exact Sorted.ext_of_mem fun q => ⟨hst q, hts q⟩
  · rintro rfl
    exact ⟨fun _ h => h, fun _ h => h⟩

/-- However two sets were built, they are equal if they have the same members, and this is what an
exact match, a match both ways, a tie and a common look-up key come to. -/
theorem build_tfae (a b : Recipe) :
    [a.build.matchesExactly b.build = true,
      ∀ q, q ∈ a.mentioned ↔ q ∈ b.mentioned,
      a.build.matchesAmong b.build = true ∧ b.build.matchesAmong a.build = true,
      compare a.build b.build = .eq,
      ∀ type, ((type, a.build) : Request) = (type, b.build)].TFAE := by
  -- Canonical sets make the first, the third and the fourth statement the same equation.
  rw [matchesExactly_iff, matchesAmong_and_iff, (ordersTotally Qualifiers).eq_iff]
  tfae_have 1 ↔ 2 := by
    constructor
    · intro h q
      rw [← Recipe.mem_build, h, Recipe.mem_build]
    · intro h
      refine Sorted.ext_of_mem fun q => ?_
      rw [Recipe.mem_build, h, Recipe.mem_build]
  tfae_have 1 ↔ 3 := Iff.rfl
  tfae_have 1 ↔ 4 := Iff.rfl
  -- A request that mentions the sets separates them.
  tfae_have 1 ↔ 5 := ⟨fun h _ => congrArg _ h, fun h => (Prod.mk.inj (h .container)).2⟩
  tfae_finish

/-- Qualifiers are equal if they have the same name and the same last value of every key, and sets
of them are equal if they have the same members, however they were built. Both are totally ordered,
and ties are equal. A set is iterated in this order, an insertion says whether the qualifier was
missing, and equal sets have one text. -/
theorem canonical :
    (∀ name name' l l', Qualifier.build name l = Qualifier.build name' l' ↔
      name = name' ∧ ∀ key, l.reverse.lookup key = l'.reverse.lookup key) ∧
    OrdersTotally Qualifier ∧
    (∀ q r : Qualifier, compare q r = (compare q.name r.name).then
      (Qualifier.compareAttributes q.attributes.toList r.attributes.toList)) ∧
    (∀ a : Recipe, a.build.toList.Pairwise (fun q r => compare q r = .lt) ∧
      ∀ q, (q ∈ a.build.toList ↔ q ∈ a.mentioned) ∧
        ((a.build.insert q).1 = true ↔ q ∉ a.mentioned)) ∧
    (∀ a b : Recipe,
      [a.build.matchesExactly b.build = true,
        ∀ q, q ∈ a.mentioned ↔ q ∈ b.mentioned,
        a.build.matchesAmong b.build = true ∧ b.build.matchesAmong a.build = true,
        compare a.build b.build = .eq,
        ∀ type, ((type, a.build) : Request) = (type, b.build)].TFAE ∧
      (a.build.matchesExactly b.build = true →
        a.build.display = b.build.display ∧ a.build.layout = b.build.layout)) ∧
    OrdersTotally Qualifiers := by
  refine ⟨fun _ _ _ _ => Qualifier.build_eq_build_iff, ordersTotally _, Qualifier.compare_eq_then,
    fun a => ⟨a.build.ascending, fun q => ⟨Recipe.mem_build, ?_⟩⟩,
    fun a b => ⟨build_tfae a b, fun h => ?_⟩, ordersTotally _⟩
  · rw [insert_fst_iff, Recipe.mem_build]
  · rw [matchesExactly_iff.1 h]
    exact ⟨rfl, rfl⟩

example : Qualifier.build "store" [("mode", "r"), ("zone", "a"), ("mode", "w")] =
    Qualifier.build "store" [("zone", "a"), ("mode", "w")] := by decide

end Qualifiers

end Wiring
