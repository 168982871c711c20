import Wiring.Qualifier

/-!
# Sets of qualifiers

A provider carries a set of qualifiers and a request names one. A request for the only
provider wants the sets equal; a request for all providers wants the named qualifiers among
the carried ones. A set is its ascending list of members, so it has one form and one text.
-/

namespace Wiring

/-- An ordered set of qualifiers. -/
abbrev Qualifiers := Sorted (id : Qualifier → Qualifier)

namespace Qualifiers

/-- The set with one more qualifier, and whether it was missing before. -/
def insert (s : Qualifiers) (q : Qualifier) : Bool × Qualifiers := (q ∉ s, s.put q)

def isSubset (s t : Qualifiers) : Bool := s.toList.all (· ∈ t)

theorem isSubset_iff {s t : Qualifiers} : s.isSubset t = true ↔ ∀ q ∈ s, q ∈ t := by
  simp [isSubset, Sorted.mem_def]

theorem mem_put {s : Qualifiers} {q r : Qualifier} : q ∈ s.put r ↔ q = r ∨ q ∈ s := by
  rw [Sorted.mem_put]
  constructor
  · rintro (rfl | ⟨hq, -⟩)
    · exact .inl rfl
    · exact .inr hq
  · rintro (rfl | hq)
    · exact .inl rfl
    · by_cases heq : compare r q = .eq
      · exact .inl (Std.LawfulEqCmp.eq_of_compare heq).symm
      · exact .inr ⟨hq, heq⟩

theorem mem_putAll {s : Qualifiers} {l : List Qualifier} {q : Qualifier} :
    q ∈ s.putAll l ↔ q ∈ s ∨ q ∈ l := by
  unfold Sorted.putAll
  induction l generalizing s with
  | nil => simp
  | cons r rest ih =>
    rw [List.foldl_cons, ih, mem_put, List.mem_cons, or_assoc, or_left_comm]

def union (s t : Qualifiers) : Qualifiers := s.putAll t.toList

@[simp] theorem mem_union {s t : Qualifiers} {q : Qualifier} : q ∈ s.union t ↔ q ∈ s ∨ q ∈ t :=
  mem_putAll

instance : Ord Qualifiers := ⟨fun s t => compare s.toList t.toList⟩

/-- Whether a provider that carries a set answers a request for the only provider. -/
def matchesExactly (carried requested : Qualifiers) : Bool := carried = requested

/-- Whether a provider that carries a set answers a request for all providers. -/
def matchesAmong (carried requested : Qualifiers) : Bool := requested.isSubset carried

def display (s : Qualifiers) : String := Text.listed (s.toList.map Qualifier.display)

def layout (s : Qualifiers) : String :=
  Text.wrapped "Qualifiers" (Text.braced (s.toList.map Qualifier.layout))

end Qualifiers

end Wiring
