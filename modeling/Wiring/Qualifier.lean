import Wiring.Sorted
import Wiring.Text.Layout

/-!
# Qualifiers

A qualifier tells apart several providers of one type. It has a name and attributes, each
attribute key at most once; two qualifiers are equal when name and attributes are.

Qualifiers are ordered by their *words*, the name followed by the attributes' keys and values
in order of the keys, compared one after the other. The words determine the qualifier
(`Qualifier.words_injective`), so this is a total order whose only ties are equal qualifiers.
-/

namespace Wiring

/-- Attributes in order of their keys. -/
abbrev Attributes := Sorted (Prod.fst : String × String → String)

/-- A symbolic mark that tells apart providers of one type. -/
structure Qualifier where
  name : String
  attributes : Attributes
deriving DecidableEq, Inhabited

namespace Qualifier

def named (name : String) : Qualifier := ⟨name, ∅⟩

/-- Sets an attribute, over the value that its key had. -/
def withAttribute (q : Qualifier) (key value : String) : Qualifier :=
  { q with attributes := q.attributes.put (key, value) }

def attribute? (q : Qualifier) (key : String) : Option String :=
  (q.attributes.find? key).map Prod.snd

/-! ## Order -/

/-- A list of pairs as one list. -/
def flattened : List (String × String) → List String
  | [] => []
  | (key, value) :: rest => key :: value :: flattened rest

theorem flattened_injective {l₁ l₂ : List (String × String)} (h : flattened l₁ = flattened l₂) :
    l₁ = l₂ := by
  induction l₁ generalizing l₂ with
  | nil => cases l₂ with
    | nil => rfl
    | cons e l => simp [flattened] at h
  | cons e l ih => cases l₂ with
    | nil => simp [flattened] at h
    | cons e' l' =>
      simp only [flattened, List.cons.injEq] at h
      exact congr (congrArg _ (Prod.ext h.1 h.2.1)) (ih h.2.2)

/-- The words that a qualifier is ordered by. -/
def words (q : Qualifier) : List String := q.name :: flattened q.attributes.toList

theorem words_injective {q r : Qualifier} (h : q.words = r.words) : q = r := by
  obtain ⟨qn, qa⟩ := q
  obtain ⟨rn, ra⟩ := r
  simp only [words, List.cons.injEq] at h
  rw [h.1, Sorted.ext (flattened_injective h.2)]

instance : Ord Qualifier := ⟨fun q r => compare q.words r.words⟩

theorem compare_def (q r : Qualifier) : compare q r = compare q.words r.words := rfl

instance : Std.TransOrd Qualifier where
  eq_swap {q r} := by
    show compare q.words r.words = (compare r.words q.words).swap
    exact Std.OrientedCmp.eq_swap
  isLE_trans {q r s} h₁ h₂ := by
    rw [compare_def] at h₁ h₂ ⊢
    exact Std.TransCmp.isLE_trans h₁ h₂

instance : Std.LawfulEqOrd Qualifier where
  eq_of_compare {q r} h := by
    rw [compare_def] at h
    exact words_injective (Std.LawfulEqCmp.eq_of_compare h)

/-! ## Text -/

/-- The short form, `@name` or `@name(key=value, ..)`. -/
def display (q : Qualifier) : String :=
  "@" ++ q.name ++
    if q.attributes.isEmpty then ""
    else "(" ++ Text.commaed (q.attributes.toList.map fun (k, v) => k ++ "=" ++ v) ++ ")"

/-- The full form, with quoted text. -/
def layout (q : Qualifier) : String :=
  Text.record "Qualifier"
    [("name", Text.quoted q.name),
     ("attributes", Text.braced (q.attributes.toList.map fun (k, v) =>
        Text.quoted k ++ ": " ++ Text.quoted v))]

end Qualifier

end Wiring
