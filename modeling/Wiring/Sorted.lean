/-!
# Strictly ascending lists

A `Sorted key` is a list whose elements have strictly ascending keys. A set of `α` is a
`Sorted id`, a map from `κ` to `ν` a `Sorted Prod.fst`. The list is the whole value, so two
of them are equal as soon as they hold the same elements, however they were built.

* `Sorted.put` adds an element in its place and replaces the one that had its key;
* `Sorted.mem_put` says what is held afterwards, `Sorted.ext_of_mem` that the members
  determine the value.
-/

namespace Wiring

/-- A list of elements whose keys ascend strictly. -/
structure Sorted {α κ : Type} [Ord κ] (key : α → κ) where
  toList : List α
  ascending : toList.Pairwise (fun a b => compare (key a) (key b) = .lt)

namespace Sorted

variable {α κ : Type} [Ord κ] {key : α → κ}

@[ext] theorem ext {s t : Sorted key} (h : s.toList = t.toList) : s = t := by
  cases s; cases t; cases h; rfl

instance [DecidableEq α] : DecidableEq (Sorted key) := fun _ _ =>
  decidable_of_iff _ ⟨ext, fun h => h ▸ rfl⟩

def empty : Sorted key := ⟨[], .nil⟩

instance : EmptyCollection (Sorted key) := ⟨empty⟩
instance : Inhabited (Sorted key) := ⟨empty⟩
instance : Membership α (Sorted key) := ⟨fun s a => a ∈ s.toList⟩

theorem mem_def {s : Sorted key} {a : α} : a ∈ s ↔ a ∈ s.toList := Iff.rfl

instance [DecidableEq α] (s : Sorted key) (a : α) : Decidable (a ∈ s) :=
  inferInstanceAs (Decidable (a ∈ s.toList))

@[simp] theorem not_mem_empty {a : α} : a ∉ (∅ : Sorted key) := List.not_mem_nil

def size (s : Sorted key) : Nat := s.toList.length

def isEmpty (s : Sorted key) : Bool := s.toList.isEmpty

def find? (s : Sorted key) (k : κ) : Option α :=
  s.toList.find? (fun a => compare (key a) k == .eq)

/-- Puts an element in its place in a list, over the element that has its key. -/
def place (key : α → κ) (a : α) : List α → List α
  | [] => [a]
  | b :: rest =>
    match compare (key a) (key b) with
    | .lt => a :: b :: rest
    | .eq => a :: rest
    | .gt => b :: place key a rest

theorem mem_of_mem_place {a x : α} {l : List α} (h : x ∈ place key a l) : x = a ∨ x ∈ l := by
  induction l with
  | nil => simpa [place] using h
  | cons b rest ih =>
    unfold place at h
    split at h
    · simpa using h
    · rcases List.mem_cons.1 h with rfl | h <;> simp_all
    · rcases List.mem_cons.1 h with rfl | h
      · simp
      · rcases ih h with h | h <;> simp [h]

theorem mem_place_self (a : α) (l : List α) : a ∈ place key a l := by
  induction l with
  | nil => simp [place]
  | cons b rest ih => unfold place; split <;> simp [ih]

theorem mem_place_of_ne {a x : α} {l : List α} (hx : x ∈ l)
    (h : compare (key a) (key x) ≠ .eq) : x ∈ place key a l := by
  induction l with
  | nil => cases hx
  | cons b rest ih =>
    -- Where the new element goes: before the head, in its place, or further on.
    unfold place
    split
    · exact List.mem_cons_of_mem _ hx
    · next heq =>
      rcases List.mem_cons.1 hx with rfl | hx
      · exact absurd heq h
      · exact List.mem_cons_of_mem _ hx
    · rcases List.mem_cons.1 hx with rfl | hx
      · exact List.mem_cons_self
      · exact List.mem_cons_of_mem _ (ih hx)

variable [Std.TransOrd κ]

theorem ascending_place (a : α) {l : List α}
    (h : l.Pairwise (fun a b => compare (key a) (key b) = .lt)) :
    (place key a l).Pairwise (fun a b => compare (key a) (key b) = .lt) := by
  induction l with
  | nil => simp [place]
  | cons b rest ih =>
    rw [List.pairwise_cons] at h
    unfold place
    split
    · next hlt =>
      refine List.pairwise_cons.2 ⟨fun x hx => ?_, List.pairwise_cons.2 h⟩
      rcases List.mem_cons.1 hx with rfl | hx
      · exact hlt
      · exact Std.TransCmp.lt_trans hlt (h.1 x hx)
    · next heq =>
      exact List.pairwise_cons.2
        ⟨fun x hx => (Std.TransCmp.congr_left heq).trans (h.1 x hx), h.2⟩
    · next hgt =>
      -- The new element is behind the head.
      refine List.pairwise_cons.2 ⟨fun x hx => ?_, ih h.2⟩
      rcases mem_of_mem_place hx with rfl | hx
      · exact Std.OrientedCmp.lt_of_gt hgt
      · exact h.1 x hx

/-- Adds an element; it takes the place of the element that has its key. -/
def put (s : Sorted key) (a : α) : Sorted key :=
  ⟨place key a s.toList, ascending_place a s.ascending⟩

def putAll (s : Sorted key) (as : List α) : Sorted key := as.foldl put s

/-- The elements of a list, in order of their keys; of two with one key the later stays. -/
def ofList (as : List α) : Sorted key := putAll ∅ as

theorem mem_put_self (s : Sorted key) (a : α) : a ∈ s.put a := mem_place_self a s.toList

theorem compare_ne_lt_self (x : α) : compare (key x) (key x) ≠ .lt := by
  have h : compare (key x) (key x) = .eq := Std.ReflCmp.compare_self
  rw [h]; decide

/-- An element is found by its key: no other member has that key. -/
theorem eq_of_compare_eq {s : Sorted key} {x y : α} (hx : x ∈ s) (hy : y ∈ s)
    (h : compare (key x) (key y) = .eq) : x = y := by
  obtain ⟨l, hl⟩ := s
  rw [mem_def] at hx hy
  dsimp only at hx hy
  induction l with
  | nil => cases hx
  | cons b rest ih =>
    rw [List.pairwise_cons] at hl
    -- Two elements at different places differ in their keys.
    rcases List.mem_cons.1 hx with hxb | hx' <;> rcases List.mem_cons.1 hy with hyb | hy'
    · exact hxb.trans hyb.symm
    · subst hxb; exact absurd (h.symm.trans (hl.1 y hy')) (by decide)
    · subst hyb; exact absurd ((Std.OrientedCmp.eq_symm h).symm.trans (hl.1 x hx')) (by decide)
    · exact ih hl.2 hx' hy'

/-- Members are determined by what was put: the new element, and the old ones under other keys. -/
theorem mem_put {s : Sorted key} {a x : α} :
    x ∈ s.put a ↔ x = a ∨ (x ∈ s ∧ compare (key a) (key x) ≠ .eq) := by
  constructor
  · intro hx
    by_cases heq : compare (key a) (key x) = .eq
    · exact .inl (eq_of_compare_eq (mem_put_self s a) hx heq).symm
    · exact (mem_of_mem_place hx).imp_right fun hmem => ⟨hmem, heq⟩
  · rintro (rfl | ⟨hmem, hne⟩)
    · exact mem_put_self s x
    · exact mem_place_of_ne hmem hne

theorem toList_eq_of_mem {l₁ l₂ : List α}
    (h₁ : l₁.Pairwise (fun a b => compare (key a) (key b) = .lt))
    (h₂ : l₂.Pairwise (fun a b => compare (key a) (key b) = .lt))
    (h : ∀ a, a ∈ l₁ ↔ a ∈ l₂) : l₁ = l₂ := by
  induction l₁ generalizing l₂ with
  | nil =>
    cases l₂ with
    | nil => rfl
    | cons b t => exact absurd ((h b).2 List.mem_cons_self) List.not_mem_nil
  | cons a s ih =>
    cases l₂ with
    | nil => exact absurd ((h a).1 List.mem_cons_self) List.not_mem_nil
    | cons b t =>
      rw [List.pairwise_cons] at h₁ h₂
      -- The heads are the least elements of the same set.
      have hab : a = b := by
        rcases List.mem_cons.1 ((h a).1 List.mem_cons_self) with hab | ha
        · exact hab
        · rcases List.mem_cons.1 ((h b).2 List.mem_cons_self) with hba | hb
          · exact hba.symm
          · exact absurd (Std.TransCmp.lt_trans (h₁.1 b hb) (h₂.1 a ha))
              (compare_ne_lt_self a)
      subst hab
      refine congrArg _ (ih h₁.2 h₂.2 fun x => ?_)
      constructor
      · intro hx
        rcases List.mem_cons.1 ((h x).1 (List.mem_cons_of_mem _ hx)) with rfl | hx'
        · exact absurd (h₁.1 x hx) (compare_ne_lt_self x)
        · exact hx'
      · intro hx
        rcases List.mem_cons.1 ((h x).2 (List.mem_cons_of_mem _ hx)) with rfl | hx'
        · exact absurd (h₂.1 x hx) (compare_ne_lt_self x)
        · exact hx'

/-- Two ascending lists with the same members are the same list. -/
theorem ext_of_mem {s t : Sorted key} (h : ∀ a, a ∈ s ↔ a ∈ t) : s = t :=
  ext (toList_eq_of_mem s.ascending t.ascending h)

end Sorted

end Wiring
