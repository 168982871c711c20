/-!
# Look-up tables

A `Table κ ν` relates keys to values, each key to at most one. The order of the entries
carries no meaning: a table is observed through `get?`.
-/

namespace Wiring

/-- A finite table from keys to values. -/
structure Table (κ ν : Type) where
  entries : List (κ × ν) := []

namespace Table

variable {κ ν : Type} [DecidableEq κ]

def empty : Table κ ν := ⟨[]⟩

omit [DecidableEq κ] in
instance : EmptyCollection (Table κ ν) := ⟨⟨[]⟩⟩
omit [DecidableEq κ] in
instance : Inhabited (Table κ ν) := ⟨⟨[]⟩⟩

def get? (t : Table κ ν) (k : κ) : Option ν :=
  (t.entries.find? fun e => e.1 = k).map Prod.snd

/-- The table with a value for a key, over the one it had. -/
def put (t : Table κ ν) (k : κ) (v : ν) : Table κ ν :=
  ⟨(k, v) :: t.entries.filter fun e => e.1 ≠ k⟩

def erase (t : Table κ ν) (k : κ) : Table κ ν :=
  ⟨t.entries.filter fun e => e.1 ≠ k⟩

@[simp] theorem get?_empty (k : κ) : (∅ : Table κ ν).get? k = none := rfl

theorem find?_filter_of_ne (l : List (κ × ν)) {k j : κ} (h : j ≠ k) :
    (l.filter fun e => e.1 ≠ k).find? (fun e => e.1 = j) = l.find? fun e => e.1 = j := by
  induction l with
  | nil => rfl
  | cons e l ih =>
    by_cases hk : e.1 = k
    · have hj : ¬ e.1 = j := fun hj => h (hj.symm.trans hk)
      rw [List.filter_cons_of_neg (by simpa using hk), List.find?_cons_of_neg (by simpa using hj)]
      exact ih
    · rw [List.filter_cons_of_pos (by simpa using hk)]
      by_cases hj : e.1 = j
      · rw [List.find?_cons_of_pos (by simpa using hj), List.find?_cons_of_pos (by simpa using hj)]
      · rw [List.find?_cons_of_neg (by simpa using hj), List.find?_cons_of_neg (by simpa using hj)]
        exact ih

@[simp] theorem get?_put_self (t : Table κ ν) (k : κ) (v : ν) : (t.put k v).get? k = some v := by
  simp [get?, put]

@[simp] theorem get?_put_of_ne (t : Table κ ν) {k j : κ} (v : ν) (h : j ≠ k) :
    (t.put k v).get? j = t.get? j := by
  unfold get? put
  rw [List.find?_cons_of_neg (by simpa using fun hk => h hk.symm), find?_filter_of_ne _ h]

@[simp] theorem put_put (t : Table κ ν) (k : κ) (u v : ν) : (t.put k u).put k v = t.put k v := by
  simp [put, List.filter_filter]

@[simp] theorem get?_erase_self (t : Table κ ν) (k : κ) : (t.erase k).get? k = none := by
  simp [get?, erase, List.find?_eq_none]

@[simp] theorem get?_erase_of_ne (t : Table κ ν) {k j : κ} (h : j ≠ k) :
    (t.erase k).get? j = t.get? j := by
  unfold get? erase
  rw [find?_filter_of_ne _ h]

end Table

end Wiring
