import Wiring.World

/-!
# The history of a provider

The journal records the milestones of every provider. The history of one provider is what the
journal says about it, the latest first, and the values that it made, kept, released and
disposed of are read off its history. The history up to some moment is that of the journal's
older part, so both are defined on lists of entries.
-/

namespace Wiring

variable {C : Client}

namespace Milestone

/-- The provider that a milestone is about. -/
def provider? : Milestone C → Option ProviderId
  | invoked _ => none
  | started p | made p _ | kept p _ | released p _ | disposed p _ => some p

/-- The value that a provider has made. -/
def made? : Milestone C → Option (Value C)
  | made _ v => some v
  | _ => none

/-- The value that is kept from now on. -/
def kept? : Milestone C → Option (Value C)
  | kept _ v => some v
  | _ => none

/-- The value that is no longer kept. -/
def released? : Milestone C → Option (Value C)
  | released _ v => some v
  | _ => none

/-- The value whose teardown has run. -/
def disposed? : Milestone C → Option (Value C)
  | disposed _ v => some v
  | _ => none

/-- Whether a provider begins to make a value. -/
def isStarted : Milestone C → Bool
  | started _ => true
  | _ => false

end Milestone

/-- What an entry says about a provider. -/
def Entry.about? (x : ProviderId) : Entry C → Option (Milestone C)
  | .milestone m => if m.provider? = some x then some m else none
  | _ => none

/-- What a journal says about a provider, the latest first. -/
def historyIn (x : ProviderId) (j : List (Entry C)) : List (Milestone C) :=
  j.filterMap (Entry.about? x)

/-- The values that a provider has kept according to a journal, the latest first. -/
def keepingsIn (x : ProviderId) (j : List (Entry C)) : List (Value C) :=
  (historyIn x j).filterMap Milestone.kept?

/-- The values of a provider that were torn down according to a journal, the latest first. -/
def disposalsIn (x : ProviderId) (j : List (Entry C)) : List (Value C) :=
  (historyIn x j).filterMap Milestone.disposed?

namespace World

def history (w : World C) (x : ProviderId) : List (Milestone C) := historyIn x w.journal

/-- How often a provider has begun to make a value. -/
def starts (w : World C) (x : ProviderId) : Nat := (w.history x).countP Milestone.isStarted

/-- The values that a provider has made, the latest first. -/
def mades (w : World C) (x : ProviderId) : List (Value C) :=
  (w.history x).filterMap Milestone.made?

/-- The values that were ever kept for a provider, the latest first. -/
def keepings (w : World C) (x : ProviderId) : List (Value C) := keepingsIn x w.journal

/-- The values of a provider that were kept and are no longer, the latest first. -/
def releases (w : World C) (x : ProviderId) : List (Value C) :=
  (w.history x).filterMap Milestone.released?

/-- The values of a provider whose teardown has run, the latest first. -/
def disposals (w : World C) (x : ProviderId) : List (Value C) := disposalsIn x w.journal

end World

/-! ## Entries are added at the front -/

/-- The history of a provider in two journals behind each other. -/
theorem historyIn_append (x : ProviderId) (j k : List (Entry C)) :
    historyIn x (j ++ k) = historyIn x j ++ historyIn x k := List.filterMap_append

theorem Entry.about?_of_ne {x : ProviderId} {m : Milestone C} (h : m.provider? ≠ some x) :
    (Entry.milestone m).about? x = none := if_neg h

/-- An entry is about a provider exactly if it is a milestone of it. -/
theorem Entry.about?_eq_some_iff {x : ProviderId} {e : Entry C} {m : Milestone C} :
    e.about? x = some m ↔ e = .milestone m ∧ m.provider? = some x := by
  cases e with
  | event | note => exact ⟨nofun, nofun⟩
  | milestone m' =>
    by_cases h : m'.provider? = some x
    · rw [about?, if_pos h]
      refine ⟨fun he => ?_, fun he => ?_⟩
      · cases he
        exact ⟨rfl, h⟩
      · cases he.1
        rfl
    · rw [about?_of_ne h]
      refine ⟨nofun, fun he => ?_⟩
      cases he.1
      exact absurd he.2 h

theorem historyIn_milestone_self {x : ProviderId} {m : Milestone C} (h : m.provider? = some x)
    (j : List (Entry C)) : historyIn x (.milestone m :: j) = m :: historyIn x j := by
  simp [historyIn, Entry.about?, h]

theorem historyIn_milestone_of_ne {x : ProviderId} {m : Milestone C} (h : m.provider? ≠ some x)
    (j : List (Entry C)) : historyIn x (.milestone m :: j) = historyIn x j := by
  simp [historyIn, Entry.about?, h]

/-- A milestone of one provider is no part of the history of another. -/
theorem historyIn_milestone_other {x y : ProviderId} {m : Milestone C} (hm : m.provider? = some y)
    (h : x ≠ y) (j : List (Entry C)) : historyIn x (.milestone m :: j) = historyIn x j := by
  refine historyIn_milestone_of_ne (fun hx => h ?_) j
  rw [hm] at hx
  exact (Option.some.inj hx).symm

/-- What is read off a history stays the same with a milestone that says nothing of it. -/
theorem filterMap_historyIn_milestone {β : Type} {f : Milestone C → Option β} {m : Milestone C}
    (hm : f m = none) (x : ProviderId) (j : List (Entry C)) :
    (historyIn x (.milestone m :: j)).filterMap f = (historyIn x j).filterMap f := by
  by_cases h : m.provider? = some x
  · rw [historyIn_milestone_self h, List.filterMap_cons_none hm]
  · rw [historyIn_milestone_of_ne h]

/-- The values kept in two journals behind each other. -/
theorem keepingsIn_append (x : ProviderId) (j k : List (Entry C)) :
    keepingsIn x (j ++ k) = keepingsIn x j ++ keepingsIn x k := by
  unfold keepingsIn
  rw [historyIn_append, List.filterMap_append]

/-- The teardowns in two journals behind each other. -/
theorem disposalsIn_append (x : ProviderId) (j k : List (Entry C)) :
    disposalsIn x (j ++ k) = disposalsIn x j ++ disposalsIn x k := by
  unfold disposalsIn
  rw [historyIn_append, List.filterMap_append]

/-- An entry that keeps nothing changes nothing that was kept. -/
theorem keepingsIn_milestone {m : Milestone C} (hm : m.kept? = none) (x : ProviderId)
    (j : List (Entry C)) : keepingsIn x (.milestone m :: j) = keepingsIn x j :=
  filterMap_historyIn_milestone hm x j

/-- An entry that disposes of nothing changes nothing that was disposed of. -/
theorem disposalsIn_milestone {m : Milestone C} (hm : m.disposed? = none) (x : ProviderId)
    (j : List (Entry C)) : disposalsIn x (.milestone m :: j) = disposalsIn x j :=
  filterMap_historyIn_milestone hm x j

/-- An entry that makes nothing changes nothing that was made. -/
theorem World.mades_milestone (w : World C) {m : Milestone C} (hm : m.made? = none)
    (x : ProviderId) : (w.enter (.milestone m)).mades x = w.mades x :=
  filterMap_historyIn_milestone hm x w.journal

/-- An entry that takes nothing away changes nothing that was taken away. -/
theorem World.releases_milestone (w : World C) {m : Milestone C} (hm : m.released? = none)
    (x : ProviderId) : (w.enter (.milestone m)).releases x = w.releases x :=
  filterMap_historyIn_milestone hm x w.journal

theorem keepingsIn_kept_self (x : ProviderId) (v : Value C) (j : List (Entry C)) :
    keepingsIn x (.milestone (.kept x v) :: j) = v :: keepingsIn x j := by
  unfold keepingsIn
  rw [historyIn_milestone_self rfl]
  rfl

theorem keepingsIn_kept_of_ne {x y : ProviderId} (h : y ≠ x) (v : Value C) (j : List (Entry C)) :
    keepingsIn x (.milestone (.kept y v) :: j) = keepingsIn x j := by
  unfold keepingsIn
  rw [historyIn_milestone_other rfl h.symm]

end Wiring
