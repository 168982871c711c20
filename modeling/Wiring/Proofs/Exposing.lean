import Wiring.Proofs.Describing

/-!
# Exposures

A provider answers under its implementation type and under each type that was exposed, by the cast
that was exposed for it. The exposures are a list in which every type has one place: to expose a
type that has a place replaces its cast there, and any other type goes behind the rest. So the
places tell which type was exposed first, and the casts what was exposed last.

Main statements: `Registration.types_described`, `Registration.hasType_described`,
`Registration.convert?_described`.
-/

namespace Wiring

variable {C : Client} {key : TypeKey}

/-! ## The list of exposures -/

namespace Exposure

variable {es : List (Exposure C)}

/-- A type that was exposed keeps its place, and a new one comes last. -/
theorem map_type_put (es : List (Exposure C)) (e : Exposure C) :
    (put es e).map (·.type) =
      if e.type ∈ es.map (·.type) then es.map (·.type) else es.map (·.type) ++ [e.type] := by
  have hany : es.any (·.type = e.type) = true ↔ e.type ∈ es.map (·.type) := by
    simp [List.any_eq_true]
  unfold put
  simp only [hany]
  split
  · rw [List.map_map]
    refine List.map_congr_left fun x _ => ?_
    by_cases hx : x.type = e.type <;> simp [hx]
  · rw [List.map_append, List.map_singleton]

/-- A type is given the cast that was exposed, and the others keep theirs. -/
theorem find?_put (es : List (Exposure C)) (e : Exposure C) (key : TypeKey) :
    (put es e).find? (·.type = key) =
      if e.type = key then some e else es.find? (·.type = key) := by
  unfold put
  split
  · next hany =>
    -- The cast is replaced in its place, and the place is found by the type as before.
    have hplace : ((fun x : Exposure C => decide (x.type = key)) ∘
        fun x => if x.type = e.type then e else x) = fun x => decide (x.type = key) := by
      funext x
      by_cases hx : x.type = e.type <;> simp [hx]
    rw [List.find?_map, hplace]
    rcases hfind : es.find? (·.type = key) with _ | x
    · have hne : e.type ≠ key := by
        rintro rfl
        obtain ⟨x, hx, htype⟩ := List.any_eq_true.1 hany
        exact List.find?_eq_none.1 hfind x hx htype
      rw [if_neg hne, hfind, Option.map_none]
    · have hkey : x.type = key := by simpa using List.find?_some hfind
      by_cases htype : e.type = key
      · rw [if_pos htype, hfind, Option.map_some, if_pos (hkey.trans htype.symm)]
      · rw [if_neg htype, hfind, Option.map_some, if_neg fun hx => htype (hx.symm.trans hkey)]
  · next hany =>
    rw [List.find?_append]
    by_cases htype : e.type = key
    · subst htype
      have hnone : es.find? (·.type = e.type) = none :=
        List.find?_eq_none.2 fun x hx h => hany (List.any_eq_true.2 ⟨x, hx, h⟩)
      simp [hnone]
    · simp [htype]

/-- Each type stands where it was exposed first. -/
theorem map_type_foldl_put (e : Exposure C) (l : List (Exposure C)) :
    (l.foldl put [e]).map (·.type) = (e.type :: l.map (·.type)).eraseDups := by
  induction l using List.reverseRecOn with
  | nil => rfl
  | append_singleton l x ih =>
    rw [List.foldl_append, List.foldl_cons, List.foldl_nil, map_type_put, ih, List.map_append,
      ← List.cons_append, List.eraseDups_append, List.map_singleton]
    generalize e.type :: l.map (·.type) = types
    by_cases hmem : x.type ∈ types <;> simp [List.removeAll, List.eraseDups_cons, hmem]

/-- No type is exposed twice. -/
theorem nodup_foldl_put (l : List (Exposure C)) (h : (es.map (·.type)).Nodup) :
    ((l.foldl put es).map (·.type)).Nodup := by
  induction l generalizing es with
  | nil => exact h
  | cons x rest ih =>
    refine ih ?_
    rw [map_type_put]
    split
    · exact h
    · next hmem =>
      refine List.nodup_append.2 ⟨h, List.pairwise_singleton _ _, fun a ha b hb hab => hmem ?_⟩
      rwa [← List.mem_singleton.1 hb, ← hab]

/-- A type has the cast that was exposed for it last. -/
theorem find?_foldl_put (l : List (Exposure C)) (key : TypeKey) :
    (l.foldl put es).find? (·.type = key) =
      (l.reverse.find? (·.type = key)).or (es.find? (·.type = key)) := by
  induction l generalizing es with
  | nil => rfl
  | cons x rest ih =>
    rw [List.foldl_cons, ih, find?_put, List.reverse_cons, List.find?_append, Option.or_assoc]
    by_cases htype : x.type = key <;> simp [htype]

end Exposure

/-! ## Described providers -/

namespace Detail

def exposed (l : List (Detail C)) : List (Exposure C) := l.filterMap exposure?

/-- The value as a type, by the cast that was exposed for it last; itself if there is none, and as
the wildcard. -/
def through (l : List (Detail C)) (type : TypeKey) (x : Value C) : Value C :=
  if type.isWildcard then x
  else
    match (exposed l).reverse.find? (·.type = type) with
    | some e => e.convert x
    | none => x

/-- Only calls that expose a type change the exposures. -/
theorem foldl_onExposures (es : List (Exposure C)) (l : List (Detail C)) :
    l.foldl onExposures es = (exposed l).foldl Exposure.put es := by
  unfold exposed
  rw [List.foldl_filterMap]
  refine congrArg (l.foldl · es) (funext₂ fun es d => ?_)
  unfold onExposures
  rcases d.exposure? with _ | e <;> rfl

end Detail

namespace Registration

open Detail

variable (type : TypeKey) (source : Source C) (markers : Markers) (l : List (Detail C))

theorem implementation_described : (described type source markers l).implementation = type := by
  unfold described
  rw [describe_eq]
  rfl

/-- What is exposed is put one by one behind the type's own cast. -/
theorem exposures_described : (described type source markers l).exposures =
    (exposed l).foldl Exposure.put [⟨type, id⟩] := by
  unfold described
  rw [describe_eq, ← foldl_onExposures]
  rfl

/-- The implementation type comes first, and the others in the order in which they were exposed
first. -/
theorem types_described :
    (described type source markers l).types = (type :: (exposed l).map (·.type)).eraseDups := by
  unfold Definition.types
  rw [exposures_described, Exposure.map_type_foldl_put]

/-- No type is exposed twice: a later cast takes the place of an earlier one. -/
theorem nodup_types_described : (described type source markers l).types.Nodup := by
  unfold Definition.types
  rw [exposures_described]
  exact Exposure.nodup_foldl_put _ (List.pairwise_singleton _ _)

/-- A definition has the wildcard, its own type and the types that were exposed. -/
theorem hasType_described : (described type source markers l).hasType key = true ↔
    key = .anything ∨ key = type ∨ ∃ e ∈ exposed l, e.type = key := by
  unfold Definition.hasType TypeKey.isWildcard
  rw [types_described]
  simp only [Bool.or_eq_true, decide_eq_true_eq, List.contains_iff_mem, List.mem_eraseDups,
    List.mem_cons, List.mem_map]

/-- Every type of a provider has a cast, the one that was exposed for it last. -/
theorem convert?_described (h : (described type source markers l).hasType key = true)
    (x : Value C) : (described type source markers l).convert? key x = some (through l key x) := by
  unfold Definition.convert? through
  split
  · rfl
  · next hwildcard =>
    rw [exposures_described, Exposure.find?_foldl_put]
    rcases hfind : (exposed l).reverse.find? (·.type = key) with _ | e
    · have hkey : type = key := by
        rcases (hasType_described type source markers l).1 h with rfl | rfl | ⟨e, he, hkey⟩
        · exact absurd rfl hwildcard
        · rfl
        · exact absurd (by simpa using hkey) (List.find?_eq_none.1 hfind e (List.mem_reverse.2 he))
      simp [hfind, hkey]
    · rw [hfind]
      rfl

end Registration

end Wiring
