import Wiring.Proofs.Lookup

/-!
# Remembering changes no answer

A registry is used by operations in any order: providers are added and removed, requests are
looked up, and what was remembered is forgotten. The same operations on a bare list of providers
say what the registry holds (`Registry.afterAll_providers`), and what is remembered is at every
moment what looking at all providers would find (`Registry.recalls_afterAll`).

The main statement, `Registry.findUnique_afterAll`, reads the answer to every look-up off the
bare list: the only provider that meets the request, or that there is none, or that there are
several.
-/

namespace Wiring

variable {C : Client}

/-- A provider answers under the requested type and carries exactly the requested qualifiers. -/
def Provider.Meets (p : Provider C) (request : Request) : Prop :=
  (request.1 = .anything ∨ request.1 ∈ p.definition.types) ∧
    p.definition.qualifiers = request.2

instance (p : Provider C) (request : Request) : Decidable (p.Meets request) :=
  inferInstanceAs (Decidable (_ ∧ _))

/-- The provider's own test, read as meeting the request. -/
theorem Provider.isExact_iff {p : Provider C} {request : Request} :
    p.isExact request = true ↔ p.Meets request := by
  unfold isExact Meets Definition.hasType TypeKey.isWildcard Qualifiers.matchesExactly
  simp only [Bool.and_eq_true, Bool.or_eq_true, decide_eq_true_eq, List.contains_iff_mem]

namespace Registry

/-- What can be done to a registry. -/
inductive Operation (C : Client)
  /-- Adds a provider. -/
  | insert (p : Provider C)
  /-- Removes the providers with a property. -/
  | removeWhere (bad : Provider C → Bool)
  /-- Looks for the only provider that meets a request. -/
  | findUnique (request : Request)
  /-- Forgets the requests that were met. -/
  | forget

namespace Operation

/-- The registry after an operation. -/
def perform : Operation C → Registry C → Registry C
  | insert p, r => r.insert p
  | removeWhere bad, r => r.removeWhere bad
  | findUnique request, r => (r.findUnique request).2
  | forget, r => r.forget

/-- What an operation does to a list of providers. -/
def revise : Operation C → List (Provider C) → List (Provider C)
  | insert p, l => l ++ [p]
  | removeWhere bad, l => l.filter (!bad ·)
  | findUnique _, l => l
  | forget, l => l

end Operation

def afterAll (ops : List (Operation C)) (r : Registry C) : Registry C :=
  ops.foldl (fun r op => op.perform r) r

def listed (ops : List (Operation C)) (l : List (Provider C)) : List (Provider C) :=
  ops.foldl (fun l op => op.revise l) l

/-! ## One operation -/

/-- An operation does to the providers what its bare counterpart does to the list. -/
theorem perform_providers (op : Operation C) (r : Registry C) :
    (op.perform r).providers = op.revise r.providers := by
  cases op with
  | insert p => rfl
  | removeWhere bad => rfl
  | findUnique request => exact findUnique_providers
  | forget => rfl

/-- A registry that remembers nothing remembers nothing wrong. -/
theorem recalls_of_remembered_empty {r : Registry C} (h : r.remembered = ∅) : r.Recalls := by
  intro request p hp
  rw [h, Table.get?_empty] at hp
  cases hp

/-- Every operation leaves only memories that looking at all providers confirms. -/
theorem Recalls.perform {r : Registry C} (hr : r.Recalls) (op : Operation C) :
    (op.perform r).Recalls := by
  cases op with
  | insert p => exact recalls_of_remembered_empty rfl
  | removeWhere bad => exact recalls_of_remembered_empty rfl
  | forget => exact recalls_of_remembered_empty rfl
  | findUnique request =>
    intro request' p hp
    have hscan : r.scan request' = .ok p := by
      rcases findUnique_remembered hp with hold | hnew
      · exact hr request' p hold
      · exact hnew
    exact (scan_congr findUnique_providers).trans hscan

/-! ## All operations -/

/-- So does a series of operations. -/
theorem afterAll_providers (ops : List (Operation C)) (r : Registry C) :
    (afterAll ops r).providers = listed ops r.providers := by
  induction ops generalizing r with
  | nil => rfl
  | cons op rest ih =>
    have hrest := ih (op.perform r)
    rwa [perform_providers] at hrest

/-- Whatever the operations, what is remembered is what a scan finds. -/
theorem recalls_afterAll (ops : List (Operation C)) {r : Registry C} (hr : r.Recalls) :
    (afterAll ops r).Recalls := by
  induction ops generalizing r with
  | nil => exact hr
  | cons op rest ih => exact ih (hr.perform op)

/-! ## Answers -/

/-- The providers that meet a request, among those that operations have left of none. -/
def matching (ops : List (Operation C)) (request : Request) : List (Provider C) :=
  (listed ops []).filter fun p => decide (p.Meets request)

/-- A scan answers by how many providers meet the request. -/
theorem scan_cases (r : Registry C) (request : Request) :
    (∃ p, r.providers.filter (·.isExact request) = [p] ∧ r.scan request = .ok p) ∨
    (r.providers.filter (·.isExact request) = [] ∧
      r.scan request = .error (.unsatisfied request.1 request.2)) ∨
    (2 ≤ (r.providers.filter (·.isExact request)).length ∧
      r.scan request = .error (.ambiguous request.1 request.2)) := by
  unfold scan
  generalize r.providers.filter (·.isExact request) = found
  rcases found with _ | ⟨p, _ | ⟨q, rest⟩⟩
  · exact .inr (.inl ⟨rfl, rfl⟩)
  · exact .inl ⟨p, rfl, rfl⟩
  · refine .inr (.inr ⟨?_, rfl⟩)
    simp only [List.length_cons]
    omega

/-- After any operations, exactly the matching entries of the bare list are found. -/
theorem filter_isExact_afterAll (ops : List (Operation C)) (request : Request) :
    (afterAll ops {}).providers.filter (·.isExact request) = matching ops request := by
  rw [afterAll_providers]
  refine List.filter_congr fun p _ => ?_
  rw [Bool.eq_iff_iff, Provider.isExact_iff, decide_eq_true_iff]

/-- Whatever was done to a registry, it answers a request as the bare list of its providers
does: with the only one that meets it, or by saying that none does or that several do. The
count that validation takes is the number of those providers. -/
theorem findUnique_afterAll (ops : List (Operation C)) (request : Request) :
    (∀ p, ((afterAll ops {}).findUnique request).1 = .ok p ↔ matching ops request = [p]) ∧
    (((afterAll ops {}).findUnique request).1 = .error (.unsatisfied request.1 request.2) ↔
      matching ops request = []) ∧
    (((afterAll ops {}).findUnique request).1 = .error (.ambiguous request.1 request.2) ↔
      2 ≤ (matching ops request).length) ∧
    (afterAll ops {}).countExact request = (matching ops request).length := by
  have hrecalls : (afterAll ops ({} : Registry C)).Recalls :=
    recalls_afterAll ops (recalls_of_remembered_empty rfl)
  have hcount : (afterAll ops {}).countExact request = (matching ops request).length := by
    unfold countExact
    rw [List.countP_eq_length_filter, filter_isExact_afterAll]
  -- The two failures differ in their kind.
  have hdistinct : Failure.unsatisfied request.1 request.2 ≠ .ambiguous request.1 request.2 := by
    simp [Failure.unsatisfied, Failure.ambiguous]
  rw [findUnique_fst hrecalls, hcount]
  -- None, one or several matching entries; each case settles all three outcomes.
  rcases scan_cases (afterAll ops {}) request with
    ⟨p, hone, hscan⟩ | ⟨hnone, hscan⟩ | ⟨hmany, hscan⟩
  · rw [filter_isExact_afterAll] at hone
    rw [hscan, hone]
    simp [eq_comm]
  · rw [filter_isExact_afterAll] at hnone
    rw [hscan, hnone]
    simp [hdistinct]
  · rw [filter_isExact_afterAll] at hmany
    have hnone : matching ops request ≠ [] := fun h => by simp [h] at hmany
    have hone : ∀ p, matching ops request ≠ [p] := fun p h => by simp [h] at hmany
    rw [hscan]
    simp [hdistinct.symm, hnone, hone, hmany]

end Registry

end Wiring
