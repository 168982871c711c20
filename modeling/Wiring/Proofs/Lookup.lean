import Wiring.Host.Validation

/-!
# What a registry finds

Validation counts the providers that answer a request and resolution looks for the only one; the
count is one exactly where there is such a provider. Remembering a request that was met changes
no answer, and no provider.
-/

namespace Wiring

variable {C : Client} {r : Registry C} {request : Request} {p : Provider C}

namespace Registry

/-- A scan succeeds exactly if one provider matches, and finds that one. -/
theorem scan_eq_ok_iff : r.scan request = .ok p ↔ r.providers.filter (·.isExact request) = [p] := by
  unfold scan
  generalize r.providers.filter (·.isExact request) = l
  rcases l with _ | ⟨q, _ | ⟨q', rest⟩⟩
  · constructor <;> intro h <;> cases h
  · constructor <;> intro h <;> cases h <;> rfl
  · constructor <;> intro h <;> cases h

/-- What a scan finds is a provider that matches exactly. -/
theorem mem_of_scan (h : r.scan request = .ok p) : p ∈ r.providers ∧ p.isExact request = true := by
  have hmem : p ∈ r.providers.filter (·.isExact request) := by
    rw [scan_eq_ok_iff.1 h]
    exact List.mem_singleton_self p
  exact List.mem_filter.1 hmem

/-- A request has one answer exactly if it counts one. -/
theorem countExact_eq_one_iff : r.countExact request = 1 ↔ ∃ p, r.scan request = .ok p := by
  unfold countExact
  rw [List.countP_eq_length_filter, List.length_eq_one_iff]
  exact exists_congr fun p => scan_eq_ok_iff.symm

/-- What is remembered would be found. -/
def Recalls (r : Registry C) : Prop :=
  ∀ request p, r.remembered.get? request = some p → r.scan request = .ok p

/-- A lookup answers what a scan would, remembered or not. -/
theorem findUnique_fst (hr : r.Recalls) : (r.findUnique request).1 = r.scan request := by
  unfold findUnique
  rcases hremembered : r.remembered.get? request with _ | p
  · rcases r.scan request with e | p <;> rfl
  · exact (hr request p hremembered).symm

/-- A lookup changes no provider. -/
theorem findUnique_providers : (r.findUnique request).2.providers = r.providers := by
  unfold findUnique
  rcases r.remembered.get? request with _ | p
  · rcases r.scan request with e | p <;> rfl
  · rfl

/-- What is remembered after a lookup was remembered before or has just been scanned. -/
theorem findUnique_remembered {request' : Request}
    (h : (r.findUnique request).2.remembered.get? request' = some p) :
    r.remembered.get? request' = some p ∨ r.scan request' = .ok p := by
  unfold findUnique at h
  rcases hremembered : r.remembered.get? request with _ | q
  · rw [hremembered] at h
    -- A failed scan is not remembered; a successful one is remembered under its own request only.
    rcases hscan : r.scan request with e | q
    · rw [hscan] at h
      exact .inl h
    · rw [hscan] at h
      by_cases hrequest : request' = request
      · subst hrequest
        rw [Table.get?_put_self] at h
        exact .inr (hscan.trans (congrArg _ (Option.some.inj h)))
      · rw [Table.get?_put_of_ne _ _ hrequest] at h
        exact .inl h
  · rw [hremembered] at h
    exact .inl h

/-- A scan goes by the providers alone. -/
theorem scan_congr {r' : Registry C} (h : r'.providers = r.providers) :
    r'.scan request = r.scan request := by
  unfold scan
  rw [h]

/-- A lookup only remembers what a scan finds. -/
theorem Recalls.findUnique (hr : r.Recalls) (request : Request) :
    (r.findUnique request).2.Recalls := by
  intro request' p hp
  rw [scan_congr findUnique_providers]
  rcases findUnique_remembered hp with h | h
  · exact hr request' p h
  · exact h

/-- A registry holds what the first one holds, and remembers only what is found there. -/
structure Retains (r r' : Registry C) : Prop where
  providers : r'.providers = r.providers
  remembered : ∀ request p, r'.remembered.get? request = some p →
    r.remembered.get? request = some p ∨ r.scan request = .ok p

theorem retains_findUnique (r : Registry C) (request : Request) :
    r.Retains (r.findUnique request).2 :=
  ⟨findUnique_providers, fun _ _ => findUnique_remembered⟩

/-- Forgetting loses no provider. -/
theorem retains_forget (r : Registry C) : r.Retains r.forget :=
  ⟨rfl, fun request p hp => by simp [forget] at hp⟩

/-- A registry holds a provider or remembers it. -/
def Refers (r : Registry C) (p : Provider C) : Prop :=
  p ∈ r.providers ∨ ∃ request, r.remembered.get? request = some p

theorem Retains.refers {r' : Registry C} (h : r.Retains r') (hp : r'.Refers p) : r.Refers p := by
  rcases hp with hp | ⟨request, hp⟩
  · exact .inl (h.providers ▸ hp)
  · rcases h.remembered request p hp with hp | hp
    · exact .inr ⟨request, hp⟩
    · exact .inl (mem_of_scan hp).1

/-- What is found stays with the registry that is left. -/
theorem refers_of_findUnique (h : (r.findUnique request).1 = .ok p) :
    (r.findUnique request).2.Refers p := by
  unfold findUnique at h ⊢
  rcases hremembered : r.remembered.get? request with _ | q <;> rw [hremembered] at h
  · rcases hscan : r.scan request with e | q <;> rw [hscan] at h <;> cases h
    exact .inl (mem_of_scan hscan).1
  · cases h
    exact .inr ⟨request, hremembered⟩

/-- A registry that remembers nothing recalls nothing false. -/
theorem recalls_forget (r : Registry C) : r.forget.Recalls := by
  intro request p hp
  simp [forget] at hp

/-- What is found by its identity is a provider of that identity. -/
theorem mem_of_provider? {id : ProviderId} (h : r.provider? id = some p) :
    p ∈ r.providers ∧ p.id = id :=
  ⟨List.mem_of_find?_eq_some h, by simpa using List.find?_some h⟩

end Registry

namespace Host

/-- A dependency on an object passes its check exactly if there is one provider. -/
theorem checkDemand_eq_ok_iff {member : String} {d : Dependency} {type : TypeKey}
    (hd : d.want = .object type) :
    checkDemand r member d = .ok () ↔ ∃ p, r.scan (type, d.qualifiers) = .ok p := by
  rw [← Registry.countExact_eq_one_iff]
  unfold checkDemand
  rw [hd]
  dsimp only
  rcases r.countExact (type, d.qualifiers) with _ | _ | n
  · constructor <;> intro h <;> cases h
  · exact ⟨fun _ => rfl, fun _ => rfl⟩
  · constructor <;> intro h
    · cases h
    · omega

/-- When all demands are met, each one is. -/
theorem checkDemand_of_checkDemands {l : List (String × Dependency)}
    (h : checkDemands r l = .ok ()) {member : String} {d : Dependency} (hd : (member, d) ∈ l) :
    checkDemand r member d = .ok () := by
  -- The check stops at the first refused demand, so a demand behind an accepting check was met.
  induction l with
  | nil => exact absurd hd List.not_mem_nil
  | cons e rest ih =>
    obtain ⟨member', d'⟩ := e
    unfold checkDemands at h
    rcases hcheck : checkDemand r member' d' with e | _
    · rw [hcheck] at h
      cases h
    · rw [hcheck] at h
      rcases List.mem_cons.1 hd with heq | hd
      · cases heq
        exact hcheck
      · exact ih h hd

/-- A check fails because of a definition. -/
theorem checkDemand_error {member : String} {d : Dependency} {e : Failure}
    (h : checkDemand r member d = .error e) : ∃ f, e = .definition f := by
  unfold checkDemand at h
  rcases hwant : d.want with type | _ | type
  · rw [hwant] at h
    dsimp only at h
    -- None, one or several matches; only the middle one is accepted.
    rcases hcount : r.countExact (type, d.qualifiers) with _ | _ | n
    · rw [hcount] at h
      cases h
      exact ⟨_, rfl⟩
    · rw [hcount] at h
      cases h
    · rw [hcount] at h
      cases h
      exact ⟨_, rfl⟩
  all_goals
    rw [hwant] at h
    cases h

/-- Demands are refused with a lookup failure and never with another. -/
theorem checkDemands_error {l : List (String × Dependency)} {e : Failure}
    (h : checkDemands r l = .error e) : ∃ f, e = .definition f := by
  induction l with
  | nil => cases h
  | cons entry rest ih =>
    obtain ⟨member, d⟩ := entry
    unfold checkDemands at h
    rcases hcheck : checkDemand r member d with e' | _
    · rw [hcheck] at h
      cases h
      exact checkDemand_error hcheck
    · rw [hcheck] at h
      exact ih h

/-- What a component needs is looked for among the providers alone. -/
theorem checkDemands_congr {r' : Registry C} (h : r'.providers = r.providers)
    (l : List (String × Dependency)) : checkDemands r' l = checkDemands r l := by
  have hdemand : checkDemand r' = checkDemand r := by
    funext member d
    unfold checkDemand Registry.countExact
    rw [h]
  induction l with
  | nil => rfl
  | cons e rest ih =>
    unfold checkDemands
    rw [hdemand, ih]

end Host

end Wiring
