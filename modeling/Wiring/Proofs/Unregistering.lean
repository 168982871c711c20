import Wiring.Proofs.Describing
import Wiring.Proofs.Matching

/-!
# What unregistering takes away

A removal and a look-up for the only provider go by one relation: a provider meets a request if it
answers under the type and carries exactly the qualifiers. The providers of a container that meet a
request (`World.candidates`) are those between which a look-up has to decide, and they are those
that a removal takes. Everything else about a removal follows from its being a filter: what is left
keeps its order, nothing of it meets the request any more, and a provider carries only one set of
qualifiers, so a look-up with others finds what it found before.

Main statement: `Codebase.unregister_exact`.
-/

namespace Wiring

variable {C : Client} {w u v : World C} {c : ContainerId} {p : Provider C} {type : TypeKey}
  {request : Request} {qs rs : Qualifiers}

/-! ## Look-ups among filtered providers -/

namespace Registry

variable {r r' : Registry C}

/-- Only the providers that meet a request matter to a scan. -/
theorem scan_congr_of_filter
    (h : r'.providers.filter (·.isExact request) = r.providers.filter (·.isExact request)) :
    r'.scan request = r.scan request := by
  unfold scan
  rw [h]

/-- A scan finds nothing exactly if no provider meets the request. -/
theorem scan_unsatisfied_iff :
    r.scan request = .error (.unsatisfied request.1 request.2) ↔
      ∀ p ∈ r.providers, ¬ p.Meets request := by
  have hnone : r.providers.filter (·.isExact request) = [] ↔
      ∀ p ∈ r.providers, ¬ p.Meets request := by
    simp only [List.filter_eq_nil_iff, Provider.isExact_iff]
  rw [← hnone]
  -- Of the three outcomes of a scan only the empty one is unsatisfied.
  constructor
  · intro h
    rcases r.scan_cases request with ⟨p, -, hone⟩ | ⟨hempty, -⟩ | ⟨-, hmany⟩
    · rw [h] at hone
      cases hone
    · exact hempty
    · rw [h] at hmany
      simp [Failure.unsatisfied, Failure.ambiguous] at hmany
  · intro h
    unfold scan
    rw [h]

end Registry

/-- No provider meets requests for different qualifiers. -/
theorem Provider.Meets.qualifiers_eq (h : p.Meets (type, qs)) {type' : TypeKey}
    (h' : p.Meets (type', rs)) : rs = qs :=
  h'.2.symm.trans h.2

/-! ## Candidates -/

namespace World

/-- The providers of a container that meet a request, in order of registration. -/
def candidates (w : World C) (c : ContainerId) (request : Request) : List (Provider C) :=
  (w.container c).registry.providers.filter fun p => p.Meets request

/-- The candidates of a request are the held providers that meet it. -/
theorem mem_candidates : p ∈ w.candidates c request ↔ w.Holds c p ∧ p.Meets request := by
  simp [candidates, Holds]

/-- What an exact search filters is the candidates. -/
theorem filter_isExact_eq_candidates :
    (w.container c).registry.providers.filter (·.isExact request) = w.candidates c request := by
  refine List.filter_congr fun p _ => ?_
  rw [Bool.eq_iff_iff, Provider.isExact_iff, decide_eq_true_iff]

/-- The count that is answered is the number of candidates. -/
theorem countExact_eq_length_candidates :
    (w.container c).registry.countExact request = (w.candidates c request).length := by
  unfold Registry.countExact
  rw [List.countP_eq_length_filter, filter_isExact_eq_candidates]

/-- A look-up decides between the candidates: the only one is found, and it fails if there is none
or if there are several. -/
structure Decides (w : World C) (c : ContainerId) (request : Request) : Prop where
  found : ∀ p, ((w.container c).registry.findUnique request).1 = .ok p ↔
    w.candidates c request = [p]
  unsatisfied : ((w.container c).registry.findUnique request).1 =
    .error (.unsatisfied request.1 request.2) ↔ w.candidates c request = []
  ambiguous : ((w.container c).registry.findUnique request).1 =
    .error (.ambiguous request.1 request.2) ↔ 2 ≤ (w.candidates c request).length

/-- A lookup is decided by the number of candidates. -/
theorem decides (hr : (w.container c).registry.Recalls) (request : Request) :
    w.Decides c request := by
  have hfind : ((w.container c).registry.findUnique request).1 =
      (w.container c).registry.scan request := Registry.findUnique_fst hr
  have hdistinct : Failure.unsatisfied request.1 request.2 ≠ .ambiguous request.1 request.2 := by
    simp [Failure.unsatisfied, Failure.ambiguous]
  constructor
  · intro p
    rw [hfind, Registry.scan_eq_ok_iff, filter_isExact_eq_candidates]
  -- A scan finds one candidate, none or several, and the failures of the last two cases differ.
  all_goals
    rw [hfind]
    rcases (w.container c).registry.scan_cases request with
      ⟨p, hlist, hscan⟩ | ⟨hlist, hscan⟩ | ⟨hlist, hscan⟩
    all_goals rw [filter_isExact_eq_candidates] at hlist
    · simp [hscan, hlist]
    · simp [hscan, hlist, hdistinct]
    · have hne : w.candidates c request ≠ [] := fun h => by simp [h] at hlist
      simp [hscan, hlist, hne, hdistinct.symm]

/-! ## Removals -/

/-- From the first world to the second one a container has lost the providers that meet a request,
and nothing else has happened to any container. -/
structure Loses (w v : World C) (c : ContainerId) (request : Request) : Prop where
  /-- The removed providers are the candidates of a look-up, and the others stay in order. -/
  removed : ∀ p, w.Holds c p ∧ ¬ v.Holds c p ↔ p ∈ w.candidates c request
  providers : (v.container c).registry.providers =
    (w.container c).registry.providers.filter fun p => ¬ p.Meets request
  /-- A look-up of the request fails, now and wherever the container holds what is left. -/
  unsatisfied : ((v.container c).registry.findUnique request).1 =
    .error (.unsatisfied request.1 request.2)
  /-- A look-up with other qualifiers finds the same provider, or fails alike. -/
  unaffected : ∀ type qs, qs ≠ request.2 →
    ((v.container c).registry.findUnique (type, qs)).1 =
      ((w.container c).registry.findUnique (type, qs)).1
  /-- What any selection lists is what it listed before, less the removed providers. -/
  selections : ∀ other, (v.container c).registry.findAll other =
    ((w.container c).registry.findAll other).filter fun p => ¬ p.Meets request
  definitions : (v.definitions c).length + (w.candidates c request).length =
    (w.definitions c).length
  phase : (v.container c).phase = (w.container c).phase
  elsewhere : ∀ d, d ≠ c → v.container d = w.container d

theorem container_unregistered_self (removed : Nat) :
    (w.unregistered c type qs removed).container c =
      { w.container c with
        registry := (w.container c).registry.removeWhere (·.isExact (type, qs)) } := by
  unfold unregistered withRegistry
  rw [container_enter, container_withContainer_self]

/-- What is left are the providers that do not meet the request. -/
theorem providers_unregistered (removed : Nat) :
    ((w.unregistered c type qs removed).container c).registry.providers =
      (w.container c).registry.providers.filter fun p => ¬ p.Meets (type, qs) := by
  rw [container_unregistered_self]
  refine List.filter_congr fun p _ => ?_
  rw [Bool.eq_iff_iff, decide_eq_true_iff, Bool.not_eq_true', Bool.eq_false_iff, Ne,
    Provider.isExact_iff]

/-- What is left of the providers with other qualifiers is all of them. -/
theorem filter_isExact_unregistered (removed : Nat) (hne : request.2 ≠ qs) :
    ((w.unregistered c type qs removed).container c).registry.providers.filter
        (·.isExact request) =
      (w.container c).registry.providers.filter (·.isExact request) := by
  rw [providers_unregistered, List.filter_filter]
  refine List.filter_congr fun p _ => ?_
  rw [Bool.eq_iff_iff, Bool.and_eq_true, decide_eq_true_iff, Provider.isExact_iff]
  constructor
  · exact And.left
  · intro hmeets
    exact ⟨hmeets, fun hremoved => hne (hremoved.qualifiers_eq hmeets)⟩

theorem recalls_unregistered (removed : Nat) :
    ((w.unregistered c type qs removed).container c).registry.Recalls := by
  rw [container_unregistered_self]
  exact Registry.recalls_of_remembered_empty rfl

/-- After an unregistration the container has lost exactly the candidates. -/
theorem loses_unregistered (hr : (w.container c).registry.Recalls) (removed : Nat) :
    w.Loses (w.unregistered c type qs removed) c (type, qs) := by
  have hproviders : ((w.unregistered c type qs removed).container c).registry.providers = _ :=
    providers_unregistered removed
  have hrecalls : ((w.unregistered c type qs removed).container c).registry.Recalls :=
    recalls_unregistered removed
  constructor
  -- What is held afterwards is held before and is no candidate.
  · intro p
    unfold Holds
    rw [mem_candidates, hproviders, List.mem_filter, decide_eq_true_iff]
    unfold Holds
    tauto
  · exact hproviders
  -- What was remembered of the request has been forgotten.
  · rw [Registry.findUnique_fst hrecalls, Registry.scan_unsatisfied_iff, hproviders]
    intro p hp
    simpa using (List.mem_filter.1 hp).2
  -- Another request looks for other exact matches, none of which went.
  · intro type' qs' hne
    rw [Registry.findUnique_fst hrecalls, Registry.findUnique_fst hr]
    exact Registry.scan_congr_of_filter (filter_isExact_unregistered removed hne)
  · intro other
    unfold Registry.findAll
    rw [hproviders, List.filter_filter, List.filter_filter]
    refine List.filter_congr fun p _ => ?_
    exact Bool.and_comm _ _
  · -- The candidates and what is left split the providers.
    unfold definitions Registry.definitions candidates
    rw [List.length_map, List.length_map, hproviders, Nat.add_comm]
    have hsplit := (w.container c).registry.providers.length_eq_length_filter_add
      fun p => decide (p.Meets (type, qs))
    simpa using hsplit.symm
  -- Only this container's registry has changed.
  · rw [container_unregistered_self]
  · intro d hd
    unfold unregistered withRegistry
    rw [container_enter, container_withContainer_of_ne _ _ hd]

end World

/-- A request that no provider meets, or several do, fails as the look-up does. -/
theorem Host.exec_getObject_of_unmatched {h : Host C} {e : Failure}
    (hready : (w.container c).phase = .ready) (htype : type ≠ .container)
    (he : ((w.container c).registry.findUnique (type, qs)).1 = .error e) :
    ((getObject h c type qs).run.exec w).1 = some (.error e) := by
  unfold getObject askOnly
  rw [exec_bind_ok (exec_ensureReady hready), if_neg htype,
    exec_bind_container (World.has_of_ready hready)]
  rcases hfound : (w.container c).registry.findUnique (type, qs) with ⟨found, registry⟩
  rw [hfound] at he
  obtain rfl : found = .error e := he
  dsimp only
  rw [exec_bind_ok (exec_step_some (Machine.exec_setRegistry ..)),
    exec_bind_ok (exec_step_some (Machine.exec_report ..))]
  rfl

namespace World.Loses

/-- What is lost is no candidate any more. -/
theorem candidates_eq_nil (h : w.Loses v c request) : v.candidates c request = [] := by
  unfold candidates
  rw [h.providers, List.filter_filter, List.filter_eq_nil_iff]
  simp

/-- Where no provider meets the request, all of them are left. -/
theorem providers_eq (h : w.Loses v c request) (hnone : w.candidates c request = []) :
    (v.container c).registry.providers = (w.container c).registry.providers := by
  rw [h.providers, List.filter_eq_self]
  intro p hp
  have hmeets := List.filter_eq_nil_iff.1 hnone p hp
  simpa using hmeets

/-- A provider is gone exactly if it meets the request. -/
theorem gone_iff (h : w.Loses v c request) (hp : w.Holds c p) :
    ¬ v.Holds c p ↔ p.Meets request := by
  have hremoved := h.removed p
  rw [mem_candidates] at hremoved
  constructor
  · intro hgone
    exact (hremoved.1 ⟨hp, hgone⟩).2
  · intro hmeets
    exact (hremoved.2 ⟨hp, hmeets⟩).2

/-- As long as the container holds what is left, no such request is met. -/
theorem get_unsatisfied (h : w.Loses v c (type, qs)) (hu : (u.container c).registry.Recalls)
    (hproviders : (u.container c).registry.providers = (v.container c).registry.providers)
    (hready : (u.container c).phase = .ready) (htype : type ≠ .container) (host : Host C) :
    ((host.answer (.get c type qs)).exec u).1 = some (.error (.unsatisfied type qs)) := by
  refine Host.exec_getObject_of_unmatched hready htype ?_
  refine (decides hu (type, qs)).unsatisfied.2 ?_
  have hleft := h.candidates_eq_nil
  unfold candidates at hleft ⊢
  rw [hproviders, hleft]

end World.Loses

open World

/-- A removal from an unconfigured container takes the candidates, and counts them. -/
theorem Codebase.exec_unregister_loses {code : Codebase C}
    (hr : (w.container c).registry.Recalls) (hc : w.Has c)
    (hphase : (w.container c).phase = .unconfigured) (type : TypeKey) (qs : Qualifiers)
    (depth : Nat) :
    ∃ v, (code.perform (depth + 1) (.unregister c type qs)).exec w =
        (some (.ok (w.candidates c (type, qs)).length), v) ∧
      w.Loses v c (type, qs) ∧ (v.container c).registry.Recalls ∧ v.Has c := by
  have hexec := Host.exec_unregister hc hphase type qs
  rw [countExact_eq_length_candidates] at hexec
  have hhas : ∀ registry, (w.withRegistry c registry).Has c := fun _ => has_withContainer _ hc
  exact ⟨_, hexec, loses_unregistered hr _, recalls_unregistered _, hhas _⟩

/-- Removing from a container that is unconfigured, whatever was registered and removed before. The
providers between which a look-up has to decide are removed and counted; the others stay. In the
world that is left a second removal finds nothing, and as long as the container holds what is left
no such request is met. The type of all objects removes whatever carries exactly the qualifiers. A
removal by a component takes what carries just the qualifiers that the component declares, itself or
through its stereotypes, whatever it was registered with. -/
theorem Codebase.unregister_exact {code : Codebase C} {s : C.State}
    (h : code.Visits (.blank s) w) (hc : w.Has c)
    (hphase : (w.container c).phase = .unconfigured) (type : TypeKey) (qs : Qualifiers)
    (markers : Markers) (depth : Nat) :
    (∀ request, w.Decides c request) ∧
    (∃ v, (code.perform (depth + 1) (.unregister c type qs)).exec w =
        (some (.ok (w.candidates c (type, qs)).length), v) ∧
      w.Loses v c (type, qs) ∧
      (∃ z, (code.perform (depth + 1) (.unregister c type qs)).exec v = (some (.ok 0), z) ∧
        z.definitions c = v.definitions c) ∧
      (type ≠ .container → ∀ u, code.Visits (.blank s) u → (u.container c).phase = .ready →
        (u.container c).registry.providers = (v.container c).registry.providers →
        ∀ host : Host C, ((host.answer (.get c type qs)).exec u).1 =
          some (.error (.unsatisfied type qs))) ∧
      (type = .anything → ∀ p, w.Holds c p →
        (¬ v.Holds c p ↔ p.definition.qualifiers = qs))) ∧
    (∃ v, (code.perform (depth + 1) (.unregisterComponent c type markers)).exec w =
        (some (.ok (w.candidates c (type, markers.expandedQualifiers)).length), v) ∧
      w.Loses v c (type, markers.expandedQualifiers) ∧
      ∀ p, w.Holds c p → (¬ v.Holds c p ↔
        (type = .anything ∨ type ∈ p.definition.types) ∧
          ∀ q, q ∈ p.definition.qualifiers ↔
            q ∈ markers.qualifiers ∨ ∃ t ∈ markers.stereotypes, q ∈ t.qualifiers)) := by
  have hr := h.coherent.recalled c
  refine ⟨fun request => decides hr request, ?_, ?_⟩
  · obtain ⟨v, hexec, hloses, hrv, hcv⟩ := code.exec_unregister_loses hr hc hphase type qs depth
    refine ⟨v, hexec, hloses, ?_, ?_, ?_⟩
    · -- The second removal has no candidates left.
      have hnone := hloses.candidates_eq_nil
      obtain ⟨z, hagain, hloses', -⟩ :=
        code.exec_unregister_loses hrv hcv (hloses.phase.trans hphase) type qs depth
      rw [hnone] at hagain
      exact ⟨z, hagain, definitions_congr (hloses'.providers_eq hnone)⟩
    · intro htype u hu hready hproviders host
      exact hloses.get_unsatisfied (hu.coherent.recalled c) hproviders hready htype host
    · rintro rfl p hp
      rw [hloses.gone_iff hp]
      exact ⟨And.right, fun hqs => ⟨.inl rfl, hqs⟩⟩
  · obtain ⟨v, hexec, hloses, -⟩ :=
      code.exec_unregister_loses hr hc hphase type markers.expandedQualifiers depth
    refine ⟨v, hexec, hloses, fun p hp => ?_⟩
    rw [hloses.gone_iff hp]
    refine and_congr_right fun _ => ?_
    -- Sets of qualifiers are equal if they have the same members.
    simp only [← Markers.mem_expandedQualifiers]
    exact ⟨fun heq q => by rw [heq], Sorted.ext_of_mem⟩

namespace Sample

/-- A lamp, a red one, a large red one and a red bulb are registered, then the red lamps are
removed. -/
def redGone : Program Sample (Attempted Nat) := do
  let c ← Program.request .create
  let lamp : Registration Sample := .producer (.named "Lamp") ()
  let _ ← Program.request (.register c lamp)
  let _ ← Program.request (.register c (lamp.withQualifiers (marks ["red"])))
  let _ ← Program.request (.register c (lamp.withQualifiers (marks ["large", "red"])))
  let _ ← Program.request (.register c (.component (.named "Bulb") { qualifiers := marks ["red"] }))
  Program.request (.unregister c (.named "Lamp") (marks ["red"]))

def beforeRemoval : World Sample :=
  ((lamps.runUntil (fun w => (w.definitions ⟨0⟩).length = 4) 1 redGone).exec blank).2

/-- Of the lamps the red one is removed, which is not large; of all objects also the bulb. -/
theorem red_lamp_removed :
    ∃ v z, (lamps.perform 1 (.unregister ⟨0⟩ (.named "Lamp") (marks ["red"]))).exec beforeRemoval =
        (some (.ok 1), v) ∧
      (v.definitions ⟨0⟩).length = 3 ∧
      (lamps.perform 1 (.unregisterComponent ⟨0⟩ .anything { qualifiers := marks ["red"] })).exec
        beforeRemoval = (some (.ok 2), z) ∧
      (z.definitions ⟨0⟩).length = 2 := by
  have hvisits : lamps.Visits blank beforeRemoval :=
    ⟨_, redGone, fun w => (w.definitions ⟨0⟩).length = 4, 1, rfl⟩
  have hhas : beforeRemoval.Has ⟨0⟩ := Option.isSome_iff_exists.1 (by decide +kernel)
  have hphase : (beforeRemoval.container ⟨0⟩).phase = .unconfigured := by decide +kernel
  have hlength : (beforeRemoval.definitions ⟨0⟩).length = 4 := by decide +kernel
  have hlamps : (beforeRemoval.candidates ⟨0⟩ (.named "Lamp", marks ["red"])).length = 1 := by
    decide +kernel
  have hreds : (beforeRemoval.candidates ⟨0⟩ (.anything, marks ["red"])).length = 2 := by
    decide +kernel
  obtain ⟨-, ⟨v, hv, hloses, -⟩, -⟩ := Codebase.unregister_exact hvisits hhas hphase
    (.named "Lamp") (marks ["red"]) {} 0
  obtain ⟨-, -, z, hz, hloses', -⟩ := Codebase.unregister_exact hvisits hhas hphase
    .anything ∅ { qualifiers := marks ["red"] } 0
  have hmarks : ({ qualifiers := marks ["red"] } : Markers).expandedQualifiers = marks ["red"] :=
    rfl
  rw [hmarks] at hz hloses'
  have hleft := hloses.definitions
  have hleft' := hloses'.definitions
  rw [hlamps] at hv hleft
  rw [hreds] at hz hleft'
  exact ⟨v, z, hv, by omega, hz, by omega⟩

end Sample

end Wiring
