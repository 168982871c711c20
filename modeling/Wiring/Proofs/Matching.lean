import Wiring.Proofs.Asking
import Wiring.Proofs.Freezing
import Wiring.Proofs.Remembering
import Wiring.Proofs.Sweeping

/-!
# Requests for all providers and for the only one

A container matches requests in three ways that are written one beside the other: a selection lists
the providers that carry at least some qualifiers, a look-up searches for the only one that carries
exactly these, and a type is contained if some provider answers under it. They are parts of one
relation. What a selection lists is what carries the request (`World.carriers`), fewer providers
carry more qualifiers, and whatever a look-up finds is one of them.

Main statement: `Codebase.selections_cohere`.
-/

namespace Wiring

variable {C : Client} {w v : World C} {c : ContainerId} {p : Provider C} {type : TypeKey}
  {request : Request} {qs rs : Qualifiers}

/-! ## Carrying a request -/

/-- A provider answers under the requested type and carries at least the requested qualifiers. -/
def Definition.Carries (d : Definition C) (request : Request) : Prop :=
  (request.1 = .anything ∨ request.1 ∈ d.types) ∧ ∀ q ∈ request.2.toList, q ∈ d.qualifiers

instance (d : Definition C) (request : Request) : Decidable (d.Carries request) :=
  inferInstanceAs (Decidable (_ ∧ _))

namespace Definition.Carries

variable {d : Definition C}

/-- More qualifiers are carried by fewer providers. -/
theorem anti (h : d.Carries (type, rs)) (hsubset : ∀ q ∈ qs, q ∈ rs) : d.Carries (type, qs) :=
  ⟨h.1, fun q hq => h.2 q (hsubset q hq)⟩

/-- A union is asked for exactly if both of its parts are. -/
theorem union_iff :
    d.Carries (type, qs.union rs) ↔ d.Carries (type, qs) ∧ d.Carries (type, rs) := by
  constructor
  · intro h
    constructor
    · exact h.anti fun q hq => Qualifiers.mem_union.2 (.inl hq)
    · exact h.anti fun q hq => Qualifiers.mem_union.2 (.inr hq)
  · rintro ⟨hqs, hrs⟩
    refine ⟨hqs.1, fun q hq => ?_⟩
    rcases Qualifiers.mem_union.1 hq with hq | hq
    · exact hqs.2 q hq
    · exact hrs.2 q hq

end Definition.Carries

/-- The provider's own test, read as the definition carrying the request. -/
theorem Provider.isAmong_iff : p.isAmong request = true ↔ p.definition.Carries request := by
  unfold isAmong Definition.Carries Definition.hasType TypeKey.isWildcard Qualifiers.matchesAmong
  simp only [Bool.and_eq_true, Bool.or_eq_true, decide_eq_true_eq, List.contains_iff_mem,
    Qualifiers.isSubset_iff, Sorted.mem_def]

/-- A provider that meets a request carries it. -/
theorem Provider.Meets.carries (h : p.Meets request) : p.definition.Carries request :=
  ⟨h.1, fun _ hq => h.2 ▸ hq⟩

/-! ## Those who carry a request -/

namespace World

/-- The providers of a container that carry a request, in order of registration. -/
def carriers (w : World C) (c : ContainerId) (request : Request) : List (Provider C) :=
  (w.container c).registry.providers.filter fun p => p.definition.Carries request

/-- The carriers of a request are the held providers that carry it. -/
theorem mem_carriers : p ∈ w.carriers c request ↔ w.Holds c p ∧ p.definition.Carries request := by
  simp [carriers, Holds]

/-- Listing computes the carriers. -/
theorem findAll_eq_carriers : (w.container c).registry.findAll request = w.carriers c request := by
  refine List.filter_congr fun p _ => ?_
  rw [Bool.eq_iff_iff, Provider.isAmong_iff, decide_eq_true_iff]

/-- Carriers go by the providers alone. -/
theorem carriers_congr
    (h : (v.container c).registry.providers = (w.container c).registry.providers) :
    v.carriers c request = w.carriers c request :=
  congrArg (List.filter _) h

/-- The carriers of more qualifiers are some of the carriers of fewer, in the same order. -/
theorem carriers_sublist (hsubset : ∀ q ∈ qs, q ∈ rs) :
    (w.carriers c (type, rs)).Sublist (w.carriers c (type, qs)) := by
  refine List.monotone_filter_right _ fun p hp => ?_
  simp only [decide_eq_true_eq] at hp ⊢
  exact hp.anti hsubset

/-- The definitions of the carriers are the definitions that carry the request. -/
theorem map_definition_carriers (w : World C) (c : ContainerId) (request : Request) :
    (w.carriers c request).map (·.definition) =
      (w.definitions c).filter fun d => d.Carries request := by
  unfold carriers definitions Registry.definitions
  rw [List.filter_map]
  rfl

/-- What a look-up finds carries the request. -/
theorem mem_carriers_of_scan (h : (w.container c).registry.scan request = .ok p) :
    p ∈ w.carriers c request := by
  obtain ⟨hp, hexact⟩ := Registry.mem_of_scan h
  exact mem_carriers.2 ⟨hp, (Provider.isExact_iff.1 hexact).carries⟩

/-- The only carrier of a request is what a look-up finds if it carries nothing else. -/
theorem scan_of_carriers (h : w.carriers c request = [p])
    (hqualifiers : p.definition.qualifiers = request.2) :
    (w.container c).registry.scan request = .ok p := by
  have hmem : p ∈ w.carriers c request := by rw [h]; exact List.mem_singleton_self p
  have hmeets : p.Meets request := ⟨(mem_carriers.1 hmem).2.1, hqualifiers⟩
  -- Among the carriers, those that meet the request are the ones that the scan looks for.
  have hexact : (w.container c).registry.providers.filter (·.isExact request) =
      (w.carriers c request).filter (·.isExact request) := by
    unfold carriers
    rw [List.filter_filter]
    refine List.filter_congr fun q _ => ?_
    rw [Bool.eq_iff_iff, Bool.and_eq_true, decide_eq_true_iff, Provider.isExact_iff]
    exact ⟨fun hq => ⟨hq, hq.carries⟩, fun hq => hq.1⟩
  rw [Registry.scan_eq_ok_iff, hexact, h]
  simp [Provider.isExact_iff.2 hmeets]

/-- Some provider answers under a type exactly if some request for the type is met. -/
theorem contains_iff :
    (w.container c).registry.contains type = true ↔ ∃ qs p, w.Holds c p ∧ p.Meets (type, qs) := by
  unfold Registry.contains
  rw [findAll_eq_carriers, Bool.not_eq_true', List.isEmpty_eq_false_iff_exists_mem]
  constructor
  · rintro ⟨p, hp⟩
    obtain ⟨hheld, htype, -⟩ := mem_carriers.1 hp
    exact ⟨p.definition.qualifiers, p, hheld, htype, rfl⟩
  · rintro ⟨qs, p, hp, htype, -⟩
    exact ⟨p, mem_carriers.2 ⟨hp, htype, fun q hq => absurd hq List.not_mem_nil⟩⟩

/-- A provider is found by its identity. -/
theorem Coherent.provider?_eq_some (hw : w.Coherent) (hp : w.Holds c p) :
    (w.container c).registry.provider? p.id = some p := by
  rcases hfound : (w.container c).registry.provider? p.id with _ | q
  · have hnone := List.find?_eq_none.1 hfound p hp
    simp at hnone
  · obtain ⟨hq, hid⟩ := Registry.mem_of_provider? hfound
    rw [(hw.unique c q c p hq hp hid).2]

/-! ## What is listed, and what is found -/

/-- Any code that selects by a request is handed a handle on these providers: on each that carries
the request, once, in order of registration, and it tells them apart. -/
structure Lists (w : World C) (c : ContainerId) (request : Request) (l : List (Provider C)) :
    Prop where
  select : ∀ h : Host C, (h.answer (.select c request.1 request.2)).exec w =
    (some (.ok ⟨c, request.1, request.2, l.map (·.id)⟩),
      w.enter (.event c (.selecting request.1 request.2 l.length)))
  exactly : ∀ p, p ∈ l ↔ w.Holds c p ∧ p.definition.Carries request
  once : (l.map (·.id)).Nodup
  inOrder : l.Sublist (w.container c).registry.providers
  ascending : l.Pairwise fun p q => p.id.number < q.id.number
  provider? : ∀ p ∈ l, (w.container c).registry.provider? p.id = some p

/-- A ready container lists exactly the carriers, in the order of registration. -/
theorem lists_carriers (hw : w.Coherent) (hascending : (w.container c).registry.Ascending)
    (hready : (w.container c).phase = .ready) (request : Request) :
    w.Lists c request (w.carriers c request) where
  select h := by
    rw [← findAll_eq_carriers]
    exact Host.exec_select hready request.2
  exactly p := mem_carriers
  once := hascending.nodup.sublist (List.filter_sublist.map _)
  inOrder := List.filter_sublist
  ascending := hascending.filter _
  provider? p hp := hw.provider?_eq_some (mem_carriers.1 hp).1

/-- A selection with a single match and a request for the only provider ask the same provider, and
hand out the same value if one is kept. -/
structure Coincides (w : World C) (c : ContainerId) (request : Request) (p : Provider C) :
    Prop where
  single : ∀ h : Host C, (h.answer (.single ⟨c, request.1, request.2, [p.id]⟩)).exec w =
    (Host.provideAs h c p request.1).run.exec w
  get : ∀ h : Host C, (h.answer (.get c request.1 request.2)).exec w =
    (Host.provideAs h c p request.1).run.exec (w.looked c request)
  kept : ∀ y, p.definition.scope = .singleton → w.kept.get? p.id = some y → ∀ h : Host C,
    ((h.answer (.single ⟨c, request.1, request.2, [p.id]⟩)).exec w).1 =
        some (Host.converting p request.1 (.ok y)) ∧
      ((h.answer (.get c request.1 request.2)).exec w).1 =
        some (Host.converting p request.1 (.ok y))

/-- The answer of a singleton whose value is kept. -/
theorem exec_provideAs_kept {h : Host C} {y : Value C} (hready : (w.container c).phase = .ready)
    (hs : p.definition.scope = .singleton) (hy : w.kept.get? p.id = some y) :
    ((Host.provideAs h c p type).run.exec w).1 = some (Host.converting p type (.ok y)) := by
  rw [Host.exec_provideAs_of_opened (Host.exec_ensureReady hready), Host.exec_provide_kept hs hy]

/-- With one carrier whose qualifiers are those asked for, listing and looking up find the same
provider. -/
theorem coincides (hw : w.Coherent) (hready : (w.container c).phase = .ready)
    (htype : type ≠ .container) (hcarriers : w.carriers c (type, qs) = [p])
    (hqualifiers : p.definition.qualifiers = qs) : w.Coincides c (type, qs) p := by
  have hmem : p ∈ w.carriers c (type, qs) := by rw [hcarriers]; exact List.mem_singleton_self p
  have hscan := scan_of_carriers hcarriers hqualifiers
  -- Resolving the only match and looking the request up both come to a request to that provider.
  have hsingle : ∀ h : Host C, (h.answer (.single ⟨c, type, qs, [p.id]⟩)).exec w =
      (Host.provideAs h c p type).run.exec w := fun h =>
    Host.exec_resolveMatch_of_found (has_of_ready hready) (by rw [hready]; decide)
      (hw.provider?_eq_some (mem_carriers.1 hmem).1)
  have hget : ∀ h : Host C, (h.answer (.get c type qs)).exec w =
      (Host.provideAs h c p type).run.exec (w.looked c (type, qs)) := fun h =>
    Host.exec_getObject (hw.recalled c) hready htype hscan
  have hlooked : ((w.looked c (type, qs)).container c).phase = .ready :=
    (container_looked w c _ c).2.trans hready
  -- A value that is kept is handed out by either route.
  refine ⟨hsingle, hget, fun y hs hy h => ⟨?_, ?_⟩⟩
  · exact (congrArg Prod.fst (hsingle h)).trans (exec_provideAs_kept hready hs hy)
  · exact (congrArg Prod.fst (hget h)).trans (exec_provideAs_kept hlooked hs hy)

end World

open World

/-- The definitions of a container are the registered ones that no later revision removed, in the
order of registration. -/
theorem Codebase.Visits.survivors {code : Codebase C} {s : C.State}
    (h : code.Visits (.blank s) w) (c : ContainerId) :
    ∃ l, List.Forall₂ Revision.IsReported l (w.revisions c) ∧
      w.definitions c = Revision.survivors l := by
  have hcourse := h.course code.describes_any (blank_coherent s)
  have haccounts : (World.blank s).Accounts w :=
    hcourse.invariant (Accounts.invariant _) (blank_coherent s) (.of_eq rfl rfl)
  obtain ⟨l, ⟨reports, hreports, hl⟩, hw⟩ := haccounts c
  have hrevisions : w.revisions c = reports := hreports
  exact ⟨l, hrevisions ▸ hl, hw⟩

/-- In a container that is ready: a selection lists, once and in order of registration, the
providers that carry the request, among the registered ones that were not removed. More qualifiers
list fewer, in the same order, and the union of two sets what both of them list. Every provider that
meets a request is listed, so a request for the only provider that succeeds has found one of the
list. If a single one is listed and carries nothing else, both kinds of requests ask it, at every
later moment at which the container is ready. A type is contained exactly if some request for it is
met. -/
theorem Codebase.selections_cohere {code : Codebase C} {s : C.State}
    (h : code.Passes (.blank s) w v) (hready : (w.container c).phase = .ready) (type : TypeKey)
    (qs rs : Qualifiers) :
    w.Lists c (type, qs) (w.carriers c (type, qs)) ∧
    (∃ l, List.Forall₂ Revision.IsReported l (w.revisions c) ∧
      (w.carriers c (type, qs)).map (·.definition) =
        (Revision.survivors l).filter fun d => d.Carries (type, qs)) ∧
    ((∀ q ∈ qs, q ∈ rs) → (w.carriers c (type, rs)).Sublist (w.carriers c (type, qs))) ∧
    (∀ p, p ∈ w.carriers c (type, qs.union rs) ↔
      p ∈ w.carriers c (type, qs) ∧ p ∈ w.carriers c (type, rs)) ∧
    (∀ p, w.Holds c p → p.Meets (type, qs) → p ∈ w.carriers c (type, qs)) ∧
    (type ≠ .container →
      (∀ p, ((w.container c).registry.findUnique (type, qs)).1 = .ok p →
        p ∈ w.carriers c (type, qs) ∧ ∀ h : Host C, (h.answer (.get c type qs)).exec w =
          (Host.provideAs h c p type).run.exec (w.looked c (type, qs))) ∧
      (∀ (h : Host C) x u, (h.answer (.get c type qs)).exec w = (some (.ok x), u) →
        ∃ p ∈ w.carriers c (type, qs),
          ((w.container c).registry.findUnique (type, qs)).1 = .ok p) ∧
      (∀ p, w.carriers c (type, qs) = [p] → p.definition.qualifiers = qs →
        (v.container c).phase = .ready → v.Coincides c (type, qs) p)) ∧
    ((w.container c).registry.contains type = true ↔
      ∃ rs p, w.Holds c p ∧ p.Meets (type, rs)) ∧
    ∃ survey : Survey C, (∀ h : Host C, (h.answer (.survey c)).exec w = (some survey, w)) ∧
      survey.contains type = (w.container c).registry.contains type := by
  obtain ⟨hvisits, hlater⟩ := h.visits
  have hw := hvisits.coherent
  have hfound : ∀ p, ((w.container c).registry.findUnique (type, qs)).1 = .ok p →
      (w.container c).registry.scan (type, qs) = .ok p :=
    fun p hp => (Registry.findUnique_fst (hw.recalled c)).symm.trans hp
  refine ⟨lists_carriers hw (hvisits.ascending c) hready _, ?_, carriers_sublist, fun p => ?_,
    fun p hp hmeets => mem_carriers.2 ⟨hp, hmeets.carries⟩, fun htype => ⟨?_, ?_, ?_⟩,
    contains_iff, _, fun _ => exec_survey (has_of_ready hready), (Registry.contains_eq ..).symm⟩
  · obtain ⟨l, hl, hdefinitions⟩ := hvisits.survivors c
    -- The definitions are those that the reported revisions left, in their order.
    exact ⟨l, hl, hdefinitions ▸ map_definition_carriers w c (type, qs)⟩
  · rw [mem_carriers, mem_carriers, mem_carriers, Definition.Carries.union_iff]
    exact and_and_left
  · intro p hp
    exact ⟨mem_carriers_of_scan (hfound p hp), fun _ =>
      Host.exec_getObject (hw.recalled c) hready htype (hfound p hp)⟩
  · intro h x u hexec
    obtain ⟨p, u', hreaches, -⟩ := Host.getObject_eq_ok hexec htype
    -- The container was ready, so the lookup began in the same world.
    cases hreaches with
    | get hopened hc _ hp =>
      cases (Host.exec_ensureReady hready).symm.trans hopened
      exact ⟨p, mem_carriers_of_scan (hfound p hp), hp⟩
  -- What is held at the one moment is still held at the other.
  · intro p hcarriers hqualifiers hstill
    have hlt := hw.container_lt c (has_of_ready hready)
    have hproviders := (h.moves.container c hlt).providers (by rw [hready]; decide)
    exact coincides hlater.coherent hstill htype ((carriers_congr hproviders).trans hcarriers)
      hqualifiers

namespace Sample

def marks (names : List String) : Qualifiers := .ofList (names.map .named)

/-- A red lamp and a large red one are registered, and all red lamps are listed. -/
def redLamps : Program Sample (Attempted Selection) := do
  let c ← Program.request .create
  let lamp : Registration Sample := .producer (.named "Lamp") ()
  let _ ← Program.request (.register c (lamp.withQualifiers (marks ["red"])))
  let _ ← Program.request (.register c (lamp.withQualifiers (marks ["large", "red"])))
  let _ ← Program.request (.validate c)
  Program.request (.select c (.named "Lamp") (marks ["red"]))

def beforeListing : World Sample :=
  ((lamps.runUntil (fun w => isReady w || false) 2 redLamps).exec blank).2

def afterListing : World Sample := ((lamps.runUntil (fun _ => false) 2 redLamps).exec blank).2

/-- The provider of the large lamp. -/
def largeLamp : Provider Sample :=
  ⟨⟨1⟩, ((Registration.producer (.named "Lamp") ()).withQualifiers
    (marks ["large", "red"])).definition⟩

/-- Both lamps are listed as red, and the large red one is the same for all requests. -/
theorem large_lamp_coincides :
    (∃ l, beforeListing.Lists ⟨0⟩ (.named "Lamp", marks ["red"]) l ∧ l.length = 2) ∧
      (beforeListing.carriers ⟨0⟩ (.named "Lamp", marks ["large", "red"])).Sublist
        (beforeListing.carriers ⟨0⟩ (.named "Lamp", marks ["red"])) ∧
      afterListing.Coincides ⟨0⟩ (.named "Lamp", marks ["large", "red"]) largeLamp := by
  have hpasses : lamps.Passes blank beforeListing afterListing :=
    ⟨_, redLamps, isReady, fun _ => false, 2, rfl, rfl⟩
  have hready : (beforeListing.container ⟨0⟩).phase = .ready := by decide +kernel
  have hstill : (afterListing.container ⟨0⟩).phase = .ready := by decide +kernel
  have hsubset : ∀ q ∈ marks ["red"], q ∈ marks ["large", "red"] :=
    Qualifiers.isSubset_iff.1 (by decide +kernel)
  have hlength : (beforeListing.carriers ⟨0⟩ (.named "Lamp", marks ["red"])).length = 2 := by
    decide +kernel
  have honly : beforeListing.carriers ⟨0⟩ (.named "Lamp", marks ["large", "red"]) = [largeLamp] :=
    rfl
  obtain ⟨hlists, -, hsublist, -⟩ := Codebase.selections_cohere hpasses hready (.named "Lamp")
    (marks ["red"]) (marks ["large", "red"])
  obtain ⟨-, -, -, -, -, hunique, -⟩ := Codebase.selections_cohere hpasses hready (.named "Lamp")
    (marks ["large", "red"]) ∅
  exact ⟨⟨_, hlists, hlength⟩, hsublist hsubset,
    (hunique TypeKey.noConfusion).2.2 largeLamp honly rfl hstill⟩

end Sample

end Wiring
