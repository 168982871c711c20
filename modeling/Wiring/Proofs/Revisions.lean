import Mathlib.Data.List.Forall2
import Wiring.Proofs.Conduct.Configuration

/-!
# Revisions of the definitions

Registering adds a definition after the others and unregistering takes some away; together these
are the revisions of a container. What revisions leave can be told without replaying them: the
registered definitions that none of the later revisions removes, in the order of registration.
Every revision is reported, so the journal tells how many there were, and of which kind.

Main statements: `Revision.survivors_append`, `World.Revises.trans`, and for the two operations
`Host.exec_register` and `Host.exec_unregister`.
-/

namespace Wiring

variable {C : Client}

/-! ## What revisions leave -/

/-- A definition is added, or those of a type that carry exactly some qualifiers are removed. -/
inductive Revision (C : Client)
  | registered (d : Definition C)
  | unregistered (type : TypeKey) (qualifiers : Qualifiers)

namespace Revision

/-- Whether a revision takes a definition away. -/
def removes : Revision C → Definition C → Bool
  | registered _, _ => false
  | unregistered type qualifiers, d => d.hasType type && d.qualifiers.matchesExactly qualifiers

/-- The registered definitions that no later revision removes, of revisions the earliest first. -/
def survivors : List (Revision C) → List (Definition C)
  | [] => []
  | registered d :: later =>
    if later.any (·.removes d) then survivors later else d :: survivors later
  | unregistered .. :: later => survivors later

/-- The definitions of a list that none of the revisions removes. -/
def spared (l : List (Revision C)) (ds : List (Definition C)) : List (Definition C) :=
  ds.filter fun d => !l.any (·.removes d)

/-- Without revisions all are spared. -/
@[simp] theorem spared_nil (ds : List (Definition C)) : spared [] ds = ds :=
  List.filter_eq_self.2 fun _ _ => rfl

/-- Revisions behind each other spare what both spare. -/
theorem spared_append (l m : List (Revision C)) (ds : List (Definition C)) :
    spared (l ++ m) ds = spared m (spared l ds) := by
  unfold spared
  rw [List.filter_filter]
  refine List.filter_congr fun d _ => ?_
  rw [List.any_append, Bool.not_or, Bool.and_comm]

/-- Of what earlier revisions leave, the later ones leave what they do not remove. -/
theorem survivors_append (l m : List (Revision C)) :
    survivors (l ++ m) = spared m (survivors l) ++ survivors m := by
  induction l with
  | nil => rfl
  | cons r l ih =>
    rcases r with d | ⟨type, qualifiers⟩
    · simp only [List.cons_append, survivors, List.any_append, ih]
      rcases hl : l.any (·.removes d) with _ | _
      · rcases hm : m.any (·.removes d) with _ | _ <;> simp [spared, hm]
      · simp
    · exact ih

/-- What a container reports of a revision. -/
inductive IsReported : Revision C → Event → Prop
  | registered (d : Definition C) (size : Nat) :
      IsReported (.registered d)
        (.registering d.implementation d.scope d.qualifiers d.types.length size)
  | unregistered (type : TypeKey) (qualifiers : Qualifiers) (removed : Nat) :
      IsReported (.unregistered type qualifiers) (.unregistered type qualifiers removed)

end Revision

/-- Whether an event reports a revision. -/
def Event.isRevision : Event → Bool
  | registering .. | unregistered .. => true
  | _ => false

/-- What an entry says of a container's revisions. -/
def Entry.revision? (c : ContainerId) : Entry C → Option Event
  | .event d e => if e.isRevision ∧ d = c then some e else none
  | _ => none

namespace World

def definitions (w : World C) (c : ContainerId) : List (Definition C) :=
  (w.container c).registry.definitions

/-- What a container has reported of its revisions, the earliest first. -/
def revisions (w : World C) (c : ContainerId) : List Event :=
  (w.journal.filterMap (Entry.revision? c)).reverse

/-- A container has one more definition, and reported how many there are. -/
def registered (w : World C) (c : ContainerId) (d : Definition C) (size : Nat) : World C :=
  (w.enter (.event c (.registering d.implementation d.scope d.qualifiers d.types.length
    size))).withProvider c d

/-- A container has no definitions of a type that carry exactly some qualifiers, and reported how
many there were. -/
def unregistered (w : World C) (c : ContainerId) (type : TypeKey) (qualifiers : Qualifiers)
    (removed : Nat) : World C :=
  (w.withRegistry c ((w.container c).registry.removeWhere (·.isExact (type, qualifiers)))).enter
    (.event c (.unregistered type qualifiers removed))

/-- From the first world to the second one, these are a container's revisions, the earliest first:
it has reported them, and they account for its definitions. -/
structure Revises (w v : World C) (c : ContainerId) (l : List (Revision C)) : Prop where
  reported : ∃ reports, v.revisions c = w.revisions c ++ reports ∧
    List.Forall₂ Revision.IsReported l reports
  definitions : v.definitions c = Revision.spared l (w.definitions c) ++ Revision.survivors l

variable {w u v : World C} {c d : ContainerId}

/-- An entry that reports no revision leaves the revisions as they were. -/
theorem revisions_enter_of_none {e : Entry C} (he : e.revision? c = none) :
    (w.enter e).revisions c = w.revisions c :=
  congrArg List.reverse (List.filterMap_cons_none he)

/-- A reported revision comes last. -/
theorem revisions_enter_of_some {e : Entry C} {report : Event} (he : e.revision? c = some report) :
    (w.enter e).revisions c = w.revisions c ++ [report] := by
  unfold revisions enter
  rw [List.filterMap_cons_some he, List.reverse_cons]

/-- Definitions go by the providers alone. -/
theorem definitions_congr
    (h : (v.container c).registry.providers = (w.container c).registry.providers) :
    v.definitions c = w.definitions c := by
  unfold definitions Registry.definitions
  rw [h]

/-- The definition comes after the others. -/
theorem definitions_registered (w : World C) (c : ContainerId) (d : Definition C) (size : Nat) :
    (w.registered c d size).definitions c = w.definitions c ++ [d] := by
  unfold registered definitions withProvider
  rw [container_withContainer_self]
  exact List.map_append ..

/-- The other definitions stay, in their order. -/
theorem definitions_unregistered (w : World C) (c : ContainerId) (type : TypeKey)
    (qualifiers : Qualifiers) (removed : Nat) :
    (w.unregistered c type qualifiers removed).definitions c =
      (w.definitions c).filter fun d => !(Revision.unregistered type qualifiers).removes d := by
  unfold unregistered definitions withRegistry
  rw [container_enter, container_withContainer_self]
  unfold Registry.definitions Registry.removeWhere
  rw [List.filter_map]
  rfl

namespace Revises

theorem of_same (hdefinitions : v.definitions c = w.definitions c)
    (hrevisions : v.revisions c = w.revisions c) : w.Revises v c [] := by
  refine ⟨⟨[], ?_, .nil⟩, ?_⟩
  · rw [hrevisions, List.append_nil]
  · rw [hdefinitions, Revision.spared_nil]
    exact (List.append_nil _).symm

/-- Revisions join at the world in between. -/
theorem trans {l m : List (Revision C)} (hwu : w.Revises u c l) (huv : u.Revises v c m) :
    w.Revises v c (l ++ m) := by
  obtain ⟨⟨reports, hreports, hl⟩, hdefinitions⟩ := hwu
  obtain ⟨⟨reports', hreports', hm⟩, hdefinitions'⟩ := huv
  refine ⟨⟨reports ++ reports', ?_, List.rel_append hl hm⟩, ?_⟩
  · rw [hreports', hreports, List.append_assoc]
  · calc v.definitions c
        = Revision.spared m (u.definitions c) ++ Revision.survivors m := hdefinitions'
      _ = Revision.spared m (Revision.spared l (w.definitions c)) ++
            (Revision.spared m (Revision.survivors l) ++ Revision.survivors m) := by
          rw [hdefinitions]
          simp only [Revision.spared, List.filter_append, List.append_assoc]
      _ = Revision.spared (l ++ m) (w.definitions c) ++ Revision.survivors (l ++ m) := by
          rw [Revision.spared_append, Revision.survivors_append]

theorem registered (w : World C) (c : ContainerId) (d : Definition C) (size : Nat) :
    w.Revises (w.registered c d size) c [.registered d] := by
  constructor
  · exact ⟨_, revisions_enter_of_some (if_pos ⟨rfl, rfl⟩), .cons (.registered d size) .nil⟩
  · have hspared : Revision.spared [.registered d] (w.definitions c) = w.definitions c :=
      List.filter_eq_self.2 fun _ _ => rfl
    rw [definitions_registered, hspared]
    rfl

theorem unregistered (w : World C) (c : ContainerId) (type : TypeKey) (qualifiers : Qualifiers)
    (removed : Nat) :
    w.Revises (w.unregistered c type qualifiers removed) c [.unregistered type qualifiers] := by
  constructor
  · exact ⟨_, revisions_enter_of_some (if_pos ⟨rfl, rfl⟩),
      .cons (.unregistered type qualifiers removed) .nil⟩
  · rw [definitions_unregistered]
    simp [Revision.spared, Revision.survivors]

end Revises

/-- From the first world to the second one, every container's definitions have changed by the
revisions that it reported. -/
def Accounts (w v : World C) : Prop := ∀ c, ∃ l, w.Revises v c l

namespace Accounts

theorem of_same (hproviders : ∀ c,
      (v.container c).registry.providers = (w.container c).registry.providers)
    (hrevisions : ∀ c, v.revisions c = w.revisions c) : w.Accounts v :=
  fun c => ⟨[], .of_same (definitions_congr (hproviders c)) (hrevisions c)⟩

theorem trans (hwu : w.Accounts u) (huv : u.Accounts v) : w.Accounts v := by
  intro c
  obtain ⟨l, hl⟩ := hwu c
  obtain ⟨m, hm⟩ := huv c
  exact ⟨l ++ m, hl.trans hm⟩

/-- Only the containers and the journal matter. -/
theorem of_eq (hcontainers : v.containers = w.containers) (hjournal : v.journal = w.journal) :
    w.Accounts v := by
  refine of_same (fun c => ?_) fun c => ?_
  · rw [container_congr hcontainers]
  · unfold revisions
    rw [hjournal]

theorem enter (w : World C) {e : Entry C} (he : ∀ c, e.revision? c = none) :
    w.Accounts (w.enter e) :=
  of_same (fun _ => rfl) fun c => revisions_enter_of_none (he c)

/-- A change that keeps the providers of its container revises nothing. -/
theorem withContainer (w : World C) {c : ContainerId} {f : Container C → Container C}
    (hf : (f (w.container c)).registry.providers = (w.container c).registry.providers) :
    w.Accounts (w.withContainer c f) :=
  of_same (w.providers_withContainer hf) fun _ => rfl

/-- A revision of one container is none of another. -/
theorem of_revision {r : Revision C} (hself : w.Revises v c [r])
    (hcontainer : ∀ d, d ≠ c → v.container d = w.container d)
    (hrevisions : ∀ d, d ≠ c → v.revisions d = w.revisions d) : w.Accounts v := by
  intro d
  by_cases hd : d = c
  · subst hd
    exact ⟨[r], hself⟩
  · refine ⟨[], .of_same (definitions_congr ?_) (hrevisions d hd)⟩
    rw [hcontainer d hd]

theorem registered (w : World C) (c : ContainerId) (d : Definition C) (size : Nat) :
    w.Accounts (w.registered c d size) := by
  refine of_revision (.registered w c d size) (fun x hx => ?_) fun x hx => ?_
  · exact container_withContainer_of_ne _ _ hx
  · exact revisions_enter_of_none (if_neg fun h => hx h.2.symm)

theorem unregistered (w : World C) (c : ContainerId) (type : TypeKey) (qualifiers : Qualifiers)
    (removed : Nat) : w.Accounts (w.unregistered c type qualifiers removed) := by
  refine of_revision (.unregistered w c type qualifiers removed) (fun x hx => ?_) fun x hx => ?_
  · unfold World.unregistered withRegistry
    rw [container_enter, container_withContainer_of_ne _ _ hx]
  · exact revisions_enter_of_none (if_neg fun h => hx h.2.symm)

end Accounts

end World

/-! ## The operations -/

namespace Registry

/-- As many definitions are removed as answer a request for the only one. -/
theorem size_sub_removeWhere (r : Registry C) (request : Request) :
    r.size - (r.removeWhere (·.isExact request)).size = r.countExact request := by
  unfold size removeWhere countExact
  have hsplit : r.providers.length = (r.providers.filter (·.isExact request)).length +
      (r.providers.filter (!·.isExact request)).length := List.length_eq_length_filter_add _
  rw [List.countP_eq_length_filter, hsplit, Nat.add_sub_cancel]

end Registry

namespace Host

variable {w : World C} {c : ContainerId}

/-- The gate lets a revision of an unconfigured container through. -/
theorem exec_checkConfigurable (hc : w.Has c) (h : (w.container c).phase = .unconfigured)
    (change : Change) : (checkConfigurable c change).run.exec w = (some (.ok ()), w) := by
  unfold checkConfigurable
  rw [exec_bind_container hc, h]
  rfl

/-- It refuses a revision of a configured one and names the phase. -/
theorem exec_checkConfigurable_frozen (hc : w.Has c) (h : (w.container c).phase ≠ .unconfigured)
    (change : Change) :
    (checkConfigurable c change).run.exec w =
      (some (.error (.configuration (.frozen change (w.container c).phase))), w) := by
  unfold checkConfigurable
  rw [exec_bind_container hc]
  rcases hphase : (w.container c).phase
  · exact absurd hphase h
  all_goals rfl

theorem exec_checkConfigurable_none (hc : w.containers.get? c = none) (change : Change) :
    (checkConfigurable c change).run.exec w = (none, w) :=
  exec_bind_none (exec_step_none (Machine.exec_container_of_none hc))

/-- A registration that passes the gate adds its definition and reports it. -/
theorem exec_register (hc : w.Has c) (h : (w.container c).phase = .unconfigured)
    (r : Registration C) :
    (register c r).run.exec w =
      (some (.ok ()), w.registered c r.definition ((w.container c).registry.size + 1)) := by
  unfold register
  rw [exec_bind_ok (exec_checkConfigurable hc h .register), exec_bind_container hc,
    exec_bind_ok (exec_step_some (Machine.exec_report ..))]
  exact exec_step_some (exec_addProvider r.definition hc)

/-- An unregistration that passes the gate removes the exact matches, reports them and answers their
number. -/
theorem exec_unregister (hc : w.Has c) (h : (w.container c).phase = .unconfigured)
    (type : TypeKey) (qualifiers : Qualifiers) :
    (unregister c type qualifiers).run.exec w =
      (some (.ok ((w.container c).registry.countExact (type, qualifiers))),
        w.unregistered c type qualifiers
          ((w.container c).registry.countExact (type, qualifiers))) := by
  unfold unregister World.unregistered
  rw [exec_bind_ok (exec_checkConfigurable hc h .unregister), exec_bind_container hc,
    ← Registry.size_sub_removeWhere]
  rfl

/-- Where a container was never made or is no longer unconfigured, nothing changes. -/
theorem exec_checkConfigurable_cases (c : ContainerId) (change : Change) (w : World C) :
    (w.Has c ∧ (w.container c).phase = .unconfigured) ∨
      (checkConfigurable c change).run.exec w = (none, w) ∨
      ∃ e, (checkConfigurable c change).run.exec w = (some (.error e), w) := by
  rcases hk : w.containers.get? c with _ | k
  · exact .inr (.inl (exec_checkConfigurable_none hk change))
  · have hc : w.Has c := ⟨k, hk⟩
    by_cases hphase : (w.container c).phase = .unconfigured
    · exact .inl ⟨hc, hphase⟩
    · exact .inr (.inr ⟨_, exec_checkConfigurable_frozen hc hphase change⟩)

/-- Registering adds the definition to an unconfigured container, or changes nothing. -/
theorem register_cases (c : ContainerId) (r : Registration C) (w : World C) :
    ((register c r).run.exec w).2 = w ∨
      (w.container c).phase = .unconfigured ∧
        ((register c r).run.exec w).2 =
          w.registered c r.definition ((w.container c).registry.size + 1) := by
  rcases exec_checkConfigurable_cases c .register w with ⟨hc, hphase⟩ | hnone | ⟨e, herror⟩
  · rw [exec_register hc hphase]
    exact .inr ⟨hphase, rfl⟩
  · unfold register
    rw [exec_bind_none hnone]
    exact .inl rfl
  · unfold register
    rw [exec_bind_error herror]
    exact .inl rfl

/-- Unregistering removes definitions of an unconfigured container, or changes nothing. -/
theorem unregister_cases (c : ContainerId) (type : TypeKey) (qualifiers : Qualifiers)
    (w : World C) :
    ((unregister c type qualifiers).run.exec w).2 = w ∨
      (w.container c).phase = .unconfigured ∧
        ((unregister c type qualifiers).run.exec w).2 = w.unregistered c type qualifiers
          ((w.container c).registry.countExact (type, qualifiers)) := by
  rcases exec_checkConfigurable_cases c .unregister w with ⟨hc, hphase⟩ | hnone | ⟨e, herror⟩
  · rw [exec_unregister hc hphase]
    exact .inr ⟨hphase, rfl⟩
  · unfold unregister
    rw [exec_bind_none hnone]
    exact .inl rfl
  · unfold unregister
    rw [exec_bind_error herror]
    exact .inl rfl

end Host

end Wiring
