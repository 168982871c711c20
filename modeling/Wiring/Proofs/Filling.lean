import Wiring.Proofs.Confining
import Wiring.Proofs.Depth
import Wiring.Proofs.Keeping
import Wiring.Proofs.Sweeping

/-!
# What requests leave behind

Requests that are answered leave a value behind for every singleton to which one of them leads, and
for no other provider. So it does not matter in which order requests are made, nor how often: the
same values are kept in the end, and a teardown visits the same providers in the same order.

No more is kept because all that is kept is kept for something that was asked for. No less is kept
because a provider that has made a value has found all that it needs, and a ready container keeps
what its singletons have made.

Main statement: `Codebase.fetches_fill`.
-/

namespace Wiring

variable {C : Client} {D : Outline} {L : Declarations} {c : ContainerId}

/-! ## What is asked for -/

/-- A provider is the only one that meets some request among these. A container is no provider. -/
def Registry.Asked (r : Registry C) (l : List Request) (p : Provider C) : Prop :=
  ∃ request ∈ l, request.1 ≠ .container ∧ r.scan request = .ok p

/-- Something that is asked for leads to a provider. -/
def Declarations.Reached (L : Declarations) (r : Registry C) (l : List Request)
    (q : Provider C) : Prop :=
  ∃ p, r.Asked l p ∧ Relation.ReflTransGen (L.Needs r) p q

/-- What needs something that is reached is reached. -/
theorem Declarations.Reached.needs {r : Registry C} {l : List Request} {p q : Provider C}
    (hp : L.Reached r l p) (hpq : L.Needs r p q) : L.Reached r l q := by
  obtain ⟨o, ho, hop⟩ := hp
  exact ⟨o, ho, hop.tail hpq⟩

/-- A container is asked for values, and every request is met. -/
inductive Codebase.Fetches (code : Codebase C) (c : ContainerId) :
    List Request → World C → World C → Prop
  | nil (w : World C) : Fetches code c [] w w
  | cons {w u v : World C} {type : TypeKey} {qualifiers : Qualifiers} {rest : List Request}
      {depth : Nat} {x : Value C} :
      (code.perform depth (.get c type qualifiers)).exec w = (some (Except.ok x), u) →
      Fetches code c rest u v → Fetches code c ((type, qualifiers) :: rest) w v

namespace Codebase.Fetches

variable {code : Codebase C} {w v : World C} {l : List Request} {r : Registry C}

/-- A series of requests is a course of work. -/
theorem course (hd : code.Describes D) (h : code.Fetches c l w v) (hw : w.Coherent) :
    Course D .work true w v := by
  induction h with
  | nil w => exact .refl w true
  | cons hexec _ ih =>
    have hcourse := ((code.perform_follows hd _ _ _).ends hw hexec).1
    exact hcourse.trans (ih (hcourse.coherent hw))

/-- Requests keep values only for what is asked for and what that needs. -/
theorem within {w₀ : World C} {K : Provider C → Prop} (hc : code.Contains D L w₀ c r K)
    (h : code.Fetches c l w v) (hw : w.Coherent) (hwithin : w₀.Within w c r K)
    (hK : ∀ q, r.Asked l q → K q) : w₀.Within v c r K := by
  induction h with
  | nil w => exact hwithin
  | @cons w u v type qualifiers rest depth x hexec _ ih =>
    have hget := (hc.confines depth).get w type qualifiers hwithin fun q hne hq =>
      hK q ⟨_, List.mem_cons_self, hne, hq⟩
    obtain ⟨hcourse, hu⟩ := hget.ends hw hexec
    refine ih (hcourse.coherent hw) (hu x rfl) fun q hq => hK q ?_
    obtain ⟨request, hmem, hasked⟩ := hq
    exact ⟨request, List.mem_cons_of_mem _ hmem, hasked⟩

/-- Whatever was asked for has made a value. -/
theorem made (h : code.Fetches c l w v) (hw : w.Coherent)
    (hphase : (w.container c).phase ≠ .unconfigured) {p : Provider C}
    (hp : (w.container c).registry.Asked l p) : v.mades p.id ≠ [] := by
  induction h with
  | nil w =>
    obtain ⟨request, hmem, -⟩ := hp
    exact absurd hmem List.not_mem_nil
  | @cons w u v type qualifiers rest depth x hexec hrest ih =>
    obtain ⟨hcourse, hanswered⟩ :=
      (code.perform_follows code.describes_any depth _ w).ends hw hexec
    have hu := hcourse.coherent hw
    have hphaseu := (hcourse.frame.container c).phase.ne_unconfigured hphase
    obtain ⟨request, hmem, hne, hscan⟩ := hp
    rcases List.mem_cons.1 hmem with rfl | hmem
    · -- The request was answered with a value of the provider, and that stays made.
      rcases hanswered x rfl with hitself | ⟨d, q, t, ⟨rfl, rfl, -, hq⟩, y, earlier, hmades, -⟩
      · exact absurd hitself hne
      · have hp : (u.container c).registry.scan (type, qualifiers) = .ok p :=
          (hcourse.frame.scan hphase _).trans hscan
        obtain rfl : p = q := Except.ok.inj (hp.symm.trans hq)
        refine (hrest.course code.describes_any hu).frame.mades_ne_nil ?_
        rw [hmades]
        exact List.cons_ne_nil _ _
    · exact ih hu hphaseu ⟨request, hmem, hne, (hcourse.frame.scan hphase request).trans hscan⟩

end Codebase.Fetches

/-! ## What is kept -/

namespace World

variable {w v : World C} {p : Provider C}

/-- A container that is not torn down keeps what its singletons have made. -/
theorem Coherent.kept_of_made (hw : w.Coherent) (hp : w.Holds c p)
    (hphase : (w.container c).phase ≠ .destroyed) (hs : p.definition.scope = .singleton)
    (hmade : w.mades p.id ≠ []) : w.kept.get? p.id ≠ none := by
  intro hnone
  have ha := hw.account c p hp
  have hkeepings := ha.balance
  rw [hnone, (ha.unreleased hphase).1] at hkeepings
  exact hmade ((ha.made_eq_keepings hs).trans hkeepings)

/-- Nothing is kept for a prototype. -/
theorem Coherent.singleton_of_kept (hw : w.Coherent) (hp : w.Holds c p)
    (hkept : w.kept.get? p.id ≠ none) : p.definition.scope = .singleton := by
  rcases hs : p.definition.scope
  · rfl
  · have ha := hw.account c p hp
    have hkeepings := ha.balance
    rw [ha.prototype hs] at hkeepings
    obtain ⟨hnone, -⟩ := List.append_eq_nil_iff.1 hkeepings.symm
    exact absurd (Option.toList_eq_nil_iff.1 hnone) hkept

/-- The same providers keep values if they are the same providers. -/
theorem keepers_congr (hproviders : v.providerIds c = w.providerIds c)
    (hkept : ∀ p, w.Holds c p → (v.kept.get? p.id ≠ none ↔ w.kept.get? p.id ≠ none)) :
    v.keepers c = w.keepers c := by
  unfold keepers
  rw [hproviders]
  refine List.filter_congr fun x hx => ?_
  obtain ⟨p, hp, rfl⟩ := mem_providerIds_iff.1 hx
  rw [Bool.eq_iff_iff, Option.isSome_iff_ne_none, Option.isSome_iff_ne_none]
  exact hkept p hp

end World

namespace Codebase

/-- In some world, a container is ready, nothing is kept for its providers, and no code that makes
their values calls it. -/
structure Awaits (code : Codebase C) (D : Outline) (L : Declarations) (c : ContainerId)
    (w : World C) : Prop where
  describes : code.Describes D
  coherent : w.Coherent
  grounded : w.Grounded D L
  ready : (w.container c).phase = .ready
  declares : w.Declares D L c
  spares : ∀ p, w.Holds c p → code.SparesIn w c p.definition
  empty : ∀ p, w.Holds c p → w.kept.get? p.id = none

namespace Awaits

variable {code : Codebase C} {w v : World C} {l : List Request} {q : Provider C}

/-- A container that awaits requests is past its first phase. -/
theorem ne_unconfigured (h : code.Awaits D L c w) : (w.container c).phase ≠ .unconfigured := by
  rw [h.ready]
  decide

/-- Values are kept only for providers that are reached. -/
theorem within (h : code.Awaits D L c w) (hl : code.Fetches c l w v) :
    w.Within v c (w.container c).registry (L.Reached (w.container c).registry l) := by
  have hcontains : code.Contains D L w c (w.container c).registry
      (L.Reached (w.container c).registry l) :=
    ⟨h.describes, fun p hp q hq hid => (h.coherent.unique c p c q hp hq hid).2, h.spares,
      h.declares, fun _ _ hp _ hneeds => hp.needs hneeds⟩
  have hstart : w.Within w c (w.container c).registry (L.Reached (w.container c).registry l) :=
    ⟨.refl w, h.ready, rfl, fun p hp hne => absurd (h.empty p hp) hne⟩
  exact hl.within hcontains h.coherent hstart fun p hp => ⟨p, hp, .refl⟩

/-- Providers that are reached have made a value. -/
theorem made (h : code.Awaits D L c w) (hl : code.Fetches c l w v)
    (hq : L.Reached (w.container c).registry l q) : v.mades q.id ≠ [] := by
  obtain ⟨p, hp, hreaches⟩ := hq
  have hframe := (hl.course h.describes h.coherent).frame
  have hproviders := (hframe.container c).providers h.ne_unconfigured
  have hholds : w.Holds c p := by
    obtain ⟨request, -, -, hscan⟩ := hp
    exact (Registry.mem_of_scan hscan).1
  -- What was asked for has made a value, and so has all to which it leads.
  have hgrounded := (hl.course h.describes h.coherent).grounded h.coherent h.grounded
  have hfurnished := hgrounded c (h.declares.congr hproviders.symm) p
    (hholds.later h.ne_unconfigured hframe) (hl.made h.coherent h.ne_unconfigured hp)
  rw [← Declarations.needs_congr hproviders] at hreaches
  exact (hfurnished.reaches hreaches).made

/-- A value is kept for exactly those singletons that are reached. -/
theorem kept_iff (h : code.Awaits D L c w) (hl : code.Fetches c l w v) (hq : w.Holds c q) :
    v.kept.get? q.id ≠ none ↔
      q.definition.scope = .singleton ∧ L.Reached (w.container c).registry l q := by
  have hcourse := hl.course h.describes h.coherent
  have hv := hcourse.coherent h.coherent
  have hholds := hq.later h.ne_unconfigured hcourse.frame
  have hwithin := h.within hl
  constructor
  · intro hkept
    exact ⟨hv.singleton_of_kept hholds hkept, hwithin.kept q hq hkept⟩
  · rintro ⟨hs, hreached⟩
    refine hv.kept_of_made hholds ?_ hs (h.made hl hreached)
    rw [hwithin.ready]
    decide

/-- Requests that ask for the same providers keep values for the same ones. -/
theorem keepers_eq (h : code.Awaits D L c w) {l' : List Request} {v' : World C}
    (hl : code.Fetches c l w v) (hl' : code.Fetches c l' w v')
    (hsame : ∀ p, (w.container c).registry.Asked l p ↔ (w.container c).registry.Asked l' p) :
    v.keepers c = v'.keepers c := by
  -- Neither series changes what the container holds.
  have hproviders := ((hl.course h.describes h.coherent).frame.container c).providers
    h.ne_unconfigured
  have hproviders' := ((hl'.course h.describes h.coherent).frame.container c).providers
    h.ne_unconfigured
  refine World.keepers_congr (congrArg _ (hproviders.trans hproviders'.symm)) fun q hq => ?_
  have hq' : w.Holds c q := by
    unfold World.Holds at hq ⊢
    rwa [← hproviders']
  have hreached : L.Reached (w.container c).registry l q ↔
      L.Reached (w.container c).registry l' q := by
    unfold Declarations.Reached
    simp only [hsame]
  -- What is kept after a series goes by what it reaches, and both reach the same.
  rw [h.kept_iff hl hq', h.kept_iff hl' hq', hreached]

end Awaits

end Codebase

/-! ## Teardown -/

/-- A world comes after another one, and its parts agree. -/
def World.LeadsTo (w v : World C) : Prop := w.Frame v ∧ v.Coherent

namespace Host

variable {h : Host C} {w₀ w : World C}

/-- If the code that disposes of values has an answer wherever it begins, then so has the visit of
all providers. -/
theorem disposeAll_answers (hl : h.Lawful D) {l : List (Provider C)} {r : TeardownResult}
    (hd : ∀ p ∈ l, ∀ x, h.DisposingKeeps w₀.LeadsTo (fun _ => False) p.definition x)
    (hw : w₀.LeadsTo w) (hheld : ∀ p ∈ l, w.Holds c p)
    (hphase : (w.container c).phase = .destroyed) :
    ∃ r' v, (disposeAll h c l r).exec w = (some r', v) := by
  have hinvoked : ∀ u member, w₀.LeadsTo u → w₀.LeadsTo (u.enter (.milestone (.invoked member))) :=
    fun u member hu => ⟨hu.1.trans (.enter u _), (Quiet.invoked u member).coherent hu.2⟩
  -- Induction on the providers still ahead, in any world that the outset leads to.
  induction l generalizing w r with
  | nil => exact ⟨r, w, rfl⟩
  | cons p rest ih =>
    have hd' : ∀ q ∈ rest, ∀ x, h.DisposingKeeps w₀.LeadsTo (fun _ => False) q.definition x :=
      fun q hq => hd q (List.mem_cons_of_mem _ hq)
    have hheld' : ∀ q ∈ rest, w.Holds c q := fun q hq => hheld q (List.mem_cons_of_mem _ hq)
    rcases hx : w.kept.get? p.id with _ | x
    · rw [exec_disposeAll_none hx]
      exact ih hd' hw hheld' hphase
    · rw [exec_disposeAll_some hx]
      have hp := hheld p List.mem_cons_self
      have hreleased := hw.2.releasing hp hphase hx
      obtain ⟨o, u, hexec, -, hu⟩ :=
        (disposeOf_keeps hinvoked (hd p List.mem_cons_self x) (w := w.releasing p x)
          ⟨hw.1.trans (.releasing w p x), hreleased⟩).answers
      have hcourse := ((disposeOf_follows hl p.definition x _).ends hreleased hexec).1
      obtain ⟨hphaseu, hholdsu⟩ := World.Frame.of_releasing hphase hcourse.frame
      obtain ⟨hphasev, hholdsv⟩ := World.Frame.of_releasing hphase
        (hcourse.frame.trans (.disposed u c p x o))
      rw [hexec]
      exact ih hd' ⟨hu.1.trans (.disposed u c p x o), hu.2.disposed x o (hholdsu p hp) hphaseu⟩
        (fun q hq => hholdsv q (hheld' q hq)) hphasev

/-- If the code that disposes of values has an answer wherever it begins, then so has a teardown. -/
theorem destroy_answers (hl : h.Lawful D)
    (hd : ∀ p, w.Holds c p → ∀ x, h.DisposingKeeps w₀.LeadsTo (fun _ => False) p.definition x)
    (hw : w₀.LeadsTo w) (hc : w.Has c) (hphase : (w.container c).phase ≠ .destroyed) :
    ∃ a v, (destroy h c).run.exec w = (some a, v) := by
  -- The sweep starts from the container marked destroyed, which the outset leads to.
  have hstart : w₀.LeadsTo (w.withPhase c .destroyed) :=
    ⟨hw.1.trans (.withPhase_destroyed w c), hw.2.withPhase_destroyed hc⟩
  have hheld : ∀ p ∈ (w.container c).registry.providers.reverse,
      (w.withPhase c .destroyed).Holds c p := by
    intro p hp
    unfold World.Holds
    rw [w.providers_withPhase]
    exact List.mem_reverse.1 hp
  have hdestroyed := World.phase_withPhase w c .destroyed
  have hends := disposeAll_ends hl (w.container c).registry.providers.reverse {} hstart.2 hheld
    hdestroyed
  obtain ⟨r, v, hexec⟩ := disposeAll_answers (r := {}) hl
    (fun p hp => hd p (List.mem_reverse.1 hp)) hstart hheld hdestroyed
  rw [exec_destroy h hc hphase fun r v hexec => ?_, hexec]
  · exact ⟨_, _, rfl⟩
  · rw [hexec] at hends
    exact hends.frame.has c (World.has_withContainer _ hc)

end Host

namespace Codebase

variable {code : Codebase C} {w v : World C} {l : List Request}

/-- A teardown after some requests visits what they have kept values for. -/
theorem Awaits.teardowns (h : code.Awaits D L c w) (hnumbered : w.Numbered)
    (hl : code.Fetches c l w v) {depth : Nat} {a : Attempted Unit} {u : World C}
    (hexec : (code.perform depth (.destroy c)).exec v = (some a, u)) :
    u.teardowns c = v.keepers c := by
  have hcourse := hl.course h.describes h.coherent
  have hv := hcourse.coherent h.coherent
  have hready := (h.within hl).ready
  have hphase : (v.container c).phase ≠ .destroyed := by
    rw [hready]
    decide
  obtain ⟨n, rfl⟩ : ∃ n, depth = n + 1 := by
    rcases depth with _ | n
    · cases hexec
    · exact ⟨n, rfl⟩
  have hteardowns := Host.destroy_teardowns (h.describes.host_lawful n) hv
    (hcourse.invariant (World.Numbered.invariant D) h.coherent hnumbered)
    (World.has_of_ready hready) hphase hexec
  rw [hteardowns, hv.teardowns_eq_nil hphase, List.append_nil]

/-- Where a container is ready, no code that makes its values calls it, and nothing is kept for its
providers, requests that are met keep values for exactly those singletons to which something leads
that was asked for. So two sequences of requests that ask for the same providers keep values for the
same ones, and after each of them a teardown visits these, the latest registration first. It has an
answer if the code that disposes of values has one. -/
theorem fetches_fill (hd : code.Describes D) {s : C.State} (hw : code.Visits (.blank s) w)
    (hready : (w.container c).phase = .ready) (hdeclares : w.Declares D L c)
    (hspares : ∀ p, w.Holds c p → code.SparesIn w c p.definition)
    (hempty : ∀ p, w.Holds c p → w.kept.get? p.id = none) :
    (∀ l v, code.Fetches c l w v → ∀ q, w.Holds c q → (v.kept.get? q.id ≠ none ↔
      q.definition.scope = .singleton ∧ L.Reached (w.container c).registry l q)) ∧
    (∀ l l' v v', code.Fetches c l w v → code.Fetches c l' w v' →
      (∀ p, (w.container c).registry.Asked l p ↔ (w.container c).registry.Asked l' p) →
      v.keepers c = v'.keepers c ∧
      ∀ depth depth' a a' u u', (code.perform depth (.destroy c)).exec v = (some a, u) →
        (code.perform depth' (.destroy c)).exec v' = (some a', u') →
        u.teardowns c = v.keepers c ∧ u'.teardowns c = v.keepers c) ∧
    ∀ depth, (∀ p, w.Holds c p → ∀ x,
        (code.hostAt depth).DisposingKeeps w.LeadsTo (fun _ => False) p.definition x) →
      ∀ l v, code.Fetches c l w v →
        ∃ a u, (code.perform (depth + 1) (.destroy c)).exec v = (some a, u) := by
  have hblank := World.blank_coherent s
  have hcourse := hw.course hd hblank
  have hgrounded := hcourse.grounded hblank (World.grounded_of_containers D L rfl)
  have hnumbered := hcourse.invariant (World.Numbered.invariant D) hblank (World.blank_numbered s)
  have h : code.Awaits D L c w :=
    ⟨hd, hw.coherent, hgrounded, hready, hdeclares, hspares, hempty⟩
  refine ⟨fun l v hl q hq => h.kept_iff hl hq, ?_, ?_⟩
  -- Equal keepers are torn down in equal order.
  · intro l l' v v' hl hl' hsame
    have hkeepers := h.keepers_eq hl hl' hsame
    refine ⟨hkeepers, fun depth depth' a a' u u' hexec hexec' => ?_⟩
    exact ⟨h.teardowns hnumbered hl hexec, (h.teardowns hnumbered hl' hexec').trans hkeepers.symm⟩
  · intro depth hdisposing l v hl
    have hv := hl.course hd h.coherent
    have hready' := (h.within hl).ready
    have hproviders := (hv.frame.container c).providers h.ne_unconfigured
    refine Host.destroy_answers (hd.host_lawful depth) (fun p hp => hdisposing p ?_)
      ⟨hv.frame, hv.coherent h.coherent⟩ (World.has_of_ready hready') ?_
    · unfold World.Holds at hp ⊢
      rwa [← hproviders]
    · rw [hready']
      decide

end Codebase

namespace Sample

/-- The doors' own code touches no container but through its dependencies. -/
theorem doors_spare (w₀ : World Sample) (c : ContainerId) (d : Definition Sample) :
    doors.SparesIn w₀ c d := by
  have hdone : ∀ {α : Type} (a : α), doors.Spares w₀ c (.done a) := fun a =>
    Codebase.spares_of_ends (Q := fun _ => True) True.intro
  unfold Codebase.SparesIn
  rcases d.source with v | ⟨produce, dispose⟩ | _
  · exact True.intro
  · exact hdone _
  · refine ⟨hdone _, hdone _, fun _ => hdone _, fun _ _ _ => hdone _, fun _ _ _ => hdone _,
      hdone _, fun depth w l v _ _ hexec hook hhook => ?_⟩
    cases hexec
    exact absurd hhook List.not_mem_nil

def fetched (name : String) (w : World Sample) : World Sample :=
  ((doors.perform 2 (.get ⟨0⟩ (.named name) ∅)).exec w).2

theorem fetches_cons {name : String} {w v : World Sample} {l : List Request}
    (hok : ((doors.perform 2 (.get ⟨0⟩ (.named name) ∅)).exec w).1.any Except.isOk = true)
    (h : doors.Fetches ⟨0⟩ l (fetched name w) v) :
    doors.Fetches ⟨0⟩ ((.named name, ∅) :: l) w v := by
  rcases hexec : (doors.perform 2 (.get ⟨0⟩ (.named name) ∅)).exec w with ⟨_ | e | x, u⟩
  · rw [hexec] at hok
    cases hok
  · rw [hexec] at hok
    cases hok
  · have hfetched : fetched name w = u := congrArg Prod.snd hexec
    exact .cons hexec (hfetched ▸ h)

def doorThenLock : World Sample := fetched "Lock" (fetched "Door" validatedDoors)

/-- The lock was asked for, before its door and after it. -/
def lockThenDoor : World Sample := fetched "Lock" (fetched "Door" (fetched "Lock" validatedDoors))

/-- Two orders of the same requests fill the same slots and lead to the same teardowns. -/
theorem doors_fill :
    doorThenLock.keepers ⟨0⟩ = lockThenDoor.keepers ⟨0⟩ ∧
      ∃ a u a' u', (doors.perform 1 (.destroy ⟨0⟩)).exec doorThenLock = (some a, u) ∧
        (doors.perform 1 (.destroy ⟨0⟩)).exec lockThenDoor = (some a', u') ∧
        u.teardowns ⟨0⟩ = doorThenLock.keepers ⟨0⟩ ∧
        u'.teardowns ⟨0⟩ = doorThenLock.keepers ⟨0⟩ := by
  have hvisits : doors.Visits blank validatedDoors := Codebase.visits_of_run rfl
  have hdeclares : validatedDoors.Declares (.exactly _ _)
      { constructor := fun type =>
          if type = .named "Door" then .inject [.object (.named "Lock")] else .noArgs
        points := fun _ => {} } ⟨0⟩ :=
    fun _ _ _ => ⟨fun _ h => h, fun _ h => h⟩
  -- Nothing is kept when the two series begin.
  have hempty : ∀ p, validatedDoors.Holds ⟨0⟩ p → validatedDoors.kept.get? p.id = none :=
    fun _ _ => rfl
  obtain ⟨-, hsame, hanswered⟩ := Codebase.fetches_fill (code_describes _ _) hvisits rfl hdeclares
    (fun p _ => doors_spare _ _ p.definition) hempty
  have hdoor : doors.Fetches ⟨0⟩ [(.named "Door", ∅), (.named "Lock", ∅)] validatedDoors
      doorThenLock :=
    fetches_cons (by decide +kernel) (fetches_cons (by decide +kernel) (.nil _))
  have hlock : doors.Fetches ⟨0⟩ [(.named "Lock", ∅), (.named "Door", ∅), (.named "Lock", ∅)]
      validatedDoors lockThenDoor :=
    fetches_cons (by decide +kernel) (fetches_cons (by decide +kernel)
      (fetches_cons (by decide +kernel) (.nil _)))
  have hdisposing : ∀ p, validatedDoors.Holds ⟨0⟩ p → ∀ x,
      (doors.hostAt 0).DisposingKeeps validatedDoors.LeadsTo (fun _ => False) p.definition x := by
    -- Disposing of the doors and locks runs no call.
    intro p _ x
    have hdone : ∀ {α : Type} {Q : α → Prop} (a : α), Q a →
        (doors.hostAt 0).Keeps validatedDoors.LeadsTo (fun _ => False) (.done a) Q :=
      fun _ ha _ hu => .pure hu ha
    exact ⟨fun _ _ _ => hdone _ True.intro,
      fun _ _ _ => hdone _ fun _ h => absurd h List.not_mem_nil, fun _ _ => hdone _ True.intro⟩
  obtain ⟨a, u, hexec⟩ := hanswered 0 hdisposing _ _ hdoor
  obtain ⟨a', u', hexec'⟩ := hanswered 0 hdisposing _ _ hlock
  obtain ⟨hkeepers, hteardowns⟩ := hsame _ _ _ _ hdoor hlock fun p => by
    unfold Registry.Asked
    simp only [List.mem_cons, List.not_mem_nil, or_false, exists_eq_or_imp, exists_eq_left]
    rw [or_left_comm, or_self]
  obtain ⟨hu, hu'⟩ := hteardowns 1 1 a a' u u' hexec hexec'
  exact ⟨hkeepers, a, u, a', u', hexec, hexec', hu, hu'⟩

end Sample

end Wiring
