import Wiring.Proofs.Disposal
import Wiring.Proofs.Invariance

/-!
# The order of a teardown

The providers of a container are numbered in order of registration. A teardown visits those for
which a value is kept, the latest registration first, and each of them once, whatever client code
does meanwhile.

Main statements: `Course.teardowns_sweep`, `Host.destroy_teardowns`.
-/

namespace Wiring

variable {C : Client} {D : Outline} {w v : World C} {c : ContainerId}

/-! ## Providers are numbered -/

/-- The providers of a registry have ascending numbers. -/
def Registry.Ascending (r : Registry C) : Prop :=
  r.providers.Pairwise fun p q => p.id.number < q.id.number

/-- Ascending identities are distinct. -/
theorem Registry.Ascending.nodup {r : Registry C} (h : r.Ascending) :
    (r.providers.map (·.id)).Nodup := by
  refine List.Pairwise.map _ (fun p q hpq hid => ?_) h
  rw [hid] at hpq
  exact Nat.lt_irrefl _ hpq

namespace World

def Numbered (w : World C) : Prop := ∀ c, (w.container c).registry.Ascending

namespace Numbered

theorem congr (hw : w.Numbered)
    (h : ∀ c, (v.container c).registry.providers = (w.container c).registry.providers) :
    v.Numbered := by
  intro c
  unfold Registry.Ascending
  rw [h]
  exact hw c

theorem of_eq (hw : w.Numbered) (h : v.containers = w.containers) : v.Numbered := by
  refine hw.congr fun c => ?_
  rw [container_congr h]

/-- A new provider has a greater number than all others. -/
theorem withProvider (hw : w.Numbered) (hcoherent : w.Coherent) (c : ContainerId)
    (d : Definition C) : (w.withProvider c d).Numbered := by
  refine forall_container_withContainer (P := fun _ k => k.registry.Ascending) ?_ fun e _ => hw e
  refine List.pairwise_append.2 ⟨hw c, List.pairwise_singleton _ _, fun p hp q hq => ?_⟩
  obtain rfl := List.mem_singleton.1 hq
  exact hcoherent.provider_lt c p hp

/-- Removing providers keeps the numbering of the rest. -/
theorem removeWhere (hw : w.Numbered) (c : ContainerId) (bad : Provider C → Bool) :
    (w.withRegistry c ((w.container c).registry.removeWhere bad)).Numbered :=
  forall_container_withContainer (P := fun _ k => k.registry.Ascending) ((hw c).filter _)
    fun e _ => hw e

theorem quiet (hw : w.Numbered) (hcoherent : w.Coherent) (h : Quiet w v) : v.Numbered := by
  cases h with
  | note | invoked | client | remark | unmatched | reused => exact hw.of_eq rfl
  | create hfresh => exact hw.congr fun c => by rw [container_created hfresh]
  | register c d size =>
    exact Numbered.withProvider (w := w.enter _) (hw.of_eq rfl) (hcoherent.event c _) c d
  | unregister c type qualifiers => exact (hw.removeWhere c _).of_eq rfl
  | remember c r _ hproviders => exact hw.congr (w.providers_withContainer hproviders)

/-- Along a course, providers stay numbered. -/
theorem invariant (D : Outline) : Invariant D (Numbered : World C → Prop) where
  -- Only registrations number, and quiet steps include them.
  quiet hcoherent hw h := hw.quiet hcoherent h
  begun _ hw _ := hw.of_eq rfl
  ended _ hw _ := hw.of_eq rfl
  completed {w _ p} x _ hw _ _ := hw.of_eq (w.containers_completed p x)
  departed _ hw := hw.of_eq rfl
  rejoined _ _ _ hv _ := hv.of_eq rfl
  validating n _ hw _ _ := hw.congr (providers_advanced _ _ _ _)
  accepted n _ hw _ _ := hw.congr (providers_accepted _ _ n)
  rejected type f _ hw _ := hw.congr (providers_rejected _ _ type _)
  destroyed _ hw _ _ := hw.congr (providers_withPhase _ _ _)
  closed n previous _ hw _ _ _ := hw.congr (providers_closed _ _ n previous)
  releasing _ hw _ _ _ := hw.of_eq rfl
  disposed x o _ hw _ _ _ := by
    rcases o with e | _
    · exact hw.of_eq rfl
    · exact hw.of_eq rfl

end Numbered

theorem blank_numbered (s : C.State) : (World.blank (C := C) s).Numbered :=
  fun _ => List.Pairwise.nil

end World

/-- Identities ascend in every visited world. -/
theorem Codebase.Visits.ascending {code : Codebase C} {s : C.State}
    (h : code.Visits (.blank s) w) (c : ContainerId) : (w.container c).registry.Ascending := by
  have hblank := World.blank_coherent (C := C) s
  exact (h.course code.describes_any hblank).invariant (World.Numbered.invariant _) hblank
    (World.blank_numbered s) c

/-! ## The order of visits -/

/-- The provider among some whose teardown an entry says has run. -/
def Entry.teardown? (S : List ProviderId) : Entry C → Option ProviderId
  | .milestone (.disposed x _) => if x ∈ S then some x else none
  | _ => none

/-- The providers among some whose teardowns have run according to a journal, the latest first. -/
def teardownsIn (S : List ProviderId) (j : List (Entry C)) : List ProviderId :=
  j.filterMap (Entry.teardown? S)

namespace World

def providerIds (w : World C) (c : ContainerId) : List ProviderId :=
  (w.container c).registry.providers.map (·.id)

/-- The providers of a container whose teardowns have run, the latest first. -/
def teardowns (w : World C) (c : ContainerId) : List ProviderId :=
  teardownsIn (w.providerIds c) w.journal

/-- The providers of a container for which a value is kept, in order of registration. -/
def keepers (w : World C) (c : ContainerId) : List ProviderId :=
  (w.providerIds c).filter fun x => (w.kept.get? x).isSome

/-- The identities of a container are those it owns. -/
theorem mem_providerIds_iff {x : ProviderId} : x ∈ w.providerIds c ↔ w.Owns c x := by
  unfold providerIds Owns Holds
  simp

/-- Before a container is torn down, no teardown of its providers has run. -/
theorem Coherent.teardowns_eq_nil (hw : w.Coherent) (hphase : (w.container c).phase ≠ .destroyed) :
    w.teardowns c = [] := by
  refine List.filterMap_eq_nil_iff.2 fun e he => ?_
  unfold Entry.teardown?
  split
  · next x y =>
    refine if_neg fun hx => ?_
    obtain ⟨p, hp, rfl⟩ := mem_providerIds_iff.1 hx
    have hmem : y ∈ w.disposals p.id :=
      List.mem_filterMap.2 ⟨.disposed p.id y, List.mem_filterMap.2 ⟨_, he, if_pos rfl⟩, rfl⟩
    rw [((hw.account c p hp).unreleased hphase).2] at hmem
    exact List.not_mem_nil hmem
  · rfl

end World

theorem teardownsIn_cons {S : List ProviderId} {e : Entry C} (he : e.teardown? S = none)
    (j : List (Entry C)) : teardownsIn S (e :: j) = teardownsIn S j := List.filterMap_cons_none he

theorem Entry.teardown?_eq_none {S : List ProviderId} {e : Entry C}
    (h : ∀ x ∈ S, e.about? x = none) : e.teardown? S = none := by
  unfold teardown?
  split
  · next x y =>
    refine if_neg fun hx => ?_
    have habout : some _ = none := (if_pos rfl).symm.trans (h x hx)
    cases habout
  · rfl

/-- What concerns none of the swept providers adds nothing to their teardowns. -/
theorem teardownsIn_foreign {S : List ProviderId} (hS : ∀ x ∈ S, w.Owns c x)
    (h : World.Writes (Entry.IsForeign c (w.Owns c)) w v) :
    teardownsIn S v.journal = teardownsIn S w.journal := by
  obtain ⟨new, hnew, hall⟩ := h
  have hnil : teardownsIn S new = [] := List.filterMap_eq_nil_iff.2 fun e he =>
    Entry.teardown?_eq_none fun x hx => (hall e he).1 x (hS x hx)
  unfold teardownsIn at hnil ⊢
  rw [hnew, List.filterMap_append, hnil]
  rfl

/-- The visit of one provider is written once, and nothing else is written of the container's
providers. -/
theorem teardownsIn_visit {p : Provider C} {x : Value C} {u : World C} (o : Attempted Unit)
    (hw : w.Coherent) (hp : w.Holds c p) (hphase : (w.container c).phase = .destroyed)
    (hx : w.kept.get? p.id = some x) (hin : Course D .work true (w.releasing p x) u)
    {S : List ProviderId} (hS : ∀ y, y ∈ S ↔ w.Owns c y) :
    teardownsIn S (u.disposed c p x o).journal = p.id :: teardownsIn S w.journal := by
  have hforeign : World.Writes (Entry.IsForeign c (w.Owns c)) (w.releasing p x) u :=
    hin.foreign (hw.releasing hp hphase hx) (c := c) hphase True.intro
  have hself : (Entry.milestone (C := C) (.disposed p.id x)).teardown? S = some p.id :=
    if_pos ((hS p.id).2 ⟨p, hp, rfl⟩)
  -- What the disposal itself does concerns nobody held here.
  have hbefore : teardownsIn S u.journal = teardownsIn S w.journal :=
    (teardownsIn_foreign (w := w.releasing p x) (c := c) (fun y hy => (hS y).1 hy)
      hforeign).trans (teardownsIn_cons rfl _)
  have hmark : teardownsIn S (u.enter (.milestone (.disposed p.id x))).journal =
      p.id :: teardownsIn S w.journal :=
    (List.filterMap_cons_some hself).trans (congrArg _ hbefore)
  rcases o with e | _
  · exact (teardownsIn_cons rfl _).trans hmark
  · exact hmark

/-- The visit of one provider leaves alone what is kept for the others. -/
theorem kept_visit {p q : Provider C} {x : Value C} {u : World C} (o : Attempted Unit)
    (hw : w.Coherent) (hp : w.Holds c p) (hphase : (w.container c).phase = .destroyed)
    (hx : w.kept.get? p.id = some x) (hin : Course D .work true (w.releasing p x) u)
    (hq : w.Holds c q) (hne : q.id ≠ p.id) :
    (u.disposed c p x o).kept.get? q.id = w.kept.get? q.id := by
  have hreleased := hw.releasing hp hphase hx
  have hforeign := hin.foreign hreleased (c := c) hphase True.intro
  obtain ⟨_, hholds⟩ := World.Frame.of_releasing hphase hin.frame
  have hhistory : u.history q.id = (w.releasing p x).history q.id :=
    hforeign.history fun e he => he.1 q.id ⟨q, hq, rfl⟩
  rw [World.kept_disposed, hreleased.kept_eq (hin.coherent hreleased) hq (hholds q hq) hhistory]
  exact Table.get?_erase_of_ne _ hne

/-- A visit of providers disposes of what is kept for them, in turn. -/
theorem Course.teardowns_sweep {l : List (Provider C)} {r r' : Host.TeardownResult}
    (h : Course D (.sweep c l r r') true w v) (hw : w.Coherent)
    (hphase : (w.container c).phase = .destroyed) (hl : ∀ p ∈ l, w.Holds c p)
    (hnodup : (l.map (·.id)).Nodup) {S : List ProviderId} (hS : ∀ x, x ∈ S ↔ w.Owns c x) :
    teardownsIn S v.journal =
      ((l.map (·.id)).filter fun x => (w.kept.get? x).isSome).reverse ++
        teardownsIn S w.journal := by
  induction l generalizing w r with
  | nil =>
    cases h
    rfl
  | cons p rest ih =>
    have hp := hl p List.mem_cons_self
    have hl' : ∀ q ∈ rest, w.Holds c q := fun q hq => hl q (List.mem_cons_of_mem _ hq)
    obtain ⟨hnotin, hnodup'⟩ := List.nodup_cons.1 hnodup
    cases h with
    | sweepPass _ _ hx hrest =>
      rw [ih hrest hw hphase hl' hnodup' hS, List.map_cons,
        List.filter_cons_of_neg (by rw [hx]; exact Bool.false_ne_true)]
    | @sweepVisit _ _ u _ _ _ x o _ _ _ _ _ hx hin hrest =>
      have hframe := hin.frame.trans (.disposed u c p x o)
      obtain ⟨hphaseu, hholdsu⟩ := World.Frame.of_releasing hphase hin.frame
      obtain ⟨hphase', hholds'⟩ := World.Frame.of_releasing hphase hframe
      have hu := (hin.coherent (hw.releasing hp hphase hx)).disposed x o (hholdsu p hp) hphaseu
      -- The providers are the same, and of the others the same values are kept.
      have howns : ∀ y, y ∈ S ↔ (u.disposed c p x o).Owns c y := by
        have hne : ((w.releasing p x).container c).phase ≠ .unconfigured := by
          rw [show ((w.releasing p x).container c).phase = .destroyed from hphase]
          decide
        have hproviders := (hframe.container c).providers hne
        intro y
        unfold World.Owns World.Holds
        rw [hproviders]
        exact hS y
      have hfilter : (rest.map (·.id)).filter (fun y =>
          ((u.disposed c p x o).kept.get? y).isSome) =
          (rest.map (·.id)).filter fun y => (w.kept.get? y).isSome := by
        refine List.filter_congr fun y hy => ?_
        obtain ⟨q, hq, rfl⟩ := List.mem_map.1 hy
        have hne : q.id ≠ p.id := fun hid => hnotin (List.mem_map.2 ⟨q, hq, hid⟩)
        rw [kept_visit o hw hp hphase hx hin (hl' q hq) hne]
      rw [ih hrest hu hphase' (fun q hq => hholds' q (hl' q hq)) hnodup' howns,
        teardownsIn_visit o hw hp hphase hx hin hS, hfilter, List.map_cons,
        List.filter_cons_of_pos (by rw [hx]; rfl), List.reverse_cons, List.append_assoc]
      rfl

/-- The teardown of a container disposes of what is kept for its providers, the latest registration
first, and of nothing else. -/
theorem Host.destroy_teardowns {h : Host C} (hl : h.Lawful D) (hw : w.Coherent)
    (hnumbered : w.Numbered) (hc : w.Has c) (hphase : (w.container c).phase ≠ .destroyed)
    {a : Attempted Unit} (hexec : (destroy h c).run.exec w = (some a, v)) :
    v.teardowns c = w.keepers c ++ w.teardowns c := by
  have hdestroyed := World.phase_withPhase w c .destroyed
  have hproviders : ((w.withPhase c .destroyed).container c).registry.providers =
      (w.container c).registry.providers := w.providers_withContainer rfl c
  have hstart := hw.withPhase_destroyed hc
  have hheld : ∀ p ∈ (w.container c).registry.providers.reverse,
      (w.withPhase c .destroyed).Holds c p := by
    intro p hp
    unfold World.Holds
    rw [hproviders]
    exact List.mem_reverse.1 hp
  have hends := disposeAll_ends hl (w.container c).registry.providers.reverse {} hstart hheld
    hdestroyed
  rw [exec_destroy h hc hphase fun r u hsweep => ?_] at hexec
  · rcases hsweep : (disposeAll h c (w.container c).registry.providers.reverse {}).exec
      (w.withPhase c .destroyed) with ⟨_ | r, u⟩
    · rw [hsweep] at hexec
      cases hexec
    -- The sweep visits the identities in reverse, so the newest teardown is on top.
    · rw [hsweep] at hexec hends
      obtain rfl : u.closed c r.count (w.container c).phase = v := (Prod.mk.inj hexec).2
      have hkeeps := hends.frame.container c
      have hu : (u.container c).registry.providers = (w.container c).registry.providers :=
        (hkeeps.providers (by rw [hdestroyed]; decide)).trans hproviders
      have hids : (u.closed c r.count (w.container c).phase).providerIds c = w.providerIds c := by
        unfold World.providerIds
        rw [World.providers_closed, hu]
      have hnodup : ((w.container c).registry.providers.reverse.map (·.id)).Nodup := by
        rw [List.map_reverse]
        exact List.pairwise_reverse.2 ((hnumbered c).nodup.imp Ne.symm)
      have hsweep' := hends.teardowns_sweep hstart hdestroyed hheld hnodup
        (S := w.providerIds c) fun x => by
          rw [World.mem_providerIds_iff]
          unfold World.Owns World.Holds
          rw [hproviders]
      unfold World.teardowns
      rw [hids]
      refine (teardownsIn_cons rfl _).trans (hsweep'.trans ?_)
      rw [List.map_reverse, List.filter_reverse, List.reverse_reverse]
      rfl
  · rw [hsweep] at hends
    exact hends.frame.has c (World.has_withContainer _ hc)

end Wiring
