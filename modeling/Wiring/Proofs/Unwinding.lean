import Mathlib.Data.List.Basic
import Mathlib.Logic.Relation
import Wiring.Proofs.Invocation
import Wiring.Proofs.Filling
import Wiring.Proofs.Validity

/-!
# What a teardown does, visit by visit

The visits of a teardown are settled when it begins: one for each value that is kept by then, the
latest registration first. A visit empties the slot, runs the teardown that the value's source
brings along and then what the registration added, whether the former failed or not. The first
failure is the result, and no failure ends the visits. The relation `Host.Unwinds` says so one visit
after the other, and a teardown is answered exactly as it says.

Main statement: `Codebase.destroy_unwinds`.
-/

namespace Wiring

variable {C : Client} {D : Outline} {α : Type}

/-- The first failure among outcomes in order. -/
def firstFailure : List (Attempted Unit) → Attempted Unit
  | [] => .ok ()
  | .ok () :: rest => firstFailure rest
  | .error e :: _ => .error e

namespace Host

variable {h : Host C} {w u v : World C} {d : Definition C} {x : Value C}

/-! ## One visit -/

/-- The teardown that a value's source brings along: nothing for a value made beforehand or by a
producer without disposing code, else that code, or the hooks of a component. -/
inductive DisposesOwn (h : Host C) (d : Definition C) (x : Value C) (w : World C) :
    Attempted Unit → World C → Prop
  | ready {y : Value C} : d.source = .ready y → h.DisposesOwn d x w (.ok ()) w
  | bare {produce : C.Producer} : d.source = .producer produce none → h.DisposesOwn d x w (.ok ()) w
  | producer {produce : C.Producer} {dispose : C.Disposer} {r : Attempted Unit} {v : World C} :
      d.source = .producer produce (some dispose) →
      h.Invokes (Label.member d.implementation.name "destroy") (h.code.dispose dispose x) w r v →
      h.DisposesOwn d x w r v
  | component {o : C.Object} {lifecycle : Lifecycle C.Object (Routine C Unit)}
      {r : Attempted Unit} {u v : World C} : d.source = .component → x = .object o →
      (h.run (h.code.component d.implementation).lifecycle).exec w = (some lifecycle, u) →
      h.RunsHooks d.implementation o lifecycle.preDestroy u r v → h.DisposesOwn d x w r v
  | mismatch {c : ContainerId} : d.source = .component → x = .container c →
      h.DisposesOwn d x w (.error (.invocation (Label.member d.implementation.name "destroy")
        (.said "type mismatch"))) w

/-- What a registration added to the teardown of its value. -/
inductive DisposesExtra (h : Host C) (d : Definition C) (x : Value C) (w : World C) :
    Attempted Unit → World C → Prop
  | none : d.onDestroy = none → h.DisposesExtra d x w (.ok ()) w
  | some {dispose : C.Disposer} {r : Attempted Unit} {v : World C} : d.onDestroy = some dispose →
      h.Invokes (Label.member d.implementation.name "on_destroy") (h.code.dispose dispose x) w r v →
      h.DisposesExtra d x w r v

/-- The teardown by the source, read as a relation. -/
theorem exec_disposeBySource_iff {r : Attempted Unit} :
    (disposeBySource h d x).run.exec w = (some r, v) ↔ h.DisposesOwn d x w r v := by
  unfold disposeBySource
  constructor
  · intro hexec
    -- The sources are told apart as the definition does; a component that holds a container instead
    -- of an object is the one mismatch.
    rcases hsource : d.source with y | ⟨produce, _ | dispose⟩ | _ <;> rw [hsource] at hexec
    · cases hexec
      exact .ready hsource
    · cases hexec
      exact .bare hsource
    · exact .producer hsource (exec_invoke_iff.1 hexec)
    · rcases x with c | o
      · cases hexec
        exact .mismatch hsource rfl
      · obtain ⟨lifecycle, u, hrun, hhooks⟩ := exec_preDestroy_iff.1 hexec
        exact .component hsource rfl hrun hhooks
  · intro hown
    -- Each kind of teardown fixes the source, so the definition computes to that branch.
    cases hown with
    | ready hsource =>
      rw [hsource]
      rfl
    | bare hsource =>
      rw [hsource]
      rfl
    | producer hsource hinvokes =>
      rw [hsource]
      exact exec_invoke_iff.2 hinvokes
    | component hsource hx hrun hhooks =>
      rw [hsource, hx]
      exact exec_preDestroy_iff.2 ⟨_, _, hrun, hhooks⟩
    | mismatch hsource hx =>
      rw [hsource, hx]
      rfl

theorem exec_settle_iff {r r' : Attempted α} :
    (settle r : Attempt C α).run.exec w = (some r', v) ↔ r' = r ∧ v = w := by
  constructor
  · intro hexec
    cases hexec
    exact ⟨rfl, rfl⟩
  · rintro ⟨rfl, rfl⟩
    rfl

/-- The failure of the first outcome counts, and else the second one. -/
theorem exec_settle_both_iff {own extra r : Attempted Unit} :
    (settle own >>= fun _ => settle extra : Attempt C Unit).run.exec w = (some r, v) ↔
      r = firstFailure [own, extra] ∧ v = w := by
  rcases own with e | _
  · exact exec_settle_iff
  · rcases extra with e | _
    · exact exec_settle_iff
    · exact exec_settle_iff

/-- Both parts of a teardown run, and the failure of the first one counts. -/
theorem exec_disposeOf_iff {r : Attempted Unit} :
    (disposeOf h d x).run.exec w = (some r, v) ↔
      ∃ own u extra, h.DisposesOwn d x w own u ∧ h.DisposesExtra d x u extra v ∧
        r = firstFailure [own, extra] := by
  unfold disposeOf
  rw [exec_bind_resultOf_iff]
  constructor
  · rintro ⟨own, u, hown, hrest⟩
    have hown := exec_disposeBySource_iff.1 hown
    -- Without a second teardown the first one's outcome is the answer.
    rcases hdispose : d.onDestroy with _ | dispose <;> rw [hdispose] at hrest
    · obtain ⟨rfl, rfl⟩ := exec_settle_iff.1 hrest
      refine ⟨_, _, .ok (), hown, .none hdispose, ?_⟩
      rcases r with e | _ <;> rfl
    -- With one, it runs whether the first failed or not, and the first failure of the two is
    -- answered.
    · obtain ⟨extra, u', hextra, hend⟩ := exec_bind_resultOf_iff.1 hrest
      obtain ⟨rfl, rfl⟩ := exec_settle_both_iff.1 hend
      exact ⟨own, u, extra, hown, .some hdispose (exec_invoke_iff.1 hextra), rfl⟩
  · rintro ⟨own, u, extra, hown, hextra, rfl⟩
    refine ⟨own, u, exec_disposeBySource_iff.2 hown, ?_⟩
    cases hextra with
    | none hdispose =>
      rw [hdispose]
      rcases own with e | _ <;> rfl
    | some hdispose hinvokes =>
      rw [hdispose]
      exact exec_bind_resultOf_iff.2
        ⟨extra, _, exec_invoke_iff.2 hinvokes, exec_settle_both_iff.2 ⟨rfl, rfl⟩⟩

/-! ## All visits -/

/-- Kept values are torn down in turn, each after its slot was emptied: the teardown of its source
runs first, and what the registration added runs in any case. -/
inductive Unwinds (h : Host C) (c : ContainerId) :
    List (Provider C × Value C) → World C → List (Attempted Unit) → World C → Prop
  | nil (w : World C) : Unwinds h c [] w [] w
  | cons {p : Provider C} {x : Value C} {rest : List (Provider C × Value C)}
      {own extra : Attempted Unit} {outcomes : List (Attempted Unit)} {w u u' v : World C} :
      w.kept.get? p.id = some x →
      h.DisposesOwn p.definition x (w.releasing p x) own u →
      h.DisposesExtra p.definition x u extra u' →
      Unwinds h c rest (u'.disposed c p x (firstFailure [own, extra])) outcomes v →
      Unwinds h c ((p, x) :: rest) w (firstFailure [own, extra] :: outcomes) v

/-- What visits with these outcomes come to. -/
theorem visited_all (outcomes : List (Attempted Unit)) (r : TeardownResult) :
    outcomes.foldl TeardownResult.visited r =
      { count := r.count + outcomes.length
        failure := r.failure.or (match firstFailure outcomes with
          | .ok () => none
          | .error e => some e) } := by
  -- The result is generalized: what has already failed takes precedence over what fails later.
  induction outcomes generalizing r with
  | nil => simp [firstFailure]
  | cons outcome rest ih =>
    rw [List.foldl_cons, ih]
    rcases outcome with e | _
    · rcases r with ⟨count, _ | e'⟩ <;>
        simp [TeardownResult.visited, firstFailure, Nat.add_assoc, Nat.add_comm 1]
    · simp [TeardownResult.visited, firstFailure, Nat.add_assoc, Nat.add_comm 1]

end Host

namespace World

/-- The providers among some for which a value is kept, with it. -/
def keptFor (w : World C) (l : List (Provider C)) : List (Provider C × Value C) :=
  l.filterMap fun p => (w.kept.get? p.id).map fun x => (p, x)

/-- The kept values of a container with their providers, in order of registration. -/
def cached (w : World C) (c : ContainerId) : List (Provider C × Value C) :=
  w.keptFor (w.container c).registry.providers

variable {w v : World C} {l : List (Provider C)} {p : Provider C} {x : Value C}

/-- The filled slots of a list of providers. -/
theorem mem_keptFor : (p, x) ∈ w.keptFor l ↔ p ∈ l ∧ w.kept.get? p.id = some x := by
  unfold keptFor
  rw [List.mem_filterMap]
  constructor
  · rintro ⟨q, hq, hx⟩
    obtain ⟨y, hy, heq⟩ := Option.map_eq_some_iff.1 hx
    cases heq
    exact ⟨hq, hy⟩
  · rintro ⟨hp, hx⟩
    exact ⟨p, hp, by rw [hx]; rfl⟩

/-- A provider with an empty slot is passed over. -/
theorem keptFor_cons_none (h : w.kept.get? p.id = none) : w.keptFor (p :: l) = w.keptFor l := by
  unfold keptFor
  rw [List.filterMap_cons_none]
  rw [h]
  rfl

/-- A filled slot comes first if its provider does. -/
theorem keptFor_cons_some (h : w.kept.get? p.id = some x) :
    w.keptFor (p :: l) = (p, x) :: w.keptFor l := by
  unfold keptFor
  rw [List.filterMap_cons_some]
  rw [h]
  rfl

/-- The filled slots go by the slots of the listed providers alone. -/
theorem keptFor_congr (h : ∀ q ∈ l, v.kept.get? q.id = w.kept.get? q.id) :
    v.keptFor l = w.keptFor l := by
  unfold keptFor
  refine List.filterMap_congr fun q hq => ?_
  rw [h q hq]

/-- The filled slots of the reversed list come in reverse. -/
theorem keptFor_reverse (w : World C) (l : List (Provider C)) :
    w.keptFor l.reverse = (w.keptFor l).reverse := List.filterMap_reverse

/-- Each provider is visited for one value at most. -/
theorem nodup_cached {c : ContainerId} (h : (w.container c).registry.Ascending) :
    ((w.cached c).map (·.1.id)).Nodup := by
  -- The filled slots are those of some of the providers, in the providers' order.
  have hsublist : ((w.cached c).map (·.1)).Sublist (w.container c).registry.providers := by
    unfold cached keptFor
    generalize (w.container c).registry.providers = l
    induction l with
    | nil => exact List.Sublist.slnil
    | cons q rest ih =>
      rcases hq : w.kept.get? q.id with _ | y
      · simpa [hq] using ih.cons q
      · simpa [hq] using ih.cons_cons q
  have hids := (hsublist.map (·.id)).nodup h.nodup
  rwa [List.map_map] at hids

end World

namespace Host

variable {h : Host C} {w u v : World C} {c : ContainerId} {l : List (Provider C)}

/-- A visit leaves the container torn down, with the same providers, and leaves alone what is kept
for the others. -/
theorem after_visit (hl : h.Lawful D) (hw : w.Coherent) {p : Provider C} {x : Value C}
    {o : Attempted Unit} (hp : w.Holds c p) (hphase : (w.container c).phase = .destroyed)
    (hx : w.kept.get? p.id = some x)
    (hexec : (disposeOf h p.definition x).run.exec (w.releasing p x) = (some o, u)) :
    (u.disposed c p x o).Coherent ∧ ((u.disposed c p x o).container c).phase = .destroyed ∧
      (∀ q, w.Holds c q → (u.disposed c p x o).Holds c q) ∧
      ∀ q, w.Holds c q → q.id ≠ p.id →
        (u.disposed c p x o).kept.get? q.id = w.kept.get? q.id := by
  have hreleased := hw.releasing hp hphase hx
  have hcourse := ((disposeOf_follows hl p.definition x (w.releasing p x)).ends hreleased hexec).1
  obtain ⟨hphaseu, hholdsu⟩ := World.Frame.of_releasing hphase hcourse.frame
  obtain ⟨hphasev, hholdsv⟩ := World.Frame.of_releasing hphase
    (hcourse.frame.trans (.disposed u c p x o))
  exact ⟨(hcourse.coherent hreleased).disposed x o (hholdsu p hp) hphaseu, hphasev, hholdsv,
    fun q hq hne => kept_visit o hw hp hphase hx hcourse hq hne⟩

/-- Visiting providers tears down what was kept for them when the first visit began. -/
theorem exec_disposeAll_iff (hl : h.Lawful D) (hw : w.Coherent)
    (hphase : (w.container c).phase = .destroyed) (hheld : ∀ p ∈ l, w.Holds c p)
    (hnodup : (l.map (·.id)).Nodup) {r r' : TeardownResult} :
    (disposeAll h c l r).exec w = (some r', v) ↔
      ∃ outcomes, h.Unwinds c (w.keptFor l) w outcomes v ∧
        r' = outcomes.foldl TeardownResult.visited r := by
  induction l generalizing w r with
  | nil =>
    constructor
    · intro hexec
      cases hexec
      exact ⟨[], .nil _, rfl⟩
    · rintro ⟨outcomes, hunwinds, rfl⟩
      cases hunwinds
      rfl
  | cons p rest ih =>
    have hp : w.Holds c p := hheld p List.mem_cons_self
    have hheld' : ∀ q ∈ rest, w.Holds c q := fun q hq => hheld q (List.mem_cons_of_mem _ hq)
    obtain ⟨hnotin, hnodup'⟩ := List.nodup_cons.1 hnodup
    rcases hx : w.kept.get? p.id with _ | x
    · rw [exec_disposeAll_none hx, World.keptFor_cons_none hx]
      exact ih hw hphase hheld' hnodup'
    rw [exec_disposeAll_some hx, World.keptFor_cons_some hx]
    -- What the remaining visits find is what was kept in the beginning.
    have hrest : ∀ {o u}, (disposeOf h p.definition x).run.exec (w.releasing p x) = (some o, u) →
        ((disposeAll h c rest (r.visited o)).exec (u.disposed c p x o) = (some r', v) ↔
          ∃ outcomes, h.Unwinds c (w.keptFor rest) (u.disposed c p x o) outcomes v ∧
            r' = outcomes.foldl TeardownResult.visited (r.visited o)) := by
      intro o u hexec
      obtain ⟨hcoherent, hphase', hholds, hkept⟩ := after_visit hl hw hp hphase hx hexec
      have hsame : (u.disposed c p x o).keptFor rest = w.keptFor rest := by
        refine World.keptFor_congr fun q hq => hkept q (hheld' q hq) fun hid => ?_
        exact hnotin (List.mem_map.2 ⟨q, hq, hid⟩)
      rw [← hsame]
      exact ih hcoherent hphase' (fun q hq => hholds q (hheld' q hq)) hnodup'
    constructor
    · intro hexec
      rcases hdispose : (disposeOf h p.definition x).run.exec (w.releasing p x) with ⟨_ | o, u⟩
      · rw [hdispose] at hexec
        cases hexec
      rw [hdispose] at hexec
      obtain ⟨outcomes, hunwinds, rfl⟩ := (hrest hdispose).1 hexec
      obtain ⟨own, u', extra, hown, hextra, rfl⟩ := exec_disposeOf_iff.1 hdispose
      exact ⟨_, .cons hx hown hextra hunwinds, rfl⟩
    · rintro ⟨outcomes, hunwinds, rfl⟩
      cases hunwinds with
      | cons _ hown hextra hunwinds =>
        have hdispose := exec_disposeOf_iff.2 ⟨_, _, _, hown, hextra, rfl⟩
        rw [hdispose]
        exact (hrest hdispose).2 ⟨_, hunwinds, rfl⟩

/-- The first teardown of a container is answered exactly as its visits come out. -/
theorem exec_destroy_iff (hl : h.Lawful D) (hw : w.Coherent)
    (hnumbered : (w.container c).registry.Ascending) (hc : w.Has c)
    (hphase : (w.container c).phase ≠ .destroyed) {r : Attempted Unit} :
    (destroy h c).run.exec w = (some r, v) ↔
      ∃ outcomes u, h.Unwinds c (w.cached c).reverse (w.withPhase c .destroyed) outcomes u ∧
        r = firstFailure outcomes ∧
        v = u.closed c outcomes.length (w.container c).phase := by
  -- The sweep starts from the container just marked destroyed: it holds what it held before.
  have hdestroyed := World.phase_withPhase w c .destroyed
  have hstart := hw.withPhase_destroyed hc
  have hproviders : ((w.withPhase c .destroyed).container c).registry.providers =
      (w.container c).registry.providers := w.providers_withContainer rfl c
  have hheld : ∀ p ∈ (w.container c).registry.providers.reverse,
      (w.withPhase c .destroyed).Holds c p := by
    intro p hp
    unfold World.Holds
    rw [hproviders]
    exact List.mem_reverse.1 hp
  have hnodup : ((w.container c).registry.providers.reverse.map (·.id)).Nodup := by
    rw [List.map_reverse]
    exact List.pairwise_reverse.2 (hnumbered.nodup.imp Ne.symm)
  have hends := disposeAll_ends hl (w.container c).registry.providers.reverse {} hstart hheld
    hdestroyed
  -- What the sweep does is characterised apart, from that world.
  have hsweep : ∀ {r' u}, (disposeAll h c (w.container c).registry.providers.reverse {}).exec
      (w.withPhase c .destroyed) = (some r', u) ↔
        ∃ outcomes, h.Unwinds c (w.cached c).reverse (w.withPhase c .destroyed) outcomes u ∧
          r' = outcomes.foldl TeardownResult.visited {} := by
    intro r' u
    unfold World.cached
    rw [← World.keptFor_reverse]
    exact exec_disposeAll_iff hl hstart hdestroyed hheld hnodup
  -- The closing event carries the number of visits and the phase that was left.
  rw [exec_destroy h hc hphase fun r' u hexec => ?_]
  · constructor
    · intro hexec
      rcases hvisits : (disposeAll h c (w.container c).registry.providers.reverse {}).exec
          (w.withPhase c .destroyed) with ⟨_ | r', u⟩
      · rw [hvisits] at hexec
        cases hexec
      rw [hvisits] at hexec
      obtain ⟨outcomes, hunwinds, rfl⟩ := hsweep.1 hvisits
      -- The sweep's accumulated result is read off the outcomes at once.
      rw [visited_all] at hexec
      rcases hfirst : firstFailure outcomes with e | _ <;> rw [hfirst] at hexec <;> cases hexec
      · exact ⟨outcomes, u, hunwinds, hfirst.symm, by simp⟩
      · exact ⟨outcomes, u, hunwinds, hfirst.symm, by simp⟩
    · rintro ⟨outcomes, u, hunwinds, rfl, rfl⟩
      rw [hsweep.2 ⟨outcomes, hunwinds, rfl⟩, visited_all]
      rcases firstFailure outcomes with e | _
      · simp [closing]
      · simp [closing]
  · rw [hexec] at hends
    exact hends.frame.has c (World.has_withContainer _ hc)

end Host

/-! ## The order of visits -/

namespace Registry

variable {r : Registry C} {p q : Provider C}

/-- One provider stands before another one exactly if it has the smaller number. -/
theorem Ascending.sublist_iff (h : r.Ascending) :
    List.Sublist [p, q] r.providers ↔
      p ∈ r.providers ∧ q ∈ r.providers ∧ p.id.number < q.id.number := by
  unfold Ascending at h
  generalize r.providers = l at h
  constructor
  · intro hsub
    have hpair := h.sublist hsub
    exact ⟨hsub.subset List.mem_cons_self, hsub.subset (by simp),
      (List.pairwise_cons.1 hpair).1 q List.mem_cons_self⟩
  · rintro ⟨hp, hq, hlt⟩
    induction l with
    | nil => exact absurd hp List.not_mem_nil
    | cons a rest ih =>
      obtain ⟨hfirst, hrest⟩ := List.pairwise_cons.1 h
      rcases List.mem_cons.1 hq with rfl | hq'
      -- The second one comes first, so the first one would have a greater number.
      · rcases List.mem_cons.1 hp with rfl | hp'
        · omega
        · have hgreater := hfirst p hp'
          omega
      · rcases List.mem_cons.1 hp with rfl | hp'
        · exact (List.singleton_sublist.2 hq').cons_cons p
        · exact (ih hrest hp' hq').cons a

/-- If all dependencies are registered before their dependents, so are the indirect ones. -/
theorem Ascending.sublist_of_transGen (h : r.Ascending) {depends : Provider C → Provider C → Prop}
    (hdepends : ∀ p q, depends p q → List.Sublist [q, p] r.providers)
    (hpq : Relation.TransGen depends p q) : List.Sublist [q, p] r.providers := by
  induction hpq with
  | single hpq => exact hdepends _ _ hpq
  | tail _ hstep ih =>
    obtain ⟨-, hp, hlt⟩ := h.sublist_iff.1 ih
    obtain ⟨hq, -, hlt'⟩ := h.sublist_iff.1 (hdepends _ _ hstep)
    exact h.sublist_iff.2 ⟨hq, hp, Nat.lt_trans hlt' hlt⟩

end Registry

/-- Of two kept values, the one whose provider was registered later is visited first. -/
theorem World.sublist_cached_reverse {w : World C} {c : ContainerId} {p q : Provider C}
    {x y : Value C} (h : List.Sublist [q, p] (w.container c).registry.providers)
    (hx : w.kept.get? p.id = some x) (hy : w.kept.get? q.id = some y) :
    List.Sublist [(p, x), (q, y)] (w.cached c).reverse := by
  have hvisits := h.reverse.filterMap fun p => (w.kept.get? p.id).map fun x => (p, x)
  have hpair : [q, p].reverse.filterMap (fun p => (w.kept.get? p.id).map fun x => (p, x)) =
      [(p, x), (q, y)] := by simp [hx, hy]
  rw [hpair] at hvisits
  unfold World.cached
  rwa [← World.keptFor_reverse]

/-! ## Once more -/

/-- Nothing that can be looked at tells two worlds apart. -/
structure World.Same (w v : World C) : Prop where
  containers : ∀ c, v.containers.get? c = w.containers.get? c
  others : v = { w with containers := v.containers }

/-- A container that was torn down is not torn down again. -/
theorem Host.exec_destroy_again {h : Host C} {w : World C} {c : ContainerId} (hc : w.Has c)
    (hphase : (w.container c).phase = .destroyed) :
    ∃ v, (destroy h c).run.exec w = (some (.ok ()), v) ∧ w.Same v := by
  refine ⟨w.withPhase c .destroyed, exec_destroy_destroyed hc hphase, fun d => ?_, rfl⟩
  -- Of the destroyed container only the phase is written again, and it was that already.
  by_cases hd : d = c
  · subst hd
    obtain ⟨k, hk⟩ := hc
    have hself : w.container d = k := by
      unfold World.container
      rw [hk]
      rfl
    rw [hself] at hphase
    unfold World.withPhase World.withContainer
    rw [Table.get?_put_self, hk, hself, ← hphase]
  · unfold World.withPhase World.withContainer
    rw [Table.get?_put_of_ne _ _ hd]

/-! ## The whole teardown -/

/-- When a teardown is answered, no value of the container is kept any more. -/
theorem Host.destroy_empties {h : Host C} (hl : h.Lawful D) {w v : World C} {c : ContainerId}
    (hw : w.Coherent) (hnumbered : (w.container c).registry.Ascending) (hc : w.Has c)
    (huntorn : w.Untorn c) {r : Attempted Unit}
    (hexec : (destroy h c).run.exec w = (some r, v)) {p : Provider C} (hp : v.Holds c p) :
    v.kept.get? p.id = none := by
  have hcourse := ((destroy_follows hl c w).ends hw hexec).1
  obtain ⟨outcomes, u, -, -, rfl⟩ := (exec_destroy_iff hl hw hnumbered hc huntorn.phase).1 hexec
  have hdestroyed := (hcourse.destroyed_iff hw huntorn).2 ⟨_, _, List.mem_cons_self⟩
  rcases (hcourse.tidy hw True.intro huntorn).resolve_right fun h => Bool.noConfusion h.1 with
    htidy | ⟨after, before, htorn⟩
  · exact absurd hdestroyed htidy.phase
  -- The last entry tells of the teardown, so nothing has happened after it.
  have hafter : after = [] := by
    obtain ⟨count, previous, hjournal⟩ := htorn.journal
    rcases after with _ | ⟨e, rest⟩
    · rfl
    · have hlast : Entry.event c (.destroyed outcomes.length (w.container c).phase) = e :=
        (List.cons.inj hjournal).1
      exact absurd hlast.symm (htorn.once e (.inl List.mem_cons_self) _ _)
  have hkept := htorn.kept p hp
  rw [hafter] at hkept
  exact Option.toList_eq_nil_iff.1 hkept.symm

/-- The first teardown of a container visits each value that is kept when it begins, once and the
latest registration first. A visit empties the slot, runs the teardown of the value's source and
then what the registration added, in any case; the first failure is the result, and ends nothing.
The teardown is answered exactly if this is, in particular wherever disposing code always is. In the
end no value of the container is kept, and every further teardown does nothing. If dependencies were
registered before their dependents, whatever it is that depends on what, a value is visited before
all on which it depends. -/
theorem Codebase.destroy_unwinds {code : Codebase C} {s : C.State} {w : World C}
    (hw : code.Visits (.blank s) w) {c : ContainerId} (hc : w.Has c)
    (hphase : (w.container c).phase ≠ .destroyed) (depth : Nat) :
    ((w.cached c).map (·.1.id)).Nodup ∧
    (∀ r v, (code.perform (depth + 1) (.destroy c)).exec w = (some r, v) ↔
      ∃ outcomes u, (code.hostAt depth).Unwinds c (w.cached c).reverse
          (w.withPhase c .destroyed) outcomes u ∧
        r = firstFailure outcomes ∧ v = u.closed c outcomes.length (w.container c).phase) ∧
    ((∀ p, w.Holds c p → ∀ x,
        (code.hostAt depth).DisposingKeeps w.LeadsTo (fun _ => False) p.definition x) →
      ∃ r v, (code.perform (depth + 1) (.destroy c)).exec w = (some r, v)) ∧
    (∀ r v, (code.perform (depth + 1) (.destroy c)).exec w = (some r, v) →
      (∀ p, v.Holds c p → v.kept.get? p.id = none) ∧
      ∀ u, code.Visits v u → ∀ depth', ∃ u',
        (code.perform (depth' + 1) (.destroy c)).exec u = (some (.ok ()), u') ∧ u.Same u') ∧
    ∀ depends : Provider C → Provider C → Prop,
      (∀ p q, depends p q → List.Sublist [q, p] (w.container c).registry.providers) →
      ∀ p x q y, (p, x) ∈ w.cached c → (q, y) ∈ w.cached c → Relation.TransGen depends p q →
        List.Sublist [(p, x), (q, y)] (w.cached c).reverse := by
  have hcoherent := hw.coherent
  have hascending := hw.ascending c
  have hlawful := code.describes_any.host_lawful depth
  refine ⟨World.nodup_cached hascending, ?_, ?_, ?_, ?_⟩
  · intro r v
    exact Host.exec_destroy_iff hlawful hcoherent hascending hc hphase
  · intro hdisposing
    exact Host.destroy_answers hlawful hdisposing ⟨.refl w, hcoherent⟩ hc hphase
  · intro r v hexec
    have hcourse := ((perform_follows code.describes_any (depth + 1) (.destroy c) w).ends
      hcoherent hexec).1
    -- The slots are empty when the call returns; what is visited later is for ever destroyed, where
    -- a second call has nothing left to do.
    refine ⟨fun p hp => ?_, fun u hu depth' => ?_⟩
    · exact Host.destroy_empties hlawful hcoherent hascending hc (hw.untorn hphase) hexec hp
    · obtain ⟨outcomes, x, -, -, rfl⟩ :=
        (Host.exec_destroy_iff hlawful hcoherent hascending hc hphase).1 hexec
      have hdestroyed := (hcourse.destroyed_iff hcoherent (hw.untorn hphase)).2
        ⟨_, _, List.mem_cons_self⟩
      have hframe := (hu.course code.describes_any (hcourse.coherent hcoherent)).frame
      exact Host.exec_destroy_again (hframe.has c (hcourse.frame.has c hc))
        (hframe.destroyed hdestroyed)
  -- A provider is visited before all it depends on, as it was registered after them.
  · intro depends hdepends p x q y hp hq hpq
    exact World.sublist_cached_reverse (hascending.sublist_of_transGen hdepends hpq)
      (World.mem_keptFor.1 hp).2 (World.mem_keptFor.1 hq).2

namespace Sample

/-- Code that makes values without further ado and fails to dispose of them. -/
def fragile : Codebase Sample :=
  { lamps with dispose := fun _ _ => .done (.error (.said "stuck")) }

/-- Makes a battery and a lamp in a new container. Disposing code was added to both of them; the
lamp has some of its own as well. -/
def batteryAndLamp : Program Sample (Attempted (Value Sample)) := do
  let c ← Program.request .create
  let battery := Registration.producer (C := Sample) (.named "Battery") ()
  let lamp := Registration.managedProducer (C := Sample) (.named "Lamp") () (some ()) {}
  let _ ← Program.request (.register c (battery.withOnDestroy ()))
  let _ ← Program.request (.register c (lamp.withOnDestroy ()))
  let _ ← Program.request (.get c (.named "Battery") ∅)
  Program.request (.get c (.named "Lamp") ∅)

def litRoom : World Sample := ((fragile.run 2 batteryAndLamp).exec blank).2

def darkRoom : World Sample := ((fragile.perform 1 (.destroy ⟨0⟩)).exec litRoom).2

def stuckLamp : Failure := .invocation "Lamp::destroy" (.said "stuck")

def stuckBattery : Failure := .invocation "Battery::on_destroy" (.said "stuck")

/-- Of both values, the one that was registered later is torn down first. Its own disposing code
fails, and so does all that runs after it: what was added to the lamp, and what was added to the
battery. The first failure is the answer, and nothing is kept then. -/
theorem lit_room_unwinds :
    litRoom.keepers ⟨0⟩ = [⟨0⟩, ⟨1⟩] ∧
      (∀ p x q y, (p, x) ∈ litRoom.cached ⟨0⟩ → (q, y) ∈ litRoom.cached ⟨0⟩ →
        q.id.number < p.id.number → List.Sublist [(p, x), (q, y)] (litRoom.cached ⟨0⟩).reverse) ∧
      (∃ outcomes u, (fragile.hostAt 0).Unwinds ⟨0⟩ (litRoom.cached ⟨0⟩).reverse
          (litRoom.withPhase ⟨0⟩ .destroyed) outcomes u ∧
        firstFailure outcomes = .error stuckLamp ∧
        darkRoom = u.closed ⟨0⟩ outcomes.length .ready) ∧
      darkRoom.journal = [.event ⟨0⟩ (.destroyed 2 .ready),
        .event ⟨0⟩ (.teardownFailed (.named "Battery") stuckBattery),
        .milestone (.disposed ⟨0⟩ (.object ())), .milestone (.invoked "Battery::on_destroy"),
        .milestone (.released ⟨0⟩ (.object ())),
        .event ⟨0⟩ (.teardownFailed (.named "Lamp") stuckLamp),
        .milestone (.disposed ⟨1⟩ (.object ())), .milestone (.invoked "Lamp::on_destroy"),
        .milestone (.invoked "Lamp::destroy"), .milestone (.released ⟨1⟩ (.object ()))] ++
          litRoom.journal ∧
      (∀ p, darkRoom.Holds ⟨0⟩ p → darkRoom.kept.get? p.id = none) := by
  have hvisits : fragile.Visits blank litRoom :=
    (Codebase.ends_of_isSome (by decide +kernel)).visits
  have hhas : litRoom.Has ⟨0⟩ := Option.isSome_iff_exists.1 (by decide +kernel)
  have hphase : (litRoom.container ⟨0⟩).phase ≠ .destroyed := by decide +kernel
  have hexec : (fragile.perform 1 (.destroy ⟨0⟩)).exec litRoom =
      (some (.error stuckLamp), darkRoom) := rfl
  obtain ⟨-, hunwinds, -, hdone, horder⟩ := Codebase.destroy_unwinds hvisits hhas hphase 0
  obtain ⟨outcomes, u, hvisited, hfirst, hclosed⟩ := (hunwinds _ _).1 hexec
  refine ⟨by decide +kernel, fun p x q y hp hq hlt => ?_,
    ⟨outcomes, u, hvisited, hfirst.symm, hclosed⟩, rfl, (hdone _ _ hexec).1⟩
  -- Registered earlier is all that is meant here by being depended on.
  have hdepends : ∀ p q, litRoom.Holds ⟨0⟩ p ∧ litRoom.Holds ⟨0⟩ q ∧ q.id.number < p.id.number →
      List.Sublist [q, p] (litRoom.container ⟨0⟩).registry.providers := by
    rintro p q ⟨hp, hq, hlt⟩
    exact (hvisits.ascending ⟨0⟩).sublist_iff.2 ⟨hq, hp, hlt⟩
  exact horder _ hdepends p x q y hp hq
    (.single ⟨(World.mem_keptFor.1 hp).1, (World.mem_keptFor.1 hq).1, hlt⟩)

end Sample

end Wiring
