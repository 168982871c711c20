import Wiring.Proofs.Gating
import Wiring.Proofs.Matching

/-!
# Walks over a selection

A handle holds its matches from the moment at which it is made, while its container moves on. A walk
takes one step after the other, and anything may happen in between: other requests, a teardown, a
failure of an earlier step. Each step resolves the match that it has come to, in the world of that
moment, and the walk goes on behind it whatever comes of this. The position of a walk is therefore
the number of its steps until there is no match left.

Main statements: `World.Backs.walks_iff`, `Codebase.walks_resolve`.
-/

namespace Wiring

variable {C : Client} {code : Codebase C} {w v : World C} {c : ContainerId} {p : Provider C}
  {type : TypeKey} {qs : Qualifiers} {l : List (Provider C)} {k : Nat}

/-! ## Handles -/

/-- A handle is handed out: code selects, or a dependency on a selection is resolved. Copies of it
are the same handle. -/
inductive Codebase.Hands (code : Codebase C) (depth : Nat) (w : World C) (c : ContainerId)
    (type : TypeKey) (qs : Qualifiers) (sel : Selection) (v : World C) : Prop
  | selected : (code.perform (depth + 1) (.select c type qs)).exec w = (some (.ok sel), v) →
      Hands code depth w c type qs sel v
  | injected {member : String} {d : Dependency} {i : Injected C} : d.want = .selection type →
      d.qualifiers = qs → i.payload = .selection sel →
      ((code.hostAt (depth + 1)).resolve c member d).run.exec w = (some (.ok i), v) →
      Hands code depth w c type qs sel v

namespace Codebase.Hands

variable {depth : Nat} {sel : Selection}

/-- Either way the container selects. -/
theorem exec_select (h : code.Hands depth w c type qs sel v) :
    ((code.hostAt depth).select c type qs).run.exec w = (some (.ok sel), v) := by
  cases h with
  | selected hexec => exact hexec
  | @injected member d i hwant hqualifiers hpayload hexec =>
    subst hqualifiers
    unfold Host.resolve at hexec
    rw [hwant] at hexec
    obtain ⟨sel', u, hselect, hend⟩ := Host.exec_bind_ok_iff.1 hexec
    cases hend
    cases hpayload
    exact hselect

/-- A handle is made once its container is ready, and then one event is reported. -/
theorem opened (h : code.Hands depth w c type qs sel v) :
    ∃ u, ((code.hostAt depth).ensureReady c).run.exec w = (some (.ok ()), u) ∧
      sel = ⟨c, type, qs, (u.carriers c (type, qs)).map (·.id)⟩ ∧
      v = u.enter (.event c (.selecting type qs sel.size)) := by
  have hexec := h.exec_select
  have hopens := hexec
  unfold Host.select at hopens
  obtain ⟨_, u, hopened, hrest⟩ := Host.exec_bind_ok_iff.1 hopens
  have hc := Host.has_of_exec_bind_container hrest
  rw [Host.exec_select_of_opened hopened hc, World.findAll_eq_carriers] at hexec
  cases hexec
  exact ⟨u, hopened, rfl, by rw [Selection.size, List.length_map]⟩

end Codebase.Hands

/-- In a world, the matches of a handle are providers of its container, which has left its first
phase. -/
structure World.Backs (w : World C) (sel : Selection) (l : List (Provider C)) : Prop where
  has : w.Has sel.container
  made : sel.container.number < w.containerCount
  phase : (w.container sel.container).phase ≠ .unconfigured
  ids : sel.providers = l.map (·.id)
  found : ∀ p ∈ l, (w.container sel.container).registry.provider? p.id = some p

namespace World.Backs

variable {sel : Selection}

/-- A handle goes on standing for the same providers, whatever happens. -/
theorem later (hb : w.Backs sel l) (hwv : w.Moves v) : v.Backs sel l := by
  have hmoves := hwv.container sel.container hb.made
  refine ⟨hwv.has _ hb.has, Nat.lt_of_lt_of_le hb.made hwv.count,
    hmoves.phase.ne_unconfigured hb.phase, hb.ids, fun p hp => ?_⟩
  have hfound := hb.found p hp
  unfold Registry.provider? at hfound ⊢
  rwa [hmoves.providers hb.phase]

/-- A selection is as large as the list it stands for. -/
theorem size_eq (hb : w.Backs sel l) : sel.size = l.length := by
  rw [Selection.size, hb.ids, List.length_map]

/-- The match under a cursor is the entry at its position. -/
theorem match?_eq (hb : w.Backs sel l) (k : Nat) :
    (Cursor.mk sel k).match? = l[k]?.map (·.id) := by
  unfold Cursor.match?
  rw [hb.ids, List.getElem?_map]

/-- A step with a match left resolves it, and goes on behind it. -/
theorem exec_advance_some (hb : w.Backs sel l) (h : Host C) (hp : l[k]? = some p) :
    (h.advance ⟨sel, k⟩).exec w =
      match (h.provideAs sel.container p sel.type).run.exec w with
      | (some a, v) => (some (some a, ⟨sel, k + 1⟩), v)
      | (none, v) => (none, v) := by
  have hmatch := Host.exec_resolveMatch_of_found (h := h) hb.has hb.phase
    (hb.found p (List.mem_of_getElem? hp))
  unfold Host.advance
  rw [hb.match?_eq, hp]
  rcases hprovide : (h.provideAs sel.container p sel.type).run.exec w with ⟨_ | a, v⟩
  · exact Machine.exec_bind_none (hmatch.trans hprovide)
  · exact Machine.exec_bind_some (hmatch.trans hprovide)

/-- A step behind the last match does nothing. -/
theorem exec_advance_none (hb : w.Backs sel l) (h : Host C) (hk : l[k]? = none) :
    (h.advance ⟨sel, k⟩).exec w = (some (none, ⟨sel, k⟩), w) := by
  unfold Host.advance
  rw [hb.match?_eq, hk]
  rfl

end World.Backs

namespace Codebase

variable {depth : Nat} {sel : Selection} {s : C.State}

/-- A handle that was handed out stands for the providers that carry the request. -/
theorem Hands.backs (hw : w.Coherent) (h : code.Hands depth w c type qs sel v) :
    v.Backs sel (v.carriers c (type, qs)) := by
  obtain ⟨u, hopened, rfl, rfl⟩ := h.opened
  obtain ⟨hcourse, hopen⟩ := Machine.Follows.ends
    (Host.ensureReady_follows (code.describes_any.host_lawful depth) c w) hw hopened
  have hu := hcourse.coherent hw
  exact ⟨hopen.has, hu.container_lt c hopen.has, hopen.isOpen.ne_unconfigured, rfl,
    fun p hp => hu.provider?_eq_some (World.mem_carriers.1 hp).1⟩

end Codebase

/-! ## Steps -/

/-- One step of a walk: when it is taken and how deep calls may be nested, what it is answered, and
the world that it leaves. -/
structure Step (C : Client) where
  before : World C
  depth : Nat
  reply : Option (Attempted (Value C))
  after : World C

namespace Step

/-- A step is answered with what comes of resolving a provider at that moment; where there is none,
it is answered that the walk is over, and nothing happens. -/
def Resolves (code : Codebase C) (c : ContainerId) (type : TypeKey) (t : Step C) :
    Option (Provider C) → Prop
  | some p => ∃ a, t.reply = some a ∧
      ((code.hostAt t.depth).provideAs c p type).run.exec t.before = (some a, t.after)
  | none => t.reply = none ∧ t.after = t.before

/-- Steps are taken one after the other, and anything may happen in between. -/
def Follow : World C → List (Step C) → Prop
  | _, [] => True
  | w, t :: rest => w.Moves t.before ∧ Follow t.after rest

def results (steps : List (Step C)) : List (Attempted (Value C)) := steps.filterMap (·.reply)

/-- The steps resolve one provider after the other, from some position on. -/
def ResolveFrom (code : Codebase C) (c : ContainerId) (type : TypeKey) (l : List (Provider C))
    (k : Nat) (steps : List (Step C)) : Prop :=
  ∀ (i : Nat) (t : Step C), steps[i]? = some t → t.Resolves code c type l[k + i]?

/-- A walk resolves its first step at its position and the rest one further. -/
theorem resolveFrom_cons_iff {t : Step C} {rest : List (Step C)} :
    ResolveFrom code c type l k (t :: rest) ↔
      t.Resolves code c type l[k]? ∧ ResolveFrom code c type l (k + 1) rest := by
  constructor
  · intro h
    refine ⟨h 0 t rfl, fun i t' ht' => ?_⟩
    rw [Nat.add_assoc, Nat.add_comm 1 i]
    exact h (i + 1) t' ht'
  · rintro ⟨hfirst, hrest⟩ i t' ht'
    rcases i with _ | i
    · cases ht'
      exact hfirst
    · have hresolves := hrest i t' ht'
      rwa [Nat.add_assoc, Nat.add_comm 1 i] at hresolves

/-- Behind the last provider, positions do not matter. -/
theorem resolveFrom_min_iff {steps : List (Step C)} :
    ResolveFrom code c type l (min k l.length) steps ↔ ResolveFrom code c type l k steps := by
  have hsame : ∀ i, l[min k l.length + i]? = l[k + i]? := by
    intro i
    by_cases hk : k ≤ l.length
    · rw [Nat.min_eq_left hk]
    · rw [List.getElem?_eq_none (by omega), List.getElem?_eq_none (by omega)]
  unfold ResolveFrom
  simp only [hsame]

/-- As many steps have a result as there are providers left. -/
theorem length_results {steps : List (Step C)} (h : ResolveFrom code c type l k steps) :
    (results steps).length = min steps.length (l.length - k) := by
  unfold results
  induction steps generalizing k with
  | nil => simp
  | cons t rest ih =>
    obtain ⟨hfirst, hrest⟩ := resolveFrom_cons_iff.1 h
    have hlength := ih hrest
    -- At the end nothing is answered; before it one more result is, and one match fewer is left.
    rcases hp : l[k]? with _ | p <;> rw [hp] at hfirst
    · obtain ⟨hreply, -⟩ := hfirst
      have hk : l.length ≤ k := List.getElem?_eq_none_iff.1 hp
      rw [List.filterMap_cons_none hreply, hlength, List.length_cons]
      omega
    · obtain ⟨a, hreply, -⟩ := hfirst
      obtain ⟨hk, -⟩ := List.getElem?_eq_some_iff.1 hp
      rw [List.filterMap_cons_some hreply, List.length_cons, hlength, List.length_cons]
      omega

end Step

/-! ## Walks -/

/-- From a cursor and a world on, code takes these steps and comes to the last cursor. What happens
between two steps may be anything that moves the world. -/
inductive Codebase.Walks (code : Codebase C) : Cursor → World C → List (Step C) → Cursor → Prop
  | done (cursor : Cursor) (w : World C) : Walks code cursor w [] cursor
  | step {cursor next last : Cursor} {w : World C} {t : Step C} {rest : List (Step C)} :
      w.Moves t.before →
      (code.perform (t.depth + 1) (.advance cursor)).exec t.before =
        (some (t.reply, next), t.after) →
      Walks code next t.after rest last → Walks code cursor w (t :: rest) last

namespace World.Backs

variable {sel : Selection} {next last : Cursor} {t : Step C} {steps : List (Step C)}

/-- A step resolves the match that it has come to. -/
theorem takes_iff (hb : t.before.Backs sel l) (hk : k ≤ l.length) :
    (code.perform (t.depth + 1) (.advance ⟨sel, k⟩)).exec t.before =
        (some (t.reply, next), t.after) ↔
      t.Resolves code sel.container sel.type l[k]? ∧ next = ⟨sel, min (k + 1) l.length⟩ := by
  obtain ⟨before, depth, reply, after⟩ := t
  have hb : before.Backs sel l := hb
  show ((code.hostAt depth).advance ⟨sel, k⟩).exec before = (some (reply, next), after) ↔ _
  unfold Step.Resolves
  -- At the end of the list the cursor stays; before it it moves on whatever the provider answered.
  rcases hp : l[k]? with _ | p
  · have hlength : l.length ≤ k := List.getElem?_eq_none_iff.1 hp
    have hmin : min (k + 1) l.length = k := by omega
    rw [hb.exec_advance_none _ hp, hmin]
    dsimp only
    constructor
    · intro hexec
      cases hexec
      exact ⟨⟨rfl, rfl⟩, rfl⟩
    · rintro ⟨⟨rfl, rfl⟩, rfl⟩
      rfl
  · obtain ⟨hlt, -⟩ := List.getElem?_eq_some_iff.1 hp
    have hmin : min (k + 1) l.length = k + 1 := by omega
    rw [hb.exec_advance_some _ hp, hmin]
    dsimp only
    rcases ((code.hostAt depth).provideAs sel.container p sel.type).run.exec before
      with ⟨_ | a, v⟩
    · constructor
      · intro hexec
        cases hexec
      · rintro ⟨⟨a, -, hexec⟩, -⟩
        cases hexec
    · constructor
      · intro hexec
        cases hexec
        exact ⟨⟨a, rfl, rfl⟩, rfl⟩
      · rintro ⟨⟨a', rfl, hexec⟩, rfl⟩
        cases hexec
        rfl

/-- A walk takes steps one after the other that resolve one match after the other, and comes as far
as it has taken steps, or to the end. -/
theorem walks_iff (hb : w.Backs sel l) (hk : k ≤ l.length) :
    code.Walks ⟨sel, k⟩ w steps last ↔ Step.Follow w steps ∧
      Step.ResolveFrom code sel.container sel.type l k steps ∧
      last = ⟨sel, min (k + steps.length) l.length⟩ := by
  -- Induction on the steps; in between, anything may happen that moves the world.
  induction steps generalizing k w with
  | nil =>
    have hmin : min (k + 0) l.length = k := by omega
    rw [List.length_nil, hmin]
    constructor
    · intro hwalk
      cases hwalk
      exact ⟨True.intro, fun i t ht => by simp at ht, rfl⟩
    · rintro ⟨-, -, rfl⟩
      exact .done _ w
  | cons t rest ih =>
    have hend : min (min (k + 1) l.length + rest.length) l.length =
        min (k + (t :: rest).length) l.length := by
      rw [List.length_cons]
      omega
    have hrest : ∀ hafter : t.after.Backs sel l,
        code.Walks ⟨sel, min (k + 1) l.length⟩ t.after rest last ↔ Step.Follow t.after rest ∧
          Step.ResolveFrom code sel.container sel.type l (k + 1) rest ∧
          last = ⟨sel, min (k + (t :: rest).length) l.length⟩ := by
      intro hafter
      rw [ih hafter (Nat.min_le_right _ _), Step.resolveFrom_min_iff, hend]
    have hmoves : ∀ {next : Cursor},
        (code.perform (t.depth + 1) (.advance ⟨sel, k⟩)).exec t.before =
          (some (t.reply, next), t.after) → t.before.Moves t.after := by
      intro next hexec
      have hperform := code.perform_moves (t.depth + 1) (.advance ⟨sel, k⟩) t.before
      rwa [hexec] at hperform
    rw [Step.resolveFrom_cons_iff]
    constructor
    · intro hwalk
      cases hwalk with
      | step hbefore hexec hwalk =>
        have hb' := hb.later hbefore
        obtain ⟨hresolves, rfl⟩ := (hb'.takes_iff hk).1 hexec
        obtain ⟨hfollow, hrest, hlast⟩ := (hrest (hb'.later (hmoves hexec))).1 hwalk
        exact ⟨⟨hbefore, hfollow⟩, ⟨hresolves, hrest⟩, hlast⟩
    · rintro ⟨⟨hbefore, hfollow⟩, ⟨hresolves, hresolve⟩, hlast⟩
      have hb' := hb.later hbefore
      have hexec := (hb'.takes_iff hk).2 ⟨hresolves, rfl⟩
      exact .step hbefore hexec
        ((hrest (hb'.later (hmoves hexec))).2 ⟨hfollow, hresolve, hlast⟩)

end World.Backs

/-! ## What a step does -/

namespace Host

variable {h : Host C} {a : Attempted (Value C)}

/-- All that is done to resolve a provider: nothing, or a kept value is handed out, or the source of
the provider runs once and its value is kept if it is a singleton. -/
inductive Attends (h : Host C) (c : ContainerId) (p : Provider C) (w : World C) : World C → Prop
  | nothing : Attends h c p w w
  | reused {y : Value C} : p.definition.scope = .singleton → w.kept.get? p.id = some y →
      Attends h c p w (w.enter (.event c (.reused p.definition.implementation)))
  | made {x : Value C} {u : World C} :
      (h.makeBySource c p.definition).run.exec (w.begun c p) = (some (.ok x), u) →
      Attends h c p w (u.completed p x)
  | failed {e : Failure} {u : World C} :
      (h.makeBySource c p.definition).run.exec (w.begun c p) = (some (.error e), u) →
      Attends h c p w (u.ended p)

/-- A container that has been validated is made ready without further ado, if at all. -/
theorem eq_of_ensureReady (hw : w.Coherent) (hphase : (w.container c).phase ≠ .unconfigured)
    {r : Attempted Unit} (hexec : (ensureReady h c).run.exec w = (some r, v)) : v = w := by
  have hc := World.has_of_ne_unconfigured hphase
  have hagrees := hw.agrees c
  unfold Container.Agrees at hagrees
  unfold ensureReady validate at hexec
  rw [exec_bind_container hc] at hexec
  -- In each phase but the first the answer is already settled.
  rcases hk : (w.container c).phase <;> rw [hk] at hexec hagrees <;> dsimp only at hexec
  case unconfigured => exact absurd hk hphase
  case ready | destroyed =>
    cases hexec
    rfl
  case validating =>
    rw [exec_bind_container hc, hk, hagrees] at hexec
    cases hexec
  case failed =>
    obtain ⟨e, he⟩ := hagrees
    rw [exec_bind_container hc, hk, he] at hexec
    cases hexec
    rfl

/-- Asking a provider runs its own source and nothing else. -/
theorem attends_of_provide (hexec : (provide h c p).run.exec w = (some a, v)) :
    h.Attends c p w v := by
  rcases exec_provide_cases h c p w with hcircular | hstuck | ⟨y, hs, hy, hkept⟩ | hmakes
  · cases hcircular.symm.trans hexec
    exact .nothing
  · cases hstuck.symm.trans hexec
  · cases hkept.symm.trans hexec
    exact .reused hs hy
  · rw [hmakes] at hexec
    rcases hmake : (makeBySource h c p.definition).run.exec (w.begun c p) with ⟨_ | e | x, u⟩ <;>
      rw [hmake] at hexec <;> cases hexec
    · exact .failed hmake
    · exact .made hmake

/-- A request to a provider attends to it, whether it answers or fails. -/
theorem attends_of_provideAs (hw : w.Coherent) (hphase : (w.container c).phase ≠ .unconfigured)
    (hexec : (provideAs h c p type).run.exec w = (some a, v)) : h.Attends c p w v := by
  -- A container that is not ready attends to nothing.
  rcases hopened : (ensureReady h c).run.exec w with ⟨_ | e | _, u⟩
  · unfold provideAs asType at hexec
    cases (exec_bind_none hopened).symm.trans hexec
  · unfold provideAs asType at hexec
    cases (exec_bind_error hopened).symm.trans hexec
    rw [eq_of_ensureReady hw hphase hopened]
    exact .nothing
  · obtain rfl := eq_of_ensureReady hw hphase hopened
    rw [exec_provideAs_of_opened hopened] at hexec
    rcases hprovide : (provide h c p).run.exec u with ⟨_ | a', v'⟩ <;> rw [hprovide] at hexec <;>
      cases hexec
    exact attends_of_provide hprovide

/-- In a container that was torn down no provider is asked. -/
theorem exec_provideAs_destroyed (hc : w.Has c) (hphase : (w.container c).phase = .destroyed) :
    (provideAs h c p type).run.exec w =
      (some (.error (.configuration .resolvedTornDown)), w) := by
  unfold provideAs asType
  exact exec_bind_error (exec_ensureReady_refused hc (.destroyed hphase))

end Host

/-- A step is its own match's affair: all that it does is to resolve the match, and in a container
that was torn down it fails and does nothing. -/
structure Step.Attends (code : Codebase C) (c : ContainerId) (t : Step C) (p : Provider C) :
    Prop where
  own : ∀ s, code.Visits (.blank s) t.before →
    (code.hostAt t.depth).Attends c p t.before t.after
  refused : (t.before.container c).phase = .destroyed →
    t.reply = some (.error (.configuration .resolvedTornDown)) ∧ t.after = t.before

/-- A step of a walk attends to the provider under the cursor. -/
theorem Step.Resolves.attends {t : Step C} (h : t.Resolves code c type (some p))
    (hphase : (t.before.container c).phase ≠ .unconfigured) : t.Attends code c p := by
  obtain ⟨a, hreply, hexec⟩ := h
  refine ⟨fun s hs => Host.attends_of_provideAs hs.coherent hphase hexec, fun hdestroyed => ?_⟩
  have hc := World.has_of_ne_unconfigured hphase
  rw [Host.exec_provideAs_destroyed hc hdestroyed] at hexec
  obtain ⟨ha, hafter⟩ := Prod.mk.inj hexec
  cases ha
  exact ⟨hreply, hafter.symm⟩

/-- A walk over some providers has come to a cursor: it has passed no more of them than there are,
as many results follow as are reported to remain, and each step has attended to its own match. -/
structure Codebase.ComesTo (code : Codebase C) (v : World C) (sel : Selection)
    (l : List (Provider C)) (steps : List (Step C)) (last : Cursor) : Prop where
  within : last.position ≤ sel.size
  results : (Step.results steps).length + last.remaining = sel.size
  remaining : ∀ z more final, v.Moves z → code.Walks last z more final →
    (Step.results more).length = min more.length last.remaining
  attends : ∀ (i : Nat) (t : Step C) (p : Provider C), steps[i]? = some t → l[i]? = some p →
    t.Attends code sel.container p

/-- The steps of a walk are taken in later worlds. -/
theorem Codebase.Walks.moves {steps : List (Step C)} {cursor last : Cursor}
    (h : code.Walks cursor w steps last) : ∀ t ∈ steps, w.Moves t.before := by
  induction h with
  | done => simp
  | @step cursor _ _ w t _ hbefore hexec _ ih =>
    have hmoves := code.perform_moves (t.depth + 1) (.advance cursor) t.before
    rw [hexec] at hmoves
    intro t' ht'
    rcases List.mem_cons.1 ht' with rfl | ht'
    · exact hbefore
    · exact (hbefore.trans hmoves).trans (ih t' ht')

/-- A walk over a selection comes to the steps its list prescribes. -/
theorem World.Backs.comesTo {sel : Selection} {steps : List (Step C)} {last : Cursor}
    (hb : w.Backs sel l) (h : code.Walks sel.cursor w steps last) :
    code.ComesTo w sel l steps last := by
  -- A walk from the start is the steps its list prescribes.
  obtain ⟨-, hresolve, rfl⟩ := (hb.walks_iff (Nat.zero_le _)).1 h
  have hsize := hb.size_eq
  have hlength := Step.length_results hresolve
  have hremaining : (Cursor.mk sel (min (0 + steps.length) l.length)).remaining =
      l.length - min (0 + steps.length) l.length := by
    rw [Cursor.remaining, hsize]
  refine ⟨?_, ?_, ?_, ?_⟩
  · rw [hsize]
    exact Nat.min_le_right _ _
  · rw [hremaining, hlength, hsize]
    omega
  · intro z more final hz hmore
    obtain ⟨-, hrest, -⟩ := ((hb.later hz).walks_iff (Nat.min_le_right _ _)).1 hmore
    rw [hremaining]
    exact Step.length_results hrest
  · intro i t p ht hp
    have hlater := hb.later (h.moves t (List.mem_of_getElem? ht))
    have hresolves := hresolve i t ht
    rw [Nat.zero_add, hp] at hresolves
    exact hresolves.attends hlater.phase

open World

/-- A handle stands for the providers that carry the request, in order of registration; to make it,
its container is made ready and one event is reported, and no provider is started. Whatever happens
between them, the steps of a walk over it are these: as long as there are matches, each is answered
with what comes of resolving the next one at that moment, and is taken if this is answered; every
further step is answered that the walk is over. Wherever a walk has come to, it has passed no more
matches than there are, as many results follow as are reported to remain, and each step did nothing
but to resolve its own match. After a teardown each step that has a match fails and does nothing. -/
theorem Codebase.walks_resolve {code : Codebase C} {s : C.State} {depth : Nat} {sel : Selection}
    (hw : code.Visits (.blank s) w) (hsel : code.Hands depth w c type qs sel v) :
    (sel = ⟨c, type, qs, (v.carriers c (type, qs)).map (·.id)⟩ ∧
      (v.carriers c (type, qs)).Pairwise fun p q => p.id.number < q.id.number) ∧
    ((∃ u, ((code.hostAt depth).ensureReady c).run.exec w = (some (.ok ()), u) ∧
        v = u.enter (.event c (.selecting type qs sel.size))) ∧
      ((w.container c).phase = .ready → v = w.enter (.event c (.selecting type qs sel.size))) ∧
      (code.DescribedIdly depth → w.Writes Entry.IsIdle v)) ∧
    (∀ (steps : List (Step C)) (last : Cursor),
      (code.Walks sel.cursor v steps last ↔ Step.Follow v steps ∧
        Step.ResolveFrom code c type (v.carriers c (type, qs)) 0 steps ∧
        last = ⟨sel, min steps.length sel.size⟩) ∧
      (code.Walks sel.cursor v steps last →
        code.ComesTo v sel (v.carriers c (type, qs)) steps last)) ∧
    ∀ (depth' : Nat) u r u', code.Visits (.blank s) u → v.Moves u →
      (code.perform depth' (.destroy c)).exec u = (some r, u') → ∀ z, u'.Moves z →
      (z.container c).phase = .destroyed := by
  have hcoherent := hw.coherent
  have hlawful := code.describes_any.host_lawful depth
  have hb := hsel.backs hcoherent
  obtain ⟨u, hopened, hids, hv⟩ := hsel.opened
  have hcarriers : v.carriers c (type, qs) = u.carriers c (type, qs) := by
    rw [hv]
    exact carriers_congr rfl
  have hcontainer : sel.container = c := by rw [hids]
  refine ⟨⟨hcarriers ▸ hids, ?_⟩, ⟨⟨u, hopened, hv⟩, fun hready => ?_, fun hidle => ?_⟩,
    fun steps last => ⟨?_, hb.comesTo⟩, ?_⟩
  -- Identities ascend, so their order is that of registration.
  · have hcourse := (Machine.Follows.ends (Host.ensureReady_follows hlawful c w) hcoherent
      hopened).1
    have hnumbered := hcourse.invariant (Numbered.invariant _) hcoherent fun d => hw.ascending d
    rw [hcarriers]
    exact (hnumbered c).filter _
  · cases (Host.exec_ensureReady hready).symm.trans hopened
    exact hv
  · have hwrites := perform_passive_writes hidle (.select c type qs) w
    have hselect : (code.perform (depth + 1) (.select c type qs)).exec w = (some (.ok sel), v) :=
      hsel.exec_select
    rwa [hselect] at hwrites
  -- The walk from the first match on is the whole of it.
  · have hiff : code.Walks ⟨sel, 0⟩ v steps last ↔ _ := hb.walks_iff (Nat.zero_le _)
    rw [Nat.zero_add, ← hb.size_eq, hids] at hiff
    rw [hids]
    exact hiff
  -- From the teardown on the container is destroyed.
  · intro depth' u r u' hu hvu hdestroy z hz
    rcases depth' with _ | depth'
    · cases hdestroy
    have hmoves := code.perform_moves (depth' + 1) (.destroy c) u
    rw [hdestroy] at hmoves
    have hlt : c.number < u'.containerCount :=
      Nat.lt_of_lt_of_le (hcontainer ▸ hb.made) (Nat.le_trans hvu.count hmoves.count)
    have hphase := Host.phase_of_destroy (code.describes_any.host_lawful depth') hu.coherent
      hdestroy
    have hleads := (hz.container c hlt).phase
    rw [hphase] at hleads
    exact hleads.destroyed

namespace Sample

def faulty : Codebase Sample :=
  Sample.code (fun _ => .done (.error (.said "out of order"))) fun _ => .noArgs

/-- A container with three lamps, the first of them faulty, is validated. -/
def hangRow : Program Sample (Attempted Unit) := do
  let c ← Program.request .create
  let _ ← Program.request (.register c (.producer (.named "Lamp") ()))
  let _ ← Program.request (.register c (.component (.named "Lamp") {}))
  let _ ← Program.request (.register c (.component (.named "Lamp") {}))
  Program.request (.validate c)

def row : World Sample := ((faulty.run 2 hangRow).exec blank).2

def rowLamps : Selection := ⟨⟨0⟩, .named "Lamp", ∅, [⟨0⟩, ⟨1⟩, ⟨2⟩]⟩

def rowListed : World Sample :=
  ((faulty.perform 2 (.select ⟨0⟩ (.named "Lamp") ∅)).exec row).2

/-- The step that is taken in a world from some position. -/
def stepIn (w : World Sample) (k : Nat) : Step Sample where
  before := w
  depth := 1
  reply := ((faulty.perform 2 (.advance ⟨rowLamps, k⟩)).exec w).1.bind (·.1)
  after := ((faulty.perform 2 (.advance ⟨rowLamps, k⟩)).exec w).2

def firstStep : Step Sample := stepIn rowListed 0

def secondStep : Step Sample := stepIn firstStep.after 1

def rowTorn : World Sample := ((faulty.perform 2 (.destroy ⟨0⟩)).exec secondStep.after).2

def thirdStep : Step Sample := stepIn rowTorn 2

def fourthStep : Step Sample := stepIn thirdStep.after 3

/-- The failure of the first lamp does not end the walk, and the teardown does not shorten it. -/
theorem row_walked :
    faulty.ComesTo rowListed rowLamps (rowListed.carriers ⟨0⟩ (.named "Lamp", ∅))
        [firstStep, secondStep, thirdStep, fourthStep] ⟨rowLamps, 3⟩ ∧
      thirdStep.reply = some (.error (.configuration .resolvedTornDown)) ∧
      fourthStep.reply = none := by
  have hvisits : faulty.Visits blank row := Codebase.visits_of_run (Prod.eta _).symm
  have hhands : faulty.Hands 1 row ⟨0⟩ (.named "Lamp") ∅ rowLamps rowListed := .selected rfl
  obtain ⟨-, -, hwalks, -⟩ := Codebase.walks_resolve hvisits hhands
  have hmoves : secondStep.after.Moves rowTorn := faulty.perform_moves 2 _ _
  have hwalk : faulty.Walks rowLamps.cursor rowListed
      [firstStep, secondStep, thirdStep, fourthStep] ⟨rowLamps, 3⟩ :=
    .step (.refl _) rfl (.step (.refl _) rfl (.step hmoves rfl (.step (.refl _) rfl (.done _ _))))
  obtain ⟨hiff, hcomes⟩ := hwalks [firstStep, secondStep, thirdStep, fourthStep] ⟨rowLamps, 3⟩
  have hlast := (hiff.1 hwalk).2.1 3 fourthStep rfl
  have hthird : (rowListed.carriers ⟨0⟩ (.named "Lamp", ∅))[2]?.isSome = true := by
    decide +kernel
  obtain ⟨p, hp⟩ := Option.isSome_iff_exists.1 hthird
  have hattends := (hcomes hwalk).attends 2 thirdStep p rfl hp
  exact ⟨hcomes hwalk, (hattends.refused (by decide +kernel)).1, hlast.1⟩

end Sample

end Wiring
