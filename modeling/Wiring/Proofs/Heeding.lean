import Mathlib.Data.List.Perm.Subperm
import Wiring.Proofs.Circularity
import Wiring.Proofs.Gating

/-!
# Code that keeps to a family of containers

A family is a finite number of containers whose definitions change no more. Client code that keeps
to a family calls containers of the family only, resolves and tears down whatever it likes in them,
and hands on only what it was handed. It may inject objects that it made by itself, or run their
hooks, as long as the code of a type does so only for types of lower rank: without such an order,
code could inject one object in the code that injects another without end, and no provider would
be asked.
-/

namespace Wiring

variable {C : Client} {α : Type}

/-- Containers with their providers, and what client code hands on among them. -/
structure Family (C : Client) where
  containers : List ContainerId
  providers : ContainerId → List (Provider C)
  /-- Objects that code may be given. -/
  object : C.Object → Prop
  /-- What the client may keep for itself. -/
  state : C.State → Prop
  /-- Types whose objects code may inject. -/
  types : TypeKey → Prop
  /-- The code of a type injects only objects of types of lower rank. -/
  rank : TypeKey → Nat
  /-- All ranks are below. -/
  height : Nat

namespace Family

variable (M : Family C)

/-- A value that code may be given. -/
def Knows : Value C → Prop
  | .container c => c ∈ M.containers
  | .object o => M.object o

/-- Providers of a container of the family. -/
def HasAll (c : ContainerId) (ids : List ProviderId) : Prop :=
  c ∈ M.containers ∧ ∀ id ∈ ids, ∃ p ∈ M.providers c, p.id = id

/-- A resolved dependency that code may be given. -/
def Passes (i : Injected C) : Prop :=
  match i.payload with
  | .value _ v => M.Knows v
  | .selection s => M.HasAll s.container s.providers

/-- The calls that code may make, if it may inject objects of types below some rank. Nothing is
resolved on a thread of its own: there, nothing counts as under construction. -/
def Allows (rank : Nat) : Call C → Prop
  | .create => True
  | .register c _ | .unregister c _ _ | .validate c | .get c _ _ | .select c _ _ | .destroy c
  | .survey c => c ∈ M.containers
  | .getApart .. => False
  | .single s => M.HasAll s.container s.providers
  | .advance cursor => M.HasAll cursor.selection.container cursor.rest
  | .inject c type o => c ∈ M.containers ∧ M.object o ∧ M.types type ∧ M.rank type < rank
  | .postConstruct type o | .preDestroy type o => M.object o ∧ M.types type ∧ M.rank type < rank
  | .constructorOf type | .pointsOf type => M.types type ∧ M.rank type < rank

/-- What code is given for an answer. -/
def Replies : (k : Call C) → Reply C k → Prop
  | .get .., r | .getApart .., r | .single _, r => ∀ v, r = .ok v → M.Knows v
  | .select .., r => ∀ s, r = .ok s → M.HasAll s.container s.providers
  | .advance cursor, r => r.2.selection = cursor.selection ∧
      M.HasAll cursor.selection.container r.2.rest ∧ ∀ v, r.1 = some (.ok v) → M.Knows v
  | .inject .., r => M.object r.1
  | _, _ => True

/-- What a lower rank may ask, a higher one may. -/
theorem Allows.mono {M : Family C} {rank rank' : Nat} {k : Call C} (hk : M.Allows rank k)
    (hrank : rank ≤ rank') : M.Allows rank' k := by
  cases k with
  | inject c type o => exact ⟨hk.1, hk.2.1, hk.2.2.1, Nat.lt_of_lt_of_le hk.2.2.2 hrank⟩
  | postConstruct type o | preDestroy type o =>
    exact ⟨hk.1, hk.2.1, Nat.lt_of_lt_of_le hk.2.2 hrank⟩
  | constructorOf type | pointsOf type => exact ⟨hk.1, Nat.lt_of_lt_of_le hk.2 hrank⟩
  | _ => exact hk

end Family

/-- A program makes only calls that are allowed, whatever it is answered and whatever it reads, and
ends as said. -/
def Program.Heeds (M : Family C) (rank : Nat) (Q : α → Prop) : Program C α → Prop
  | .done a => Q a
  | .call k next => M.Allows rank k ∧ ∀ r, M.Replies k r → (next r).Heeds M rank Q
  | .read next => ∀ s, M.state s → (next s).Heeds M rank Q
  | .write s next => M.state s ∧ next.Heeds M rank Q
  | .note _ next => next.Heeds M rank Q

/-- The code of a component keeps to a family. -/
structure Component.Heeds (m : Component C) (M : Family C) (rank : Nat) : Prop where
  constructor : m.constructor.Heeds M rank fun _ => True
  points : m.points.Heeds M rank fun _ => True
  construct : ∀ a : Arguments C, (∀ i ∈ a.values, M.Passes i) →
    (m.construct a).Heeds M rank fun r => ∀ o, r = .ok o → M.object o
  setField : ∀ o name i, M.object o → M.Passes i →
    (m.setField o name i).Heeds M rank fun a => M.object a.1
  callMethod : ∀ o name (a : Arguments C), M.object o → (∀ i ∈ a.values, M.Passes i) →
    (m.callMethod o name a).Heeds M rank fun a => M.object a.1
  lifecycle : m.lifecycle.Heeds M rank fun l => ∀ o, M.object o →
    ∀ hook ∈ l.postConstruct ++ l.preDestroy, (hook.act o).Heeds M rank fun _ => True

/-- The code behind a definition keeps to a family. -/
structure Codebase.HeedsFor (code : Codebase C) (M : Family C) (c : ContainerId)
    (d : Definition C) : Prop where
  ready : ∀ v, d.source = .ready v → M.Knows v
  produce : ∀ produce dispose, d.source = .producer produce dispose →
    (code.produce produce c).Heeds M M.height fun r => ∀ v, r = .ok v → M.Knows v
  dispose : ∀ produce dispose, d.source = .producer produce (some dispose) → ∀ v, M.Knows v →
    (code.dispose dispose v).Heeds M M.height fun _ => True
  component : d.source = .component → M.types d.implementation
  onDestroy : ∀ dispose, d.onDestroy = some dispose → ∀ v, M.Knows v →
    (code.dispose dispose v).Heeds M M.height fun _ => True
  convert : ∀ e ∈ d.exposures, ∀ v, M.Knows v → M.Knows (e.convert v)

/-- The code behind all definitions of a family keeps to it. -/
structure Codebase.Heeds (code : Codebase C) (M : Family C) : Prop where
  component : ∀ type, M.types type →
    M.rank type < M.height ∧ (code.component type).Heeds M (M.rank type)
  definition : ∀ c ∈ M.containers, ∀ p ∈ M.providers c, code.HeedsFor M c p.definition

/-! ## Worlds in which a family is as it was -/

/-- A container of a family holds its providers, and has been validated or torn down. -/
structure Family.Member (M : Family C) (c : ContainerId) (k : Container C) : Prop where
  providers : k.registry.providers = M.providers c
  recalls : k.registry.Recalls
  decided : (k.phase = .ready ∧ k.validation = some (.ok ())) ∨ ∃ e e', k.Refuses e e'

/-- All providers of a family. -/
def Family.all (M : Family C) : Registry C := { providers := M.containers.flatMap M.providers }

/-- The providers of all containers together hold those of each. -/
theorem Family.mem_all {M : Family C} {c : ContainerId} {p : Provider C} (hc : c ∈ M.containers)
    (hp : p ∈ M.providers c) : p ∈ M.all.providers := List.mem_flatMap.2 ⟨c, hc, hp⟩

/-- In a world, a family is as it was, some of its providers and no others are under construction, a
number of containers at most are not torn down, and values are kept that code may be given. -/
structure Family.Guards (M : Family C) (building : List ProviderId) (n : Nat) (w : World C) :
    Prop where
  distinct : building.Nodup
  within : ∀ x ∈ building, ∃ p ∈ M.all.providers, p.id = x
  has : ∀ c ∈ M.containers, w.Has c ∧ c.number < w.containerCount
  member : ∀ c ∈ M.containers, M.Member c (w.container c)
  standing : M.containers.countP (fun c => (w.container c).phase ≠ .destroyed) ≤ n
  building : w.building = building
  waiting : w.waiting.flatten = []
  state : M.state w.client
  kept : ∀ c ∈ M.containers, ∀ p ∈ M.providers c, ∀ v, w.kept.get? p.id = some v → M.Knows v

namespace Family.Member

variable {M : Family C} {c : ContainerId} {k : Container C}

/-- What is remembered does not matter as long as it would be found. -/
theorem withRegistry (hk : M.Member c k) {r : Registry C}
    (hproviders : r.providers = k.registry.providers) (hr : r.Recalls) :
    M.Member c { k with registry := r } := by
  refine ⟨hproviders.trans hk.providers, hr, ?_⟩
  rcases hk.decided with h | ⟨_, _, h⟩
  · exact .inl h
  · cases h with
    | failed f hphase hvalidation => exact .inr ⟨_, _, .failed f hphase hvalidation⟩
    | destroyed hphase => exact .inr ⟨_, _, .destroyed hphase⟩

/-- The definitions of a family are changed no more. -/
theorem ne_unconfigured (hk : M.Member c k) : k.phase ≠ .unconfigured := by
  rcases hk.decided with ⟨hphase, -⟩ | ⟨_, _, ⟨_, hphase, -⟩ | hphase⟩ <;>
  · rw [hphase]
    decide

/-- A member that is destroyed is still a member. -/
theorem destroyed (hk : M.Member c k) : M.Member c { k with phase := .destroyed } :=
  ⟨hk.providers, hk.recalls, .inr ⟨_, _, .destroyed rfl⟩⟩

end Family.Member

namespace Family.Guards

variable {M : Family C} {building : List ProviderId} {n : Nat} {w v : World C} {c : ContainerId}

/-- Guards of fewer slots guard more of them as well. -/
theorem mono (hw : M.Guards building n w) {m : Nat} (hn : n ≤ m) : M.Guards building m w :=
  { hw with standing := Nat.le_trans hw.standing hn }

/-- The containers and the kept values are the same. -/
theorem congr (hw : M.Guards building n w) (hc : v.containers = w.containers)
    (hcount : v.containerCount = w.containerCount) (hkept : v.kept = w.kept)
    (hwaiting : v.waiting = w.waiting) (hstate : M.state v.client)
    (hdistinct : v.building.Nodup) (hwithin : ∀ x ∈ v.building, ∃ p ∈ M.all.providers, p.id = x) :
    M.Guards v.building n v := by
  have hcontainer := fun c => World.container_congr hc c
  -- Every part of the guard is read off containers, slots or threads, all unchanged.
  refine ⟨hdistinct, hwithin, fun c h => ?_, fun c h => ?_, ?_, rfl, ?_, hstate, ?_⟩
  · rw [World.Has, hc, hcount]
    exact hw.has c h
  · rw [hcontainer]
    exact hw.member c h
  · simp only [hcontainer]
    exact hw.standing
  · rw [hwaiting]
    exact hw.waiting
  · rw [hkept]
    exact hw.kept

/-- An entry in the journal breaks no guard. -/
theorem enter (hw : M.Guards building n w) (e : Entry C) : M.Guards building n (w.enter e) := by
  obtain rfl := hw.building
  exact hw.congr (v := w.enter e) rfl rfl rfl rfl hw.state hw.distinct hw.within

/-- Client code that keeps to its family's states breaks none. -/
theorem client (hw : M.Guards building n w) {s : C.State} (hs : M.state s) :
    M.Guards building n { w with client := s } := by
  obtain rfl := hw.building
  exact hw.congr (v := { w with client := s }) rfl rfl rfl rfl hs hw.distinct hw.within

/-- One more provider is under construction. -/
theorem begun {p : Provider C} (hw : M.Guards building n w) (hc : c ∈ M.containers)
    (hp : p ∈ M.providers c) (hbuilding : p.id ∉ building) :
    M.Guards (p.id :: building) n (w.begun c p) := by
  obtain rfl := hw.building
  refine hw.congr (v := w.begun c p) rfl rfl rfl rfl hw.state
    (List.nodup_cons.2 ⟨hbuilding, hw.distinct⟩) fun x hx => ?_
  rcases List.mem_cons.1 hx with rfl | hx
  · exact ⟨p, mem_all hc hp, rfl⟩
  · exact hw.within x hx

/-- A making that ends gives back the place it took on the stack. -/
theorem ended {p : Provider C} (hw : M.Guards (p.id :: building) n w) :
    M.Guards building n (w.ended p) := by
  have hbuilding : (w.ended p).building = building := by
    unfold World.ended
    rw [hw.building, List.erase_cons_head]
  have hended := hw.congr (v := w.ended p) rfl rfl rfl rfl hw.state
  rw [hbuilding] at hended
  exact hended (List.nodup_cons.1 hw.distinct).2 fun x hx => hw.within x (List.mem_cons_of_mem _ hx)

/-- More is kept that code may be given. -/
theorem keep (hw : M.Guards building n w) {x : ProviderId} {y : Value C} (hy : M.Knows y) :
    M.Guards building n { w with kept := w.kept.put x y } := by
  refine { hw with kept := ?_ }
  intro c hc p hp v hv
  by_cases hid : p.id = x
  · subst hid
    rw [Table.get?_put_self] at hv
    exact Option.some.inj hv ▸ hy
  · rw [Table.get?_put_of_ne _ _ hid] at hv
    exact hw.kept c hc p hp v hv

/-- A value that is kept is one the family knows. -/
theorem completed {p : Provider C} {y : Value C} (hw : M.Guards (p.id :: building) n w)
    (hy : M.Knows y) : M.Guards building n (w.completed p y) := by
  have hmade := hw.enter (.milestone (.made p.id y))
  refine ended ?_
  unfold World.keeping
  split
  · exact hmade
  · exact (hmade.keep hy).enter _

/-- Less is kept. -/
theorem releasing (hw : M.Guards building n w) (p : Provider C) (y : Value C) :
    M.Guards building n (w.releasing p y) := by
  refine enter (w := { w with kept := w.kept.erase p.id }) ?_ _
  refine { hw with kept := ?_ }
  intro c hc q hq v hv
  by_cases hid : q.id = p.id
  · rw [hid, Table.get?_erase_self] at hv
    cases hv
  · rw [Table.get?_erase_of_ne _ hid] at hv
    exact hw.kept c hc q hq v hv

theorem disposed (hw : M.Guards building n w) (c : ContainerId) (p : Provider C) (x : Value C)
    (o : Attempted Unit) : M.Guards building n (w.disposed c p x o) := by
  rcases o with e | _
  · exact (hw.enter _).enter _
  · exact hw.enter _

/-- One container of the family is another one, which is no less torn down. -/
theorem withContainer (hw : M.Guards building n w) {f : Container C → Container C}
    (hf : M.Member c (w.container c) → M.Member c (f (w.container c)))
    (hphase : (f (w.container c)).phase ≠ .destroyed → (w.container c).phase ≠ .destroyed) :
    M.Guards building n (w.withContainer c f) := by
  have hmember := World.forall_container_withContainer (w := w) (c := c) (f := f)
    (P := fun d k => d ∈ M.containers → M.Member d k)
    (fun hd => hf (hw.member c hd)) fun d _ hd => hw.member d hd
  have hdestroyed := World.forall_container_withContainer (w := w) (c := c) (f := f)
    (P := fun d k => k.phase ≠ .destroyed → (w.container d).phase ≠ .destroyed) hphase
    fun _ _ h => h
  refine { hw with has := fun d hd => ?_, member := hmember, standing := ?_ }
  · exact ⟨World.has_withContainer f (hw.has d hd).1, (hw.has d hd).2⟩
  · refine Nat.le_trans (List.countP_mono_left fun d _ h => ?_) hw.standing
    simp only [decide_eq_true_eq] at h ⊢
    exact hdestroyed d h

/-- What a lookup remembers is one of the container's providers. -/
theorem remembering (hw : M.Guards building n w) (c : ContainerId) (request : Request) :
    M.Guards building n
      (w.withRegistry c ((w.container c).registry.findUnique request).2) := by
  refine hw.withContainer (fun hk => ?_) id
  exact hk.withRegistry Registry.findUnique_providers (hk.recalls.findUnique request)

theorem closed (hw : M.Guards building n w) (c : ContainerId) (count : Nat) (previous : Phase) :
    M.Guards building n (w.closed c count previous) := by
  have hforgotten : M.Guards building n (w.withRegistry c (w.container c).registry.forget) :=
    hw.withContainer (fun hk => hk.withRegistry rfl (Registry.recalls_forget _)) id
  exact hforgotten.enter _

/-- A teardown leaves fewer containers that are not torn down. -/
theorem withPhase_destroyed (hw : M.Guards building n w) (hc : c ∈ M.containers)
    (hphase : (w.container c).phase ≠ .destroyed) :
    ∃ m, m < n ∧ M.Guards building m (w.withPhase c .destroyed) := by
  have hguards : M.Guards building n (w.withPhase c .destroyed) :=
    hw.withContainer (fun hk => hk.destroyed) fun h => absurd rfl h
  have hdestroyed := World.phase_withPhase w c .destroyed
  -- One container less is standing, as this one was.
  refine ⟨_, Nat.lt_of_lt_of_le (countP_lt_countP hc ?_ ?_ ?_) hw.standing,
    { hguards with standing := Nat.le_refl _ }⟩
  · intro d _ h
    have hafter := World.forall_container_withContainer (w := w) (c := c)
      (f := fun k => { k with phase := .destroyed })
      (P := fun d k => k.phase ≠ .destroyed → (w.container d).phase ≠ .destroyed)
      (fun h => absurd rfl h) fun _ _ h => h
    simp only [decide_eq_true_eq] at h ⊢
    exact hafter d h
  · simp only [hdestroyed, ne_eq, not_true_eq_false, decide_false]
  · simp only [ne_eq, hphase, not_false_eq_true, decide_true]

/-- A new container is outside the family. -/
theorem created (hw : M.Guards building n w) : M.Guards building n w.created := by
  -- The family's containers have smaller numbers than the new one.
  have hfresh : ∀ c ∈ M.containers, c ≠ ⟨w.containerCount⟩ := by
    rintro c hc rfl
    exact Nat.lt_irrefl _ (hw.has _ hc).2
  have hsame : ∀ c ∈ M.containers, w.created.containers.get? c = w.containers.get? c :=
    fun c hc => Table.get?_put_of_ne _ _ (hfresh c hc)
  have hcontainer : ∀ c ∈ M.containers, w.created.container c = w.container c := fun c hc =>
    congrArg (·.getD {}) (hsame c hc)
  refine { hw with has := fun c hc => ?_, member := fun c hc => ?_, standing := ?_ }
  · rw [World.Has, hsame c hc]
    exact ⟨(hw.has c hc).1, Nat.lt_succ_of_lt (hw.has c hc).2⟩
  · rw [hcontainer c hc]
    exact hw.member c hc
  · rw [List.countP_congr fun c hc => by rw [hcontainer c hc]]
    exact hw.standing

end Family.Guards

end Wiring
