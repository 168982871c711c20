import Wiring.Proofs.Asking
import Wiring.Proofs.Depth
import Wiring.Proofs.Sample

/-!
# Prototypes are made anew

A prototype is never kept, so each time it is resolved its source is run once more, and the value
that the run makes is the one that is handed out. The moments of a run of client code are told apart
by the journal, which only grows: two resolutions that end at different moments have run the source
at different times. Whether the values differ is then a matter of the source alone. A value made
beforehand is the one source that gives the same every time.

Main statements: `Codebase.prototypes_fresh`, `Mint.ready_prototype_shared`.
-/

namespace Wiring

variable {C : Client} {D : Outline}

/-! ## One resolution -/

namespace Host

variable {h : Host C} {w v : World C} {c : ContainerId} {p : Provider C} {y : Value C}

/-- A prototype that gives a value has just made it. -/
theorem exec_provide_prototype (hs : p.definition.scope = .prototype)
    (hprovide : (provide h c p).run.exec w = (some (.ok y), v)) :
    ∃ u, (makeBySource h c p.definition).run.exec (w.begun c p) = (some (.ok y), u) ∧
      v = u.completed p y := by
  have hnot : p.definition.scope ≠ .singleton := by
    rw [hs]
    decide
  by_cases hbuilding : p.id ∈ w.building
  · rw [exec_provide_circular hbuilding fun h => absurd h hnot] at hprovide
    cases hprovide
  · rw [exec_provide hbuilding (fun h => absurd h hnot) fun h => absurd h hnot] at hprovide
    rcases hmake : (makeBySource h c p.definition).run.exec (w.begun c p) with ⟨_ | e | x, u⟩ <;>
      rw [hmake] at hprovide <;> cases hprovide
    exact ⟨u, rfl, rfl⟩

end Host

namespace Codebase

/-- A call that is made in the first world obtains, as one of its types, a value of a provider. -/
def Obtains (code : Codebase C) (c : ContainerId) (p : Provider C) (type : TypeKey) (w : World C)
    (x : Value C) (v : World C) : Prop :=
  ∃ depth k r u, (code.hostAt depth).Asks k w c p type u ∧
    (code.perform (depth + 1) k).exec w = (some r, v) ∧ k.outcome? r = some (.ok x)

/-- A provider's source was run, beginning after the first world, and what it made is the last thing
that happened before the second one. -/
def Makes (code : Codebase C) (c : ContainerId) (p : Provider C) (w : World C) (y : Value C)
    (v : World C) : Prop :=
  ∃ (depth : Nat) (u t : World C), w.journal <:+ u.journal ∧
    ((code.hostAt depth).makeBySource c p.definition).run.exec (u.begun c p) = (some (.ok y), t) ∧
    v.journal = .milestone (.made p.id y) :: t.journal

variable {code : Codebase C} {s : C.State} {c : ContainerId} {p : Provider C} {type : TypeKey}
  {w v z : World C} {x : Value C} {depth : Nat}

/-- Every call that is answered with a value asks for the container or obtains the value of a
provider. -/
theorem obtains_of_perform {k : Call C} {r : Reply C k}
    (hexec : (code.perform depth k).exec w = (some r, v)) (hx : k.outcome? r = some (.ok x)) :
    k.IsForContainer ∨ ∃ c p type, code.Obtains c p type w x v := by
  cases depth with
  | zero => cases hexec
  | succ depth =>
    rcases Host.asks_of_answer (h := code.hostAt depth) hexec hx with hself |
      ⟨c, p, type, u, y, v', hasks, -, -, -⟩
    · exact .inl hself
    · exact .inr ⟨c, p, type, depth, k, r, u, hasks, hexec, hx⟩

/-- A dependency on an object is met by a value that was obtained. -/
theorem obtains_of_resolve {member : String} {d : Dependency} {i : Injected C}
    (hexec : ((code.hostAt depth).resolve c member d).run.exec w = (some (.ok i), v))
    (hwant : d.want = .object type) (htype : type ≠ .container) :
    ∃ p x, i = ⟨member, .value type x⟩ ∧ code.Obtains c p type w x v := by
  unfold Host.resolve at hexec
  rw [hwant] at hexec
  obtain ⟨x, u, hget, hend⟩ := Host.exec_bind_ok_iff.1 hexec
  cases hend
  have hget : (code.perform depth (.get c type d.qualifiers)).exec w = (some (.ok x), v) := hget
  cases depth with
  | zero => cases hget
  | succ depth =>
    -- What is answered was obtained from a provider, or is the container itself.
    rcases Host.asks_of_answer (h := code.hostAt depth) hget rfl with hself |
      ⟨c', p, type', u', y, v', hasks, -, -, -⟩
    · exact absurd hself htype
    · obtain ⟨_, hreaches, _⟩ := id hasks
      cases hreaches
      exact ⟨p, x, rfl, depth, _, _, u', hasks, hget, rfl⟩

/-- What is obtained of a prototype is what its source has just made. -/
theorem Obtains.makes (hw : w.Coherent) (hs : p.definition.scope = .prototype)
    (hobtains : code.Obtains c p type w x v) :
    ∃ y, code.Makes c p w y v ∧ p.definition.convert? type y = some x := by
  obtain ⟨depth, k, r, u, hasks, hexec, hx⟩ := hobtains
  obtain ⟨⟨-, hframe, -⟩, -, -⟩ := hasks.later (code.describes_any.host_lawful depth) hw
  obtain ⟨a, v', hprovide, hr, rfl⟩ := Host.exec_provide_of_answer hasks hexec
  obtain ⟨y, rfl, hconvert⟩ := Host.converting_eq_ok (Option.some.inj (hr.symm.trans hx))
  obtain ⟨t, hmake, rfl⟩ := Host.exec_provide_prototype hs hprovide
  refine ⟨y, ⟨depth, u, t, hframe.journal, hmake, ?_⟩, hconvert⟩
  rw [World.journal_replied, World.Coherent.completed_of_prototype hs]
  rfl

/-- What is obtained is obtained later. -/
theorem Obtains.later (hw : w.Coherent) (hobtains : code.Obtains c p type w x v) :
    w.journal <:+ v.journal := by
  obtain ⟨depth, k, r, u, -, hexec, -⟩ := hobtains
  have hcourse := ((code.perform_follows code.describes_any (depth + 1) k w).ends hw hexec).1
  exact hcourse.frame.journal

/-- A resolution in a run of client code that succeeds in obtaining a provider's value. -/
structure Resolution (code : Codebase C) (s : C.State) (c : ContainerId) (p : Provider C) where
  start : World C
  finish : World C
  type : TypeKey
  value : Value C
  visited : code.Visits (.blank s) start
  obtained : code.Obtains c p type start value finish

/-- The journal of a resolution's finish has that of its start behind it. -/
theorem Resolution.later (R : code.Resolution s c p) : R.start.journal <:+ R.finish.journal :=
  R.obtained.later R.visited.coherent

/-- The value that was made last is the latest one. -/
theorem Makes.mades {y : Value C} (hy : code.Makes c p w y v) :
    ∃ t : World C, v.journal = .milestone (.made p.id y) :: t.journal ∧
      v.mades p.id = y :: t.mades p.id := by
  obtain ⟨-, -, t, -, -, hjournal⟩ := hy
  refine ⟨t, hjournal, ?_⟩
  unfold World.mades World.history
  rw [hjournal, historyIn_milestone_self rfl]
  rfl

/-- A longer journal only puts newer values in front of those made before. -/
theorem mades_suffix {u : World C} (h : u.journal <:+ v.journal) (i : ProviderId) :
    u.mades i <:+ v.mades i :=
  (h.filterMap _).filterMap _

/-- Of two values that were made one after the other, the later one is another one if a new one is
made each time. -/
theorem Makes.ne_of_later {ι : Type} {ident : Value C → ι} {w' v' : World C} {y y' : Value C}
    (hy : code.Makes c p w y v) (hy' : code.Makes c p w' y' v') (hlater : v.journal <:+ v'.journal)
    (hne : v.journal ≠ v'.journal) (hv' : v'.journal <:+ z.journal)
    (hnew : ((z.mades p.id).map ident).Nodup) : ident y ≠ ident y' := by
  obtain ⟨t, -, hmades⟩ := hy.mades
  obtain ⟨t', hjournal', hmades'⟩ := hy'.mades
  -- The later value is the head of what was made until then, so the earlier one is in the tail.
  have hbefore : v.journal <:+ t'.journal := by
    rw [hjournal'] at hlater hne
    exact (List.suffix_cons_iff.1 hlater).resolve_left hne
  have hmem : y ∈ t'.mades p.id := by
    refine (mades_suffix hbefore p.id).subset ?_
    rw [hmades]
    exact List.mem_cons_self
  have hnodup : ((v'.mades p.id).map ident).Nodup :=
    hnew.sublist ((mades_suffix hv' p.id).map ident).sublist
  rw [hmades', List.map_cons, List.nodup_cons] at hnodup
  intro heq
  exact hnodup.1 (heq ▸ List.mem_map_of_mem hmem)

/-- Two values that were made at different moments of one run differ if a new one is made each
time. -/
theorem Makes.ne {ι : Type} {ident : Value C → ι} {w' v' : World C} {y y' : Value C}
    (hy : code.Makes c p w y v) (hy' : code.Makes c p w' y' v') (hv : v.journal <:+ z.journal)
    (hv' : v'.journal <:+ z.journal) (hne : v.journal ≠ v'.journal)
    (hnew : ((z.mades p.id).map ident).Nodup) : ident y ≠ ident y' := by
  rcases List.suffix_or_suffix_of_suffix hv hv' with hlater | hlater
  · exact hy.ne_of_later hy' hlater hne hv' hnew
  · exact (hy'.ne_of_later hy hlater hne.symm hv hnew).symm

/-- A prototype's slot is never filled. Whoever obtains a value of it gets, as one of its types,
what a run of its own source has made that began after the request and ended with it, so resolutions
that end at different moments have runs of their own. As many resolutions as there are in one run of
client code, so many different values has the source made for them, if what it makes is new each
time; and so many different ones are handed out, if moreover a value stays the same as any type. A
value made beforehand is handed out itself each time. Every call that is answered with a value, and
every injection of an object, obtains the value of a provider so, unless it is the container that is
asked for. -/
theorem prototypes_fresh (hz : code.Visits (.blank s) z) (hp : z.Holds c p)
    (hs : p.definition.scope = .prototype) :
    (z.kept.get? p.id = none ∧ z.keepings p.id = []) ∧
    (∀ R : code.Resolution s c p,
      ∃ y, code.Makes c p R.start y R.finish ∧ p.definition.convert? R.type y = some R.value) ∧
    (∀ l : List (code.Resolution s c p), (∀ R ∈ l, R.finish.journal <:+ z.journal) →
      l.Pairwise (fun R S => R.finish.journal ≠ S.finish.journal) →
      ∃ ys : List (Value C),
        List.Forall₂ (fun R y => code.Makes c p R.start y R.finish ∧
          p.definition.convert? R.type y = some R.value) l ys ∧
        ∀ (ι : Type) (ident : Value C → ι), ((z.mades p.id).map ident).Nodup →
          (ys.map ident).Nodup ∧
          ((∀ type y x, p.definition.convert? type y = some x → ident x = ident y) →
            (l.map fun R => ident R.value).Nodup)) ∧
    (∀ y, p.definition.source = .ready y →
      ∀ R : code.Resolution s c p, p.definition.convert? R.type y = some R.value) ∧
    (∀ depth w k r x v, (code.perform depth k).exec w = (some r, v) →
      k.outcome? r = some (.ok x) →
        k.IsForContainer ∨ ∃ d q type, code.Obtains d q type w x v) ∧
    ∀ depth w d member dep type i v,
      ((code.hostAt depth).resolve d member dep).run.exec w = (some (.ok i), v) →
        dep.want = .object type → type ≠ .container →
          ∃ q x, i = ⟨member, .value type x⟩ ∧ code.Obtains d q type w x v := by
  have hmakes : ∀ R : code.Resolution s c p,
      ∃ y, code.Makes c p R.start y R.finish ∧ p.definition.convert? R.type y = some R.value :=
    fun R => R.obtained.makes R.visited.coherent hs
  refine ⟨⟨?_, (hz.coherent.account c p hp).prototype hs⟩, hmakes, ?_, ?_, ?_, ?_⟩
  · exact hz.coherent.prototype_not_kept hp hs
  · intro l hl hmoments
    -- Each resolution is assigned the value its making returned.
    choose made hmade hconvert using hmakes
    refine ⟨l.map made, ?_, fun ι ident hnew => ?_⟩
    · exact List.forall₂_map_right_iff.2
        (List.forall₂_same.2 fun R _ => ⟨hmade R, hconvert R⟩)
    · have hnodup : (l.map fun R => ident (made R)).Nodup := by
        unfold List.Nodup
        rw [List.pairwise_map]
        -- Two makings that finish at different moments added different values to the history.
        refine hmoments.imp_of_mem fun {R S} hR hS hne => ?_
        exact (hmade R).ne (hmade S) (hl R hR) (hl S hS) hne hnew
      refine ⟨by rwa [List.map_map], fun hident => ?_⟩
      -- Casts that keep an identity hand it on to what is handed out.
      rwa [List.map_congr_left fun R _ => hident _ _ _ (hconvert R)]
  · intro y hready R
    -- A ready-made value is what its source makes each time.
    obtain ⟨y', ⟨depth, u, t, -, hmake, -⟩, hx⟩ := hmakes R
    unfold Host.makeBySource at hmake
    rw [hready] at hmake
    cases hmake
    exact hx
  · exact fun depth w k r x v hexec hx => obtains_of_perform hexec hx
  · exact fun depth w d member dep type i v hexec hwant htype =>
      obtains_of_resolve hexec hwant htype

end Codebase

/-! ## Coins and medals -/

/-- A client whose objects are numbered, and whose state is the next number. -/
abbrev Mint : Client where
  Object := Nat
  Producer := Unit
  Disposer := Unit
  State := Nat
  Note := Empty

namespace Mint

/-- Code that gives each object that it makes the next number. -/
def code : Codebase Mint where
  produce _ _ := .read fun n => .write (n + 1) (.done (.ok (.object n)))
  dispose _ _ := .done (.ok ())
  component _ :=
    { construct := fun _ => .read fun n => .write (n + 1) (.done (.ok n)) }

/-- Coins are struck one by one. -/
def coins : Registration Mint := (Registration.producer (.named "Coin") ()).withScope .prototype

/-- There is one medal, made beforehand. -/
def medals : Registration Mint :=
  (Registration.ready (C := Mint) (.named "Medal") (.object (7 : Nat))).withScope .prototype

def coin : Provider Mint := ⟨⟨0⟩, coins.definition⟩

def medal : Provider Mint := ⟨⟨1⟩, medals.definition⟩

/-- The world after a new container got both providers and was validated. -/
def opened : World Mint :=
  ((code.run 2 do
    let c ← Program.request .create
    let _ ← Program.request (.register c coins)
    let _ ← Program.request (.register c medals)
    Program.request (.validate c)).exec (.blank 0)).2

def next (type : TypeKey) (w : World Mint) : World Mint :=
  ((code.perform 2 (.get ⟨0⟩ type ∅)).exec w).2

theorem ends_opened : code.Ends (.blank 0) opened := Codebase.ends_of_isSome rfl

/-- The next request goes on from where the last one ended. -/
theorem ends_next {type : TypeKey} {w : World Mint} (h : code.Ends (.blank 0) w)
    (hanswer : ((code.perform 2 (.get ⟨0⟩ type ∅)).exec w).1.isSome = true) :
    code.Ends (.blank 0) (next type w) := by
  obtain ⟨r, hr⟩ := Option.isSome_iff_exists.1 hanswer
  exact h.call (Prod.ext hr rfl)

/-- The first request for a coin. -/
def firstCoin : code.Resolution 0 ⟨0⟩ coin where
  start := opened
  finish := next (.named "Coin") opened
  type := .named "Coin"
  value := .object (0 : Nat)
  visited := ends_opened.visits
  obtained := ⟨1, .get ⟨0⟩ (.named "Coin") ∅, _, _, ⟨_, .get rfl ⟨_, rfl⟩ (by decide) rfl, rfl⟩,
    rfl, rfl⟩

/-- The second request for a coin. -/
def secondCoin : code.Resolution 0 ⟨0⟩ coin where
  start := firstCoin.finish
  finish := next (.named "Coin") firstCoin.finish
  type := .named "Coin"
  value := .object (1 : Nat)
  visited := (ends_next ends_opened rfl).visits
  obtained := ⟨1, .get ⟨0⟩ (.named "Coin") ∅, _, _, ⟨_, .get rfl ⟨_, rfl⟩ (by decide) rfl, rfl⟩,
    rfl, rfl⟩

/-- The number of an object. -/
def number : Value Mint → Nat
  | .object n => n
  | .container c => c.number

/-- A coin is the same coin as any type. -/
theorem number_coin {type : TypeKey} {y x : Value Mint}
    (h : coin.definition.convert? type y = some x) : number x = number y := by
  unfold Definition.convert? at h
  split at h
  · cases h
    rfl
  · obtain ⟨e, he, rfl⟩ := Option.map_eq_some_iff.1 h
    obtain rfl := List.mem_singleton.1 (List.mem_of_find?_eq_some he)
    rfl

/-- Two coins are two, and no coin is kept. -/
theorem coins_fresh :
    secondCoin.finish.kept.get? coin.id = none ∧
      ([firstCoin, secondCoin].map fun R => number R.value).Nodup := by
  have hvisits : code.Visits (.blank 0) secondCoin.finish :=
    (ends_next (ends_next ends_opened rfl) rfl).visits
  obtain ⟨⟨hkept, -⟩, -, hfresh, -⟩ := Codebase.prototypes_fresh (c := ⟨0⟩) (p := coin) hvisits
    List.mem_cons_self rfl
  have hlater : ∀ R ∈ [firstCoin, secondCoin], R.finish.journal <:+ secondCoin.finish.journal :=
    List.forall_mem_cons.2 ⟨secondCoin.later, List.forall_mem_singleton.2 List.suffix_rfl⟩
  have hmoments : [firstCoin, secondCoin].Pairwise
      fun R S => R.finish.journal ≠ S.finish.journal :=
    List.pairwise_pair.2 fun h => absurd (congrArg List.length h) (by decide)
  obtain ⟨_, -, hnumbers⟩ := hfresh _ hlater hmoments
  exact ⟨hkept, (hnumbers Nat number (by decide)).2 fun _ _ _ => number_coin⟩

/-- The first request for the medal. -/
def firstMedal : code.Resolution 0 ⟨0⟩ medal where
  start := opened
  finish := next (.named "Medal") opened
  type := .named "Medal"
  value := .object (7 : Nat)
  visited := ends_opened.visits
  obtained := ⟨1, .get ⟨0⟩ (.named "Medal") ∅, _, _, ⟨_, .get rfl ⟨_, rfl⟩ (by decide) rfl, rfl⟩,
    rfl, rfl⟩

/-- The second request for the medal. -/
def secondMedal : code.Resolution 0 ⟨0⟩ medal where
  start := firstMedal.finish
  finish := next (.named "Medal") firstMedal.finish
  type := .named "Medal"
  value := .object (7 : Nat)
  visited := (ends_next ends_opened rfl).visits
  obtained := ⟨1, .get ⟨0⟩ (.named "Medal") ∅, _, _, ⟨_, .get rfl ⟨_, rfl⟩ (by decide) rfl, rfl⟩,
    rfl, rfl⟩

/-- Not every prototype has a new value for each resolution: there is one medal, and it is handed
out twice in one run, although whatever code makes is new. -/
theorem ready_prototype_shared :
    ¬ ∀ (z : World Mint) (c : ContainerId) (p : Provider Mint), code.Visits (.blank 0) z →
      z.Holds c p → p.definition.scope = .prototype →
        ∀ l : List (code.Resolution 0 c p), (∀ R ∈ l, R.finish.journal <:+ z.journal) →
          l.Pairwise (fun R S => R.finish.journal ≠ S.finish.journal) →
            (l.map (·.value)).Nodup := by
  intro hclaim
  have hvisits : code.Visits (.blank 0) secondMedal.finish :=
    (ends_next (ends_next ends_opened rfl) rfl).visits
  have hholds : secondMedal.finish.Holds ⟨0⟩ medal := List.mem_cons_of_mem _ List.mem_cons_self
  have hlater : ∀ R ∈ [firstMedal, secondMedal], R.finish.journal <:+ secondMedal.finish.journal :=
    List.forall_mem_cons.2 ⟨secondMedal.later, List.forall_mem_singleton.2 List.suffix_rfl⟩
  have hmoments : [firstMedal, secondMedal].Pairwise
      fun R S => R.finish.journal ≠ S.finish.journal :=
    List.pairwise_pair.2 fun h => absurd (congrArg List.length h) (by decide)
  have hnodup := hclaim _ _ _ hvisits hholds rfl _ hlater hmoments
  exact (List.nodup_cons.1 hnodup).1 List.mem_cons_self

end Mint

end Wiring
