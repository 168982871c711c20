import Wiring.Proofs.Conduct.Calls
import Wiring.Proofs.Invocation

/-!
# Calls that ask a provider

Every call that asks a provider for its value comes down to the same: its container is made ready
if it was not, the provider is looked for, it is asked, and its answer is handed on. The relation
`Host.Asks` follows a call to where the provider is asked, and a call that is answered with a value
has come that way. In a container that is ready nothing happens on the way but the search.

Main statements: `Host.exec_answer_of_asks`, `Host.asks_of_answer`, `Host.exec_answer`.
-/

namespace Wiring

variable {C : Client} {h : Host C} {w : World C} {c : ContainerId} {p : Provider C}
  {type : TypeKey}

namespace Call

/-- What a call makes of the answer of the provider that it asks; nothing for calls that ask
none. -/
def reply? : (k : Call C) → Attempted (Value C) → Option (Reply C k)
  | .get .., a => some a
  | .getApart .., a => some a
  | .single _, a => some a
  | .advance cursor, a => some (some a, cursor.next)
  | _, _ => none

/-- A call that asks a provider hands on its answer. -/
theorem outcome?_of_reply? {k : Call C} {a : Attempted (Value C)} {r : Reply C k}
    (h : k.reply? a = some r) : k.outcome? r = some a := by
  cases k <;> cases h <;> rfl

end Call

namespace World

/-- A container has found the only provider that meets a request. -/
def looked (w : World C) (c : ContainerId) (request : Request) : World C :=
  (w.withRegistry c ((w.container c).registry.findUnique request).2).enter
    (.event c (.resolving request.1 request.2))

/-- The world in which a call asks the provider that it has found. -/
def asked (w : World C) : Call C → World C
  | .get c type qualifiers => w.looked c (type, qualifiers)
  | .getApart c type qualifiers => w.departed.looked c (type, qualifiers)
  | _ => w

/-- The world in which a call hands on what the provider has answered. -/
def replied (w : World C) : Call C → World C → World C
  | .getApart .., v => w.rejoined v
  | _, v => v

theorem kept_replied (w v : World C) (k : Call C) : (w.replied k v).kept = v.kept := by
  cases k <;> rfl

/-- The way back of a request writes nothing. -/
theorem journal_replied (w v : World C) (k : Call C) : (w.replied k v).journal = v.journal := by
  cases k <;> rfl

/-- Along the way back of a request the frame stays. -/
theorem Frame.replied (w v : World C) (k : Call C) : v.Frame (w.replied k v) :=
  .of_eq (by cases k <;> rfl) (w.journal_replied v k)

/-- A container that is not as at its beginning was made. -/
theorem has_of_ne_unconfigured (h : (w.container c).phase ≠ .unconfigured) : w.Has c := by
  rcases hk : w.containers.get? c with _ | k
  · unfold container at h
    rw [hk] at h
    exact absurd rfl h
  · exact ⟨k, hk⟩

theorem has_of_ready (h : (w.container c).phase = .ready) : w.Has c :=
  has_of_ne_unconfigured (by rw [h]; decide)

/-- A look for a provider changes neither the providers nor the phase of a container. -/
theorem container_looked (w : World C) (c : ContainerId) (request : Request) (d : ContainerId) :
    ((w.looked c request).container d).registry.providers = (w.container d).registry.providers ∧
      ((w.looked c request).container d).phase = (w.container d).phase := by
  unfold looked withRegistry
  rw [container_enter]
  exact forall_container_withContainer
    (P := fun d k => k.registry.providers = (w.container d).registry.providers ∧
      k.phase = (w.container d).phase)
    ⟨Registry.findUnique_providers, rfl⟩ (fun _ _ => ⟨rfl, rfl⟩) d

theorem Alike.looked (w : World C) (c : ContainerId) (request : Request) :
    w.Alike (w.looked c request) where
  underway := rfl
  history _ := rfl
  kept := rfl
  providers d := (container_looked w c request d).1
  isOpen d h := by rwa [(container_looked w c request d).2]
  destroyed d h := by rwa [(container_looked w c request d).2]
  providerCount := rfl

/-- A look for a provider keeps the world coherent: it may only fill the memory of its container. -/
theorem Coherent.looked (hw : w.Coherent) (hc : w.Has c) (request : Request) :
    (w.looked c request).Coherent := by
  obtain ⟨hquiet, _, _⟩ := Host.remembering hc request rfl
  exact (hquiet.coherent hw).event c _

theorem Alike.asked (w : World C) (k : Call C) : w.Alike (w.asked k) := by
  cases k with
  | get c type qualifiers => exact .looked w c _
  | getApart c type qualifiers => exact (Alike.departed w).trans (.looked _ c _)
  | _ => exact .refl w

/-- A request changes no phase on its way down. -/
theorem phase_asked (w : World C) (k : Call C) (c : ContainerId) :
    ((w.asked k).container c).phase = (w.container c).phase := by
  cases k with
  | get d type qualifiers => exact (container_looked w d _ c).2
  | getApart d type qualifiers => exact (container_looked w.departed d _ c).2
  | _ => rfl

/-- On its way down a request meets a coherent world. -/
theorem Coherent.asked (hw : w.Coherent) (hready : (w.container c).phase = .ready) {k : Call C}
    (hk : w.Resolves c p type k) : (w.asked k).Coherent := by
  cases k with
  | get d t qualifiers =>
    obtain ⟨rfl, _⟩ := hk
    exact hw.looked (has_of_ready hready) _
  | getApart d t qualifiers =>
    obtain ⟨rfl, _⟩ := hk
    exact hw.departed.looked (has_of_ready hready) _
  | _ => exact hw

/-- A call that asks a provider has a reply for every answer of it. -/
theorem Resolves.reply? {k : Call C} (hk : w.Resolves c p type k) (a : Attempted (Value C)) :
    ∃ r, k.reply? a = some r := by
  cases k <;> first | exact ⟨_, rfl⟩ | exact hk.elim

/-- A provider is asked only as a type that it has. -/
theorem Resolves.hasType {k : Call C} (hk : w.Resolves c p type k) :
    p.definition.hasType type = true := by
  -- A provider is found by type only if it answers to it; a match of a selection says so itself.
  have hscan : ∀ {t : TypeKey} {qualifiers : Qualifiers},
      (w.container c).registry.scan (t, qualifiers) = .ok p → p.definition.hasType t = true := by
    intro t qualifiers h
    have hexact := (Registry.mem_of_scan h).2
    unfold Provider.isExact at hexact
    exact (Bool.and_eq_true_iff.1 hexact).1
  cases k with
  | get d t qualifiers | getApart d t qualifiers =>
    obtain ⟨_, rfl, _, h⟩ := hk
    exact hscan h
  | single s => exact hk.2.2.1
  | advance cursor => exact hk.2.2.1
  | _ => exact hk.elim

/-- A provider that is asked is held by the container that is asked. -/
theorem Resolves.holds {k : Call C} (hk : w.Resolves c p type k) : w.Holds c p := by
  cases k with
  | get d t qualifiers | getApart d t qualifiers => exact (Registry.mem_of_scan hk.2.2.2).1
  | single s =>
    obtain ⟨_, _, _, id, _, h⟩ := hk
    exact (Registry.mem_of_provider? h).1
  | advance cursor =>
    obtain ⟨_, _, _, id, rest, _, h⟩ := hk
    exact (Registry.mem_of_provider? h).1
  | _ => exact hk.elim

/-- A call asks one provider, for one type. -/
theorem Resolves.unique {k : Call C} {d : ContainerId} {q : Provider C} {t : TypeKey}
    (hp : w.Resolves c p type k) (hq : w.Resolves d q t k) : c = d ∧ p = q ∧ type = t := by
  cases k with
  -- Whatever the route, the provider is what a lookup in the same world found.
  | get _ _ _ | getApart _ _ _ =>
    obtain ⟨rfl, rfl, _, hp⟩ := hp
    obtain ⟨rfl, rfl, _, hq⟩ := hq
    exact ⟨rfl, Except.ok.inj (hp.symm.trans hq), rfl⟩
  | single s =>
    obtain ⟨rfl, rfl, _, id, hid, hp⟩ := hp
    obtain ⟨rfl, rfl, _, id', hid', hq⟩ := hq
    obtain rfl : id = id' := (List.cons.inj (hid.symm.trans hid')).1
    exact ⟨rfl, Option.some.inj (hp.symm.trans hq), rfl⟩
  | advance cursor =>
    obtain ⟨rfl, rfl, _, id, rest, hid, hp⟩ := hp
    obtain ⟨rfl, rfl, _, id', rest', hid', hq⟩ := hq
    obtain rfl : id = id' := (List.cons.inj (hid.symm.trans hid')).1
    exact ⟨rfl, Option.some.inj (hp.symm.trans hq), rfl⟩
  | _ => exact hp.elim

/-- Whom a call asks is a matter of the providers alone. -/
theorem Resolves.congr {v : World C} {k : Call C} (hk : w.Resolves c p type k)
    (h : (v.container c).registry.providers = (w.container c).registry.providers) :
    v.Resolves c p type k := by
  -- Looking up by identity goes by the providers as well.
  have hprovider : ∀ id, (v.container c).registry.provider? id =
      (w.container c).registry.provider? id := by
    intro id
    unfold Registry.provider?
    rw [h]
  cases k with
  | get _ _ _ | getApart _ _ _ =>
    obtain ⟨rfl, rfl, htype, hp⟩ := hk
    exact ⟨rfl, rfl, htype, (Registry.scan_congr h).trans hp⟩
  | single s =>
    obtain ⟨rfl, rfl, htype, id, hid, hp⟩ := hk
    exact ⟨rfl, rfl, htype, id, hid, (hprovider id).trans hp⟩
  | advance cursor =>
    obtain ⟨rfl, rfl, htype, id, rest, hid, hp⟩ := hk
    exact ⟨rfl, rfl, htype, id, rest, hid, (hprovider id).trans hp⟩
  | _ => exact hk.elim

/-- A request that is met by a provider is none for the container itself. -/
theorem Resolves.not_isForContainer {k : Call C} (hk : w.Resolves c p type k) :
    ¬ k.IsForContainer := by
  cases k with
  | get _ _ _ | getApart _ _ _ =>
    obtain ⟨_, _, hne, _⟩ := hk
    exact hne
  | single | advance => exact not_false
  | _ => exact hk.elim

end World

namespace Host

/-- What begins by reading a container is answered only if the container is there. -/
theorem has_of_exec_bind_container {β : Type} {f : Container C → Attempt C β} {r : Attempted β}
    {v : World C} (hexec : (step (Machine.container c) >>= f).run.exec w = (some r, v)) :
    w.Has c := by
  rcases hk : w.containers.get? c with _ | k
  · rw [exec_bind_none (exec_step_none (Machine.exec_container_of_none hk))] at hexec
    cases hexec
  · exact ⟨k, hk⟩

/-! ## The way to a provider -/

/-- A call comes from the first world to the second one, where it is left to a provider to answer
it. -/
inductive Reaches (h : Host C) :
    Call C → World C → ContainerId → Provider C → TypeKey → World C → Prop
  | get {c : ContainerId} {type : TypeKey} {qualifiers : Qualifiers} {p : Provider C}
      {w u : World C} : (ensureReady h c).run.exec w = (some (.ok ()), u) → u.Has c →
      type ≠ .container → ((u.container c).registry.findUnique (type, qualifiers)).1 = .ok p →
      Reaches h (.get c type qualifiers) w c p type (u.looked c (type, qualifiers))
  | getApart {c : ContainerId} {type : TypeKey} {qualifiers : Qualifiers} {p : Provider C}
      {w u : World C} : Reaches h (.get c type qualifiers) w.departed c p type u →
      Reaches h (.getApart c type qualifiers) w c p type u
  | single {s : Selection} {id : ProviderId} {p : Provider C} {w : World C} :
      s.providers = [id] → w.Has s.container → (w.container s.container).phase ≠ .unconfigured →
      (w.container s.container).registry.provider? id = some p →
      Reaches h (.single s) w s.container p s.type w
  | advance {cursor : Cursor} {id : ProviderId} {rest : List ProviderId} {p : Provider C}
      {w : World C} : cursor.rest = id :: rest → w.Has cursor.selection.container →
      (w.container cursor.selection.container).phase ≠ .unconfigured →
      (w.container cursor.selection.container).registry.provider? id = some p →
      Reaches h (.advance cursor) w cursor.selection.container p cursor.selection.type w

/-- A call asks a provider for its value in the second world, for one of its types. -/
def Asks (h : Host C) (k : Call C) (w : World C) (c : ContainerId) (p : Provider C)
    (type : TypeKey) (v : World C) : Prop :=
  ∃ u, h.Reaches k w c p type u ∧ (ensureReady h c).run.exec u = (some (.ok ()), v)

variable {k : Call C} {u v : World C}

/-- A request that finds its provider comes down to asking this provider. -/
theorem exec_getObject_of_found {qualifiers : Qualifiers}
    (hopened : (ensureReady h c).run.exec w = (some (.ok ()), u)) (hc : u.Has c)
    (htype : type ≠ .container)
    (hp : ((u.container c).registry.findUnique (type, qualifiers)).1 = .ok p) :
    (getObject h c type qualifiers).run.exec w =
      (provideAs h c p type).run.exec (u.looked c (type, qualifiers)) := by
  unfold getObject askOnly
  refine (exec_bind_ok hopened).trans ?_
  rw [if_neg htype]
  refine (exec_bind_container hc _).trans ?_
  unfold World.looked
  rcases hfound : (u.container c).registry.findUnique (type, qualifiers) with ⟨found, registry⟩
  rw [hfound] at hp
  obtain rfl : found = .ok p := hp
  refine (exec_bind_ok (exec_step_some (Machine.exec_setRegistry ..))).trans ?_
  exact exec_bind_ok (exec_step_some (Machine.exec_report ..))

/-- So does the resolution of a match that its container holds. -/
theorem exec_resolveMatch_of_found {s : Selection} {id : ProviderId} (hc : w.Has s.container)
    (hphase : (w.container s.container).phase ≠ .unconfigured)
    (hp : (w.container s.container).registry.provider? id = some p) :
    (resolveMatch h s id).run.exec w = (provideAs h s.container p s.type).run.exec w := by
  unfold resolveMatch
  refine (exec_bind_container hc _).trans ?_
  rw [if_neg hphase, hp]

/-- A call that has come to a provider hands on its answer. -/
theorem exec_answer_of_reaches (hk : h.Reaches k w c p type u) :
    (h.answer k).exec w =
      match (provideAs h c p type).run.exec u with
      | (some a, v) => (k.reply? a, w.replied k v)
      | (none, v) => (none, v) := by
  cases hk with
  | get hopened hc htype hp =>
    refine (exec_getObject_of_found hopened hc htype hp).trans ?_
    rcases (provideAs h c p type).run.exec _ with ⟨_ | a, v⟩ <;> rfl
  | @getApart _ _ qualifiers _ _ _ hget =>
    -- The thread that asks waits, and the request begins with nothing under construction.
    cases hget with
    | get hopened hc htype hp =>
      have hapart := Machine.exec_apart (getObject h c type qualifiers).run w
      rw [exec_getObject_of_found hopened hc htype hp] at hapart
      refine hapart.trans ?_
      rcases (provideAs h c p type).run.exec _ with ⟨_ | a, v⟩ <;> rfl
  | single hid hc hphase hp =>
    show (single h _).run.exec w = _
    unfold single
    rw [hid]
    dsimp only
    rw [exec_resolveMatch_of_found hc hphase hp]
    rcases (provideAs h _ p _).run.exec w with ⟨_ | a, v⟩ <;> rfl
  | @advance cursor id rest _ _ hid hc hphase hp =>
    -- The walk goes on behind the match, whatever comes of it.
    have hmatch := exec_resolveMatch_of_found (h := h) hc hphase hp
    show (advance h cursor).exec w = _
    unfold advance
    rw [Cursor.match?_of_rest hid]
    dsimp only
    rcases hprovide : (provideAs h cursor.selection.container p cursor.selection.type).run.exec w
      with ⟨_ | a, v⟩
    · exact Machine.exec_bind_none (hmatch.trans hprovide)
    · exact Machine.exec_bind_some (hmatch.trans hprovide)

/-- What a provider is asked for, as a type that it may not have. -/
def converting (p : Provider C) (type : TypeKey) : Attempted (Value C) → Attempted (Value C)
  | .ok y =>
    match p.definition.convert? type y with
    | some x => .ok x
    | none => .error (.invocation (Label.member p.definition.implementation.name "cast")
        (.notExposed type))
  | .error e => .error e

/-- Asking a provider as a type is asking for its value and casting what comes. -/
theorem exec_provideAs_of_opened (hopened : (ensureReady h c).run.exec u = (some (.ok ()), v)) :
    (provideAs h c p type).run.exec u =
      match (provide h c p).run.exec v with
      | (some a, z) => (some (converting p type a), z)
      | (none, z) => (none, z) := by
  unfold provideAs asType
  refine (exec_bind_ok hopened).trans ?_
  rw [exec_bind]
  rcases (provide h c p).run.exec v with ⟨_ | e | y, z⟩
  · rfl
  · rfl
  · unfold converting
    dsimp only
    rcases p.definition.convert? type y with _ | x <;> rfl

/-- A call that asks a provider hands on its value, as the type that it is asked for, or its
failure. -/
theorem exec_answer_of_asks (hk : h.Asks k w c p type v) {a : Attempted (Value C)} {z : World C}
    (hprovide : (provide h c p).run.exec v = (some a, z)) :
    (h.answer k).exec w = (k.reply? (converting p type a), w.replied k z) := by
  obtain ⟨u, hreaches, hopened⟩ := hk
  rw [exec_answer_of_reaches hreaches, exec_provideAs_of_opened hopened, hprovide]

/-- A call that asks a provider and is answered has its answer from the provider. -/
theorem exec_provide_of_answer (hk : h.Asks k w c p type v) {r : Reply C k} {z : World C}
    (hexec : (h.answer k).exec w = (some r, z)) :
    ∃ a v', (provide h c p).run.exec v = (some a, v') ∧
      k.outcome? r = some (converting p type a) ∧ z = w.replied k v' := by
  rcases hprovide : (provide h c p).run.exec v with ⟨_ | a, v'⟩
  · obtain ⟨u, hreaches, hopened⟩ := hk
    rw [exec_answer_of_reaches hreaches, exec_provideAs_of_opened hopened, hprovide] at hexec
    cases hexec
  · rw [exec_answer_of_asks hk hprovide] at hexec
    obtain ⟨hreply, rfl⟩ := Prod.mk.inj hexec
    exact ⟨a, v', rfl, Call.outcome?_of_reply? hreply, rfl⟩

/-- A cast that succeeds is one of a value that came without a failure. -/
theorem converting_eq_ok {a : Attempted (Value C)} {x : Value C}
    (h : converting p type a = .ok x) : ∃ y, a = .ok y ∧ p.definition.convert? type y = some x := by
  rcases a with e | y
  · cases h
  · unfold converting at h
    rcases hx : p.definition.convert? type y with _ | x' <;> simp only [hx] at h <;> cases h
    exact ⟨y, rfl, hx⟩

/-- On the way to a provider nothing begins or ends that goes beyond a validation. -/
theorem Reaches.later {D : Outline} (hl : h.Lawful D) (hk : h.Reaches k w c p type u)
    (hw : w.Coherent) :
    (u.Coherent ∧ w.Frame u ∧ u.underway = w.underway) ∧ u.Holds c p ∧
      (u.container c).phase ≠ .unconfigured := by
  induction hk with
  -- Only a lookup moves the world, when it is the first to open the container and when it
  -- remembers.
  | @get c type qualifiers p w u hopened hc htype hp =>
    obtain ⟨hcourse, hopen⟩ := Machine.Follows.ends (ensureReady_follows hl c w) hw hopened
    have hu := hcourse.coherent hw
    obtain ⟨hproviders, hphase⟩ := u.container_looked c (type, qualifiers) c
    have hquiet := (remembering hc (type, qualifiers) rfl).1
    refine ⟨⟨hu.looked hc _, ?_, (hcourse.level rfl).underway⟩, ?_, ?_⟩
    · exact (hcourse.frame.trans hquiet.frame).trans (.enter _ _)
    · unfold World.Holds
      rw [hproviders]
      exact (Registry.mem_of_scan ((Registry.findUnique_fst (hu.recalled c)).symm.trans hp)).1
    · rw [hphase]
      exact hopen.isOpen.ne_unconfigured
  -- On a thread of its own the same happens with an empty stack.
  | @getApart c type qualifiers p w u _ ih =>
    obtain ⟨⟨hu, hframe, hunderway⟩, hfound⟩ := ih hw.departed
    exact ⟨⟨hu, (World.Frame.departed w).trans hframe, hunderway⟩, hfound⟩
  | single _ _ hphase hp =>
    exact ⟨⟨hw, .refl _, rfl⟩, (Registry.mem_of_provider? hp).1, hphase⟩
  | advance _ _ hphase hp =>
    exact ⟨⟨hw, .refl _, rfl⟩, (Registry.mem_of_provider? hp).1, hphase⟩

/-- A provider is asked only in a container that is ready. -/
theorem Asks.later {D : Outline} (hl : h.Lawful D) (hk : h.Asks k w c p type v)
    (hw : w.Coherent) :
    (v.Coherent ∧ w.Frame v ∧ v.underway = w.underway) ∧ v.Holds c p ∧
      (v.container c).phase = .ready := by
  obtain ⟨u, hreaches, hopened⟩ := hk
  obtain ⟨hlater, hholds, hphase⟩ := hreaches.later hl hw
  obtain ⟨-, hopen⟩ := Machine.Follows.ends (ensureReady_follows hl c u) hlater.1 hopened
  obtain ⟨rfl, hready⟩ := hopen.unchanged hphase
  exact ⟨hlater, hholds, hready⟩

/-- A call that reaches a provider has a reply for every answer of it. -/
theorem Reaches.reply? (hk : h.Reaches k w c p type u) (a : Attempted (Value C)) :
    ∃ r, k.reply? a = some r := by
  cases hk <;> exact ⟨_, rfl⟩

/-! ## The way back from an answer -/

variable {x : Value C} {z : World C}

/-- A provider that gives a value as some type has opened its container, has given a value and has
cast it. -/
theorem provideAs_eq_ok (hexec : (provideAs h c p type).run.exec u = (some (.ok x), z)) :
    ∃ v y, (ensureReady h c).run.exec u = (some (.ok ()), v) ∧
      (provide h c p).run.exec v = (some (.ok y), z) ∧ p.definition.convert? type y = some x := by
  unfold provideAs asType at hexec
  obtain ⟨_, v, hopened, hexec⟩ := exec_bind_ok_iff.1 hexec
  obtain ⟨y, v', hprovide, hend⟩ := exec_bind_ok_iff.1 hexec
  rcases hx : p.definition.convert? type y with _ | x' <;> rw [hx] at hend <;> cases hend
  exact ⟨v, y, hopened, hprovide, hx⟩

/-- A request that is met with an object has reached a provider, which was asked. -/
theorem getObject_eq_ok {qualifiers : Qualifiers}
    (hexec : (getObject h c type qualifiers).run.exec w = (some (.ok x), z))
    (htype : type ≠ .container) :
    ∃ p u, h.Reaches (.get c type qualifiers) w c p type u ∧
      (provideAs h c p type).run.exec u = (some (.ok x), z) := by
  -- What the lookup finds decides; it is read off a copy, as the whole request is needed as well.
  have hfinds := hexec
  unfold getObject askOnly at hfinds
  obtain ⟨_, u, hopened, hfinds⟩ := exec_bind_ok_iff.1 hfinds
  rw [if_neg htype] at hfinds
  have hc := has_of_exec_bind_container hfinds
  rw [exec_bind_container hc] at hfinds
  rcases hfound : (u.container c).registry.findUnique (type, qualifiers) with ⟨e | p, registry⟩
  · -- Where nothing is found the request fails.
    rw [hfound] at hfinds
    obtain ⟨_, u', -, hfinds⟩ := exec_bind_ok_iff.1 hfinds
    obtain ⟨_, u'', -, hfinds⟩ := exec_bind_ok_iff.1 hfinds
    cases hfinds
  · have hp := congrArg Prod.fst hfound
    rw [exec_getObject_of_found hopened hc htype hp] at hexec
    exact ⟨p, _, .get hopened hc htype hp, hexec⟩

/-- A match that is resolved is held by a container that was validated, and is asked there. -/
theorem resolveMatch_eq_ok {s : Selection} {id : ProviderId}
    (hexec : (resolveMatch h s id).run.exec w = (some (.ok x), z)) :
    w.Has s.container ∧ (w.container s.container).phase ≠ .unconfigured ∧
      ∃ p, (w.container s.container).registry.provider? id = some p ∧
        (provideAs h s.container p s.type).run.exec w = (some (.ok x), z) := by
  unfold resolveMatch at hexec
  have hc := has_of_exec_bind_container hexec
  rw [exec_bind_container hc] at hexec
  by_cases hphase : (w.container s.container).phase = .unconfigured
  · rw [if_pos hphase] at hexec
    cases hexec
  rw [if_neg hphase] at hexec
  rcases hp : (w.container s.container).registry.provider? id with _ | p <;> rw [hp] at hexec
  · cases hexec
  · exact ⟨hc, hphase, p, rfl, hexec⟩

/-- A call that is answered with a value asks for the container, or else has come to a provider. -/
theorem reaches_of_answer {r : Reply C k} (hexec : (h.answer k).exec w = (some r, z))
    (hx : k.outcome? r = some (.ok x)) :
    k.IsForContainer ∨ ∃ c p type u v, h.Reaches k w c p type u ∧
      (provideAs h c p type).run.exec u = (some (.ok x), v) ∧ z = w.replied k v := by
  cases k with
  | get c type qualifiers =>
    -- A request for the container itself reaches no provider.
    cases hx
    by_cases htype : type = .container
    · exact .inl htype
    · obtain ⟨p, u, hreaches, hprovide⟩ := getObject_eq_ok hexec htype
      exact .inr ⟨c, p, type, u, z, hreaches, hprovide, rfl⟩
  | getApart c type qualifiers =>
    cases hx
    by_cases htype : type = .container
    · exact .inl htype
    -- The thread of its own hands back what the request there answered.
    · have hapart := (Machine.exec_apart (getObject h c type qualifiers).run w).symm.trans hexec
      rcases hget : (getObject h c type qualifiers).run.exec w.departed with ⟨_ | r, v⟩ <;>
        rw [hget] at hapart <;> cases hapart
      obtain ⟨p, u, hreaches, hprovide⟩ := getObject_eq_ok hget htype
      exact .inr ⟨c, p, type, u, v, .getApart hreaches, hprovide, rfl⟩
  | single s =>
    cases hx
    have hexec : (single h s).run.exec w = (some (.ok x), z) := hexec
    unfold single at hexec
    -- A single match exists only where there is exactly one.
    rcases hid : s.providers with _ | ⟨id, _ | ⟨id', rest⟩⟩ <;> rw [hid] at hexec
    · cases hexec
    · obtain ⟨hc, hphase, p, hp, hprovide⟩ := resolveMatch_eq_ok hexec
      exact .inr ⟨_, p, _, w, z, .single hid hc hphase hp, hprovide, rfl⟩
    · cases hexec
  | advance cursor =>
    have hexec : (advance h cursor).exec w = (some r, z) := hexec
    unfold advance at hexec
    rcases hid : cursor.match? with _ | id <;> rw [hid] at hexec
    -- A walk at its end answers nothing.
    · cases hexec
      cases hx
    · obtain ⟨a, u, hmatch, hend⟩ := Machine.exec_bind_iff.1 hexec
      cases hend
      cases hx
      obtain ⟨hc, hphase, p, hp, hprovide⟩ := resolveMatch_eq_ok hmatch
      exact .inr ⟨_, p, _, w, z, .advance (Cursor.rest_of_some hid) hc hphase hp, hprovide, rfl⟩
  | _ => cases hx

/-- A call that is answered with a value asks for the container, or else has asked a provider and
hands on its value. -/
theorem asks_of_answer {r : Reply C k} (hexec : (h.answer k).exec w = (some r, z))
    (hx : k.outcome? r = some (.ok x)) :
    k.IsForContainer ∨ ∃ c p type v y v', h.Asks k w c p type v ∧
      (provide h c p).run.exec v = (some (.ok y), v') ∧ p.definition.convert? type y = some x ∧
      z = w.replied k v' := by
  rcases reaches_of_answer hexec hx with h | ⟨c, p, type, u, v', hreaches, hprovide, hz⟩
  · exact .inl h
  · obtain ⟨v, y, hopened, hprovide, hconvert⟩ := provideAs_eq_ok hprovide
    exact .inr ⟨c, p, type, v, y, v', ⟨u, hreaches, hopened⟩, hprovide, hconvert, hz⟩

/-! ## Containers that are ready -/

/-- A container that is ready needs no validation to be asked. -/
theorem exec_ensureReady (hready : (w.container c).phase = .ready) :
    (ensureReady h c).run.exec w = (some (.ok ()), w) := by
  unfold ensureReady
  refine (exec_bind_container (World.has_of_ready hready) _).trans ?_
  rw [hready]
  rfl

/-- In a container that is ready a request asks the provider that a plain look through the list
finds. -/
theorem exec_getObject (hr : (w.container c).registry.Recalls)
    (hready : (w.container c).phase = .ready) (htype : type ≠ .container)
    {qualifiers : Qualifiers} (hp : (w.container c).registry.scan (type, qualifiers) = .ok p) :
    (getObject h c type qualifiers).run.exec w =
      (provideAs h c p type).run.exec (w.looked c (type, qualifiers)) :=
  exec_getObject_of_found (exec_ensureReady hready) (World.has_of_ready hready) htype
    ((Registry.findUnique_fst hr).trans hp)

theorem exec_select_of_opened (hopened : (ensureReady h c).run.exec w = (some (.ok ()), u))
    (hc : u.Has c) (qualifiers : Qualifiers) :
    (select h c type qualifiers).run.exec w =
      let found := (u.container c).registry.findAll (type, qualifiers)
      (some (.ok ⟨c, type, qualifiers, found.map (·.id)⟩),
        u.enter (.event c (.selecting type qualifiers found.length))) := by
  unfold select
  refine (exec_bind_ok hopened).trans ?_
  refine (exec_bind_container hc _).trans ?_
  exact exec_bind_ok (exec_step_some (Machine.exec_report ..))

/-- In a container that is ready a selection lists what is found there. -/
theorem exec_select (hready : (w.container c).phase = .ready) (qualifiers : Qualifiers) :
    (select h c type qualifiers).run.exec w =
      let found := (w.container c).registry.findAll (type, qualifiers)
      (some (.ok ⟨c, type, qualifiers, found.map (·.id)⟩),
        w.enter (.event c (.selecting type qualifiers found.length))) :=
  exec_select_of_opened (exec_ensureReady hready) (World.has_of_ready hready) qualifiers

/-- In a container that is ready, nothing happens before the provider is asked. -/
theorem Reaches.of_resolves (hw : w.Coherent) (hready : (w.container c).phase = .ready)
    (hk : w.Resolves c p type k) : h.Reaches k w c p type (w.asked k) := by
  have hne : (w.container c).phase ≠ .unconfigured := by
    rw [hready]
    decide
  cases k with
  -- The container is ready, so nothing is opened, and the lookup finds what a scan does.
  | get d t qualifiers =>
    obtain ⟨rfl, rfl, htype, hp⟩ := hk
    exact .get (exec_ensureReady hready) (World.has_of_ready hready) htype
      ((Registry.findUnique_fst (hw.recalled d)).trans hp)
  | getApart d t qualifiers =>
    obtain ⟨rfl, rfl, htype, hp⟩ := hk
    have hready' : (w.departed.container d).phase = .ready := hready
    exact .getApart (.get (exec_ensureReady hready') (World.has_of_ready hready') htype
      ((Registry.findUnique_fst (hw.departed.recalled d)).trans hp))
  | single s =>
    obtain ⟨rfl, rfl, _, id, hid, hp⟩ := hk
    exact .single hid (World.has_of_ready hready) hne hp
  | advance cursor =>
    obtain ⟨rfl, rfl, _, id, rest, hid, hp⟩ := hk
    exact .advance hid (World.has_of_ready hready) hne hp
  | _ => exact hk.elim

/-- A call that asks a provider in a container that is ready hands on its answer. -/
theorem exec_answer (hw : w.Coherent) (hready : (w.container c).phase = .ready) {k : Call C}
    (hk : w.Resolves c p type k) :
    (h.answer k).exec w =
      match (provideAs h c p type).run.exec (w.asked k) with
      | (some a, v) => (k.reply? a, w.replied k v)
      | (none, v) => (none, v) :=
  exec_answer_of_reaches (.of_resolves hw hready hk)

/-- A provider is asked for its value as a type that it has. -/
theorem exec_provideAs (hready : (w.container c).phase = .ready) :
    (provideAs h c p type).run.exec w =
      match (provide h c p).run.exec w with
      | (some (.ok y), v) =>
        match p.definition.convert? type y with
        | some x => (some (.ok x), v)
        | none => (some (.error (.invocation (Label.member p.definition.implementation.name "cast")
            (.notExposed type))), v)
      | (some (.error e), v) => (some (.error e), v)
      | (none, v) => (none, v) := by
  rw [exec_provideAs_of_opened (exec_ensureReady hready)]
  rcases (provide h c p).run.exec w with ⟨_ | e | y, v⟩
  · rfl
  · rfl
  · unfold converting
    dsimp only
    rcases p.definition.convert? type y with _ | x <;> rfl

end Host

end Wiring
