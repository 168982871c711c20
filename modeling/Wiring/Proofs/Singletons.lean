import Wiring.Proofs.Asking
import Wiring.Proofs.Sample
import Wiring.Proofs.Writing

/-!
# Singletons are made once

While a singleton is under construction it does not begin anew, and once it was made it is kept
or its container is torn down. So it is made once, whoever asks for it gets what was made then,
and as long as all attempts have failed the next one is a new attempt.

Main statement: `Codebase.singleton_made_once`.
-/

namespace Wiring

variable {C : Client} {D : Outline}

/-! ## No new beginning during a construction -/

/-- An entry that does not say that a provider begins to make a value. -/
def Entry.IsNoStart (x : ProviderId) (e : Entry C) : Prop := e ≠ .milestone (.started x)

/-- Writing entries that start nothing leaves the number of starts as it was. -/
theorem World.Writes.starts {w v : World C} {x : ProviderId}
    (h : World.Writes (Entry.IsNoStart x) w v) : v.starts x = w.starts x := by
  obtain ⟨new, hnew, hall⟩ := h
  -- No beginning of the provider is among what is new.
  have hnone : (historyIn x new).countP Milestone.isStarted = 0 := by
    refine List.countP_eq_zero.2 fun m hm hstarted => ?_
    obtain ⟨e, he, hem⟩ := List.mem_filterMap.1 hm
    obtain ⟨rfl, hx⟩ := Entry.about?_eq_some_iff.1 hem
    cases m with
    | started y =>
      obtain rfl := Option.some.inj hx
      exact hall _ he rfl
    | _ => cases hstarted
  unfold World.starts World.history
  rw [hnew, historyIn_append, List.countP_append, hnone, Nat.zero_add]

/-- A singleton does not begin to make a value while it is under construction. -/
theorem admits_isNoStart (c : ContainerId) {p : Provider C} (hs : p.definition.scope = .singleton) :
    Admits (fun w => (w.container c).phase ≠ .unconfigured ∧ w.Holds c p ∧ p.id ∈ w.underway)
      (fun _ => True) (Entry.IsNoStart p.id) where
  later w v hw hwv hunderway :=
    ⟨(hwv.container c).phase.ne_unconfigured hw.1, hw.2.1.later hw.1 hwv, hunderway hw.2.2⟩
  plain e he := by
    rintro rfl
    cases he
  unmatched w d type qualifiers e _ _ := nofun
  reused w d q x _ _ _ _ := nofun
  making w d q hw hI hb := by
    refine ⟨fun h => ?_, fun y => ⟨nofun, nofun⟩⟩
    obtain ⟨_, hp, hunderway⟩ := hI
    -- It would be the same provider, and that may not begin while it is under construction.
    have hid : q.id = p.id := Milestone.started.inj (Entry.milestone.inj h)
    obtain ⟨_, rfl⟩ := hw.unique d q c p hb.holds hp hid
    exact hb.not_underway hs hunderway
  tearing w d _ _ := ⟨True.intro, fun _ _ => nofun⟩
  sweeping w d q _ _ _ _ y := ⟨nofun, nofun⟩

/-! ## What is known of a singleton at any time -/

namespace World

/-- A singleton has made at most one value, none while it is under construction, and no other value
is kept for it. -/
structure MadeOnce (w : World C) (p : Provider C) : Prop where
  once : (w.mades p.id).length ≤ 1
  underway : p.id ∈ w.underway → w.mades p.id = []
  kept : ∀ y, w.kept.get? p.id = some y → w.mades p.id = [y]

variable {w v : World C} {c : ContainerId} {p : Provider C}

/-- In a coherent world a singleton was made at most once, and its slot holds what was made. -/
theorem Coherent.madeOnce (hw : w.Coherent) (hp : w.Holds c p)
    (hs : p.definition.scope = .singleton) : w.MadeOnce p := by
  have ha := hw.account c p hp
  refine ⟨ha.made_once hs, ha.not_made hs, fun y hy => ?_⟩
  have hmades := Host.mades_of_kept hw hp hs hy
  have honce := ha.made_once hs
  rw [hmades] at honce
  rw [hmades, List.length_eq_zero_iff.1 (Nat.le_zero.1 (Nat.le_of_succ_le_succ honce))]

/-- Nothing is kept for a singleton that has made nothing. -/
theorem MadeOnce.not_kept (h : w.MadeOnce p) (hnil : w.mades p.id = []) :
    w.kept.get? p.id = none := by
  rcases hkept : w.kept.get? p.id with _ | y
  · rfl
  · have hmades := h.kept y hkept
    rw [hnil] at hmades
    cases hmades

/-- A singleton that has made a value has made the same one ever after. -/
theorem MadeOnce.later {y : Value C} (h : v.MadeOnce p) (hwv : w.Frame v)
    (hmades : w.mades p.id = [y]) : v.mades p.id = [y] := by
  have hsuffix : w.mades p.id <:+ v.mades p.id := (hwv.history p.id).filterMap _
  rw [hmades] at hsuffix
  exact (hsuffix.eq_of_length_le h.once).symm

/-- Only an open container holds a provider that has made a value. -/
theorem Coherent.isOpen_of_mades (hw : w.Coherent) (hp : w.Holds c p) (h : w.mades p.id ≠ []) :
    (w.container c).phase.IsOpen := by
  obtain ⟨d, q, hq, hid, hopen⟩ := hw.known_of_mades h
  obtain ⟨rfl, _⟩ := hw.unique d q c p hq hp hid
  exact hopen

end World

/-! ## One more attempt -/

/-- What has come of one more attempt of a singleton to make a value. -/
structure World.Tried (w v : World C) (p : Provider C) (a : Attempted (Value C)) : Prop where
  started : v.starts p.id = w.starts p.id + 1
  ok : ∀ y, a = .ok y → v.mades p.id = [y] ∧ v.kept.get? p.id = some y
  error : ∀ e, a = .error e → v.mades p.id = [] ∧ v.kept.get? p.id = none

theorem World.starts_begun (w : World C) (c : ContainerId) (p : Provider C) :
    (w.begun c p).starts p.id = w.starts p.id + 1 := by
  have hself : (w.begun c p).history p.id = .started p.id :: w.history p.id :=
    historyIn_milestone_self rfl _
  unfold starts
  rw [hself, List.countP_cons_of_pos rfl]

theorem World.Tried.congr {w w' v v' : World C} {p : Provider C} {a : Attempted (Value C)}
    (h : w.Tried v p a) (hw : w'.history p.id = w.history p.id) (hv : v'.journal = v.journal)
    (hk : v'.kept = v.kept) : w'.Tried v' p a := by
  -- All that is tried is told by the history, the journal's tail and the slots.
  have hmades : v'.mades p.id = v.mades p.id := by
    unfold World.mades World.history
    rw [hv]
  refine ⟨?_, fun y hy => ?_, fun e he => ?_⟩
  · have hstarted := h.started
    unfold World.starts at hstarted ⊢
    rw [hw, ← hstarted]
    unfold World.history
    rw [hv]
  · rw [hmades, hk]
    exact h.ok y hy
  · rw [hmades, hk]
    exact h.error e he

namespace Host

variable {h : Host C} {w v : World C} {c : ContainerId} {p : Provider C}

/-- A singleton that may begin is tried once more, and its source decides what comes of it. -/
theorem provide_tries (hl : h.Lawful D) (hw : w.Coherent) (hs : p.definition.scope = .singleton)
    (hb : w.CanBegin c p) {a : Attempted (Value C)}
    (hexec : (provide h c p).run.exec w = (some a, v)) :
    (∃ u, (makeBySource h c p.definition).run.exec (w.begun c p) = (some a, u)) ∧
      w.Tried v p a := by
  have hphase : (w.container c).phase ≠ .unconfigured := by
    rw [hb.ready]
    decide
  have hcourse := ((provide_follows hl hb.holds hb.ready).ends hw hexec).1
  have honce := (hcourse.coherent hw).madeOnce (hb.holds.later hphase hcourse.frame) hs
  -- Whatever the source does, the provider does not begin anew meanwhile.
  have hin : ∀ {a u}, (makeBySource h c p.definition).run.exec (w.begun c p) = (some a, u) →
      Course D .work true (w.begun c p) u ∧ u.starts p.id = w.starts p.id + 1 := by
    intro a u hmake
    have hphase' : ((w.begun c p).container c).phase ≠ .unconfigured := hphase
    have hin := ((makeBySource_follows hl p hphase').ends (hw.begun hb) hmake).1
    have hwrites := hin.writes (admits_isNoStart c hs) (hw.begun hb)
      ⟨hphase, hb.holds, List.mem_cons_self⟩ True.intro
    exact ⟨hin, hwrites.starts.trans (w.starts_begun c p)⟩
  rw [exec_provide hb.not_building hb.not_kept hb.not_waiting] at hexec
  rcases hmake : (makeBySource h c p.definition).run.exec (w.begun c p) with ⟨_ | e | y, u⟩ <;>
    rw [hmake] at hexec <;> cases hexec
  · obtain ⟨hin, hstarts⟩ := hin hmake
    have hu := hin.coherent (hw.begun hb)
    have hunderway : p.id ∈ u.underway := by
      rw [hin.underway]
      exact List.mem_cons_self
    have hnil : (u.ended p).mades p.id = [] :=
      (hu.account c p (hb.later hin.frame).1).not_made hs hunderway
    exact ⟨⟨u, rfl⟩, hstarts, nofun, fun _ _ => ⟨hnil, honce.not_kept hnil⟩⟩
  · obtain ⟨_, hstarts⟩ := hin hmake
    have hcompleted := World.Coherent.completed_of_singleton (w := u) (x := y) hs
    have hwrites : World.Writes (Entry.IsNoStart p.id) u (u.completed p y) := by
      rw [hcompleted]
      exact .trans (u := u.enter (.milestone (.made p.id y))) (.entry rfl nofun) (.entry rfl nofun)
    have hkept : (u.completed p y).kept.get? p.id = some y := by
      rw [hcompleted]
      exact Table.get?_put_self _ _ _
    refine ⟨⟨u, rfl⟩, hwrites.starts.trans hstarts, fun y' hy => ?_, nofun⟩
    cases hy
    exact ⟨honce.kept y hkept, hkept⟩

end Host

namespace Codebase

variable {code : Codebase C} {w v : World C} {c : ContainerId} {p : Provider C} {type : TypeKey}
  {k : Call C} {r : Reply C k} {depth : Nat}

/-- A call that asks a singleton for which nothing is kept tries it once more. -/
theorem perform_tries (hw : w.Coherent) (hs : p.definition.scope = .singleton)
    (hready : (w.container c).phase = .ready) (hempty : w.kept.get? p.id = none)
    (hidle : p.id ∉ w.underway) (hk : w.Resolves c p type k)
    (hexec : (code.perform (depth + 1) k).exec w = (some r, v)) :
    ∃ a u, (Host.makeBySource ⟨code, code.perform depth⟩ c p.definition).run.exec
        ((w.asked k).begun c p) = (some a, u) ∧
      w.Tried v p a ∧ ∀ e, a = .error e → k.outcome? r = some (.error e) := by
  have halike := World.Alike.asked w k
  have hready' := (w.phase_asked k c).trans hready
  have hbegin : (w.asked k).CanBegin c p := by
    refine .of_not_underway (halike.holds.2 hk.holds) hready' (fun _ => ?_) ?_
    · rwa [halike.kept]
    · rwa [halike.underway]
  have hanswer : (Host.answer ⟨code, code.perform depth⟩ k).exec w = (some r, v) := hexec
  rw [Host.exec_answer hw hready hk, Host.exec_provideAs hready'] at hanswer
  -- The call got an answer, so the provider did not get stuck.
  rcases hprovide : (Host.provide ⟨code, code.perform depth⟩ c p).run.exec (w.asked k)
    with ⟨_ | a, u⟩
  · rw [hprovide] at hanswer
    cases hanswer
  obtain ⟨⟨u', hmake⟩, htried⟩ := Host.provide_tries (code.describes_any.host_lawful depth)
    (hw.asked hready hk) hs hbegin hprovide
  have htried' : w.Tried (w.replied k u) p a :=
    htried.congr (halike.history p.id).symm (w.journal_replied u k) (w.kept_replied u k)
  rw [hprovide] at hanswer
  rcases a with e | y
  · obtain ⟨hreply, rfl⟩ := Prod.mk.inj hanswer
    refine ⟨.error e, u', hmake, htried', fun e' he => ?_⟩
    cases he
    exact Call.outcome?_of_reply? hreply
  · refine ⟨.ok y, u', hmake, ?_, nofun⟩
    dsimp only at hanswer
    rcases hx : p.definition.convert? type y with _ | x <;> rw [hx] at hanswer <;>
    · obtain ⟨_, rfl⟩ := Prod.mk.inj hanswer
      exact htried'

/-! ## Answers -/

/-- A value is, as some type, the only one that a provider has made where a call has ended, and
the only one that it ever makes. If the provider had made one where the call began, it is that
one. -/
def HandsOut (code : Codebase C) (p : Provider C) (type : TypeKey) (x : Value C) (w v : World C) :
    Prop :=
  ∃ y, p.definition.convert? type y = some x ∧ (w.mades p.id = [] ∨ w.mades p.id = [y]) ∧
    ∀ u, code.Visits v u → u.mades p.id = [y]

/-- What a singleton yields is a cast of the value in its slot, which is written for good. -/
theorem handsOut_of_yields (hv : v.Coherent) (hwv : w.Frame v) (hp : v.Holds c p)
    (hs : p.definition.scope = .singleton) {x : Value C} (hx : v.Yields p type x) :
    code.HandsOut p type x w v := by
  obtain ⟨y, earlier, hmades, hconvert⟩ := hx
  have honce := hv.madeOnce hp hs
  -- A singleton is made once, so the value that is yielded is the only one made.
  have hone : v.mades p.id = [y] := by
    have hlength := honce.once
    rw [hmades] at hlength
    rw [hmades, List.length_eq_zero_iff.1 (Nat.le_zero.1 (Nat.le_of_succ_le_succ hlength))]
  have hphase : (v.container c).phase ≠ .unconfigured := by
    have hne : v.mades p.id ≠ [] := by
      rw [hone]
      exact List.cons_ne_nil _ _
    exact (hv.isOpen_of_mades hp hne).ne_unconfigured
  refine ⟨y, hconvert, ?_, fun u hu => ?_⟩
  -- The history before the request holds that one value or none.
  · have hsuffix : w.mades p.id <:+ v.mades p.id := (hwv.history p.id).filterMap _
    rw [hone] at hsuffix
    rcases List.suffix_cons_iff.1 hsuffix with h | h
    · exact .inr h
    · exact .inl (List.suffix_nil.1 h)
  -- And in every later world it is still the only one.
  · have hcourse := hu.course code.describes_any hv
    have honce' := (hcourse.coherent hv).madeOnce (hp.later hphase hcourse.frame) hs
    exact honce'.later hcourse.frame hone

/-- Every route that resolves a singleton hands out a cast of its one value. -/
theorem perform_handsOut (hw : w.Coherent) (hs : p.definition.scope = .singleton)
    (hexec : (code.perform depth k).exec w = (some r, v)) (hk : v.Resolves c p type k)
    {x : Value C} (hx : k.outcome? r = some (.ok x)) : code.HandsOut p type x w v := by
  obtain ⟨hcourse, hanswered⟩ := (code.perform_follows code.describes_any depth k w).ends hw hexec
  rcases hanswered x hx with h | ⟨d, q, t, hq, hyields⟩
  · exact absurd h hk.not_isForContainer
  obtain ⟨rfl, rfl, rfl⟩ := hk.unique hq
  exact handsOut_of_yields (hcourse.coherent hw) hcourse.frame hk.holds hs hyields

/-- A dependency on an object is met by the answer of a call. -/
theorem resolve_handsOut (hw : w.Coherent) (hs : p.definition.scope = .singleton)
    {member : String} {d : Dependency} {i : Injected C} (hwant : d.want = .object type)
    (hexec : (Host.resolve ⟨code, code.perform depth⟩ c member d).run.exec w = (some (.ok i), v))
    (hk : v.Resolves c p type (.get c type d.qualifiers)) :
    ∃ x, i = ⟨member, .value type x⟩ ∧ code.HandsOut p type x w v := by
  unfold Host.resolve at hexec
  rw [hwant, Host.exec_bind] at hexec
  have hrun : (ExceptT.mk (code.perform depth (.get c type d.qualifiers))).run.exec w =
      (code.perform depth (.get c type d.qualifiers)).exec w := rfl
  rw [hrun] at hexec
  rcases hget : (code.perform depth (.get c type d.qualifiers)).exec w with ⟨_ | e | x, u⟩ <;>
    rw [hget] at hexec <;> cases hexec
  exact ⟨x, rfl, perform_handsOut hw hs hget hk rfl⟩

/-- In every world that a run visits, a singleton has made at most one value and no other is kept
for it. Every call that asks it and succeeds hands out that value, and so does every injection. A
call that asks it while nothing is kept for it and it is not under construction runs its source
once more: what the source makes is kept, and if the source fails nothing is. -/
theorem singleton_made_once {s : C.State} (hw : code.Visits (.blank s) w)
    (hs : p.definition.scope = .singleton) :
    (w.Holds c p → w.MadeOnce p) ∧
    ∀ (depth : Nat) (v : World C),
      (∀ k r, (code.perform depth k).exec w = (some r, v) → v.Holds c p → v.MadeOnce p) ∧
      (∀ k r type x, (code.perform depth k).exec w = (some r, v) → v.Resolves c p type k →
        k.outcome? r = some (.ok x) → code.HandsOut p type x w v) ∧
      (∀ member d type i,
        (Host.resolve ⟨code, code.perform depth⟩ c member d).run.exec w = (some (.ok i), v) →
        d.want = .object type → v.Resolves c p type (.get c type d.qualifiers) →
        ∃ x, i = ⟨member, .value type x⟩ ∧ code.HandsOut p type x w v) ∧
      (∀ k r type, (code.perform (depth + 1) k).exec w = (some r, v) → w.Resolves c p type k →
        (w.container c).phase = .ready → w.kept.get? p.id = none → p.id ∉ w.underway →
        ∃ a u, (Host.makeBySource ⟨code, code.perform depth⟩ c p.definition).run.exec
            ((w.asked k).begun c p) = (some a, u) ∧
          w.Tried v p a ∧ ∀ e, a = .error e → k.outcome? r = some (.error e)) := by
  have hcoherent := hw.coherent
  refine ⟨fun hp => hcoherent.madeOnce hp hs, fun depth v => ⟨?_, ?_, ?_, ?_⟩⟩
  · intro k r hexec hp
    have hcourse := ((code.perform_follows code.describes_any depth k w).ends hcoherent hexec).1
    exact (hcourse.coherent hcoherent).madeOnce hp hs
  · exact fun k r type x hexec hk hx => perform_handsOut hcoherent hs hexec hk hx
  · exact fun member d type i hexec hwant hk => resolve_handsOut hcoherent hs hwant hexec hk
  · exact fun k r type hexec hk hready hempty hidle =>
      perform_tries hcoherent hs hready hempty hidle hk hexec

end Codebase

namespace Sample

def lamp : Provider Sample := ⟨⟨0⟩, (Registration.producer (.named "Lamp") ()).definition⟩

/-- The world after a container with a lamp was validated. -/
def lampValidated : World Sample :=
  ((lamps.run 2 do
    let c ← Program.request .create
    let _ ← Program.request (.register c (.producer (.named "Lamp") ()))
    Program.request (.validate c)).exec blank).2

def lampLit : World Sample :=
  ((lamps.perform 2 (.get ⟨0⟩ (.named "Lamp") ∅)).exec lampValidated).2

/-- The lamp is made once and handed out as it was made. -/
theorem lamp_made_once :
    lampValidated.MadeOnce lamp ∧
      lamps.HandsOut lamp (.named "Lamp") (.object ()) lampValidated lampLit := by
  have hvisits : lamps.Visits blank lampValidated := Codebase.visits_of_run rfl
  have hresolves : lampLit.Resolves ⟨0⟩ lamp (.named "Lamp") (.get ⟨0⟩ (.named "Lamp") ∅) :=
    ⟨rfl, rfl, by decide, rfl⟩
  obtain ⟨honce, hcalls⟩ := Codebase.singleton_made_once (c := ⟨0⟩) (p := lamp) hvisits rfl
  obtain ⟨_, hanswers, _⟩ := hcalls 2 lampLit
  have hexec : (lamps.perform 2 (.get ⟨0⟩ (.named "Lamp") ∅)).exec lampValidated =
      (some (Except.ok (.object ())), lampLit) := rfl
  exact ⟨honce List.mem_cons_self, hanswers _ _ _ _ hexec hresolves rfl⟩

end Sample

end Wiring
