import Wiring.Host.Resolution
import Wiring.Proofs.Conduct.Construction
import Wiring.Proofs.Conduct.Validation

/-!
# Courses of resolution

A provider that may begin is asked to make its value between the beginning and the end of its
construction. Whether the value was kept or is new, it is the provider's latest one.
-/

namespace Wiring.Host

variable {C : Client} {D : Outline} {α : Type} {h : Host C} {w : World C} {c : ContainerId}

/-! ## One provider -/

/-- A making that is asked for from inside itself fails at once and changes nothing. -/
theorem exec_whileBuilding_circular {p : Provider C} (body : Attempt C α)
    (hp : p.id ∈ w.building) :
    (whileBuilding p body).run.exec w =
      (some (.error (.circular p.definition.implementation p.definition.qualifiers)), w) := by
  unfold whileBuilding
  refine (exec_bind_ok (exec_step_some (Machine.exec_get w))).trans ?_
  dsimp only
  rw [if_pos (List.contains_iff_mem.2 hp)]
  rfl

/-- A singleton that another thread is at is waited for; with joined threads the wait has no end. -/
theorem exec_whileBuilding_waiting {p : Provider C} (body : Attempt C α)
    (hp : p.id ∉ w.building) (hs : p.definition.scope = .singleton)
    (hwaiting : ∃ thread ∈ w.waiting, p.id ∈ thread) :
    (whileBuilding p body).run.exec w = (none, w) := by
  obtain ⟨thread, hthread, hmem⟩ := hwaiting
  have hany : (w.waiting.any (·.contains p.id)) = true :=
    List.any_eq_true.2 ⟨thread, hthread, List.contains_iff_mem.2 hmem⟩
  have hawait : (Machine.awaitMaking p.id).exec w = (none, w) := by
    unfold Machine.awaitMaking
    rw [Machine.exec_bind_some (Machine.exec_get w), if_pos hany]
    rfl
  unfold whileBuilding
  refine (exec_bind_ok (exec_step_some (Machine.exec_get w))).trans ?_
  dsimp only
  rw [if_neg (by simpa using hp), if_pos hs]
  exact exec_bind_none (exec_step_none hawait)

/-- What is left of a step once the construction around it has ended. -/
def ending (p : Provider C) :
    Option (Attempted α) × World C → Option (Attempted α) × World C
  | (some r, v) => (some r, v.ended p)
  | (none, v) => (none, v)

/-- A making that nobody is at runs with its provider on the stack. -/
theorem exec_whileBuilding {p : Provider C} (body : Attempt C α) (hp : p.id ∉ w.building)
    (hwaiting : p.definition.scope = .singleton → ∀ thread ∈ w.waiting, p.id ∉ thread) :
    (whileBuilding p body).run.exec w =
      ending p (body.run.exec { w with building := p.id :: w.building }) := by
  have hawait : p.definition.scope = .singleton →
      (Machine.awaitMaking p.id).exec w = (some ⟨⟩, w) := by
    intro hs
    have hany : (w.waiting.any (·.contains p.id)) = false := by
      rw [List.any_eq_false]
      intro thread hthread
      simpa using hwaiting hs thread hthread
    unfold Machine.awaitMaking
    rw [Machine.exec_bind_some (Machine.exec_get w), if_neg (by rw [hany]; decide)]
    rfl
  -- The bracket is the same for both scopes; a singleton only has to wait for it first.
  have hbracket : (do
      step (Machine.beginBuilding p.id)
      let r ← resultOf body
      step (Machine.endBuilding p.id)
      settle r : Attempt C α).run.exec w =
        ending p (body.run.exec { w with building := p.id :: w.building }) := by
    refine (exec_bind_ok (exec_step_some (Machine.exec_beginBuilding ..))).trans ?_
    rcases hbody : body.run.exec { w with building := p.id :: w.building } with ⟨_ | r, v⟩
    · exact exec_bind_none (exec_resultOf_none hbody)
    · refine (exec_bind_ok (exec_resultOf_some hbody)).trans ?_
      exact exec_bind_ok (exec_step_some (Machine.exec_endBuilding ..))
  unfold whileBuilding
  refine (exec_bind_ok (exec_step_some (Machine.exec_get w))).trans ?_
  dsimp only
  rw [if_neg (by simpa using hp)]
  by_cases hs : p.definition.scope = .singleton
  · rw [if_pos hs]
    exact (exec_bind_ok (exec_step_some (hawait hs))).trans hbracket
  · rw [if_neg hs]
    exact hbracket

/-- What is left of a step that makes a value once the construction around it has ended. -/
def completing (p : Provider C) :
    Option (Attempted (Value C)) × World C → Option (Attempted (Value C)) × World C
  | (some (.ok x), v) => (some (.ok x), v.completed p x)
  | (some (.error e), v) => (some (.error e), v.ended p)
  | (none, v) => (none, v)

/-- A making by its source, with what it returns noted at the end. -/
theorem exec_materialize (h : Host C) (c : ContainerId) (p : Provider C) (w : World C) :
    (materialize h c p).run.exec { w with building := p.id :: w.building } =
      match (makeBySource h c p.definition).run.exec (w.begun c p) with
      | (some (.ok x), v) => (some (.ok x), v.enter (.milestone (.made p.id x)))
      | (some (.error e), v) => (some (.error e), v)
      | (none, v) => (none, v) := by
  unfold materialize
  refine (exec_bind_ok (exec_step_some (Machine.exec_report ..))).trans ?_
  refine (exec_bind_ok (exec_step_some (Machine.exec_mark ..))).trans ?_
  show (makeBySource h c p.definition >>= _).run.exec (w.begun c p) = _
  -- The end is noted only after the source has made a value.
  rcases hmake : (makeBySource h c p.definition).run.exec (w.begun c p) with ⟨_ | e | x, v⟩
  · exact exec_bind_none hmake
  · exact exec_bind_error hmake
  · refine (exec_bind_ok hmake).trans ?_
    exact exec_bind_ok (exec_step_some (Machine.exec_mark ..))

/-! ### The two looks at a singleton -/

/-- A kept value is found at the first look, and reported as handed out. -/
theorem exec_look_of_kept {p : Provider C} {x : Value C} (hx : w.kept.get? p.id = some x) :
    (look c p).exec w =
      (some (some x), w.enter (.event c (.reused p.definition.implementation))) := by
  unfold look
  rw [Machine.exec_bind_some (Machine.exec_kept? ..), hx]
  rfl

/-- A look in vain leaves everything as it is. -/
theorem exec_look_of_not_kept {p : Provider C} (hx : w.kept.get? p.id = none) :
    (look c p).exec w = (some none, w) := by
  unfold look
  rw [Machine.exec_bind_some (Machine.exec_kept? ..), hx]
  rfl

/-- A value that is there at the second look is handed out, and nothing else happens. -/
theorem exec_makeOnce_of_kept {p : Provider C} {x : Value C} (hp : p.id ∉ w.building)
    (hwaiting : p.definition.scope = .singleton → ∀ thread ∈ w.waiting, p.id ∉ thread)
    (hx : w.kept.get? p.id = some x) :
    (makeOnce h c p).run.exec w = (some (.ok x), w) := by
  unfold makeOnce
  rw [exec_whileBuilding _ hp hwaiting,
    exec_bind_ok (exec_step_some (Machine.exec_kept? ..))]
  dsimp only
  rw [hx]
  refine Prod.ext rfl ?_
  show World.ended _ p = w
  unfold World.ended
  rw [List.erase_cons_head]

/-- Where nothing is kept at the second look either, the value is made. A thread that is alone comes
here from its first look, and in the world that it left then: it never finds a value now. -/
theorem exec_makeOnce_of_not_kept {p : Provider C} (hs : p.definition.scope = .singleton)
    (hp : p.id ∉ w.building) (hwaiting : ∀ thread ∈ w.waiting, p.id ∉ thread)
    (hx : w.kept.get? p.id = none) :
    (makeOnce h c p).run.exec w =
      completing p ((makeBySource h c p.definition).run.exec (w.begun c p)) := by
  have hmaterialize := exec_materialize h c p w
  unfold makeOnce
  rw [exec_whileBuilding _ hp fun _ => hwaiting,
    exec_bind_ok (exec_step_some (Machine.exec_kept? ..))]
  dsimp only
  rw [hx]
  dsimp only
  -- The second look finds the slot still empty: nobody else was at it.
  rcases hmake : (makeBySource h c p.definition).run.exec (w.begun c p) with ⟨_ | e | x, v⟩ <;>
    rw [hmake] at hmaterialize
  · rw [exec_bind_none hmaterialize]
    rfl
  · rw [exec_bind_error hmaterialize]
    rfl
  · rw [exec_bind_ok hmaterialize, exec_bind_ok (exec_step_some (Machine.exec_keep ..))]
    unfold completing
    dsimp only
    rw [World.Coherent.completed_of_singleton hs]
    rfl

/-- A provider that may begin makes a value. -/
theorem exec_provide {p : Provider C} (hp : p.id ∉ w.building)
    (hkept : p.definition.scope = .singleton → w.kept.get? p.id = none)
    (hwaiting : p.definition.scope = .singleton → ∀ thread ∈ w.waiting, p.id ∉ thread) :
    (provide h c p).run.exec w =
      completing p ((makeBySource h c p.definition).run.exec (w.begun c p)) := by
  unfold provide
  -- Of a singleton the slot is looked at first, and once more by the one that makes it.
  rcases hs : p.definition.scope
  · refine (exec_bind_ok (exec_step_some (exec_look_of_not_kept (hkept hs)))).trans ?_
    exact exec_makeOnce_of_not_kept hs hp (hwaiting hs) (hkept hs)
  · dsimp only
    rw [exec_whileBuilding _ hp hwaiting, exec_materialize]
    rcases hmake : (makeBySource h c p.definition).run.exec (w.begun c p) with ⟨_ | e | x, v⟩
    · rfl
    · rfl
    · unfold completing
      dsimp only
      rw [World.Coherent.completed_of_prototype hs]
      rfl

/-- A singleton whose value is kept hands it out. -/
theorem exec_provide_kept {p : Provider C} {x : Value C} (hs : p.definition.scope = .singleton)
    (hx : w.kept.get? p.id = some x) :
    (provide h c p).run.exec w =
      (some (.ok x), w.enter (.event c (.reused p.definition.implementation))) := by
  unfold provide
  rw [hs]
  exact exec_bind_ok (exec_step_some (exec_look_of_kept hx))

/-- Whatever the scope, a value that is not kept is made within the bracket of a construction. -/
theorem provide_eq_whileBuilding {p : Provider C}
    (hkept : p.definition.scope = .singleton → w.kept.get? p.id = none) :
    ∃ body : Attempt C (Value C),
      (provide h c p).run.exec w = (whileBuilding p body).run.exec w := by
  unfold provide
  rcases hs : p.definition.scope
  · unfold makeOnce
    exact ⟨_, exec_bind_ok (exec_step_some (exec_look_of_not_kept (hkept hs)))⟩
  · exact ⟨_, rfl⟩

/-- A slot that is empty while its making is under way on this thread is reported as circular. -/
theorem exec_provide_circular {p : Provider C} (hp : p.id ∈ w.building)
    (hkept : p.definition.scope = .singleton → w.kept.get? p.id = none) :
    (provide h c p).run.exec w =
      (some (.error (.circular p.definition.implementation p.definition.qualifiers)), w) := by
  obtain ⟨body, hbody⟩ := provide_eq_whileBuilding (h := h) (c := c) hkept
  rw [hbody, exec_whileBuilding_circular body hp]

/-- A slot that is empty while another thread is at it is waited for. -/
theorem exec_provide_waiting {p : Provider C} (hp : p.id ∉ w.building)
    (hs : p.definition.scope = .singleton) (hkept : w.kept.get? p.id = none)
    (hwaiting : ∃ thread ∈ w.waiting, p.id ∈ thread) :
    (provide h c p).run.exec w = (none, w) := by
  obtain ⟨body, hbody⟩ := provide_eq_whileBuilding (h := h) (c := c) fun _ => hkept
  rw [hbody, exec_whileBuilding_waiting body hp hs hwaiting]

/-- The four ways in which a provider is asked: it is under construction already, another thread
makes its value and waits, its value is kept, or its source makes one. -/
theorem exec_provide_cases (h : Host C) (c : ContainerId) (p : Provider C) (w : World C) :
    (provide h c p).run.exec w =
        (some (.error (.circular p.definition.implementation p.definition.qualifiers)), w) ∨
      (provide h c p).run.exec w = (none, w) ∨
      (∃ x, p.definition.scope = .singleton ∧ w.kept.get? p.id = some x ∧
        (provide h c p).run.exec w =
          (some (.ok x), w.enter (.event c (.reused p.definition.implementation)))) ∨
      (provide h c p).run.exec w =
        completing p ((makeBySource h c p.definition).run.exec (w.begun c p)) := by
  -- The slot is filled, the making is under way here or on another thread, or it begins.
  by_cases hkept : p.definition.scope = .singleton → w.kept.get? p.id = none
  · by_cases hbuilding : p.id ∈ w.building
    · exact .inl (exec_provide_circular hbuilding hkept)
    by_cases hwaiting : p.definition.scope = .singleton → ∀ thread ∈ w.waiting, p.id ∉ thread
    · exact .inr (.inr (.inr (exec_provide hbuilding hkept hwaiting)))
    · push Not at hwaiting
      obtain ⟨hs, hthread⟩ := hwaiting
      exact .inr (.inl (exec_provide_waiting hbuilding hs (hkept hs) hthread))
  · push Not at hkept
    obtain ⟨hs, hsome⟩ := hkept
    obtain ⟨x, hx⟩ := Option.ne_none_iff_exists'.1 hsome
    exact .inr (.inr (.inl ⟨x, hs, hx, exec_provide_kept hs hx⟩))

/-- A kept value is the provider's latest one. -/
theorem mades_of_kept {p : Provider C} {x : Value C} (hw : w.Coherent) (hp : w.Holds c p)
    (hs : p.definition.scope = .singleton) (hx : w.kept.get? p.id = some x) :
    w.mades p.id = x :: w.releases p.id := by
  have ha := hw.account c p hp
  rw [ha.made_eq_keepings hs, ha.balance, hx]
  rfl

/-- What a provider hands out is the last value it made. -/
theorem provide_follows (hl : h.Lawful D) {p : Provider C} (hp : w.Holds c p)
    (hready : (w.container c).phase = .ready) :
    Attempt.Follows D (provide h c p) w
      (fun x v => ∃ earlier, v.mades p.id = x :: earlier) (fun _ _ => True) := by
  refine .of_coherent fun hw => ?_
  by_cases hkept : p.definition.scope = .singleton → w.kept.get? p.id = none
  · by_cases hbuilding : p.id ∈ w.building
    · exact .of_exec_error (exec_provide_circular hbuilding hkept) (.refl w true) True.intro
    by_cases hwaiting : p.definition.scope = .singleton → ∀ thread ∈ w.waiting, p.id ∉ thread
    · have hbegin : w.CanBegin c p := ⟨hp, hready, hbuilding, hkept, hwaiting⟩
      have hphase : ((w.begun c p).container c).phase ≠ .unconfigured := by
        show (w.container c).phase ≠ _
        rw [hready]
        decide
      -- The course of what is inside becomes one of the three brackets of a construction.
      have hmake := makeBySource_follows hl p hphase
      intro _
      rw [exec_provide hbuilding hkept hwaiting]
      rcases hexec : (makeBySource h c p.definition).run.exec (w.begun c p) with ⟨_ | e | x, v⟩
      · exact .constructing c p hbegin (hmake.course (hw.begun hbegin) hexec)
      · exact ⟨.abandon c p hbegin (hmake.ends (hw.begun hbegin) hexec).1, True.intro⟩
      · obtain ⟨hcourse, hsupplied⟩ := hmake.ends (hw.begun hbegin) hexec
        exact ⟨.complete c p x hbegin hcourse hsupplied, v.mades p.id,
          World.Coherent.mades_completed v p x⟩
    · push Not at hwaiting
      obtain ⟨hs, hthread⟩ := hwaiting
      intro _
      rw [exec_provide_waiting hbuilding hs (hkept hs) hthread]
      exact .refl w false
  · push Not at hkept
    obtain ⟨hs, hsome⟩ := hkept
    obtain ⟨x, hx⟩ := Option.ne_none_iff_exists'.1 hsome
    have hmades := mades_of_kept hw hp hs hx
    exact .of_exec_ok (exec_provide_kept hs hx) (.quiet (.reused w c hp hx)) ⟨_, hmades⟩

/-! ## Requests -/

/-- A request for a type hands out what the provider yields for that type. -/
theorem provideAs_follows (hl : h.Lawful D) {p : Provider C} (type : TypeKey) (hp : w.Holds c p)
    (hphase : (w.container c).phase ≠ .unconfigured) :
    Attempt.Follows D (provideAs h c p type) w (fun x v => v.Yields p type x)
      (fun _ _ => True) := by
  unfold provideAs asType
  refine .bind ((ensureReady_follows hl c w).mono ?_ fun _ _ h => h)
  rintro _ u ⟨_, _, _, hsame⟩
  obtain ⟨rfl, hready⟩ := hsame hphase
  refine .bind ((provide_follows hl hp hready).mono ?_ fun _ _ h => h)
  rintro y v ⟨earlier, hmades⟩
  rcases hx : p.definition.convert? type y with _ | x
  · exact .throw True.intro
  · exact .pure ⟨y, earlier, hmades, hx⟩

/-- A container that remembers one more request that was met. -/
theorem remembering (hc : w.Has c) (request : Request) {v : World C}
    (hv : w.withRegistry c ((w.container c).registry.findUnique request).2 = v) :
    Quiet w v ∧ (v.container c).phase = (w.container c).phase ∧
      ∀ r, (v.container c).registry.scan r = (w.container c).registry.scan r := by
  subst hv
  refine ⟨.remember w c _ hc Registry.findUnique_providers fun request' p hp => ?_, ?_, fun r => ?_⟩
  · rcases Registry.findUnique_remembered hp with h | h
    · exact .inl h
    · exact .inr ((Registry.scan_congr Registry.findUnique_providers).trans h)
  · unfold World.withRegistry
    rw [World.container_withContainer_self]
  · unfold World.withRegistry
    rw [World.container_withContainer_self, Registry.scan_congr Registry.findUnique_providers]

/-- A request follows the outline if the provider that is found is asked in a way that does. -/
theorem askOnly_follows {β : Type} (hl : h.Lawful D) (c : ContainerId) (type : TypeKey)
    (qualifiers : Qualifiers) {itself : β} {ask : Provider C → Attempt C β} (w : World C)
    {Q : β → World C → Prop} (hself : type = .container → ∀ u, Q itself u)
    (hask : ∀ p u, u.Holds c p → (u.container c).phase ≠ .unconfigured →
      (u.container c).registry.scan (type, qualifiers) = .ok p →
        Attempt.Follows D (ask p) u Q fun _ _ => True) :
    Attempt.Follows D (askOnly h c type qualifiers itself ask) w Q fun _ _ => True := by
  unfold askOnly
  refine .bind ((ensureReady_follows hl c w).mono ?_ fun _ _ h => h)
  rintro _ u ⟨hc, hopen, _, _⟩
  by_cases htype : type = .container
  · rw [if_pos htype]
    exact .pure (hself htype u)
  rw [if_neg htype]
  refine .of_coherent fun hu => .bind (.step (.container fun _ => ?_))
  -- What is remembered would be found again, so a look-up is a scan.
  have hfst : ((u.container c).registry.findUnique (type, qualifiers)).1 =
      (u.container c).registry.scan (type, qualifiers) :=
    Registry.findUnique_fst (hu.recalled c)
  obtain ⟨v, hv⟩ : ∃ v, u.withRegistry c
    ((u.container c).registry.findUnique (type, qualifiers)).2 = v := ⟨_, rfl⟩
  obtain ⟨hquiet, hphase, hscan⟩ := remembering hc (type, qualifiers) hv
  have hne : (v.container c).phase ≠ .unconfigured := by
    rw [hphase]
    exact hopen.ne_unconfigured
  rcases hfound : (u.container c).registry.findUnique (type, qualifiers) with ⟨found, registry⟩
  rw [hfound] at hfst hv
  refine .bind (.step (.of_exec (v := v) (congrArg _ hv) (.quiet hquiet) ?_))
  rcases found with e | p
  · have hreport : Quiet v (v.enter (.event c (.unmatched type qualifiers e))) :=
      .unmatched v c ((hscan _).trans hfst.symm)
    exact .bind (.step (.quiet hreport (Attempt.Follows.throw True.intro)))
  · have hp : (v.container c).registry.scan (type, qualifiers) = .ok p :=
      (hscan _).trans hfst.symm
    have hreport : Quiet v (v.enter (.event c (.resolving type qualifiers))) :=
      .remark v c True.intro
    refine .bind (.step (.quiet hreport ?_))
    exact hask p (v.enter _) (Registry.mem_of_scan hp).1 hne hp

/-- A request that is met hands out the latest value of the only provider that meets it. -/
theorem getObject_follows (hl : h.Lawful D) (c : ContainerId) (type : TypeKey)
    (qualifiers : Qualifiers) (w : World C) :
    Attempt.Follows D (getObject h c type qualifiers) w
      (fun x v => type = .container ∨
        ∃ p, (v.container c).registry.scan (type, qualifiers) = .ok p ∧ v.Yields p type x)
      (fun _ _ => True) := by
  refine askOnly_follows hl c type qualifiers w (fun htype _ => .inl htype) ?_
  intro p u hholds hne hp
  refine (provideAs_follows hl type hholds hne).framed.mono ?_ fun _ _ h => h
  rintro x v ⟨hframe, hyields⟩
  exact .inr ⟨p, (hframe.scan hne _).trans hp, hyields⟩

theorem select_follows (hl : h.Lawful D) (c : ContainerId) (type : TypeKey)
    (qualifiers : Qualifiers) (w : World C) :
    Attempt.Follows D (select h c type qualifiers) w (fun _ _ => True) (fun _ _ => True) := by
  unfold select
  refine .bind ((ensureReady_follows hl c w).mono (fun _ u _ => ?_) fun _ _ h => h)
  refine .bind (.step (.container fun _ => ?_))
  have hreport : Quiet u (u.enter (.event c (.selecting type qualifiers
    ((u.container c).registry.findAll (type, qualifiers)).length))) := .remark u c True.intro
  exact .bind (.step (.quiet hreport (Attempt.Follows.pure True.intro)))

/-- Resolving one match of a selection is a request to that very provider. -/
theorem resolveMatch_follows (hl : h.Lawful D) (s : Selection) (id : ProviderId) (w : World C) :
    Attempt.Follows D (resolveMatch h s id) w
      (fun x v => ∃ p, (v.container s.container).registry.provider? id = some p ∧
        v.Yields p s.type x)
      (fun _ _ => True) := by
  unfold resolveMatch
  refine .bind (.step (.container fun _ => ?_))
  by_cases hphase : (w.container s.container).phase = .unconfigured
  · rw [if_pos hphase]
    exact .bind (.step .stuck)
  rw [if_neg hphase]
  rcases hp : (w.container s.container).registry.provider? id with _ | p
  · exact .step .stuck
  · have hholds : w.Holds s.container p := (Registry.mem_of_provider? hp).1
    refine (provideAs_follows hl s.type hholds hphase).framed.mono ?_ fun _ _ h => h
    rintro x v ⟨hframe, hyields⟩
    refine ⟨p, ?_, hyields⟩
    -- The container has left its first phase, so the match is still the same one in the end.
    unfold Registry.provider? at hp ⊢
    rw [(hframe.container _).providers hphase]
    exact hp

/-- A single match is the only one of its selection. -/
theorem single_follows (hl : h.Lawful D) (s : Selection) (w : World C) :
    Attempt.Follows D (single h s) w
      (fun x v => ∃ id p, s.providers = [id] ∧
        (v.container s.container).registry.provider? id = some p ∧ v.Yields p s.type x)
      (fun _ _ => True) := by
  unfold single
  rcases hs : s.providers with _ | ⟨id, _ | ⟨id', rest⟩⟩
  · exact .throw True.intro
  · refine (resolveMatch_follows hl s id w).mono ?_ fun _ _ h => h
    rintro x v ⟨p, hp, hyields⟩
    exact ⟨id, p, rfl, hp, hyields⟩
  · exact .throw True.intro

/-- A cursor that answers a value has resolved the provider it stood before. -/
theorem advance_follows (hl : h.Lawful D) (cursor : Cursor) (w : World C) :
    Machine.Follows D (advance h cursor) w fun r v => ∀ x, r.1 = some (.ok x) →
      ∃ id rest p, cursor.rest = id :: rest ∧
        (v.container cursor.selection.container).registry.provider? id = some p ∧
        v.Yields p cursor.selection.type x := by
  unfold advance
  rcases hid : cursor.match? with _ | id
  · exact .pure fun x hx => by cases hx
  · refine .bind (Attempt.Follows.run ((resolveMatch_follows hl cursor.selection id w).mono ?_ ?_))
    · rintro y v ⟨p, hp, hyields⟩
      refine .pure fun x hx => ?_
      cases hx
      exact ⟨id, _, p, Cursor.rest_of_some hid, hp, hyields⟩
    · exact fun e v _ => .pure fun x hx => by cases hx

/-- Injecting from outside keeps the invariant like any other call. -/
theorem inject_follows (hl : h.Lawful D) (c : ContainerId) (type : TypeKey) (o : C.Object)
    (w : World C) : Machine.Follows D (inject h c type o) w fun _ _ => True := by
  unfold inject
  refine .bind (Attempt.Follows.run ((ensureReady_follows hl c w).mono ?_ ?_))
  · rintro _ u ⟨_, hopen, _, _⟩
    have hphase : (u.container c).phase ≠ .unconfigured := by
      rcases hopen with h | h <;> rw [h] <;> decide
    exact (injectObject_follows hl type o hphase).mono fun _ _ _ => True.intro
  · exact fun e v _ => .pure True.intro

end Wiring.Host
