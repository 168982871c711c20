import Wiring.Proofs.Answering
import Wiring.Proofs.Asking
import Wiring.Proofs.Assembly
import Wiring.Proofs.Sample

/-!
# How failures surface

A value is needed for a value that is needed for a value. The chain of providers that are under
construction for each other is followed downwards by `Codebase.Chain`: a call asks a provider, the
provider begins, and what its source does leads to the next call. A failure of the last call comes
all the way back as it is. Where it is client code that stands in between, this code has to pass on
what it gets; a component passes on by itself what its dependencies fail with.

Main statement: `Codebase.failures_surface`.
-/

namespace Wiring

variable {C : Client} {D : Outline} {α : Type}

/-! ## Client code that comes to a call -/

namespace Program

/-- Client code runs from the first world to where it makes a call, and goes on from there with the
reply. -/
inductive Comes (perform : (k : Call C) → Machine C (Reply C k)) :
    Program C α → World C → (k : Call C) → (Reply C k → Program C α) → World C → Prop
  | here (k : Call C) (next : Reply C k → Program C α) (w : World C) :
      Comes perform (.call k next) w k next w
  | call {k' k : Call C} {next' : Reply C k' → Program C α} {next : Reply C k → Program C α}
      {r : Reply C k'} {w u v : World C} : (perform k').exec w = (some r, u) →
      Comes perform (next' r) u k next v → Comes perform (.call k' next') w k next v
  | read {k : Call C} {next' : C.State → Program C α} {next : Reply C k → Program C α}
      {w v : World C} : Comes perform (next' w.client) w k next v →
      Comes perform (.read next') w k next v
  | write {k : Call C} {s : C.State} {p : Program C α} {next : Reply C k → Program C α}
      {w v : World C} : Comes perform p { w with client := s } k next v →
      Comes perform (.write s p) w k next v
  | note {k : Call C} {n : C.Note} {p : Program C α} {next : Reply C k → Program C α}
      {w v : World C} : Comes perform p (w.enter (.note n)) k next v →
      Comes perform (.note n p) w k next v

variable {h : Host C} {p : Program C α} {w u : World C} {k : Call C}
  {next : Reply C k → Program C α}

/-- A program that comes to a call goes on with the call's answer. -/
theorem Comes.exec (hcomes : p.Comes h.perform w k next u) {r : Reply C k} {v : World C}
    (hcall : (h.perform k).exec u = (some r, v)) :
    (h.run p).exec w = (h.run (next r)).exec v := by
  induction hcomes with
  | here => exact Machine.exec_bind_some hcall
  | call hperform _ ih => exact (Machine.exec_bind_some hperform).trans (ih hcall)
  | read _ ih => exact (Machine.exec_bind_some (Machine.exec_client _)).trans (ih hcall)
  | write _ ih => exact (Machine.exec_bind_some (Machine.exec_modify ..)).trans (ih hcall)
  | note _ ih => exact (Machine.exec_bind_some (Machine.exec_modify ..)).trans (ih hcall)

/-- What comes before the call follows a course. -/
theorem Comes.course (hl : h.Lawful D) (hcomes : p.Comes h.perform w k next u)
    (hw : w.Coherent) : Course D .work true w u := by
  -- Induction on the way to the call; each step before it is a call, a question or a note.
  induction hcomes with
  | here => exact .refl _ true
  | call hperform _ ih =>
    have hcourse := ((hl.perform _ _).ends hw hperform).1
    exact hcourse.trans (ih (hcourse.coherent hw))
  | read _ ih => exact ih hw
  | @write _ s _ _ w _ _ ih =>
    have hquiet : Quiet w { w with client := s } := .client w s
    exact (Course.quiet hquiet).trans (ih (hquiet.coherent hw))
  | @note _ n _ _ w _ _ ih =>
    have hquiet : Quiet w (w.enter (.note n)) := .note w n
    exact (Course.quiet hquiet).trans (ih (hquiet.coherent hw))

end Program

/-! ## Sources that come to a call -/

namespace Host

/-- If the call to which client code has come fails, the code goes on in some way and ends with the
same failure. Code that is to keep `still` leaves all but its own as it is meanwhile. -/
def PassesOn (h : Host C) (still : Bool) (k : Call C) (u : World C)
    (next : Reply C k → Routine C α) : Prop :=
  ∀ r v e, (h.perform k).exec u = (some r, v) → k.outcome? r = some (.error e) →
    ∃ z, (h.run (next r)).exec v = (some (.error (.failure e)), z) ∧ (still = true → v.Unmoved z)

/-- A step of a component's plan is reached: all steps before it have succeeded. -/
def Attains (h : Host C) (c : ContainerId) (type : TypeKey) (w : World C) (step : BuildStep C)
    (a : Workpiece C) (u : World C) : Prop :=
  ∃ k p l before after, assemblyPlan type.name k p l = before ++ step :: after ∧
    h.Works c type before {} w (.ok a) u

/-- The source of a definition makes a value and comes, in the second world, to a call whose failure
it passes on: the request for a dependency, or a call of client code. -/
inductive Leads (h : Host C) (still : Bool) (c : ContainerId) (d : Definition C) (w : World C) :
    Call C → World C → Prop
  | dependency {member : String} {dep : Dependency} {a : Workpiece C} {type : TypeKey}
      {u : World C} : d.source = .component →
      h.Attains c d.implementation w (.resolve member dep) a u → dep.want = .object type →
      Leads h still c d w (.get c type dep.qualifiers) u
  | member {step : BuildStep C} {a : Workpiece C} {member : String}
      {code : Routine C (Workpiece C)} {k : Call C} {next : Reply C k → Routine C (Workpiece C)}
      {u v : World C} : d.source = .component → h.Attains c d.implementation w step a u →
      step.client? (h.code.component d.implementation) d.implementation.name a =
        some (member, code) →
      code.Comes h.perform (u.enter (.milestone (.invoked member))) k next v →
      h.PassesOn still k v next → Leads h still c d w k v
  | producer {produce : C.Producer} {dispose : Option C.Disposer} {k : Call C}
      {next : Reply C k → Routine C (Value C)} {v : World C} :
      d.source = .producer produce dispose →
      (h.code.produce produce c).Comes h.perform (w.enter (.milestone
        (.invoked (Label.member d.implementation.name "produce")))) k next v →
      h.PassesOn still k v next → Leads h still c d w k v

/-- The source of a definition makes a value and comes to where client code of a member fails with
words of its own. -/
inductive Says (h : Host C) (c : ContainerId) (d : Definition C) (w : World C) :
    String → String → Prop
  | member {step : BuildStep C} {a : Workpiece C} {member words : String}
      {code : Routine C (Workpiece C)} {u v : World C} : d.source = .component →
      h.Attains c d.implementation w step a u →
      step.client? (h.code.component d.implementation) d.implementation.name a =
        some (member, code) →
      (h.run code).exec (u.enter (.milestone (.invoked member))) =
        (some (.error (.said words)), v) → Says h c d w member words
  | producer {produce : C.Producer} {dispose : Option C.Disposer} {words : String}
      {v : World C} : d.source = .producer produce dispose →
      (h.run (h.code.produce produce c)).exec (w.enter (.milestone
        (.invoked (Label.member d.implementation.name "produce")))) =
          (some (.error (.said words)), v) →
      Says h c d w (Label.member d.implementation.name "produce") words

variable {h : Host C} {still : Bool} {c : ContainerId} {d : Definition C} {type : TypeKey}
  {w u v : World C} {k : Call C} {e : Failure} {step : BuildStep C} {a : Workpiece C}
  {r : Attempted (Workpiece C)}

/-- The failure of a step that is reached is the failure of the component. -/
theorem exec_build_of_attains (hattains : h.Attains c type w step a u)
    (hfails : h.Takes c type step a u (.error e) v) :
    (build h c type).run.exec w = (some (.error e), v) := by
  obtain ⟨k, p, l, before, after, hplan, hbefore⟩ := hattains
  refine exec_build_iff.2 ⟨k, p, l, .error e, ?_, rfl⟩
  exact works_error_iff.2 ⟨before, step, after, a, u, hplan, hbefore, hfails⟩

/-- What is passed on stays as it is. -/
theorem invokes_of_passesOn (hl : h.Lawful D) {member : String} {p : Routine C α}
    {next : Reply C k → Routine C α} {r : Reply C k}
    (hcomes : p.Comes h.perform (w.enter (.milestone (.invoked member))) k next u)
    (hpasses : h.PassesOn still k u next) (hcall : (h.perform k).exec u = (some r, v))
    (hr : k.outcome? r = some (.error e)) (hv : v.Coherent) :
    ∃ z, h.Invokes member p w (.error e) z ∧ Course D .work true v z ∧
      (still = true → v.Unmoved z) := by
  obtain ⟨z, hnext, hunmoved⟩ := hpasses r v e hcall hr
  have hcourse := ((run_follows hl _ v).ends hv hnext).1
  exact ⟨z, .error ((hcomes.exec hcall).trans hnext), hcourse, hunmoved⟩

/-- If the call to which a source comes fails, the source fails alike. -/
theorem Leads.fails (hl : h.Lawful D) (hleads : h.Leads still c d w k u) (hu : u.Coherent)
    {r : Reply C k} (hcall : (h.perform k).exec u = (some r, v))
    (hr : k.outcome? r = some (.error e)) :
    ∃ z, (makeBySource h c d).run.exec w = (some (.error e), z) ∧ Course D .work true v z ∧
      (still = true → v.Unmoved z) := by
  have hv : v.Coherent := ((hl.perform k u).ends hu hcall).1.coherent hu
  unfold makeBySource
  -- The failing call is a dependency's lookup, or one that client code makes and passes on.
  cases hleads with
  | @dependency member dep a type _ hsource hattains hwant =>
    obtain rfl : r = .error e := Option.some.inj hr
    have hresolve : (resolve h c member dep).run.exec u = (some (.error e), v) := by
      unfold resolve
      rw [hwant]
      exact exec_bind_error hcall
    rw [hsource]
    exact ⟨v, exec_build_of_attains hattains (takes_resolve_iff.2 ⟨_, hresolve, rfl⟩),
      .refl v true, fun _ => .refl v⟩
  | member hsource hattains hstep hcomes hpasses =>
    obtain ⟨z, hinvokes, hafter⟩ := invokes_of_passesOn hl hcomes hpasses hcall hr hv
    rw [hsource]
    exact ⟨z, exec_build_of_attains hattains (.client hstep hinvokes), hafter⟩
  | producer hsource hcomes hpasses =>
    obtain ⟨z, hinvokes, hafter⟩ := invokes_of_passesOn hl hcomes hpasses hcall hr hv
    rw [hsource]
    exact ⟨z, exec_invoke_iff.2 hinvokes, hafter⟩

/-- Words of client code become a failure of the member to which the code belongs. -/
theorem Says.fails {member words : String} (hwords : h.Says c d w member words) :
    ∃ z, (makeBySource h c d).run.exec w =
      (some (.error (.invocation member (.said words))), z) := by
  unfold makeBySource
  cases hwords with
  | member hsource hattains hstep hrun =>
    rw [hsource]
    exact ⟨_, exec_build_of_attains hattains (.client hstep (.error hrun))⟩
  | producer hsource hrun =>
    rw [hsource]
    exact ⟨_, exec_invoke_iff.2 (.error hrun)⟩

/-! ### Courses -/

/-- The steps of a build are a course of work. -/
theorem Takes.course (hl : h.Lawful D) (htakes : h.Takes c type step a w r v) (hw : w.Coherent) :
    Course D .work true w v := by
  cases htakes with
  | learnConstructor hasked => exact ((run_follows hl _ w).ends hw hasked).1
  | @learnPoints p _ _ u hasked =>
    have hreport : Quiet u (u.enter (.event c (.injecting type p.toList.length))) :=
      .remark u c True.intro
    exact ((run_follows hl _ w).ends hw hasked).1.trans (.quiet hreport)
  | learnHooks hasked => exact ((run_follows hl _ w).ends hw hasked).1
  | resolve hexec => exact (Machine.Follows.ends (resolve_follows hl _ _ _ w) hw hexec).1
  | client _ hinvokes =>
    exact (Machine.Follows.ends (invoke_follows hl _ _ w) hw (exec_invoke_iff.2 hinvokes)).1

/-- So is a whole build. -/
theorem Works.course (hl : h.Lawful D) {steps : List (BuildStep C)}
    (hworks : h.Works c type steps a w r v) (hw : w.Coherent) : Course D .work true w v := by
  induction hworks with
  | done => exact .refl _ true
  | next htakes _ ih =>
    have hcourse := htakes.course hl hw
    exact hcourse.trans (ih (hcourse.coherent hw))
  | failed htakes => exact htakes.course hl hw

/-- So is the way from a request down to the failing one. -/
theorem Leads.course (hl : h.Lawful D) (hleads : h.Leads still c d w k u) (hw : w.Coherent) :
    Course D .work true w u := by
  cases hleads with
  | dependency _ hattains _ =>
    -- The steps before the failing dependency were taken one by one.
    obtain ⟨_, _, _, _, _, _, hworks⟩ := hattains
    exact hworks.course hl hw
  | @member _ _ member _ _ _ u _ _ hattains _ hcomes _ =>
    -- Before client code runs, the plan has come to its step.
    obtain ⟨_, _, _, _, _, _, hworks⟩ := hattains
    have hcourse := hworks.course hl hw
    have hinvoked : Quiet u (u.enter (.milestone (.invoked member))) := .invoked u member
    have hu := hcourse.coherent hw
    exact hcourse.trans ((Course.quiet hinvoked).trans (hcomes.course hl (hinvoked.coherent hu)))
  | producer _ hcomes _ =>
    have hinvoked : Quiet w (w.enter (.milestone
      (.invoked (Label.member d.implementation.name "produce")))) := .invoked w _
    exact (Course.quiet hinvoked).trans (hcomes.course hl (hinvoked.coherent hw))

end Host

/-! ## Providers -/

namespace Host

variable {h : Host C} {c : ContainerId} {p : Provider C} {w v : World C} {e : Failure}

/-- A provider whose source fails, fails alike. -/
theorem exec_provide_of_fails (hb : w.CanBegin c p)
    (hmake : (makeBySource h c p.definition).run.exec (w.begun c p) = (some (.error e), v)) :
    (provide h c p).run.exec w = (some (.error e), v.ended p) := by
  rw [exec_provide hb.not_building hb.not_kept hb.not_waiting, hmake]
  rfl

/-- Nothing is kept for a provider that has just failed. -/
theorem not_kept_of_provide (hl : h.Lawful D) (hw : w.Coherent) (hp : w.Holds c p)
    (hready : (w.container c).phase = .ready)
    (hprovide : (provide h c p).run.exec w = (some (.error e), v)) :
    v.kept.get? p.id = none := by
  by_cases hkept : p.definition.scope = .singleton → w.kept.get? p.id = none
  · by_cases hbuilding : p.id ∈ w.building
    -- It is needed for its own construction, so it has been under construction all along.
    · rw [exec_provide_circular hbuilding hkept] at hprovide
      cases hprovide
      exact hw.underway_not_kept hp (World.mem_underway_iff.2 (.inl hbuilding))
    by_cases hwaiting : p.definition.scope = .singleton → ∀ thread ∈ w.waiting, p.id ∉ thread
    · have hb : w.CanBegin c p := ⟨hp, hready, hbuilding, hkept, hwaiting⟩
      have hphase : ((w.begun c p).container c).phase ≠ .unconfigured := by
        show (w.container c).phase ≠ _
        rw [hready]
        decide
      rw [exec_provide hbuilding hkept hwaiting] at hprovide
      rcases hmake : (makeBySource h c p.definition).run.exec (w.begun c p) with ⟨_ | e' | x, u⟩ <;>
        rw [hmake] at hprovide <;> cases hprovide
      obtain ⟨hcourse, -⟩ := Machine.Follows.ends (makeBySource_follows hl p hphase) (hw.begun hb)
        hmake
      have hunderway : p.id ∈ u.underway := by
        rw [(hcourse.level rfl).underway]
        exact List.mem_cons_self
      exact (hcourse.coherent (hw.begun hb)).underway_not_kept (hb.later hcourse.frame).1 hunderway
    · push Not at hwaiting
      obtain ⟨hs, hthread⟩ := hwaiting
      rw [exec_provide_waiting hbuilding hs (hkept hs) hthread] at hprovide
      cases hprovide
  · push Not at hkept
    obtain ⟨hs, hsome⟩ := hkept
    obtain ⟨x, hx⟩ := Option.ne_none_iff_exists'.1 hsome
    rw [exec_provide_kept hs hx] at hprovide
    cases hprovide

end Host

namespace Codebase

variable {code : Codebase C}

/-- A call asks a provider, whose source leads to a call that asks a provider, and so on, from the
first world down to the last call in the second one; the providers on the way are all under
construction there, the outermost first. -/
inductive Chain (code : Codebase C) (still : Bool) :
    Nat → Call C → World C → List (Provider C) → Nat → Call C → World C → Prop
  | last (depth : Nat) (k : Call C) (w : World C) : Chain code still depth k w [] depth k w
  | link {depth m : Nat} {k k' j : Call C} {w u u' v : World C} {c : ContainerId}
      {p : Provider C} {type : TypeKey} {l : List (Provider C)} :
      (code.hostAt depth).Asks k w c p type u → u.CanBegin c p →
      (code.hostAt depth).Leads still c p.definition (u.begun c p) k' u' →
      Chain code still depth k' u' l m j v → Chain code still (depth + 1) k w (p :: l) m j v

/-- Between two worlds a provider is asked for its value and fails. Nothing is kept for it then. Nor
is anything in the second world, if all code that passes failures on keeps `still`, or if the
provider has at least made no value since. -/
def GivesUp (code : Codebase C) (still : Bool) (e : Failure) (p : Provider C) (w z : World C) :
    Prop :=
  ∃ depth c u t, w.Frame u ∧
    ((code.hostAt depth).provide c p).run.exec u = (some (.error e), t) ∧ t.Frame z ∧
    t.kept.get? p.id = none ∧
    (still = true ∨ z.mades p.id = t.mades p.id → z.kept.get? p.id = none)

/-- A call fails with a failure, since some providers fail so. -/
def Surfaces (code : Codebase C) (still : Bool) (depth : Nat) (k : Call C) (w : World C)
    (l : List (Provider C)) (e : Failure) : Prop :=
  ∃ r z, (code.perform depth k).exec w = (some r, z) ∧ k.outcome? r = some (.error e) ∧
    ∀ p ∈ l, code.GivesUp still e p w z

variable {still : Bool} {depth m : Nat} {k j : Call C} {w v : World C} {l : List (Provider C)}
  {e : Failure}

/-- What a provider has given up it has given up, whatever comes before or after. -/
theorem GivesUp.extend {p : Provider C} {w' z z' : World C} (hg : code.GivesUp still e p w' z')
    (hw : w.Frame w') (hframe : z'.Frame z) (hz' : z'.Coherent) (hz : z.Coherent)
    (hkept : still = true → z.kept = z'.kept) : code.GivesUp still e p w z := by
  obtain ⟨depth, c, u, t, hu, hprovide, ht, hnone, hlater⟩ := hg
  refine ⟨depth, c, u, t, hw.trans hu, hprovide, ht.trans hframe, hnone, ?_⟩
  rintro (hstill | hmades)
  · rw [hkept hstill]
    exact hlater (.inl hstill)
  · have hmade : t.mades p.id <:+ z'.mades p.id := (ht.history p.id).filterMap _
    have hmade' : z'.mades p.id <:+ z.mades p.id := (hframe.history p.id).filterMap _
    have hsame : z'.mades p.id = t.mades p.id :=
      (hmade.eq_of_length_le (by rw [← hmades]; exact hmade'.length_le)).symm
    exact hz'.not_kept_later hz hframe (hlater (.inr hsame)) (hmades.trans hsame.symm)

/-- Where the last call of a chain is made, the world is coherent. -/
theorem Chain.coherent (hchain : code.Chain still depth k w l m j v) (hw : w.Coherent) :
    v.Coherent := by
  induction hchain with
  | last => exact hw
  | @link depth _ _ _ _ _ _ _ _ _ _ _ _ hasks hb hleads _ ih =>
    have hl := code.describes_any.host_lawful depth
    obtain ⟨⟨hu, -, -⟩, -, -⟩ := hasks.later hl hw
    exact ih ((hleads.course hl (hu.begun hb)).coherent (hu.begun hb))

/-- A provider of which a call asks a value fails, and so does the call. -/
theorem surfaces_of_provide {c : ContainerId} {p : Provider C} {type : TypeKey} {u t : World C}
    (hw : w.Coherent) (hasks : (code.hostAt depth).Asks k w c p type u)
    (hprovide : ((code.hostAt depth).provide c p).run.exec u = (some (.error e), t)) :
    ∃ r, (code.perform (depth + 1) k).exec w = (some r, w.replied k t) ∧
      k.outcome? r = some (.error e) ∧ code.GivesUp still e p w (w.replied k t) := by
  have hl := code.describes_any.host_lawful depth
  obtain ⟨⟨hu, hwu, -⟩, hholds, hready⟩ := hasks.later hl hw
  have hanswer := Host.exec_answer_of_asks hasks hprovide
  obtain ⟨u', hreaches, -⟩ := hasks
  obtain ⟨r, hreply⟩ := hreaches.reply? (.error e)
  have hnone := Host.not_kept_of_provide hl hu hholds hready hprovide
  refine ⟨r, hreply ▸ hanswer, Call.outcome?_of_reply? hreply, depth, c, u, t, hwu, hprovide,
    .replied w t k, hnone, fun _ => ?_⟩
  rw [World.kept_replied]
  exact hnone

/-- If the last call of a chain fails, so does the first one, alike, as do all providers between
them. -/
theorem Chain.surfaces (hchain : code.Chain still depth k w l m j v) (hw : w.Coherent)
    {l' : List (Provider C)} (hlast : code.Surfaces still m j v l' e) :
    code.Surfaces still depth k w (l ++ l') e := by
  induction hchain with
  | last => exact hlast
  | @link depth m k k' j w u u' v c p type l hasks hb hleads hrest ih =>
    have hl := code.describes_any.host_lawful depth
    obtain ⟨⟨hu, hwu, -⟩, -, -⟩ := hasks.later hl hw
    have hcourse := hleads.course hl (hu.begun hb)
    have hu' := hcourse.coherent (hu.begun hb)
    -- Downwards the steps before the call have succeeded, upwards the failure is passed on.
    obtain ⟨r', z', hinner, hr', hgiven⟩ := ih hu' hlast
    have hz' := ((hl.perform k' u').ends hu' hinner).1.coherent hu'
    obtain ⟨t, hmake, hcourse', hunmoved⟩ := hleads.fails hl hu' hinner hr'
    obtain ⟨r, hexec, hr, hself⟩ := surfaces_of_provide hw hasks
      (Host.exec_provide_of_fails hb hmake)
    have hfollows := code.perform_follows code.describes_any (depth + 1) k w
    have hz := (hfollows.ends hw hexec).1.coherent hw
    have hdown : w.Frame u' := hwu.trans ((World.Frame.begun u c p).trans hcourse.frame)
    have hup : z'.Frame (w.replied k (t.ended p)) :=
      hcourse'.frame.trans ((World.Frame.ended t p).trans (.replied w _ k))
    refine ⟨r, _, hexec, hr, List.forall_mem_cons.2 ⟨hself, fun q hq => ?_⟩⟩
    refine (hgiven q hq).extend hdown hup hz' hz fun hstill => ?_
    rw [World.kept_replied]
    exact (hunmoved hstill).kept

/-- Failures surface unchanged through any chain of providers, however long. If the last call of a
chain fails, the first one fails with the same failure, as does each provider of the chain. So it is
if the provider that the last call asks fails to make its value; and if that is because client code
of a member says words of its own, these words and this innermost member are what all fail with.
Nothing is kept for a provider that has failed so, unless client code that gets the failure has it
make a value after all before passing on the failure. -/
theorem failures_surface {s : C.State} (hw : code.Visits (.blank s) w)
    (hchain : code.Chain still depth k w l (m + 1) j v) :
    (∀ r v' e, (code.perform (m + 1) j).exec v = (some r, v') → j.outcome? r = some (.error e) →
      code.Surfaces still depth k w l e) ∧
    ∀ c q type u, (code.hostAt m).Asks j v c q type u →
      (∀ e v', ((code.hostAt m).provide c q).run.exec u = (some (.error e), v') →
        code.Surfaces still depth k w (l ++ [q]) e) ∧
      ∀ member words, u.CanBegin c q →
        (code.hostAt m).Says c q.definition (u.begun c q) member words →
        code.Surfaces still depth k w (l ++ [q]) (.invocation member (.said words)) := by
  have hcoherent := hw.coherent
  -- What fails at the end of the chain surfaces at its beginning, through every provider in
  -- between.
  refine ⟨fun r v' e hcall hr => ?_, fun c q type u hasks => ?_⟩
  · have hlast : code.Surfaces still (m + 1) j v [] e :=
      ⟨r, v', hcall, hr, fun p hp => absurd hp List.not_mem_nil⟩
    have hsurfaces := hchain.surfaces hcoherent hlast
    rwa [List.append_nil] at hsurfaces
  have hprovided : ∀ e v', ((code.hostAt m).provide c q).run.exec u = (some (.error e), v') →
      code.Surfaces still depth k w (l ++ [q]) e := by
    intro e v' hprovide
    obtain ⟨r, hexec, hr, hgiven⟩ := surfaces_of_provide (hchain.coherent hcoherent) hasks hprovide
    exact hchain.surfaces hcoherent ⟨r, _, hexec, hr, List.forall_mem_singleton.2 hgiven⟩
  refine ⟨hprovided, fun member words hb hwords => ?_⟩
  obtain ⟨z, hmake⟩ := hwords.fails
  exact hprovided _ _ (Host.exec_provide_of_fails hb hmake)

end Codebase

namespace Sample

/-- A house needs a door, a door needs a lock, and a lock cannot be made. -/
def jammed : Codebase Sample :=
  code (fun _ => .done (.error (.said "jammed"))) fun type =>
    if type = .named "House" then .inject [.object (.named "Door")]
    else if type = .named "Door" then .inject [.object (.named "Lock")] else .noArgs

def lock : Provider Sample := ⟨⟨0⟩, (Registration.producer (.named "Lock") ()).definition⟩

def door : Provider Sample := ⟨⟨1⟩, (Registration.component (.named "Door") {}).definition⟩

def house : Provider Sample := ⟨⟨2⟩, (Registration.component (.named "House") {}).definition⟩

/-- A container with a lock, a door and a house that was not validated. -/
def buildingSite : World Sample :=
  ((jammed.run 1 do
    let c ← Program.request .create
    let _ ← Program.request (.register c (.producer (.named "Lock") ()))
    let _ ← Program.request (.register c (.component (.named "Door") {}))
    Program.request (.register c (.component (.named "House") {}))).exec blank).2

def houseAsked : World Sample :=
  (((jammed.hostAt 2).ensureReady ⟨0⟩).run.exec buildingSite).2.looked ⟨0⟩ (.named "House", ∅)

def doorAsked : World Sample := (houseAsked.begun ⟨0⟩ house).looked ⟨0⟩ (.named "Door", ∅)

def lockAsked : World Sample := (doorAsked.begun ⟨0⟩ door).looked ⟨0⟩ (.named "Lock", ∅)

/-- A component that needs another one asks for it at once. -/
theorem jammed_leads (depth : Nat) {type needed : TypeKey} (markers : Markers) (w : World Sample)
    (hneeded : (jammed.component type).constructor = .done (.inject [⟨.object needed, ∅⟩])) :
    (jammed.hostAt depth).Leads true ⟨0⟩ (Registration.component type markers).definition w
      (.get ⟨0⟩ needed ∅) w := by
  have hasked : ((jammed.hostAt depth).run (jammed.component type).constructor).exec w =
      (some (.inject [⟨.object needed, ∅⟩]), w) := by
    rw [hneeded]
    rfl
  exact .dependency rfl ⟨.inject [⟨.object needed, ∅⟩], {}, {}, [.learnConstructor _], _, rfl,
    .next (.learnConstructor hasked) (.done _ _)⟩ rfl

/-- Who asks for the house is told about the lock. -/
theorem jammed_lock_surfaces :
    jammed.Surfaces true 3 (.get ⟨0⟩ (.named "House") ∅) buildingSite [house, door, lock]
      (.invocation "Lock::produce" (.said "jammed")) := by
  have hvisits : jammed.Visits blank buildingSite := Codebase.visits_of_run rfl
  have hidle : ∀ {w : World Sample} {x : ProviderId}, w.waiting = [] →
      ∀ thread ∈ w.waiting, x ∉ thread := by
    intro w x hwaiting thread hthread
    rw [hwaiting] at hthread
    exact absurd hthread List.not_mem_nil
  have hhouse : (jammed.hostAt 2).Asks (.get ⟨0⟩ (.named "House") ∅) buildingSite ⟨0⟩ house
      (.named "House") houseAsked := ⟨_, .get rfl ⟨_, rfl⟩ (by decide) rfl, rfl⟩
  have hdoor : (jammed.hostAt 1).Asks (.get ⟨0⟩ (.named "Door") ∅) (houseAsked.begun ⟨0⟩ house) ⟨0⟩
      door (.named "Door") doorAsked := ⟨_, .get rfl ⟨_, rfl⟩ (by decide) rfl, rfl⟩
  have hlock : (jammed.hostAt 0).Asks (.get ⟨0⟩ (.named "Lock") ∅) (doorAsked.begun ⟨0⟩ door) ⟨0⟩
      lock (.named "Lock") lockAsked := ⟨_, .get rfl ⟨_, rfl⟩ (by decide) rfl, rfl⟩
  -- Each of them may begin where it is asked: nothing is kept, and it is not under construction.
  have hhouse' : houseAsked.CanBegin ⟨0⟩ house :=
    ⟨List.mem_cons_of_mem _ (List.mem_cons_of_mem _ List.mem_cons_self), rfl, List.not_mem_nil,
      fun _ => rfl, fun _ => hidle rfl⟩
  have hdoor' : doorAsked.CanBegin ⟨0⟩ door :=
    ⟨List.mem_cons_of_mem _ List.mem_cons_self, rfl, by decide, fun _ => rfl, fun _ => hidle rfl⟩
  have hlock' : lockAsked.CanBegin ⟨0⟩ lock :=
    ⟨List.mem_cons_self, rfl, by decide, fun _ => rfl, fun _ => hidle rfl⟩
  have hchain : jammed.Chain true 3 (.get ⟨0⟩ (.named "House") ∅) buildingSite [house, door] 1
      (.get ⟨0⟩ (.named "Lock") ∅) (doorAsked.begun ⟨0⟩ door) :=
    .link hhouse hhouse' (jammed_leads 2 _ _ rfl)
      (.link hdoor hdoor' (jammed_leads 1 _ _ rfl) (.last 1 _ _))
  obtain ⟨-, hsurfaces⟩ := Codebase.failures_surface hvisits hchain
  exact (hsurfaces ⟨0⟩ lock _ _ hlock).2 _ _ hlock' (.producer rfl rfl)

end Sample

end Wiring
