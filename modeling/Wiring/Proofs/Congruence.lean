import Wiring.Proofs.Conduct.Calls
import Wiring.Proofs.Revisions

/-!
# Steps that are compared

Two runs of the same client code that perform their calls in different ways are compared step by
step. A comparison of steps that every way to build steps keeps is a `Congruence`. It relates the
operations on the two sides if it relates the calls that client code makes in them, so whatever
is to be said of two such runs has to be shown of the small steps only.

Main statement: `Host.answer_congr`.
-/

namespace Wiring

variable {C : Client} {α β : Type}

/-- A container that is in the first phase may come to be in the second one. -/
def Phase.Leads : Phase → Phase → Prop
  | _, .destroyed => True
  | .unconfigured, _ => True
  | .validating, b => b ≠ .unconfigured
  | a, b => a = b

namespace Phase.Leads

theorem refl (a : Phase) : a.Leads a := by
  cases a <;> simp [Leads]

theorem trans {a b c : Phase} (hab : a.Leads b) (hbc : b.Leads c) : a.Leads c := by
  cases a <;> cases b <;> cases c <;> simp_all [Leads]

/-- A container that has been configured stays configured. -/
theorem ne_unconfigured {a b : Phase} (hab : a.Leads b) (ha : a ≠ .unconfigured) :
    b ≠ .unconfigured := by
  cases a <;> cases b <;> simp_all [Leads]

/-- From `destroyed` there is no way on. -/
theorem destroyed {b : Phase} (h : Phase.destroyed.Leads b) : b = .destroyed := by
  cases b <;> simp_all [Leads]

end Phase.Leads

/-- A comparison of steps in a world that is kept by every way to build the steps in which no value
is made and no member is invoked. A revision of the definitions is one step with its report. -/
structure Congruence (R : (α : Type) → World C → Machine C α → Machine C α → Prop) : Prop where
  pure : ∀ {α} (w : World C) (a : α), R α w (pure a) (pure a)
  failure : ∀ (α : Type) (w : World C), R α w failure failure
  bind : ∀ {α β} {w : World C} {m m' : Machine C α} {f f' : α → Machine C β}, R α w m m' →
    (∀ a v, m'.exec w = (some a, v) → R β v (f a) (f' a)) → R β w (m >>= f) (m' >>= f')
  look : ∀ w, R _ w get get
  report : ∀ w c (e : Event), e.isRevision = false →
    R _ w (Machine.report c e) (Machine.report c e)
  addContainer : ∀ w, R _ w Machine.addContainer Machine.addContainer
  register : ∀ w c r, R _ w (Host.register c r).run (Host.register c r).run
  unregister : ∀ w c type qualifiers,
    R _ w (Host.unregister c type qualifiers).run (Host.unregister c type qualifiers).run
  setRegistry : ∀ (w : World C) c r, (w.container c).registry.Retains r →
    R _ w (Machine.setRegistry c r) (Machine.setRegistry c r)
  advancePhase : ∀ w c old new, Phase.Leads old new →
    R _ w (Machine.advancePhase c old new) (Machine.advancePhase c old new)
  settleValidation : ∀ w c r, R _ w (Machine.settleValidation c r) (Machine.settleValidation c r)

/-- A comparison of steps in a world that is kept by every way to build the steps in which no value
is kept. -/
structure Congruence.Acting (R : (α : Type) → World C → Machine C α → Machine C α → Prop) : Prop
    extends Congruence R where
  mark : ∀ w m, R _ w (Machine.mark m) (Machine.mark m)
  note : ∀ w n, R _ w (Machine.note n) (Machine.note n)
  setClient : ∀ w s, R _ w (Machine.setClient s) (Machine.setClient s)
  swapPhase : ∀ w c,
    R _ w (Machine.swapPhase c .destroyed) (Machine.swapPhase c .destroyed)
  release? : ∀ w (p : Provider C), R _ w (Machine.release? p.id) (Machine.release? p.id)
  beginBuilding : ∀ w p, R _ w (Machine.beginBuilding p) (Machine.beginBuilding p)
  endBuilding : ∀ w p, R _ w (Machine.endBuilding p) (Machine.endBuilding p)
  apart : ∀ {α} {w : World C} {m m' : Machine C α}, R α w.departed m m' →
    R α w (Machine.apart m) (Machine.apart m')

/-- A comparison of steps in a world that is kept by every way to build steps. -/
structure Congruence.Full (R : (α : Type) → World C → Machine C α → Machine C α → Prop) : Prop
    extends Congruence.Acting R where
  keep : ∀ w p v, R _ w (Machine.keep p v) (Machine.keep p v)

variable {R : (α : Type) → World C → Machine C α → Machine C α → Prop}

namespace Congruence

/-! ## Steps that may fail -/

/-- Two attempts correspond if their first parts do and, after a success, their rests do. -/
theorem bind_run (hR : Congruence R) {w : World C} {a a' : Attempt C α} {f f' : α → Attempt C β}
    (h : R _ w a.run a'.run)
    (hf : ∀ x v, a'.run.exec w = (some (.ok x), v) → R _ v (f x).run (f' x).run) :
    R _ w (a >>= f).run (a' >>= f').run := by
  refine hR.bind h fun r v hexec => ?_
  rcases r with e | x
  · exact hR.pure v (Except.error e)
  · exact hf x v hexec

theorem step (hR : Congruence R) {w : World C} {m m' : Machine C α} (h : R _ w m m') :
    R _ w (Host.step m).run (Host.step m').run :=
  hR.bind h fun a v _ => hR.pure v (Except.ok a)

theorem resultOf (hR : Congruence R) {w : World C} {a a' : Attempt C α}
    (h : R _ w a.run a'.run) : R _ w (Host.resultOf a).run (Host.resultOf a').run :=
  hR.bind h fun r v _ => hR.pure v (Except.ok r)

/-- Goes on after a step in a world that may be another one. -/
theorem bind_step (hR : Congruence R) {w : World C} {m m' : Machine C α}
    {f f' : α → Attempt C β} (h : R _ w m m')
    (hf : ∀ a v, m'.exec w = (some a, v) → R _ v (f a).run (f' a).run) :
    R _ w (Host.step m >>= f).run (Host.step m' >>= f').run := by
  refine hR.bind_run (hR.step h) fun a v hexec => hf a v ?_
  rw [Host.run_step, Machine.exec_bind] at hexec
  rcases hm : m'.exec w with ⟨_ | b, u⟩
  · rw [hm] at hexec
    cases hexec
  · rw [hm] at hexec
    cases hexec
    rfl

theorem pure_run (hR : Congruence R) (w : World C) (a : α) :
    R _ w (Pure.pure a : Attempt C α).run (Pure.pure a : Attempt C α).run := hR.pure w (Except.ok a)

theorem throw_run (hR : Congruence R) (w : World C) (e : Failure) :
    R _ w (throw e : Attempt C α).run (throw e : Attempt C α).run := hR.pure w (Except.error e)

/-- Nothing goes on after a failure. -/
theorem throw_bind_run (hR : Congruence R) (w : World C) (e : Failure)
    (f f' : α → Attempt C β) : R _ w (throw e >>= f).run (throw e >>= f').run :=
  hR.bind_run (hR.throw_run w e) fun _ _ hexec => by cases hexec

/-- Nothing goes on after a step that gets stuck. -/
theorem stuck_bind_run (hR : Congruence R) (w : World C) (f f' : α → Attempt C β) :
    R _ w (Host.step Alternative.failure >>= f).run (Host.step Alternative.failure >>= f').run :=
  hR.bind_step (hR.failure α w) fun _ _ hexec => by cases hexec

theorem settle (hR : Congruence R) (w : World C) (r : Attempted α) :
    R _ w (Host.settle r : Attempt C α).run (Host.settle r : Attempt C α).run := hR.pure w r

/-! ## Small steps -/

theorem container (hR : Congruence R) (w : World C) (c : ContainerId) :
    R _ w (Machine.container c) (Machine.container c) := by
  refine hR.bind (hR.look w) fun u v _ => ?_
  rcases u.containers.get? c with _ | k
  · exact hR.failure _ v
  · exact hR.pure v k

/-- What is read is the container, and reading changes nothing. -/
theorem eq_of_exec_container {w v : World C} {c : ContainerId} {k : Container C}
    (h : (Machine.container c).exec w = (some k, v)) : k = w.container c ∧ v = w := by
  rcases hk : w.containers.get? c with _ | k'
  · rw [Machine.exec_container_of_none hk] at h
    cases h
  · rw [Host.exec_container ⟨k', hk⟩] at h
    cases h
    exact ⟨rfl, rfl⟩

/-- Goes on after a container was read. -/
theorem bind_container (hR : Congruence R) {w : World C} {c : ContainerId}
    {f f' : Container C → Attempt C β}
    (hf : R _ w (f (w.container c)).run (f' (w.container c)).run) :
    R _ w (Host.step (Machine.container c) >>= f).run
      (Host.step (Machine.container c) >>= f').run := by
  refine hR.bind_step (hR.container w c) fun k v hexec => ?_
  obtain ⟨rfl, rfl⟩ := eq_of_exec_container hexec
  exact hf

theorem kept? (hR : Congruence R) (w : World C) (p : ProviderId) :
    R _ w (Machine.kept? p) (Machine.kept? p) :=
  hR.bind (hR.look w) fun _ v _ => hR.pure v _

theorem awaitMaking (hR : Congruence R) (w : World C) (p : ProviderId) :
    R _ w (Machine.awaitMaking p) (Machine.awaitMaking p) := by
  refine hR.bind (hR.look w) fun u v _ => ?_
  split
  · exact hR.failure _ v
  · exact hR.pure v PUnit.unit

end Congruence

namespace Host

variable {code : Codebase C} {f g : (k : Call C) → Machine C (Reply C k)} {h h' : Host C}

/-! ## Containers -/

theorem create_congr (hR : Congruence R) (w : World C) : R _ w create create := by
  refine hR.bind (hR.addContainer w) fun c v _ => ?_
  exact hR.bind (hR.report v c _ rfl) fun _ u _ => hR.pure u c

theorem survey_congr (hR : Congruence R) (c : ContainerId) (w : World C) :
    R _ w (survey c) (survey c) :=
  hR.bind (hR.container w c) fun _ v _ => hR.pure v _

/-! ## Validation -/

/-- Two hosts ask components what they need in ways that compare. -/
structure DescribedAlike (R : (α : Type) → World C → Machine C α → Machine C α → Prop)
    (h h' : Host C) : Prop where
  constructor : ∀ type w, R _ w (h.run (h.code.component type).constructor)
    (h'.run (h'.code.component type).constructor)
  points : ∀ type w, R _ w (h.run (h.code.component type).points)
    (h'.run (h'.code.component type).points)

section Described

variable (hR : Congruence R) (hd : DescribedAlike R h h')
include hR hd

/-- The check of one component asks its constructor and its points, which correspond. -/
theorem checkComponent_congr (c : ContainerId) (type : TypeKey) (w : World C) :
    R _ w (checkComponent h c type).run (checkComponent h' c type).run := by
  refine hR.bind_step (hd.constructor type w) fun constructor v _ => ?_
  refine hR.bind_step (hd.points type v) fun points u _ => ?_
  exact hR.bind_container (hR.settle u _)

theorem checkProviders_congr (c : ContainerId) (l : List (Provider C)) (w : World C) :
    R _ w (checkProviders h c l).run (checkProviders h' c l).run := by
  induction l generalizing w with
  | nil => exact hR.pure_run w ()
  | cons p rest ih =>
    unfold checkProviders
    split
    · refine hR.bind_run (hR.resultOf (checkComponent_congr hR hd c _ w)) fun r v _ => ?_
      rcases r with e | _
      · exact hR.bind_step (hR.report v c _ rfl) fun _ u _ => hR.throw_run u e
      · exact ih v
    · exact ih w

/-- The check of all providers carries the correspondence to the whole validation. -/
theorem validateNow_congr (c : ContainerId) (w : World C) :
    R _ w (validateNow h c).run (validateNow h' c).run := by
  have hadvance : ∀ w old new, Phase.Leads old new →
      R _ w (Machine.advancePhase c old new) (Machine.advancePhase c old new) :=
    fun w => hR.advancePhase w c
  refine hR.bind_step (hadvance w _ _ True.intro) fun _ v _ => ?_
  refine hR.bind_container (hR.bind_step (hR.report v c _ rfl) fun _ u _ => ?_)
  refine hR.bind_container ?_
  refine hR.bind_run (hR.resultOf (checkProviders_congr hR hd c _ u)) fun r x _ => ?_
  rcases r with e | _
  · exact hR.bind_step (hadvance x _ _ Phase.noConfusion) fun _ y _ => hR.throw_run y e
  · refine hR.bind_step (hadvance x _ _ Phase.noConfusion) fun _ y _ => ?_
    exact hR.bind_container (hR.step (hR.report y c _ rfl))

theorem validate_congr (c : ContainerId) (w : World C) :
    R _ w (validate h c).run (validate h' c).run := by
  have hrest : R _ w (do
      let r ← resultOf (validateNow h c)
      step (Machine.settleValidation c r)
      settle r).run (do
      let r ← resultOf (validateNow h' c)
      step (Machine.settleValidation c r)
      settle r).run := by
    refine hR.bind_run (hR.resultOf (validateNow_congr hR hd c w)) fun r v _ => ?_
    exact hR.bind_step (hR.settleValidation v c r) fun _ u _ => hR.settle u r
  unfold validate
  refine hR.bind_container ?_
  -- A destroyed container refuses, a settled one repeats its verdict, a validating one is waited
  -- for; else it is validated now.
  by_cases hdestroyed : (w.container c).phase = .destroyed
  · simp only [if_pos hdestroyed]
    exact hR.throw_bind_run w _ _ _
  · simp only [if_neg hdestroyed]
    rcases (w.container c).validation with _ | r
    · by_cases hvalidating : (w.container c).phase = .validating
      · simp only [if_pos hvalidating]
        exact hR.stuck_bind_run w _ _
      · simp only [if_neg hvalidating]
        exact hrest
    · exact hR.settle w r

theorem ensureReady_congr (c : ContainerId) (w : World C) :
    R _ w (ensureReady h c).run (ensureReady h' c).run := by
  refine hR.bind_container ?_
  rcases (w.container c).phase
  case ready => exact hR.pure_run w ()
  case destroyed => exact hR.throw_run w _
  all_goals exact validate_congr hR hd c w

theorem select_congr (c : ContainerId) (type : TypeKey) (qualifiers : Qualifiers) (w : World C) :
    R _ w (select h c type qualifiers).run (select h' c type qualifiers).run := by
  refine hR.bind_run (ensureReady_congr hR hd c w) fun _ v _ => ?_
  exact hR.bind_container (hR.bind_step (hR.report v c _ rfl) fun _ u _ => hR.pure_run u _)

end Described

section Acting

variable (hR : Congruence.Acting R) (hcall : ∀ k w, R _ w (f k) (g k))
include hR hcall

/-! ## Client code -/

/-- A program corresponds to itself if the answers to its calls do, by induction on the program. -/
theorem run_congr (p : Program C α) (w : World C) : R _ w (p.run f) (p.run g) := by
  induction p generalizing w with
  | done a => exact hR.pure w a
  | call k next ih => exact hR.bind (hcall k w) fun r v _ => ih r v
  | read next ih => exact hR.bind (hR.bind (hR.look w) fun u v _ => hR.pure v _) fun s v _ => ih s v
  | write s next ih => exact hR.bind (hR.setClient w s) fun _ v _ => ih v
  | note n next ih => exact hR.bind (hR.note w n) fun _ v _ => ih v

/-- Two hosts with the same code compare in what they ask if they do in the calls. -/
theorem describedAlike : DescribedAlike R ⟨code, f⟩ ⟨code, g⟩ :=
  ⟨fun _ w => run_congr hR hcall _ w, fun _ w => run_congr hR hcall _ w⟩

theorem invoke_congr (member : String) (p : Routine C α) (w : World C) :
    R _ w (invoke ⟨code, f⟩ member p).run (invoke ⟨code, g⟩ member p).run := by
  refine hR.bind_step (hR.mark w _) fun _ v _ => ?_
  refine hR.bind_step (run_congr hR hcall p v) fun r u _ => ?_
  rcases r with problem | a
  · exact hR.throw_run u _
  · exact hR.pure_run u a

/-! ## Construction -/

theorem resolve_congr (c : ContainerId) (member : String) (d : Dependency) (w : World C) :
    R _ w (resolve ⟨code, f⟩ c member d).run (resolve ⟨code, g⟩ c member d).run := by
  unfold resolve
  rcases d.want with type | _ | type
  · exact hR.bind_run (hcall (.get c type d.qualifiers) w) fun v u _ => hR.pure_run u _
  · exact hR.pure_run w _
  · exact hR.bind_run (hcall (.select c type d.qualifiers) w) fun s u _ => hR.pure_run u _

theorem resolveAll_congr (c : ContainerId) (l : List (String × Dependency)) (w : World C) :
    R _ w (resolveAll ⟨code, f⟩ c l).run (resolveAll ⟨code, g⟩ c l).run := by
  induction l generalizing w with
  | nil => exact hR.pure_run w []
  | cons e rest ih =>
    refine hR.bind_run (resolve_congr hR hcall c e.1 e.2 w) fun i v _ => ?_
    exact hR.bind_run (ih v) fun values u _ => hR.pure_run u _

theorem injectPoint_congr (c : ContainerId) (type : TypeKey) (p : Point) (o : C.Object)
    (w : World C) :
    R _ w (injectPoint ⟨code, f⟩ c type p o) (injectPoint ⟨code, g⟩ c type p o) := by
  refine hR.bind (resolveAll_congr hR hcall c _ w) fun r v _ => ?_
  rcases r with e | values
  · exact hR.pure v _
  · refine hR.bind (hR.mark v _) fun _ u _ => ?_
    exact hR.bind (run_congr hR hcall _ u) fun a x _ => hR.pure x _

theorem injectPoints_congr (c : ContainerId) (type : TypeKey) (l : List Point) (o : C.Object)
    (w : World C) :
    R _ w (injectPoints ⟨code, f⟩ c type l o) (injectPoints ⟨code, g⟩ c type l o) := by
  induction l generalizing o w with
  | nil => exact hR.pure w _
  | cons p rest ih =>
    refine hR.bind (injectPoint_congr hR hcall c type p o w) fun a v _ => ?_
    rcases a with ⟨o', e | _⟩
    · exact hR.pure v _
    · exact ih o' v

theorem injectObject_congr (c : ContainerId) (type : TypeKey) (o : C.Object) (w : World C) :
    R _ w (injectObject ⟨code, f⟩ c type o) (injectObject ⟨code, g⟩ c type o) := by
  refine hR.bind (run_congr hR hcall _ w) fun points v _ => ?_
  refine hR.bind (hR.report v c _ rfl) fun _ u _ => ?_
  exact injectPoints_congr hR hcall c type _ o u

theorem runHooks_congr (type : TypeKey) (o : C.Object) (l : List (Hook C.Object (Routine C Unit)))
    (w : World C) :
    R _ w (runHooks ⟨code, f⟩ type o l).run (runHooks ⟨code, g⟩ type o l).run := by
  induction l generalizing w with
  | nil => exact hR.pure_run w ()
  | cons hook rest ih =>
    exact hR.bind_run (invoke_congr hR hcall _ _ w) fun _ v _ => ih v

theorem postConstruct_congr (type : TypeKey) (o : C.Object) (w : World C) :
    R _ w (postConstruct ⟨code, f⟩ type o).run (postConstruct ⟨code, g⟩ type o).run :=
  hR.bind_step (run_congr hR hcall _ w) fun _ v _ => runHooks_congr hR hcall type o _ v

theorem preDestroy_congr (type : TypeKey) (o : C.Object) (w : World C) :
    R _ w (preDestroy ⟨code, f⟩ type o).run (preDestroy ⟨code, g⟩ type o).run :=
  hR.bind_step (run_congr hR hcall _ w) fun _ v _ => runHooks_congr hR hcall type o _ v

theorem build_congr (c : ContainerId) (type : TypeKey) (w : World C) :
    R _ w (build ⟨code, f⟩ c type).run (build ⟨code, g⟩ c type).run := by
  refine hR.bind_step (run_congr hR hcall _ w) fun constructor w₁ _ => ?_
  refine hR.bind_run (resolveAll_congr hR hcall c _ w₁) fun values w₂ _ => ?_
  refine hR.bind_run (invoke_congr hR hcall _ _ w₂) fun o w₃ _ => ?_
  refine hR.bind_step (injectObject_congr hR hcall c type o w₃) fun a w₄ _ => ?_
  refine hR.bind_run (hR.settle w₄ a.2) fun _ w₅ _ => ?_
  exact hR.bind_run (postConstruct_congr hR hcall type a.1 w₅) fun _ v _ => hR.pure_run v _

/-! ## Resolution -/

omit hcall in
/-- Making under the guard corresponds if what is made does, from every world. -/
theorem whileBuilding_congr (p : Provider C) {body body' : Attempt C α}
    (hbody : ∀ w, R _ w body.run body'.run) (w : World C) :
    R _ w (whileBuilding p body).run (whileBuilding p body').run := by
  have hrest : ∀ w, R _ w (do
      step (Machine.beginBuilding p.id)
      let r ← resultOf body
      step (Machine.endBuilding p.id)
      settle r).run (do
      step (Machine.beginBuilding p.id)
      let r ← resultOf body'
      step (Machine.endBuilding p.id)
      settle r).run := by
    intro w
    refine hR.bind_step (hR.beginBuilding w p.id) fun _ v _ => ?_
    refine hR.bind_run (hR.resultOf (hbody v)) fun r u _ => ?_
    exact hR.bind_step (hR.endBuilding u p.id) fun _ x _ => hR.settle x r
  unfold whileBuilding
  -- Both read the same stack and wait for the same threads; only the bodies differ.
  refine hR.bind_run (hR.step (hR.look w)) fun u v _ => ?_
  by_cases hbuilding : u.building.contains p.id = true
  · simp only [if_pos hbuilding]
    exact hR.throw_bind_run v _ _ _
  · simp only [if_neg hbuilding]
    by_cases hscope : p.definition.scope = .singleton
    · simp only [if_pos hscope]
      exact hR.bind_step (hR.awaitMaking v p.id) fun _ x _ => hrest x
    · simp only [if_neg hscope]
      exact hrest v

theorem makeBySource_congr (c : ContainerId) (d : Definition C) (w : World C) :
    R _ w (makeBySource ⟨code, f⟩ c d).run (makeBySource ⟨code, g⟩ c d).run := by
  unfold makeBySource
  rcases d.source with v | ⟨produce, dispose⟩ | _
  · exact hR.pure_run w v
  · exact invoke_congr hR hcall _ _ w
  · exact build_congr hR hcall c _ w

theorem materialize_congr (c : ContainerId) (p : Provider C) (w : World C) :
    R _ w (materialize ⟨code, f⟩ c p).run (materialize ⟨code, g⟩ c p).run := by
  refine hR.bind_step (hR.report w c _ rfl) fun _ v _ => ?_
  refine hR.bind_step (hR.mark v _) fun _ u _ => ?_
  refine hR.bind_run (makeBySource_congr hR hcall c _ u) fun x y _ => ?_
  exact hR.bind_step (hR.mark y _) fun _ z _ => hR.pure_run z x

/-- Two hosts resolve providers that some container refers to in ways that compare. -/
def ResolvedAlike (R : (α : Type) → World C → Machine C α → Machine C α → Prop)
    (h h' : Host C) : Prop :=
  ∀ (w : World C) c p type, (w.container c).registry.Refers p →
    R _ w (provideAs h c p type).run (provideAs h' c p type).run

theorem getObject_congr (hresolved : ResolvedAlike R ⟨code, f⟩ ⟨code, g⟩) (c : ContainerId)
    (type : TypeKey) (qualifiers : Qualifiers) (w : World C) :
    R _ w (getObject ⟨code, f⟩ c type qualifiers).run
      (getObject ⟨code, g⟩ c type qualifiers).run := by
  unfold getObject askOnly
  refine hR.bind_run
    (ensureReady_congr hR.toCongruence (describedAlike hR hcall) c w) fun _ v _ => ?_
  by_cases htype : type = .container
  · simp only [if_pos htype]
    exact hR.pure_run v _
  · simp only [if_neg htype]
    refine hR.bind_container ?_
    have hretains := (v.container c).registry.retains_findUnique (type, qualifiers)
    rcases hfound : (v.container c).registry.findUnique (type, qualifiers) with ⟨found, registry⟩
    rw [hfound] at hretains
    refine hR.bind_step (hR.setRegistry v c registry hretains) fun _ u hset => ?_
    rcases found with e | p
    · exact hR.bind_step (hR.report u c _ rfl) fun _ x _ => hR.throw_run x e
    · -- The registry that remembers the provider is the one that is asked.
      have hrefers : registry.Refers p := by
        have hfinds := Registry.refers_of_findUnique (congrArg Prod.fst hfound)
        rwa [hfound] at hfinds
      refine hR.bind_step (hR.report u c _ rfl) fun _ x hreport => hresolved x c p type ?_
      rw [Machine.exec_setRegistry] at hset
      rw [Machine.exec_report] at hreport
      cases hset
      cases hreport
      rw [World.container_enter, World.container_withContainer_self]
      exact hrefers

omit hcall in
theorem resolveMatch_congr (hresolved : ResolvedAlike R ⟨code, f⟩ ⟨code, g⟩) (s : Selection)
    (id : ProviderId) (w : World C) :
    R _ w (resolveMatch ⟨code, f⟩ s id).run (resolveMatch ⟨code, g⟩ s id).run := by
  unfold resolveMatch
  refine hR.bind_container ?_
  by_cases hphase : (w.container s.container).phase = .unconfigured
  · simp only [if_pos hphase]
    exact hR.stuck_bind_run w _ _
  · simp only [if_neg hphase]
    rcases hp : (w.container s.container).registry.provider? id with _ | p
    · exact hR.step (hR.failure _ w)
    · exact hresolved w s.container p s.type (.inl (Registry.mem_of_provider? hp).1)

omit hcall in
theorem single_congr (hresolved : ResolvedAlike R ⟨code, f⟩ ⟨code, g⟩) (s : Selection)
    (w : World C) : R _ w (single ⟨code, f⟩ s).run (single ⟨code, g⟩ s).run := by
  unfold single
  rcases s.providers with _ | ⟨id, _ | _⟩
  · exact hR.throw_run w _
  · exact resolveMatch_congr hR hresolved s id w
  · exact hR.throw_run w _

omit hcall in
theorem advance_congr (hresolved : ResolvedAlike R ⟨code, f⟩ ⟨code, g⟩) (cursor : Cursor)
    (w : World C) :
    R _ w (advance ⟨code, f⟩ cursor) (advance ⟨code, g⟩ cursor) := by
  unfold advance
  rcases cursor.match? with _ | id
  · exact hR.pure w _
  · exact hR.bind (resolveMatch_congr hR hresolved cursor.selection id w) fun r v _ => hR.pure v _

theorem inject_congr (c : ContainerId) (type : TypeKey) (o : C.Object) (w : World C) :
    R _ w (inject ⟨code, f⟩ c type o) (inject ⟨code, g⟩ c type o) := by
  refine hR.bind (ensureReady_congr hR.toCongruence (describedAlike hR hcall) c w) fun r v _ => ?_
  rcases r with e | _
  · exact hR.pure v _
  · exact injectObject_congr hR hcall c type o v

/-! ## Teardown -/

theorem disposeBySource_congr (d : Definition C) (x : Value C) (w : World C) :
    R _ w (disposeBySource ⟨code, f⟩ d x).run (disposeBySource ⟨code, g⟩ d x).run := by
  unfold disposeBySource
  rcases d.source with v | ⟨produce, _ | dispose⟩ | _
  · exact hR.pure_run w ()
  · exact hR.pure_run w ()
  · exact invoke_congr hR hcall _ _ w
  · rcases x with c | o
    · exact hR.throw_run w _
    · exact preDestroy_congr hR hcall _ o w

theorem disposeOf_congr (d : Definition C) (x : Value C) (w : World C) :
    R _ w (disposeOf ⟨code, f⟩ d x).run (disposeOf ⟨code, g⟩ d x).run := by
  unfold disposeOf
  refine hR.bind_run (hR.resultOf (disposeBySource_congr hR hcall d x w)) fun own v _ => ?_
  rcases d.onDestroy with _ | dispose
  · exact hR.settle v own
  · refine hR.bind_run (hR.resultOf (invoke_congr hR hcall _ _ v)) fun extra u _ => ?_
    exact hR.bind_run (hR.settle u own) fun _ y _ => hR.settle y extra

/-- The sweep corresponds by induction on the providers still ahead. -/
theorem disposeAll_congr (c : ContainerId) (l : List (Provider C)) (result : TeardownResult)
    (w : World C) :
    R _ w (disposeAll ⟨code, f⟩ c l result) (disposeAll ⟨code, g⟩ c l result) := by
  induction l generalizing result w with
  | nil => exact hR.pure w result
  | cons p rest ih =>
    refine hR.bind (hR.release? w p) fun kept v _ => ?_
    rcases kept with _ | x
    · exact ih result v
    · refine hR.bind (disposeOf_congr hR hcall _ x v) fun r u _ => ?_
      refine hR.bind (hR.mark u _) fun _ y _ => ?_
      rcases r with e | _
      · exact hR.bind (hR.report y c _ rfl) fun _ z _ => ih _ z
      · exact ih _ y

theorem destroy_congr (c : ContainerId) (w : World C) :
    R _ w (destroy ⟨code, f⟩ c).run (destroy ⟨code, g⟩ c).run := by
  unfold destroy
  refine hR.bind_step (hR.swapPhase w c) fun previous v _ => ?_
  -- Whoever finds the container destroyed has nothing to do.
  by_cases hprevious : previous = .destroyed
  · simp only [if_pos hprevious]
    exact hR.pure_run v ()
  · simp only [if_neg hprevious]
    refine hR.bind_container ?_
    refine hR.bind_step (disposeAll_congr hR hcall c _ _ v) fun r u _ => ?_
    refine hR.bind_container (hR.bind_step
      (hR.setRegistry u c _ (Registry.retains_forget _)) fun _ x _ => ?_)
    refine hR.bind_step (hR.report x c _ rfl) fun _ y _ => ?_
    rcases r.failure with _ | e
    · exact hR.pure_run y ()
    · exact hR.throw_run y e

/-! ## Calls -/

/-- A call compares on both sides if the calls that client code makes in it do, and what comes of
resolving a provider. -/
theorem answer_congr_of_resolved (hresolved : ResolvedAlike R ⟨code, f⟩ ⟨code, g⟩) (k : Call C)
    (w : World C) : R _ w (Host.answer ⟨code, f⟩ k) (Host.answer ⟨code, g⟩ k) := by
  -- Each call is one function; those that hand out objects correspond by the hypothesis on
  -- resolving.
  cases k with
  | create => exact create_congr hR.toCongruence w
  | register c r => exact hR.register w c r
  | unregister c type qualifiers => exact hR.unregister w c type qualifiers
  | validate c => exact validate_congr hR.toCongruence (describedAlike hR hcall) c w
  | get c type qualifiers => exact getObject_congr hR hcall hresolved c type qualifiers w
  | getApart c type qualifiers =>
    exact hR.apart (getObject_congr hR hcall hresolved c type qualifiers _)
  | select c type qualifiers =>
    exact select_congr hR.toCongruence (describedAlike hR hcall) c type qualifiers w
  | single s => exact single_congr hR hresolved s w
  | advance cursor => exact advance_congr hR hresolved cursor w
  | inject c type o => exact inject_congr hR hcall c type o w
  | postConstruct type o => exact postConstruct_congr hR hcall type o w
  | preDestroy type o => exact preDestroy_congr hR hcall type o w
  | destroy c => exact destroy_congr hR hcall c w
  | survey c => exact survey_congr hR.toCongruence c w
  | constructorOf type => exact run_congr hR hcall _ w
  | pointsOf type => exact run_congr hR hcall _ w

end Acting

/-! ## Values that are kept -/

section Full

variable (hR : Congruence.Full R) (hcall : ∀ k w, R _ w (f k) (g k))
include hR hcall

theorem makeOnce_congr (c : ContainerId) (p : Provider C) (w : World C) :
    R _ w (makeOnce ⟨code, f⟩ c p).run (makeOnce ⟨code, g⟩ c p).run := by
  unfold makeOnce
  refine whileBuilding_congr hR.toActing p (fun w => ?_) w
  refine hR.bind_step (hR.kept? w p.id) fun kept v _ => ?_
  rcases kept with _ | x
  · refine hR.bind_run (materialize_congr hR.toActing hcall c p v) fun x u _ => ?_
    exact hR.bind_step (hR.keep u p.id x) fun _ y _ => hR.pure_run y x
  · exact hR.pure_run v x

omit hcall in
theorem look_congr (c : ContainerId) (p : Provider C) (w : World C) :
    R _ w (look c p) (look c p) := by
  unfold look
  refine hR.bind (hR.kept? w p.id) fun kept v _ => ?_
  rcases kept with _ | x
  · exact hR.pure v none
  · exact hR.bind (hR.report v c _ rfl) fun _ u _ => hR.pure u (some x)

/-- A request corresponds if its looking, its making and the result handed on do. -/
theorem provide_congr (c : ContainerId) (p : Provider C) (w : World C) :
    R _ w (provide ⟨code, f⟩ c p).run (provide ⟨code, g⟩ c p).run := by
  unfold provide
  rcases p.definition.scope
  · refine hR.bind_step (look_congr hR c p w) fun kept v _ => ?_
    rcases kept with _ | x
    · exact makeOnce_congr hR hcall c p v
    · exact hR.pure_run v x
  · exact whileBuilding_congr hR.toActing p (materialize_congr hR.toActing hcall c p) w

theorem provideAs_congr (c : ContainerId) (p : Provider C) (type : TypeKey) (w : World C) :
    R _ w (provideAs ⟨code, f⟩ c p type).run (provideAs ⟨code, g⟩ c p type).run := by
  refine hR.bind_run
    (ensureReady_congr hR.toCongruence (describedAlike hR.toActing hcall) c w) fun _ v _ => ?_
  refine hR.bind_run (provide_congr hR hcall c p v) fun x u _ => ?_
  unfold asType
  rcases p.definition.convert? type x with _ | y
  · exact hR.throw_run u _
  · exact hR.pure_run u y

/-- A comparison that every way to build steps keeps compares a call on both sides if it compares
the calls that client code makes in it. -/
theorem answer_congr (k : Call C) (w : World C) :
    R _ w (Host.answer ⟨code, f⟩ k) (Host.answer ⟨code, g⟩ k) :=
  answer_congr_of_resolved hR.toActing hcall
    (fun w c p type _ => provideAs_congr hR hcall c p type w) k w

end Full

end Host

end Wiring
