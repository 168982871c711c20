import Mathlib.Data.List.Forall2
import Wiring.Proofs.Answering
import Wiring.Proofs.Asking
import Wiring.Proofs.Needs
import Wiring.Proofs.Validity

/-!
# Cycles are found, exactly

Where client code keeps to itself and does what it is asked to do, a request fails exactly if its
provider leads to a cycle, and then it names a provider on one.

A provider is found to be circular while it is under construction. Everything under construction
leads to what is being asked for, so the provider lies on a cycle. Conversely a provider that has
made a value leads to no cycle. The providers that are not under construction become fewer with
every nested request, so there is an answer.

Main statement: `Codebase.answered_iff_not_entangled`.
-/

namespace Wiring

variable {C : Client} {L : Declarations} {c : ContainerId} {r : Registry C}

/-! ## Code that does what it is asked to do -/

/-- A resolved value has the form that its place asks for. -/
def Injected.Serves (i : Injected C) (e : String × Dependency) : Prop :=
  i.member = e.1 ∧
    match e.2.want with
    | .object type => ∃ x, i.payload = .value type x
    | .selection type => ∃ s, i.payload = .selection s ∧ s.type = type
    | .container => ∃ id, i.payload = .value .container (.container id)

/-- The code of a component makes no call and succeeds, given what it has declared. -/
structure Component.Obliges (m : Component C) (L : Declarations) (type : TypeKey) : Prop where
  constructor : m.constructor.Ends (· = L.constructor type)
  points : m.points.Ends (· = L.points type)
  construct : ∀ values, List.Forall₂ Injected.Serves values
      (Label.parameters type.name "new" (L.constructor type).parameters) →
    (m.construct ⟨Label.member type.name "new", values⟩).Succeeds
  setField : ∀ o name d i, .field name d ∈ (L.points type).toList →
    i.Serves (Label.member type.name name, d) → (m.setField o name i).Ends fun a => a.2 = .ok ()
  callMethod : ∀ o name wanted values, .method name wanted ∈ (L.points type).toList →
    List.Forall₂ Injected.Serves values (Label.parameters type.name name wanted) →
    (m.callMethod o name ⟨Label.call type.name name, values⟩).Ends fun a => a.2 = .ok ()
  lifecycle : m.lifecycle.Ends fun l => ∀ o, ∀ hook ∈ l.postConstruct, (hook.act o).Succeeds

/-- The code behind a definition makes no call and succeeds. -/
def Codebase.Obliges (code : Codebase C) (L : Declarations) (d : Definition C) : Prop :=
  match d.source with
  | .ready _ => True
  | .producer produce _ => ∀ c, (code.produce produce c).Succeeds
  | .component => (code.component d.implementation).Obliges L d.implementation

/-- The providers have identities, there is one for every object that one of them declares, and
their code does what it is asked to do. -/
structure Registry.Equipped (r : Registry C) (code : Codebase C) (L : Declarations) : Prop where
  unique : ∀ p ∈ r.providers, ∀ q ∈ r.providers, p.id = q.id → p = q
  met : ∀ p ∈ r.providers, p.definition.isComponent = true → ∀ member d type,
    (member, d) ∈ L.resolutions p.definition.implementation → d.want = .object type →
    ∃ q, r.scan (type, d.qualifiers) = .ok q
  obliges : ∀ p ∈ r.providers, code.Obliges L p.definition

/-- A failure names a provider on a cycle to which another provider leads. -/
def Declarations.Blames (L : Declarations) (r : Registry C) (p : Provider C) (e : Failure) : Prop :=
  ∃ q, L.Entangled r p q ∧ e = .circular q.definition.implementation q.definition.qualifiers

/-! ## While values are made -/

namespace World

/-- A container is ready and holds the providers of a registry, and these are under construction
and nothing else. -/
structure Calm (w : World C) (c : ContainerId) (r : Registry C) (building : List ProviderId) :
    Prop where
  ready : (w.container c).phase = .ready
  providers : (w.container c).registry.providers = r.providers
  recalls : (w.container c).registry.Recalls
  building : w.building = building
  waiting : w.waiting.flatten = []

namespace Calm

variable {w v : World C} {building : List ProviderId}

/-- In a calm world requests find what they found when it began. -/
theorem scan (hw : w.Calm c r building) (request : Request) :
    (w.container c).registry.scan request = r.scan request :=
  Registry.scan_congr hw.providers

/-- A world stays calm while nothing moves. -/
theorem unmoved (hw : w.Calm c r building) (h : w.Unmoved v) : v.Calm c r building := by
  -- Calmness goes by the container's reading and by the two stacks, all of which are unmoved.
  have hcontainer := container_congr h.containers c
  constructor
  · rw [hcontainer]
    exact hw.ready
  · rw [hcontainer]
    exact hw.providers
  · rw [hcontainer]
    exact hw.recalls
  · rw [h.building]
    exact hw.building
  · rw [h.waiting]
    exact hw.waiting

theorem enter (hw : w.Calm c r building) (e : Entry C) : (w.enter e).Calm c r building :=
  hw.unmoved (.enter w e)

theorem looked (hw : w.Calm c r building) (request : Request) :
    (w.looked c request).Calm c r building := by
  obtain ⟨hproviders, hphase⟩ := container_looked w c request c
  refine ⟨hphase.trans hw.ready, hproviders.trans hw.providers, ?_, hw.building, hw.waiting⟩
  unfold World.looked withRegistry
  rw [container_enter, container_withContainer_self]
  exact hw.recalls.findUnique request

/-- A construction that begins leaves the world calm, with one provider more at work. -/
theorem begun (hw : w.Calm c r building) (p : Provider C) :
    (w.begun c p).Calm c r (p.id :: building) :=
  ⟨hw.ready, hw.providers, hw.recalls, congrArg _ hw.building, hw.waiting⟩

/-- One that is completed takes that provider away again. -/
theorem completed {p : Provider C} (hw : w.Calm c r (p.id :: building)) (x : Value C) :
    (w.completed p x).Calm c r building := by
  -- The making takes itself off the stack and touches nothing else that calmness speaks of.
  have hbuilding : (w.completed p x).building = w.building.erase p.id :=
    (Level.completed w p x).building
  have hwaiting : (w.completed p x).waiting = w.waiting := (Level.completed w p x).waiting
  have hcontainer := container_congr (w.containers_completed p x) c
  refine ⟨?_, ?_, ?_, ?_, ?_⟩
  · rw [hcontainer]
    exact hw.ready
  · rw [hcontainer]
    exact hw.providers
  · rw [hcontainer]
    exact hw.recalls
  · rw [hbuilding, hw.building, List.erase_cons_head]
  · rw [hwaiting]
    exact hw.waiting

end Calm

end World

/-- While a provider makes its value, the calls that resolve what it needs are answered. -/
structure Host.Supplies (h : Host C) (L : Declarations) (c : ContainerId) (r : Registry C)
    (building : List ProviderId) (p : Provider C) : Prop where
  get : ∀ w type qualifiers q, World.Calm w c r building → type ≠ .container →
    r.scan (type, qualifiers) = .ok q → L.Needs r p q →
    Machine.Answers (h.perform (.get c type qualifiers)) w fun a v =>
      match a with
      | .ok _ => World.Calm v c r building
      | .error e => L.Blames r q e
  itself : ∀ w qualifiers, World.Calm w c r building →
    Machine.Answers (h.perform (.get c .container qualifiers)) w fun a v =>
      (∃ x, a = .ok x) ∧ World.Calm v c r building
  select : ∀ w type qualifiers, World.Calm w c r building →
    Machine.Answers (h.perform (.select c type qualifiers)) w fun a v =>
      (∃ s, a = .ok s ∧ s.type = type) ∧ World.Calm v c r building

/-- A component is being made, and all that this takes is there. -/
structure Host.Builds (h : Host C) (L : Declarations) (c : ContainerId) (r : Registry C)
    (building : List ProviderId) (p : Provider C) : Prop where
  supplies : h.Supplies L c r building p
  equipped : r.Equipped h.code L
  holds : p ∈ r.providers
  component : p.definition.isComponent = true
  obliges : (h.code.component p.definition.implementation).Obliges L p.definition.implementation

/-- How the injection of a component ends. -/
structure World.Injected (v : World C) (L : Declarations) (c : ContainerId) (r : Registry C)
    (building : List ProviderId) (p : Provider C) (a : Attempted Unit) : Prop where
  ok : a = .ok () → v.Calm c r building
  error : ∀ e, a = .error e → L.Blames r p e

namespace Host

variable {h : Host C} {w : World C} {building : List ProviderId} {p : Provider C}

/-- The dependencies of a component at work are resolved, or the blame lies on a cycle. -/
theorem resolve_answers (hb : h.Builds L c r building p) (hw : w.Calm c r building)
    {e : String × Dependency}
    (he : e ∈ L.resolutions p.definition.implementation) :
    Attempt.Answers (h.resolve c e.1 e.2) w (fun i v => i.Serves e ∧ v.Calm c r building)
      (L.Blames r p) := by
  obtain ⟨member, d⟩ := e
  unfold resolve Injected.Serves
  -- An object is resolved by a lookup, the container by itself and a handle by a selection.
  rcases hwant : d.want with type | _ | type
  · by_cases htype : type = .container
    · subst htype
      refine .bind (Machine.Answers.mono (hb.supplies.itself w d.qualifiers hw) ?_)
      rintro _ v ⟨⟨x, rfl⟩, hv⟩
      exact .pure ⟨⟨rfl, x, rfl⟩, hv⟩
    -- The validated container meets the demand with exactly one provider, which is then needed.
    · obtain ⟨q, hq⟩ := hb.equipped.met p hb.holds hb.component member d type he hwant
      have hneeds : L.Needs r p q := ⟨hb.component, member, d, type, he, hwant, htype, hq⟩
      have hget := hb.supplies.get w type d.qualifiers q hw htype hq hneeds
      refine .bind (Machine.Answers.mono hget ?_)
      rintro (e | x) v hv
      · obtain ⟨o, ho, rfl⟩ := hv
        -- What blames that provider blames this one, which needs it.
        exact ⟨o, ho.head hneeds, rfl⟩
      · exact .pure ⟨⟨rfl, x, rfl⟩, hv⟩
  · exact .pure ⟨⟨rfl, c, rfl⟩, hw⟩
  · refine .bind (Machine.Answers.mono (hb.supplies.select w type d.qualifiers hw) ?_)
    rintro _ v ⟨⟨s, rfl, htype⟩, hv⟩
    exact .pure ⟨⟨rfl, s, rfl, htype⟩, hv⟩

/-- So are several of them in a row. -/
theorem resolveAll_answers (hb : h.Builds L c r building p) (hw : w.Calm c r building)
    {l : List (String × Dependency)}
    (hl : ∀ e ∈ l, e ∈ L.resolutions p.definition.implementation) :
    Attempt.Answers (h.resolveAll c l) w
      (fun values v => List.Forall₂ Injected.Serves values l ∧ v.Calm c r building)
      (L.Blames r p) := by
  induction l generalizing w with
  | nil => exact .pure ⟨.nil, hw⟩
  | cons e rest ih =>
    have he := hl e List.mem_cons_self
    have hrest := fun e' he' => hl e' (List.mem_cons_of_mem _ he')
    refine .bind ((resolve_answers hb hw he).mono ?_ fun _ h => h)
    rintro i u ⟨hi, hu⟩
    refine .bind ((ih hu hrest).mono ?_ fun _ h => h)
    rintro values v ⟨hvalues, hv⟩
    exact .pure ⟨.cons hi hvalues, hv⟩

/-- What is declared at a point is declared. -/
theorem mem_resolutions_of_point {type : TypeKey} {point : Point}
    (hpoint : point ∈ (L.points type).injectionOrder) {e : String × Dependency}
    (he : e ∈ point.resolutions type.name) : e ∈ L.resolutions type :=
  List.mem_append_right _ (List.mem_flatMap.2 ⟨point, hpoint, he⟩)

/-- The order of injection has no points beside the declared ones. -/
theorem mem_toList_of_injectionOrder {points : Points} {point : Point}
    (h : point ∈ points.injectionOrder) : point ∈ points.toList := by
  rcases List.mem_append.1 h with h | h <;> exact (List.mem_filter.1 h).1

/-- A point is injected, or the blame for that lies on a cycle. -/
theorem injectPoint_answers (hb : h.Builds L c r building p) (hw : w.Calm c r building)
    {point : Point} (hpoint : point ∈ (L.points p.definition.implementation).injectionOrder)
    (o : C.Object) :
    Machine.Answers (h.injectPoint c p.definition.implementation point o) w
      fun a v => v.Injected L c r building p a.2 := by
  have hall := resolveAll_answers hb hw fun e he => mem_resolutions_of_point hpoint he
  have hmem := mem_toList_of_injectionOrder hpoint
  unfold injectPoint
  refine .bind (Attempt.Answers.run (hall.mono ?_ fun e he v => ?_))
  · rintro values u ⟨hvalues, hu⟩
    -- The member that belongs to the point succeeds.
    have hmember : ∀ {q : Program C (C.Object × Outcome Unit)}, q.Ends (fun a => a.2 = .ok ()) →
        Machine.Answers (h.run q >>= fun a =>
            pure (a.1, a.2.mapError (.ofProblem (point.label p.definition.implementation.name))))
          (u.enter (.milestone (.invoked (point.label p.definition.implementation.name))))
          fun a v => v.Injected L c r building p a.2 := by
      intro q hq
      refine .bind ((h.run_answers hq _).mono ?_)
      rintro ⟨o', a⟩ v ⟨rfl, hv⟩
      exact .pure ⟨fun _ => (hu.enter _).unmoved hv, nofun⟩
    refine .bind (.modify ?_)
    cases point with
    | field name d =>
      cases hvalues with
      | cons hi hrest => exact hmember (hb.obliges.setField o name d _ hmem hi)
    | method name wanted => exact hmember (hb.obliges.callMethod o name wanted values hmem hvalues)
  · exact .pure ⟨nofun, fun e' he' => Except.error.inj he' ▸ he⟩

/-- So are several points in a row. -/
theorem injectPoints_answers (hb : h.Builds L c r building p) (hw : w.Calm c r building)
    {l : List Point}
    (hl : ∀ point ∈ l, point ∈ (L.points p.definition.implementation).injectionOrder)
    (o : C.Object) :
    Machine.Answers (h.injectPoints c p.definition.implementation l o) w
      fun a v => v.Injected L c r building p a.2 := by
  induction l generalizing w o with
  | nil => exact .pure ⟨fun _ => hw, nofun⟩
  | cons point rest ih =>
    have hpoint := hl point List.mem_cons_self
    have hrest := fun point' h => hl point' (List.mem_cons_of_mem _ h)
    unfold injectPoints
    refine .bind ((injectPoint_answers hb hw hpoint o).mono ?_)
    rintro ⟨o', e | _⟩ u hu
    · exact .pure hu
    · exact ih (hu.ok rfl) hrest o'

/-- Hooks that succeed run without moving anything. -/
theorem runHooks_answers {type : TypeKey} {o : C.Object}
    {l : List (Hook C.Object (Routine C Unit))} (hl : ∀ hook ∈ l, (hook.act o).Succeeds)
    (w : World C) (E : Failure → Prop) :
    Attempt.Answers (h.runHooks type o l) w (fun _ v => w.Unmoved v) E := by
  induction l generalizing w with
  | nil => exact .pure (.refl w)
  | cons hook rest ih =>
    refine .bind ((h.invoke_answers _ (hl hook List.mem_cons_self) w E).mono ?_ fun _ h => h)
    intro _ u hu
    refine (ih (fun hook' h => hl hook' (List.mem_cons_of_mem _ h)) u).mono ?_ fun _ h => h
    exact fun _ v hv => hu.trans hv

/-- A component is built, or the blame lies on a cycle to which it leads. -/
theorem build_answers (hb : h.Builds L c r building p) (hw : w.Calm c r building) :
    Attempt.Answers (h.build c p.definition.implementation) w (fun _ v => v.Calm c r building)
      (L.Blames r p) := by
  have ho := hb.obliges
  -- The constructor asked for, its parameters, the constructor itself.
  unfold build
  refine .bind (.step ((h.run_answers ho.constructor w).mono ?_))
  rintro _ w₁ ⟨rfl, hw₁⟩
  have hparameters := resolveAll_answers hb (hw.unmoved hw₁) fun e he => List.mem_append_left _ he
  refine .bind (hparameters.mono ?_ fun _ h => h)
  rintro values w₂ ⟨hvalues, hw₂⟩
  refine .bind ((h.invoke_answers _ (ho.construct values hvalues) w₂ _).mono ?_ fun _ h => h)
  intro o w₃ hw₃
  have hcalm := hw₂.unmoved hw₃
  refine .bind (.step ?_)
  -- The points asked for and satisfied in turn.
  unfold injectObject
  refine .bind ((h.run_answers ho.points w₃).mono ?_)
  rintro _ w₄ ⟨rfl, hw₄⟩
  have hreported := (hcalm.unmoved hw₄).enter (.event c (.injecting p.definition.implementation
    (L.points p.definition.implementation).toList.length))
  refine .bind (.modify ((injectPoints_answers hb hreported (fun _ h => h) o).mono ?_))
  rintro ⟨o', e | _⟩ w₅ hw₅
  -- A failed injection ends the build; else the hooks asked for are run.
  · exact .bind (.settle nofun hw₅.error)
  · refine .bind (.settle (fun _ _ => ?_) nofun)
    refine .bind (.bind (.step ((h.run_answers ho.lifecycle w₅).mono ?_)))
    rintro lifecycle w₆ ⟨hhooks, hw₆⟩
    refine (runHooks_answers (hhooks o') w₆ _).mono ?_ fun _ h => h
    exact fun _ v hv => .pure ((hw₅.ok rfl).unmoved (hw₆.trans hv))

/-- Whatever the source of a value, it is made, or the blame lies on a cycle. -/
theorem makeBySource_answers (hs : h.Supplies L c r building p) (hr : r.Equipped h.code L)
    (hp : p ∈ r.providers) (hw : w.Calm c r building) :
    Attempt.Answers (h.makeBySource c p.definition) w (fun _ v => v.Calm c r building)
      (L.Blames r p) := by
  have ho := hr.obliges p hp
  unfold Codebase.Obliges at ho
  unfold makeBySource
  rcases hsource : p.definition.source with v | ⟨produce, dispose⟩ | _ <;> rw [hsource] at ho
  · exact .pure hw
  · refine (h.invoke_answers _ (ho c) w _).mono ?_ fun _ h => h
    exact fun _ v hv => hw.unmoved hv
  · have hcomponent : p.definition.isComponent = true := by
      unfold Definition.isComponent
      rw [hsource]
    exact build_answers ⟨hs, hr, hp, hcomponent, ho⟩ hw

/-! ## Requests -/

/-- A provider that is under construction lies on a cycle if all that is under construction leads
to what is asked for. -/
theorem provide_answers (hs : p.id ∉ building → h.Supplies L c r (p.id :: building) p)
    (hr : r.Equipped h.code L) (hp : p ∈ r.providers) (hw : w.Calm c r building)
    (hleads : ∀ q ∈ r.providers, q.id ∈ building → Relation.TransGen (L.Needs r) q p) :
    Attempt.Answers (h.provide c p) w (fun _ v => v.Calm c r building) (L.Blames r p) := by
  -- An empty slot or a prototype is made; a filled slot is handed out.
  by_cases hkept : p.definition.scope = .singleton → w.kept.get? p.id = none
  · by_cases hbuilding : p.id ∈ building
    -- A provider on the stack is asked for from inside its own making: that is the cycle.
    · have hcircular := exec_provide_circular (h := h) (c := c) (hw.building ▸ hbuilding) hkept
      exact ⟨_, w, hcircular, p, ⟨.refl, hleads p hp hbuilding⟩, rfl⟩
    -- Otherwise it goes on the stack, and what it needs has it below.
    · have hexec := exec_provide (h := h) (c := c) (hw.building ▸ hbuilding) hkept
        fun _ => World.not_mem_waiting hw.waiting p.id
      obtain ⟨a, u, hmake, ha⟩ := makeBySource_answers (hs hbuilding) hr hp (hw.begun p)
      rw [hmake] at hexec
      rcases a with e | x
      · exact ⟨_, _, hexec, ha⟩
      · exact ⟨_, _, hexec, World.Calm.completed ha x⟩
  · push Not at hkept
    obtain ⟨hscope, hsome⟩ := hkept
    obtain ⟨x, hx⟩ := Option.ne_none_iff_exists'.1 hsome
    exact ⟨_, _, exec_provide_kept hscope hx, hw.enter _⟩

/-- A provider that is asked as one of its types answers, or the blame lies on a cycle to which it
leads. -/
theorem provideAs_answers (hs : p.id ∉ building → h.Supplies L c r (p.id :: building) p)
    (hr : r.Equipped h.code L) (hp : p ∈ r.providers) (hw : w.Calm c r building)
    (hleads : ∀ q ∈ r.providers, q.id ∈ building → Relation.TransGen (L.Needs r) q p)
    {type : TypeKey} (htype : p.definition.hasType type = true) :
    Attempt.Answers (h.provideAs c p type) w (fun _ v => v.Calm c r building) (L.Blames r p) := by
  obtain ⟨a, u, hprovide, ha⟩ := provide_answers hs hr hp hw hleads
  have hexec : (h.provideAs c p type).run.exec w = _ := exec_provideAs hw.ready
  rw [hprovide] at hexec
  rcases a with e | y
  · exact ⟨_, u, hexec, ha⟩
  · obtain ⟨x, hx⟩ : ∃ x, p.definition.convert? type y = some x := by
      rw [← Option.isSome_iff_exists, p.definition.convert?_isSome, htype]
    dsimp only at hexec
    rw [hx] at hexec
    exact ⟨_, u, hexec, ha⟩

/-- A request for the container is answered by the container. -/
theorem getObject_answers_itself (hw : w.Calm c r building) (qualifiers : Qualifiers) :
    Attempt.Answers (h.getObject c .container qualifiers) w (fun _ v => v.Calm c r building)
      fun _ => False := by
  refine ⟨.ok (.container c), w, ?_, hw⟩
  unfold getObject askOnly
  exact exec_bind_ok (exec_ensureReady hw.ready)

/-- A selection is answered in a calm world. -/
theorem select_answers (hw : w.Calm c r building) (type : TypeKey) (qualifiers : Qualifiers) :
    Attempt.Answers (h.select c type qualifiers) w
      (fun s v => s.type = type ∧ v.Calm c r building) fun _ => False := by
  have hselecting := hw.enter (.event c (.selecting type qualifiers
    ((w.container c).registry.findAll (type, qualifiers)).length))
  exact ⟨_, _, exec_select hw.ready qualifiers, rfl, hselecting⟩

end Host

/-! ## Nested requests -/

/-- What holds less often, and once does not where the other does, is counted less often. -/
theorem countP_lt_countP {α : Type} {P Q : α → Bool} {l : List α} {a : α} (ha : a ∈ l)
    (h : ∀ b ∈ l, P b = true → Q b = true) (hP : P a = false) (hQ : Q a = true) :
    l.countP P < l.countP Q := by
  obtain ⟨before, after, rfl⟩ := List.append_of_mem ha
  have hbefore : before.countP P ≤ before.countP Q :=
    List.countP_mono_left fun b hb => h b (List.mem_append_left _ hb)
  have hafter : after.countP P ≤ after.countP Q :=
    List.countP_mono_left fun b hb => h b (List.mem_append_right _ (List.mem_cons_of_mem _ hb))
  rw [List.countP_append, List.countP_append, List.countP_cons_of_neg (by simp [hP]),
    List.countP_cons_of_pos hQ]
  omega

/-- How many providers are not under construction. -/
def Registry.idle (r : Registry C) (building : List ProviderId) : Nat :=
  r.providers.countP fun p => p.id ∉ building

/-- Every provider whose construction begins leaves fewer that are not under construction. -/
theorem Registry.idle_cons_lt {building : List ProviderId} {p : Provider C} (hp : p ∈ r.providers)
    (hbuilding : p.id ∉ building) : r.idle (p.id :: building) < r.idle building := by
  refine countP_lt_countP hp (fun q _ hq => ?_) (by simp) (decide_eq_true hbuilding)
  have hidle : q.id ∉ p.id :: building := of_decide_eq_true hq
  exact decide_eq_true fun h => hidle (List.mem_cons_of_mem _ h)

namespace Codebase

variable {code : Codebase C}

/-- With as many nested calls as there are providers that are not under construction, every
request is answered, and it fails only for a cycle. -/
theorem provideAs_answers (hr : r.Equipped code L) (n : Nat) {building : List ProviderId}
    {w : World C} {p : Provider C} {type : TypeKey} (hw : w.Calm c r building)
    (hp : p ∈ r.providers) (htype : p.definition.hasType type = true)
    (hn : r.idle building ≤ n)
    (hleads : ∀ q ∈ r.providers, q.id ∈ building → Relation.TransGen (L.Needs r) q p) :
    Attempt.Answers (Host.provideAs ⟨code, code.perform n⟩ c p type) w
      (fun _ v => v.Calm c r building) (L.Blames r p) := by
  -- The induction is on the nested calls that are left; every construction uses up one of them.
  induction n generalizing building w p type with
  | zero =>
    refine Host.provideAs_answers (fun hbuilding => ?_) hr hp hw hleads htype
    have hlt := r.idle_cons_lt hp hbuilding
    omega
  | succ n ih =>
    refine Host.provideAs_answers (fun hbuilding => ?_) hr hp hw hleads htype
    have hlt := r.idle_cons_lt hp hbuilding
    constructor
    · intro u type qualifiers q hu htype hq hneeds
      have hscan := (hu.scan (type, qualifiers)).trans hq
      have hget : (code.perform (n + 1) (.get c type qualifiers)).exec u =
          (Host.provideAs ⟨code, code.perform n⟩ c q type).run.exec
            (u.looked c (type, qualifiers)) :=
        Host.exec_getObject hu.recalls hu.ready htype hscan
      have hexact := (Registry.mem_of_scan hq).2
      unfold Provider.isExact at hexact
      refine Machine.Answers.mono (.congr_exec hget (ih (hu.looked _) (Registry.mem_of_scan hq).1
        (Bool.and_eq_true_iff.1 hexact).1 (by omega) fun o ho hmem => ?_)) ?_
      · -- What is under construction leads to the provider and so to what it needs.
        rcases List.mem_cons.1 hmem with hid | hmem
        · obtain rfl := hr.unique o ho p hp hid
          exact .single hneeds
        · exact (hleads o ho hmem).tail hneeds
      · rintro (e | x) v hv <;> exact hv
    · intro u qualifiers hu
      refine Machine.Answers.mono (Host.getObject_answers_itself hu qualifiers) ?_
      rintro (e | x) v hv
      · exact hv.elim
      · exact ⟨⟨x, rfl⟩, hv⟩
    · intro u type qualifiers hu
      refine Machine.Answers.mono (Host.select_answers hu type qualifiers) ?_
      rintro (e | s) v hv
      · exact hv.elim
      · exact ⟨⟨s, rfl, hv.1⟩, hv.2⟩

end Codebase

/-! ## From the beginning -/

/-- The outline that allows of some types only what is declared. -/
def Declarations.outlineFor (L : Declarations) (S : TypeKey → Prop) : Outline where
  constructor type k := S type → k = L.constructor type
  points type k := S type → k = L.points type

/-- Components that keep to themselves say the same whenever they are asked. -/
theorem Codebase.describes_of_obliges {code : Codebase C} {S : TypeKey → Prop}
    (h : ∀ type, S type → (code.component type).Obliges L type) :
    code.Describes (L.outlineFor S) where
  constructor type stop depth w v k hexec htype := by
    obtain ⟨k', v', hexec', hk', _⟩ :=
      (code.hostUntil stop depth).run_answers (h type htype).constructor w
    cases hexec.symm.trans hexec'
    exact hk'
  points type stop depth w v k hexec htype := by
    obtain ⟨k', v', hexec', hk', _⟩ :=
      (code.hostUntil stop depth).run_answers (h type htype).points w
    cases hexec.symm.trans hexec'
    exact hk'

/-- If the code behind the providers of a container does what it is asked to do, there is an outline
that allows of their types only what is declared. -/
theorem Codebase.exists_declares {code : Codebase C} {w : World C}
    (hcode : ∀ p, w.Holds c p → code.Obliges L p.definition) :
    ∃ D, code.Describes D ∧ w.Declares D L c := by
  -- The types of the components held here are those that the outline speaks of.
  obtain ⟨S, hS⟩ : ∃ S : TypeKey → Prop, ∀ type, S type ↔
      ∃ p, w.Holds c p ∧ p.definition.isComponent = true ∧ p.definition.implementation = type :=
    ⟨_, fun _ => Iff.rfl⟩
  refine ⟨L.outlineFor S, describes_of_obliges fun type htype => ?_, fun p hp hcomponent => ?_⟩
  · obtain ⟨p, hp, hcomponent, rfl⟩ := (hS type).1 htype
    have ho := hcode p hp
    unfold Obliges at ho
    unfold Definition.isComponent at hcomponent
    split at hcomponent
    -- The component's code owes what its source declares.
    · next hsource =>
      rw [hsource] at ho
      exact ho
    · cases hcomponent
  · have htype : S p.definition.implementation := (hS _).2 ⟨p, hp, hcomponent, rfl⟩
    exact ⟨fun k hk => hk htype, fun k hk => hk htype⟩

/-- A provider whose value is handed out leads to no cycle. -/
theorem Codebase.not_entangled_of_outcome {code : Codebase C} {D : Outline}
    (hd : code.Describes D) {w v : World C} (hw : w.Coherent) (hgrounded : w.Grounded D L)
    (hdeclares : w.Declares D L c) (hne : (w.container c).phase ≠ .unconfigured)
    {p : Provider C} {type : TypeKey} {k : Call C} (hk : w.Resolves c p type k) {depth : Nat}
    {a : Reply C k} (hexec : (code.perform depth k).exec w = (some a, v)) {x : Value C}
    (hx : k.outcome? a = some (.ok x)) (q : Provider C) :
    ¬ L.Entangled (w.container c).registry p q := by
  intro hq
  obtain ⟨hcourse, hanswered⟩ := (code.perform_follows hd depth k w).ends hw hexec
  have hproviders := (hcourse.frame.container c).providers hne
  rcases hanswered x hx with h | ⟨d, p', t, hp', y, earlier, hmades, _⟩
  · exact hk.not_isForContainer h
  obtain ⟨rfl, rfl, _⟩ := (hk.congr hproviders).unique hp'
  -- It has made a value where the call ended, and what has made a value leads to no cycle.
  rw [← Declarations.entangled_congr hproviders] at hq
  refine (hcourse.grounded hw hgrounded c (hdeclares.congr hproviders.symm) p
    (hk.holds.later hne hcourse.frame) ?_).not_entangled q hq
  rw [hmades]
  exact List.cons_ne_nil _ _

/-- Whatever construction resolves was checked before. -/
theorem Points.mem_demands {points : Points} {owner : String} {constructor : Constructor}
    {e : String × Dependency} (h : e ∈ points.resolutions owner constructor) :
    e ∈ points.demands owner constructor := by
  rcases List.mem_append.1 h with h | h
  · exact List.mem_append_left _ h
  · obtain ⟨point, hpoint, he⟩ := List.mem_flatMap.1 h
    refine List.mem_append_right _ (List.mem_flatMap.2 ⟨point, ?_, he⟩)
    rcases List.mem_append.1 hpoint with hpoint | hpoint
    · exact List.mem_append_right _ hpoint
    · exact List.mem_append_left _ hpoint

/-- The providers of a container that is ready have all that they need. -/
theorem World.Coherent.equipped {code : Codebase C} {D : Outline} {w : World C} (hw : w.Coherent)
    (hsound : w.Sound D) (hready : (w.container c).phase = .ready) (hdeclares : w.Declares D L c)
    (hcode : ∀ p, w.Holds c p → code.Obliges L p.definition) :
    (w.container c).registry.Equipped code L where
  unique p hp q hq hid := (hw.unique c p c q hp hq hid).2
  met p hp hcomponent member d type hmem hwant := by
    have hvalidation := hw.agrees c
    unfold Container.Agrees at hvalidation
    rw [hready] at hvalidation
    obtain ⟨constructor, points, hconstructor, hpoints, hcheck⟩ :=
      (hsound c hvalidation).2 p hp hcomponent
    obtain rfl := (hdeclares p hp hcomponent).constructor constructor hconstructor
    obtain rfl := (hdeclares p hp hcomponent).points points hpoints
    exact Host.scan_of_checkDemands hcheck (Points.mem_demands hmem) hwant
  obliges := hcode

/-- Where nothing is under construction, a call finds its provider in a calm world. -/
theorem World.Coherent.calm {w : World C} (hw : w.Coherent)
    (hready : (w.container c).phase = .ready) (hidle : w.underway = []) {k : Call C}
    {p : Provider C} {type : TypeKey} (hk : w.Resolves c p type k) :
    (w.asked k).Calm c (w.container c).registry [] := by
  have halike := World.Alike.asked w k
  have hnil : (w.asked k).underway = [] := halike.underway.trans hidle
  obtain ⟨hbuilding, hwaiting⟩ := List.append_eq_nil_iff.1 hnil
  exact ⟨(w.phase_asked k c).trans hready, halike.providers c, (hw.asked hready hk).recalled c,
    hbuilding, hwaiting⟩

/-- Where nothing is under construction and the code behind the providers of a container keeps to
itself and does what it is asked to do, every call that asks one of them is answered. It succeeds
exactly if the provider leads to no cycle, and otherwise it fails for a provider on a cycle to which
it leads. As many nested calls as there are providers are enough. -/
theorem Codebase.answered_iff_not_entangled {code : Codebase C} {s : C.State} {w : World C}
    (hw : code.Visits (.blank s) w) (hidle : w.underway = [])
    (hready : (w.container c).phase = .ready)
    (hcode : ∀ p, w.Holds c p → code.Obliges L p.definition) {p : Provider C} {type : TypeKey}
    {k : Call C} (hk : w.Resolves c p type k) {depth : Nat}
    (hdepth : (w.container c).registry.providers.length < depth) :
    ∃ a v, (code.perform depth k).exec w = (some a, v) ∧
      ((∃ x, k.outcome? a = some (.ok x)) ↔ ∀ q, ¬ L.Entangled (w.container c).registry p q) ∧
      ((∃ q, L.Entangled (w.container c).registry p q) →
        ∃ q, L.Entangled (w.container c).registry p q ∧ k.outcome? a =
          some (.error (.circular q.definition.implementation q.definition.qualifiers))) := by
  obtain ⟨D, hd, hdeclares⟩ := exists_declares (L := L) hcode
  have hblank := World.blank_coherent s
  have hcoherent := hw.coherent
  have hcourse := hw.course hd hblank
  have hgrounded := hcourse.grounded hblank (World.grounded_of_containers _ L rfl)
  have hequipped := hcoherent.equipped (hcourse.sound (World.blank_sound s)) hready hdeclares hcode
  -- So the provider answers, and the call hands on its answer.
  obtain ⟨n, rfl⟩ : ∃ n, depth = n + 1 := ⟨depth - 1, by omega⟩
  have hn : (w.container c).registry.idle [] ≤ n :=
    Nat.le_trans List.countP_le_length (Nat.le_of_lt_succ hdepth)
  obtain ⟨a, u, hprovide, ha⟩ := provideAs_answers hequipped n (hcoherent.calm hready hidle hk)
    hk.holds hk.hasType hn fun _ _ h => absurd h List.not_mem_nil
  obtain ⟨reply, hreply⟩ := hk.reply? a
  have houtcome := Call.outcome?_of_reply? hreply
  have hexec : (code.perform (n + 1) k).exec w = (some reply, w.replied k u) := by
    have hanswer := Host.exec_answer (h := ⟨code, code.perform n⟩) hcoherent hready hk
    rw [hprovide] at hanswer
    exact hanswer.trans (congrArg (·, w.replied k u) hreply)
  refine ⟨reply, w.replied k u, hexec, ?_⟩
  rw [houtcome]
  rcases a with e | x
  · obtain ⟨q, hq, rfl⟩ := ha
    exact ⟨⟨nofun, fun h => absurd hq (h q)⟩, fun _ => ⟨q, hq, rfl⟩⟩
  · have hne : (w.container c).phase ≠ .unconfigured := by
      rw [hready]
      decide
    have hfree := not_entangled_of_outcome hd hcoherent hgrounded hdeclares hne hk hexec houtcome
    exact ⟨⟨fun _ => hfree, fun _ => ⟨x, rfl⟩⟩, fun ⟨q, hq⟩ => absurd hq (hfree q)⟩

/-- Nothing is under construction where a run has ended. -/
theorem Codebase.Ends.underway {code : Codebase C} {s : C.State} {w : World C}
    (h : code.Ends (.blank s) w) : w.underway = [] :=
  (h.course code.describes_any (World.blank_coherent s)).underway

namespace Sample

/-- A hen needs an egg, and everything else needs a hen. -/
def hens : Declarations where
  constructor type :=
    if type = .named "Hen" then .inject [.object (.named "Egg")]
    else .inject [.object (.named "Hen")]
  points _ := {}

def henCode : Codebase Sample := code (fun _ => .done (.ok (.object ()))) hens.constructor

theorem henCode_obliges (d : Definition Sample) : henCode.Obliges hens d := by
  unfold Codebase.Obliges
  rcases d.source with v | ⟨produce, dispose⟩ | _
  · exact True.intro
  · exact fun _ => ⟨_, rfl⟩
  · refine ⟨rfl, rfl, fun _ _ => ⟨_, rfl⟩, ?_, ?_, ?_⟩
    · exact fun _ _ _ _ hmem => absurd hmem List.not_mem_nil
    · exact fun _ _ _ _ hmem => absurd hmem List.not_mem_nil
    · exact fun _ _ hmem => absurd hmem List.not_mem_nil

def hen : Provider Sample := ⟨⟨0⟩, (Registration.component (.named "Hen") {}).definition⟩

/-- Validates a new container with a hen and an egg. -/
def keepHens : Program Sample (Attempted Unit) := do
  let c ← Program.request .create
  let _ ← Program.request (.register c (.component (.named "Hen") {}))
  let _ ← Program.request (.register c (.component (.named "Egg") {}))
  Program.request (.validate c)

def henWorld : World Sample := ((henCode.run 2 keepHens).exec blank).2

def egg : Provider Sample := ⟨⟨1⟩, (Registration.component (.named "Egg") {}).definition⟩

/-- The hen needs the egg, and the egg needs the hen. -/
theorem hen_entangled : hens.Entangled (henWorld.container ⟨0⟩).registry hen hen := by
  have hegg : hens.Needs (henWorld.container ⟨0⟩).registry hen egg :=
    ⟨rfl, _, _, _, List.mem_cons_self, rfl, nofun, rfl⟩
  have hhen : hens.Needs (henWorld.container ⟨0⟩).registry egg hen :=
    ⟨rfl, _, _, _, List.mem_cons_self, rfl, nofun, rfl⟩
  exact ⟨.refl, .head hegg (.single hhen)⟩

/-- So the request for the hen is answered with a failure that names a provider on the cycle. -/
theorem hen_answered :
    ∃ q v, hens.Entangled (henWorld.container ⟨0⟩).registry hen q ∧
      (henCode.perform 3 (.get ⟨0⟩ (.named "Hen") ∅)).exec henWorld = (some (.error
        (.circular q.definition.implementation q.definition.qualifiers)), v) := by
  have hends : henCode.Ends blank henWorld := ⟨_, keepHens, 2, .ok (), rfl⟩
  have hresolves : henWorld.Resolves ⟨0⟩ hen (.named "Hen") (.get ⟨0⟩ (.named "Hen") ∅) :=
    ⟨rfl, rfl, by decide, rfl⟩
  have hdepth : (henWorld.container ⟨0⟩).registry.providers.length < 3 := by decide
  obtain ⟨a, v, hexec, -, hcircular⟩ :=
    Codebase.answered_iff_not_entangled hends.visits hends.underway rfl
      (fun p _ => henCode_obliges p.definition) hresolves hdepth
  obtain ⟨q, hq, ha⟩ := hcircular ⟨hen, hen_entangled⟩
  obtain rfl := Option.some.inj ha
  exact ⟨q, v, hq, hexec⟩

end Sample

end Wiring
