import Wiring.Proofs.Circularity

/-!
# What requests keep

If client code leaves a container alone, a request keeps values only for providers to which its own
provider leads: those that it needs, those that these need, and so on.

Main statement: `Codebase.Contains.confines`.
-/

namespace Wiring

variable {C : Client} {D : Outline} {α : Type} {L : Declarations} {c : ContainerId}
  {r : Registry C} {K : Provider C → Prop} {w₀ : World C}

/-! ## Client code that leaves a container alone -/

namespace Codebase

/-- From some world on, wherever a run of a program ends, a container that was ready is ready still,
and no value was kept for one of its providers meanwhile. -/
def Spares (code : Codebase C) (w₀ : World C) (c : ContainerId) (p : Program C α) : Prop :=
  ∀ depth w a v, w₀.Frame w → w.Coherent → (w.container c).phase = .ready →
    (code.run depth p).exec w = (some a, v) →
    (v.container c).phase = .ready ∧
      ∀ q, w.Holds c q → v.kept.get? q.id ≠ none → w.kept.get? q.id ≠ none

/-- A program that makes no call leaves every container alone. -/
theorem spares_of_ends {code : Codebase C} {Q : α → Prop} {p : Program C α} (hp : p.Ends Q) :
    code.Spares w₀ c p := by
  intro depth w a v _ _ hready hexec
  obtain ⟨a', v', hexec', -, hv⟩ := Host.run_answers ⟨code, code.perform depth⟩ hp w
  obtain ⟨-, rfl⟩ := Prod.mk.inj (hexec.symm.trans hexec')
  refine ⟨?_, fun q _ hkept => ?_⟩
  · rw [World.container_congr hv.containers]
    exact hready
  · rwa [← hv.kept]

/-- The code of a component leaves a container alone while it makes an object. -/
structure SparesFor (code : Codebase C) (w₀ : World C) (c : ContainerId) (m : Component C) :
    Prop where
  constructor : code.Spares w₀ c m.constructor
  points : code.Spares w₀ c m.points
  construct : ∀ values, code.Spares w₀ c (m.construct values)
  setField : ∀ o name i, code.Spares w₀ c (m.setField o name i)
  callMethod : ∀ o name values, code.Spares w₀ c (m.callMethod o name values)
  lifecycle : code.Spares w₀ c m.lifecycle
  postConstruct : ∀ depth w l v, w₀.Frame w → w.Coherent →
    (code.run depth m.lifecycle).exec w = (some l, v) →
    ∀ hook ∈ l.postConstruct, ∀ o, code.Spares w₀ c (hook.act o)

/-- The code behind a definition leaves a container alone while it makes a value for it. -/
def SparesIn (code : Codebase C) (w₀ : World C) (c : ContainerId) (d : Definition C) : Prop :=
  match d.source with
  | .ready _ => True
  | .producer produce _ => code.Spares w₀ c (code.produce produce c)
  | .component => code.SparesFor w₀ c (code.component d.implementation)

end Codebase

/-! ## Only some values are kept -/

/-- In a world that comes after another one, a container is ready and holds the providers of a
registry, and values are kept only for some of them. -/
structure World.Within (w₀ w : World C) (c : ContainerId) (r : Registry C)
    (K : Provider C → Prop) : Prop where
  frame : w₀.Frame w
  ready : (w.container c).phase = .ready
  providers : (w.container c).registry.providers = r.providers
  kept : ∀ p ∈ r.providers, w.kept.get? p.id ≠ none → K p

namespace World.Within

variable {w v : World C}

/-- Inside the confines the container finds what it found at the outset. -/
theorem scan (hw : w₀.Within w c r K) (request : Request) :
    (w.container c).registry.scan request = r.scan request := Registry.scan_congr hw.providers

/-- Inside the confines the container holds what it held at the outset. -/
theorem holds (hw : w₀.Within w c r K) {p : Provider C} : w.Holds c p ↔ p ∈ r.providers := by
  unfold Holds
  rw [hw.providers]

/-- The containers are the same, and nothing more is kept. -/
theorem of_eq (hw : w₀.Within w c r K) (hwv : w.Frame v) (hc : v.containers = w.containers)
    (hk : v.kept = w.kept) : w₀.Within v c r K := by
  have hcontainer := container_congr hc c
  refine ⟨hw.frame.trans hwv, ?_, ?_, fun p hp => ?_⟩
  · rw [hcontainer]
    exact hw.ready
  · rw [hcontainer]
    exact hw.providers
  · rw [hk]
    exact hw.kept p hp

/-- An entry in the journal stays inside the confines. -/
theorem enter (hw : w₀.Within w c r K) (e : Entry C) : w₀.Within (w.enter e) c r K :=
  hw.of_eq (.enter w e) rfl rfl

/-- So does what a lookup remembers. -/
theorem looked (hw : w₀.Within w c r K) (request : Request) :
    w₀.Within (w.looked c request) c r K := by
  obtain ⟨hproviders, hphase⟩ := container_looked w c request c
  have hquiet := (Host.remembering (has_of_ready hw.ready) request rfl).1
  exact ⟨hw.frame.trans (hquiet.frame.trans (.enter _ _)), hphase.trans hw.ready,
    hproviders.trans hw.providers, hw.kept⟩

/-- A value is kept for one of the providers. -/
theorem completed {p : Provider C} (hw : w₀.Within w c r K)
    (hunique : ∀ q ∈ r.providers, q.id = p.id → q = p) (hp : K p) (x : Value C) :
    w₀.Within (w.completed p x) c r K := by
  have hcontainer := container_congr (w.containers_completed p x) c
  refine ⟨hw.frame.trans (.completed w p x), ?_, ?_, fun q hq hne => ?_⟩
  · rw [hcontainer]
    exact hw.ready
  · rw [hcontainer]
    exact hw.providers
  -- The only slot that a completed making may fill is its own.
  · by_cases hid : q.id = p.id
    · obtain rfl := hunique q hq hid
      exact hp
    · refine hw.kept q hq ?_
      have hkept : (w.completed p x).kept.get? q.id = w.kept.get? q.id := by
        rcases hs : p.definition.scope
        · rw [Coherent.completed_of_singleton hs]
          exact Table.get?_put_of_ne _ _ hid
        · rw [Coherent.completed_of_prototype hs]
          rfl
      rwa [hkept] at hne

/-- A selection asks no provider for its value. -/
theorem select (hw : w₀.Within w c r K) (h : Host C) (type : TypeKey) (qualifiers : Qualifiers) :
    Attempt.Follows D (h.select c type qualifiers) w (fun _ v => w₀.Within v c r K)
      (fun _ _ => True) := by
  unfold Host.select
  refine .bind (.of_exec_ok (Host.exec_ensureReady hw.ready) (.refl w true) ?_)
  refine .bind (.step (.container fun _ => ?_))
  exact .bind (.step (.quiet (.remark w c True.intro) (Attempt.Follows.pure (hw.enter _))))

end World.Within

/-- To a given depth, requests for certain providers keep values only for certain providers. -/
structure Codebase.Confines (code : Codebase C) (D : Outline) (w₀ : World C) (c : ContainerId)
    (r : Registry C) (K : Provider C → Prop) (depth : Nat) : Prop where
  describes : code.Describes D
  get : ∀ w type qualifiers, w₀.Within w c r K →
    (∀ q, type ≠ .container → r.scan (type, qualifiers) = .ok q → K q) →
    Machine.Follows D (code.perform depth (.get c type qualifiers)) w
      fun a v => ∀ x, a = .ok x → w₀.Within v c r K
  select : ∀ w type qualifiers, w₀.Within w c r K →
    Machine.Follows D (code.perform depth (.select c type qualifiers)) w
      fun a v => ∀ x, a = .ok x → w₀.Within v c r K

namespace Codebase.Confines

open Host

variable {code : Codebase C} {depth : Nat} {w : World C} {p : Provider C} {type : TypeKey}

/-- Confined code answers by its description. -/
theorem lawful (hh : code.Confines D w₀ c r K depth) : (code.hostAt depth).Lawful D :=
  hh.describes.host_lawful depth

/-- Client code that leaves the container alone. -/
theorem run (hh : code.Confines D w₀ c r K depth) {p : Program C α} (hs : code.Spares w₀ c p)
    (hw : w₀.Within w c r K) :
    Machine.Follows D ((code.hostAt depth).run p) w fun _ v => w₀.Within v c r K := by
  refine .of_coherent fun hcoherent => ?_
  refine (code.run_follows hh.describes depth p w).mono_exec fun a v hexec hcourse _ => ?_
  obtain ⟨hready, hkept⟩ := hs depth w a v hw.frame hcoherent hw.ready hexec
  have hproviders := (hcourse.frame.container c).providers (by rw [hw.ready]; decide)
  exact ⟨hw.frame.trans hcourse.frame, hready, hproviders.trans hw.providers,
    fun q hq hne => hw.kept q hq (hkept q (hw.holds.2 hq) hne)⟩

/-- Client code that spares the container stays inside the confines. -/
theorem invoke (hh : code.Confines D w₀ c r K depth) (member : String) {p : Routine C α}
    (hs : code.Spares w₀ c p) (hw : w₀.Within w c r K) :
    Attempt.Follows D ((code.hostAt depth).invoke member p) w (fun _ v => w₀.Within v c r K)
      (fun _ _ => True) := by
  refine .bind (.step (.quiet (.invoked w member) ?_))
  refine .bind (.step ((hh.run hs (hw.enter _)).mono fun a v hv => ?_))
  rcases a with problem | x
  · exact .throw True.intro
  · exact .pure hv

/-- A dependency stays inside the confines if the provider it finds does. -/
theorem resolve (hh : code.Confines D w₀ c r K depth) (hw : w₀.Within w c r K) (member : String)
    {d : Dependency} (hd : ∀ type q, d.want = .object type → type ≠ .container →
      r.scan (type, d.qualifiers) = .ok q → K q) :
    Attempt.Follows D ((code.hostAt depth).resolve c member d) w (fun _ v => w₀.Within v c r K)
      (fun _ _ => True) := by
  unfold Host.resolve
  rcases hwant : d.want with type | _ | type
  · refine .bind ((hh.get w type d.qualifiers hw (hd type · hwant)).mono fun a v hv => ?_)
    rcases a with e | x
    · exact True.intro
    · exact .pure (hv x rfl)
  · exact .pure hw
  · refine .bind ((hh.select w type d.qualifiers hw).mono fun a v hv => ?_)
    rcases a with e | s
    · exact True.intro
    · exact .pure (hv s rfl)

/-- A list of dependencies stays inside if each provider found does. -/
theorem resolveAll (hh : code.Confines D w₀ c r K depth) {l : List (String × Dependency)}
    (hw : w₀.Within w c r K)
    (hl : ∀ member d, (member, d) ∈ l → ∀ type q, d.want = .object type → type ≠ .container →
      r.scan (type, d.qualifiers) = .ok q → K q) :
    Attempt.Follows D ((code.hostAt depth).resolveAll c l) w (fun _ v => w₀.Within v c r K)
      (fun _ _ => True) := by
  induction l generalizing w with
  | nil => exact .pure hw
  | cons e rest ih =>
    obtain ⟨member, d⟩ := e
    refine .bind ((hh.resolve hw member (hl member d List.mem_cons_self)).mono ?_ fun _ _ h => h)
    intro i u hu
    refine .bind ((ih hu fun m d hd => hl m d (List.mem_cons_of_mem _ hd)).mono ?_ fun _ _ h => h)
    exact fun is v hv => .pure hv

/-- A point stays inside if the providers of its dependencies do. -/
theorem injectPoint (hh : code.Confines D w₀ c r K depth) (hw : w₀.Within w c r K)
    (hs : code.SparesFor w₀ c (code.component type)) {point : Point}
    (hl : ∀ member d, (member, d) ∈ point.resolutions type.name → ∀ t q, d.want = .object t →
      t ≠ .container → r.scan (t, d.qualifiers) = .ok q → K q) (o : C.Object) :
    Machine.Follows D ((code.hostAt depth).injectPoint c type point o) w
      fun a v => a.2 = .ok () → w₀.Within v c r K := by
  unfold Host.injectPoint
  refine .bind (Attempt.Follows.run ((hh.resolveAll hw hl).mono ?_ fun _ _ _ => ?_))
  · intro values u hu
    -- Whichever member belongs to the point, its code leaves the container alone.
    have hmember : ∀ {q : Program C (C.Object × Outcome Unit)}, code.Spares w₀ c q →
        Machine.Follows D ((code.hostAt depth).run q >>= fun a =>
            pure (a.1, a.2.mapError (Failure.ofProblem (point.label type.name))))
          (u.enter (.milestone (.invoked (point.label type.name))))
          fun a v => a.2 = .ok () → w₀.Within v c r K :=
      fun hq => .bind ((hh.run hq (hu.enter _)).mono fun _ _ hv => .pure fun _ => hv)
    refine .bind (.quiet (.invoked u _) ?_)
    cases point with
    | field name d =>
      rcases values with _ | ⟨value, rest⟩
      · exact .bind (.pure (.pure nofun))
      · exact hmember (hs.setField o name value)
    | method name wanted => exact hmember (hs.callMethod o name _)
  · exact .pure nofun

/-- So does a list of points. -/
theorem injectPoints (hh : code.Confines D w₀ c r K depth) (hw : w₀.Within w c r K)
    (hs : code.SparesFor w₀ c (code.component type)) {l : List Point}
    (hl : ∀ point ∈ l, ∀ member d, (member, d) ∈ point.resolutions type.name → ∀ t q,
      d.want = .object t → t ≠ .container → r.scan (t, d.qualifiers) = .ok q → K q)
    (o : C.Object) :
    Machine.Follows D ((code.hostAt depth).injectPoints c type l o) w
      fun a v => a.2 = .ok () → w₀.Within v c r K := by
  induction l generalizing w o with
  | nil => exact .pure fun _ => hw
  | cons point rest ih =>
    unfold Host.injectPoints
    refine .bind ((hh.injectPoint hw hs (hl point List.mem_cons_self) o).mono ?_)
    rintro ⟨o', e | _⟩ u hu
    · exact .pure fun h => by cases h
    · exact ih (hu rfl) (fun point' h => hl point' (List.mem_cons_of_mem _ h)) o'

/-- Hooks of code that spares the container stay inside. -/
theorem runHooks (hh : code.Confines D w₀ c r K depth) (hw : w₀.Within w c r K) {o : C.Object}
    {l : List (Hook C.Object (Routine C Unit))} (hl : ∀ hook ∈ l, code.Spares w₀ c (hook.act o)) :
    Attempt.Follows D ((code.hostAt depth).runHooks type o l) w (fun _ v => w₀.Within v c r K)
      (fun _ _ => True) := by
  induction l generalizing w with
  | nil => exact .pure hw
  | cons hook rest ih =>
    have hfirst := hh.invoke (Label.call type.name hook.name) (hl hook List.mem_cons_self) hw
    refine .bind (hfirst.mono (fun _ u hu => ?_) fun _ _ h => h)
    exact ih hu fun hook' h => hl hook' (List.mem_cons_of_mem _ h)

theorem postConstruct (hh : code.Confines D w₀ c r K depth) (hw : w₀.Within w c r K)
    (hs : code.SparesFor w₀ c (code.component type)) (o : C.Object) :
    Attempt.Follows D ((code.hostAt depth).postConstruct type o) w (fun _ v => w₀.Within v c r K)
      (fun _ _ => True) := by
  refine .of_coherent fun hcoherent => ?_
  refine .bind (.step ((hh.run hs.lifecycle hw).mono_exec fun l u hexec _ hu => ?_))
  exact hh.runHooks hu fun hook hmem =>
    hs.postConstruct depth w l u hw.frame hcoherent hexec hook hmem o

/-- A component asks only for what it declares. -/
theorem build (hh : code.Confines D w₀ c r K depth) (hw : w₀.Within w c r K)
    (hs : code.SparesFor w₀ c (code.component type)) (hfixes : D.Fixes L type)
    (hneeds : ∀ member d, (member, d) ∈ L.resolutions type → ∀ t q, d.want = .object t →
      t ≠ .container → r.scan (t, d.qualifiers) = .ok q → K q) :
    Attempt.Follows D ((code.hostAt depth).build c type) w (fun _ v => w₀.Within v c r K)
      (fun _ _ => True) := by
  unfold Host.build
  refine .bind (.step ((hh.run hs.constructor hw).mono_exec ?_))
  intro constructor w₁ hexec _ hw₁
  -- The description fixes what the constructor answers, and below, what the points are.
  obtain rfl := hfixes.constructor constructor (hh.lawful.constructor type w w₁ _ hexec)
  have hparameters := hh.resolveAll hw₁ fun member d hmem =>
    hneeds member d (List.mem_append_left _ hmem)
  refine .bind (hparameters.mono (fun values w₂ hw₂ => ?_) fun _ _ h => h)
  refine .bind ((hh.invoke _ (hs.construct _) hw₂).mono (fun o w₃ hw₃ => ?_) fun _ _ h => h)
  refine .bind (.step ?_)
  unfold Host.injectObject
  refine .bind ((hh.run hs.points hw₃).mono_exec ?_)
  intro points w₄ hexec _ hw₄
  obtain rfl := hfixes.points points (hh.lawful.points type w₃ w₄ _ hexec)
  have hreport : Quiet w₄ (w₄.enter (.event c (.injecting type (L.points type).toList.length))) :=
    .remark w₄ c True.intro
  have hreported := hw₄.enter (.event c (.injecting type (L.points type).toList.length))
  have hpoints := hh.injectPoints hreported hs (fun point hpoint member d hmem =>
    hneeds member d (mem_resolutions_of_point hpoint hmem)) o
  refine .bind (.quiet hreport (hpoints.mono ?_))
  -- A failed injection ends the build where the points left it.
  rintro ⟨o', injected⟩ w₅ hw₅
  refine .bind (.settle (fun _ hok => ?_) fun _ _ => True.intro)
  refine .bind ((hh.postConstruct (hw₅ hok) hs o').mono (fun _ v hv => ?_) fun _ _ h => h)
  exact .pure hv

/-- A source stays inside: what it makes use of is what the layout says it needs. -/
theorem makeBySource (hh : code.Confines D w₀ c r K depth) (hw : w₀.Within w c r K)
    (hs : code.SparesIn w₀ c p.definition)
    (hfixes : p.definition.isComponent = true → D.Fixes L p.definition.implementation)
    (hneeds : ∀ q, L.Needs r p q → K q) :
    Attempt.Follows D ((code.hostAt depth).makeBySource c p.definition) w
      (fun _ v => w₀.Within v c r K) (fun _ _ => True) := by
  unfold Codebase.SparesIn at hs
  unfold Host.makeBySource
  rcases hsource : p.definition.source with v | ⟨produce, dispose⟩ | _ <;> rw [hsource] at hs
  · exact .pure hw
  · exact hh.invoke _ hs hw
  · have hcomponent : p.definition.isComponent = true := by
      unfold Definition.isComponent
      rw [hsource]
    refine hh.build hw hs (hfixes hcomponent) fun member d hmem t q hwant hne hscan => ?_
    exact hneeds q ⟨hcomponent, member, d, t, hmem, hwant, hne, hscan⟩

/-- A request to a provider inside stays inside: it fills that slot and those of what it needs. -/
theorem provide (hh : code.Confines D w₀ c r K depth) (hw : w₀.Within w c r K)
    (hunique : ∀ q ∈ r.providers, q.id = p.id → q = p) (hp : p ∈ r.providers) (hK : K p)
    (hs : code.SparesIn w₀ c p.definition)
    (hfixes : p.definition.isComponent = true → D.Fixes L p.definition.implementation)
    (hneeds : ∀ q, L.Needs r p q → K q) :
    Attempt.Follows D ((code.hostAt depth).provide c p) w (fun _ v => w₀.Within v c r K)
      (fun _ _ => True) := by
  refine .of_coherent fun hcoherent => ?_
  have hholds := hw.holds.2 hp
  refine Machine.Follows.mono_exec (provide_follows hh.lawful hholds hw.ready) ?_
  rintro (e | x) v hexec _ _
  · exact True.intro
  -- A request fills a slot only when it makes; the other ways are a reuse and the two that fail or
  -- wait.
  by_cases hkept : p.definition.scope = .singleton → w.kept.get? p.id = none
  · by_cases hbuilding : p.id ∈ w.building
    · rw [exec_provide_circular hbuilding hkept] at hexec
      cases hexec
    by_cases hwaiting : p.definition.scope = .singleton → ∀ thread ∈ w.waiting, p.id ∉ thread
    · have hbegin : w.CanBegin c p := ⟨hholds, hw.ready, hbuilding, hkept, hwaiting⟩
      have hbegun : w₀.Within (w.begun c p) c r K := hw.of_eq (.begun w c p) rfl rfl
      have hmake := hh.makeBySource hbegun hs hfixes hneeds
      rw [exec_provide hbuilding hkept hwaiting] at hexec
      -- Of the three ways a making ends only the one that answers is claimed about.
      rcases hexec' : ((code.hostAt depth).makeBySource c p.definition).run.exec (w.begun c p)
        with ⟨_ | e | y, u⟩
      · rw [hexec'] at hexec
        cases hexec
      · rw [hexec'] at hexec
        cases hexec
      · rw [hexec'] at hexec
        cases hexec
        exact (hmake.ends (hcoherent.begun hbegin) hexec').2.completed hunique hK x
    · push Not at hwaiting
      obtain ⟨hscope, hthread⟩ := hwaiting
      rw [exec_provide_waiting hbuilding hscope (hkept hscope) hthread] at hexec
      cases hexec
  · push Not at hkept
    obtain ⟨hscope, hsome⟩ := hkept
    obtain ⟨y, hy⟩ := Option.ne_none_iff_exists'.1 hsome
    rw [exec_provide_kept hscope hy] at hexec
    cases hexec
    exact hw.enter _

end Codebase.Confines

/-- The providers of a registry have identities, their code leaves a container alone, and those
for which values may be kept need only such. -/
structure Codebase.Contains (code : Codebase C) (D : Outline) (L : Declarations) (w₀ : World C)
    (c : ContainerId) (r : Registry C) (K : Provider C → Prop) : Prop where
  describes : code.Describes D
  unique : ∀ p ∈ r.providers, ∀ q ∈ r.providers, p.id = q.id → p = q
  spares : ∀ p ∈ r.providers, code.SparesIn w₀ c p.definition
  fixes : ∀ p ∈ r.providers, p.definition.isComponent = true →
    D.Fixes L p.definition.implementation
  closed : ∀ p ∈ r.providers, K p → ∀ q, L.Needs r p q → K q

namespace Codebase.Contains

open Host

variable {code : Codebase C} {depth : Nat} {w : World C} {p : Provider C} {type : TypeKey}

theorem provideAs (hc : code.Contains D L w₀ c r K) (hh : code.Confines D w₀ c r K depth)
    (hw : w₀.Within w c r K) (hp : p ∈ r.providers) (hK : K p) (type : TypeKey) :
    Attempt.Follows D ((code.hostAt depth).provideAs c p type) w (fun _ v => w₀.Within v c r K)
      (fun _ _ => True) := by
  have hprovide := hh.provide hw (fun q hq hid => hc.unique q hq p hp hid) hp hK
    (hc.spares p hp) (hc.fixes p hp) (hc.closed p hp hK)
  unfold Host.provideAs Host.asType
  refine .bind (.of_exec_ok (exec_ensureReady hw.ready) (.refl w true) ?_)
  refine .bind (hprovide.mono (fun y v hv => ?_) fun _ _ h => h)
  rcases p.definition.convert? type y with _ | x
  · exact .throw True.intro
  · exact .pure hv

/-- A lookup that finds a provider inside stays inside. -/
theorem getObject (hc : code.Contains D L w₀ c r K) (hh : code.Confines D w₀ c r K depth)
    (hw : w₀.Within w c r K) {qualifiers : Qualifiers}
    (hK : ∀ q, type ≠ .container → r.scan (type, qualifiers) = .ok q → K q) :
    Attempt.Follows D ((code.hostAt depth).getObject c type qualifiers) w
      (fun _ v => w₀.Within v c r K) (fun _ _ => True) := by
  refine .of_coherent fun hcoherent => ?_
  refine Machine.Follows.mono_exec (getObject_follows hh.lawful c type qualifiers w) ?_
  rintro (e | x) v hexec hcourse hanswered
  · exact True.intro
  by_cases htype : type = .container
  · subst htype
    unfold Host.getObject Host.askOnly at hexec
    rw [exec_bind_ok (exec_ensureReady hw.ready)] at hexec
    cases hexec
    exact hw
  -- A request that is answered was met by a provider, which was asked.
  · obtain ⟨q, hq, -⟩ := hanswered.resolve_left htype
    rw [hcourse.frame.scan (by rw [hw.ready]; decide)] at hq
    rw [exec_getObject (hcoherent.recalled c) hw.ready htype hq] at hexec
    rw [hw.scan] at hq
    have hlooked := hcoherent.looked (World.has_of_ready hw.ready) (type, qualifiers)
    have hask := hc.provideAs hh (hw.looked (type, qualifiers)) (Registry.mem_of_scan hq).1
      (hK q htype hq) type
    exact (hask.ends hlooked hexec).2

/-- To every depth, requests for certain providers keep values only for certain providers. -/
theorem confines (hc : code.Contains D L w₀ c r K) (depth : Nat) :
    code.Confines D w₀ c r K depth := by
  induction depth with
  | zero => exact ⟨hc.describes, fun _ _ _ _ _ => .stuck, fun _ _ _ _ => .stuck⟩
  | succ depth ih =>
    refine ⟨hc.describes, fun w type qualifiers hw hK => ?_, fun w type qualifiers hw => ?_⟩
    · refine Machine.Follows.mono (hc.getObject ih hw hK) ?_
      rintro (e | x) v hv y hy
      · cases hy
      · exact hv
    · refine Machine.Follows.mono (hw.select (code.hostAt depth) type qualifiers) ?_
      rintro (e | s) v hv y hy
      · cases hy
      · exact hv

end Codebase.Contains

end Wiring
