import Wiring.Proofs.History
import Wiring.Host.Teardown
import Wiring.Host.Validation

/-!
# Courses of events

A `Course` is what can happen to a world while calls are performed, whatever client code does
in them: what begins also ends, or is cut short, and between the two there is another course.
Construction, teardown, validation and threads of their own are such brackets; everything else
is a `Quiet` change. Invariants are proved of courses, rule by rule, and never of the operations
themselves.

The rules say when each bracket may begin and what both its ends do to the world. `Frame` and
`Coherence` hold what all courses have in common.
-/

namespace Wiring

/-- What components may say of themselves when they are asked. -/
structure Outline where
  /-- The constructors that a type may name. -/
  constructor : TypeKey → Constructor → Prop
  /-- The points that a type may name. -/
  points : TypeKey → Points → Prop

/-- Nothing is known of what components say. -/
def Outline.any : Outline := ⟨fun _ _ => True, fun _ _ => True⟩

/-- Every type names this constructor and these points. -/
def Outline.exactly (constructor : TypeKey → Constructor) (points : TypeKey → Points) : Outline :=
  ⟨fun type k => k = constructor type, fun type p => p = points type⟩

variable {C : Client}

namespace World

def Has (w : World C) (c : ContainerId) : Prop := ∃ k, w.containers.get? c = some k

def Holds (w : World C) (c : ContainerId) (p : Provider C) : Prop :=
  p ∈ (w.container c).registry.providers

/-- The providers under construction on any thread, the innermost first. -/
def underway (w : World C) : List ProviderId := w.building ++ w.waiting.flatten

/-- What is under way is on this thread's stack or on that of one that waits. -/
theorem mem_underway_iff {w : World C} {x : ProviderId} :
    x ∈ w.underway ↔ x ∈ w.building ∨ ∃ thread ∈ w.waiting, x ∈ thread := by
  unfold underway
  rw [List.mem_append, List.mem_flatten]

/-- Where nothing is under construction on threads that wait, no provider is. -/
theorem not_mem_waiting {w : World C} (h : w.waiting.flatten = []) (x : ProviderId) :
    ∀ thread ∈ w.waiting, x ∉ thread := by
  intro thread hthread hx
  have hmem : x ∈ w.waiting.flatten := List.mem_flatten.2 ⟨thread, hthread, hx⟩
  rw [h] at hmem
  exact List.not_mem_nil hmem

/-- Where nothing is under construction, no provider is, on no thread. -/
theorem not_building_of_idle {w : World C} (hidle : w.underway = []) (x : ProviderId) :
    x ∉ w.building ∧ ∀ thread ∈ w.waiting, x ∉ thread := by
  obtain ⟨hbuilding, hwaiting⟩ := List.append_eq_nil_iff.1 hidle
  rw [hbuilding]
  exact ⟨List.not_mem_nil, not_mem_waiting hwaiting x⟩

/-! ## What operations make of a world -/

/-- A new container is there. -/
def created (w : World C) : World C :=
  ({ w with containers := w.containers.put ⟨w.containerCount⟩ {},
            containerCount := w.containerCount + 1 } : World C).enter
    (.event ⟨w.containerCount⟩ .created)

/-- A container has one more provider. -/
def withProvider (w : World C) (c : ContainerId) (d : Definition C) : World C :=
  ({ w with providerCount := w.providerCount + 1 } : World C).withContainer c fun k =>
    { k with registry := k.registry.insert ⟨⟨w.providerCount⟩, d⟩ }

def withRegistry (w : World C) (c : ContainerId) (r : Registry C) : World C :=
  w.withContainer c fun k => { k with registry := r }

def withPhase (w : World C) (c : ContainerId) (new : Phase) : World C :=
  w.withContainer c fun k => { k with phase := new }

def advanced (w : World C) (c : ContainerId) (old new : Phase) : World C :=
  w.withContainer c fun k => if k.phase = old then { k with phase := new } else k

def settled (w : World C) (c : ContainerId) (r : Attempted Unit) : World C :=
  w.withContainer c fun k => { k with validation := some r }

def validating (w : World C) (c : ContainerId) (size : Nat) : World C :=
  (w.advanced c .unconfigured .validating).enter (.event c (.validating size))

/-- A container's validation has found nothing. -/
def accepted (w : World C) (c : ContainerId) (size : Nat) : World C :=
  ((w.advanced c .validating .ready).enter (.event c (.ready size))).settled c (.ok ())

/-- A container's validation has found a dependency that cannot be met. -/
def rejected (w : World C) (c : ContainerId) (type : TypeKey) (e : Failure) : World C :=
  ((w.enter (.event c (.rejected type e))).advanced c .validating .failed).settled c (.error e)

/-- A provider begins to make a value. -/
def begun (w : World C) (c : ContainerId) (p : Provider C) : World C :=
  (({ w with building := p.id :: w.building } : World C).enter
    (.event c (.materializing p.definition.implementation p.definition.scope))).enter
    (.milestone (.started p.id))

/-- A provider is no longer under construction. -/
def ended (w : World C) (p : Provider C) : World C :=
  { w with building := w.building.erase p.id }

/-- The value of a singleton is kept. -/
def keeping (w : World C) (p : Provider C) (v : Value C) : World C :=
  match p.definition.scope with
  | .prototype => w
  | .singleton =>
    ({ w with kept := w.kept.put p.id v } : World C).enter (.milestone (.kept p.id v))

/-- A provider has made a value. -/
def completed (w : World C) (p : Provider C) (v : Value C) : World C :=
  ((w.enter (.milestone (.made p.id v))).keeping p v).ended p

def departed (w : World C) : World C :=
  { w with building := [], waiting := w.building :: w.waiting }

/-- The thread that waited in the first world runs again in the second one. -/
def rejoined (w v : World C) : World C := { v with building := w.building, waiting := w.waiting }

def releasing (w : World C) (p : Provider C) (v : Value C) : World C :=
  ({ w with kept := w.kept.erase p.id } : World C).enter (.milestone (.released p.id v))

/-- The teardown of a provider's value has run, and its failure was reported. -/
def disposed (w : World C) (c : ContainerId) (p : Provider C) (v : Value C) :
    Attempted Unit → World C
  | .ok () => w.enter (.milestone (.disposed p.id v))
  | .error e => (w.enter (.milestone (.disposed p.id v))).enter
      (.event c (.teardownFailed p.definition.implementation e))

/-- A container was torn down. -/
def closed (w : World C) (c : ContainerId) (count : Nat) (previous : Phase) : World C :=
  (w.withRegistry c (w.container c).registry.forget).enter (.event c (.destroyed count previous))

/-! ## When operations may do so -/

/-- A provider may begin to make a value. -/
structure CanBegin (w : World C) (c : ContainerId) (p : Provider C) : Prop where
  holds : w.Holds c p
  ready : (w.container c).phase = .ready
  not_building : p.id ∉ w.building
  not_kept : p.definition.scope = .singleton → w.kept.get? p.id = none
  not_waiting : p.definition.scope = .singleton → ∀ thread ∈ w.waiting, p.id ∉ thread

/-- A making that may begin is not under way anywhere. -/
theorem CanBegin.not_underway {w : World C} {c : ContainerId} {p : Provider C}
    (h : w.CanBegin c p) (hs : p.definition.scope = .singleton) : p.id ∉ w.underway := by
  intro hmem
  rcases mem_underway_iff.1 hmem with hmem | ⟨thread, hthread, hmem⟩
  · exact h.not_building hmem
  · exact h.not_waiting hs thread hthread hmem

/-- A provider may begin if nothing is kept for it and it is under construction on no thread. -/
theorem CanBegin.of_not_underway {w : World C} {c : ContainerId} {p : Provider C}
    (hp : w.Holds c p) (hready : (w.container c).phase = .ready)
    (hkept : p.definition.scope = .singleton → w.kept.get? p.id = none)
    (hidle : p.id ∉ w.underway) : w.CanBegin c p :=
  ⟨hp, hready, fun h => hidle (mem_underway_iff.2 (.inl h)), hkept,
    fun _ thread hthread h => hidle (mem_underway_iff.2 (.inr ⟨thread, hthread, h⟩))⟩

/-- A component was asked what it needs, and every object that it named has one provider. -/
def Fits (D : Outline) (w : World C) (c : ContainerId) (p : Provider C) : Prop :=
  p.definition.isComponent = true →
    ∃ constructor points,
      D.constructor p.definition.implementation constructor ∧
      D.points p.definition.implementation points ∧
      Host.checkDemands (w.container c).registry
        (points.demands p.definition.implementation.name constructor) = .ok ()

/-- What the components of a container need is there. -/
def Checked (D : Outline) (w : World C) (c : ContainerId) : Prop :=
  ∀ p, w.Holds c p → w.Fits D c p

/-- An object that a dependency asks for has exactly one provider, which made a value. -/
def Met (w : World C) (c : ContainerId) (d : Dependency) : Prop :=
  ∀ type, d.want = .object type → type ≠ .container →
    ∃ q, (w.container c).registry.scan (type, d.qualifiers) = .ok q ∧ w.mades q.id ≠ []

/-- A component was asked what it needs, and every object that it named was made. -/
def Supplied (D : Outline) (w : World C) (c : ContainerId) (p : Provider C) : Prop :=
  p.definition.isComponent = true →
    ∃ constructor points,
      D.constructor p.definition.implementation constructor ∧
      D.points p.definition.implementation points ∧
      ∀ member d, (member, d) ∈ points.resolutions p.definition.implementation.name constructor →
        w.Met c d

end World

/-- What a teardown has come to after one more value. -/
def Host.TeardownResult.visited (r : Host.TeardownResult) : Attempted Unit → Host.TeardownResult
  | .ok () => { r with count := r.count + 1 }
  | .error e => { count := r.count + 1, failure := some (r.failure.getD e) }

/-- An event that goes with no other change. -/
def Event.IsRemark : Event → Prop
  | resolving .. | selecting .. | injecting .. => True
  | _ => False

/-- A change that begins and ends nothing. -/
inductive Quiet : World C → World C → Prop
  | note (w : World C) (n : C.Note) : Quiet w (w.enter (.note n))
  | invoked (w : World C) (member : String) : Quiet w (w.enter (.milestone (.invoked member)))
  | client (w : World C) (s : C.State) : Quiet w { w with client := s }
  | remark (w : World C) (c : ContainerId) {e : Event} (he : e.IsRemark) :
      Quiet w (w.enter (.event c e))
  | unmatched (w : World C) (c : ContainerId) {type : TypeKey} {qualifiers : Qualifiers}
      {e : Failure} (h : (w.container c).registry.scan (type, qualifiers) = .error e) :
      Quiet w (w.enter (.event c (.unmatched type qualifiers e)))
  | reused (w : World C) (c : ContainerId) {p : Provider C} {v : Value C} (hp : w.Holds c p)
      (hv : w.kept.get? p.id = some v) :
      Quiet w (w.enter (.event c (.reused p.definition.implementation)))
  | create (w : World C) (h : w.containers.get? ⟨w.containerCount⟩ = none) : Quiet w w.created
  | register (w : World C) (c : ContainerId) (d : Definition C) (size : Nat) (hc : w.Has c)
      (h : (w.container c).phase = .unconfigured) :
      Quiet w ((w.enter (.event c (.registering d.implementation d.scope d.qualifiers
        d.types.length size))).withProvider c d)
  | unregister (w : World C) (c : ContainerId) (type : TypeKey) (qualifiers : Qualifiers)
      (removed : Nat) (hc : w.Has c) (h : (w.container c).phase = .unconfigured) :
      Quiet w ((w.withRegistry c ((w.container c).registry.removeWhere
        (·.isExact (type, qualifiers)))).enter (.event c (.unregistered type qualifiers removed)))
  | remember (w : World C) (c : ContainerId) (r : Registry C) (hc : w.Has c)
      (hp : r.providers = (w.container c).registry.providers)
      (hr : ∀ request p, r.remembered.get? request = some p →
        (w.container c).registry.remembered.get? request = some p ∨ r.scan request = .ok p) :
      Quiet w (w.withRegistry c r)

/-- What a course is about. -/
inductive Activity (C : Client)
  /-- Whatever calls and client code do. -/
  | work
  /-- The visit of the remaining providers of a container that is being torn down, and what it
  has come to at its beginning and at its end. -/
  | sweep (c : ContainerId) (rest : List (Provider C)) (before after : Host.TeardownResult)

/-- What can happen from one world to another; `true` stands for a course that is finished and
`false` for one that may have been cut short. -/
inductive Course (D : Outline) : Activity C → Bool → World C → World C → Prop
  | refl (w : World C) (b : Bool) : Course D .work b w w
  | trans {b : Bool} {w u v : World C} : Course D .work true w u → Course D .work b u v →
      Course D .work b w v
  | quiet {w v : World C} : Quiet w v → Course D .work true w v
  /-- A construction that failed. -/
  | abandon {w v : World C} (c : ContainerId) (p : Provider C) : w.CanBegin c p →
      Course D .work true (w.begun c p) v → Course D .work true w (v.ended p)
  /-- A construction that succeeded. -/
  | complete {w v : World C} (c : ContainerId) (p : Provider C) (x : Value C) : w.CanBegin c p →
      Course D .work true (w.begun c p) v → v.Supplied D c p →
      Course D .work true w (v.completed p x)
  | constructing {w v : World C} (c : ContainerId) (p : Provider C) : w.CanBegin c p →
      Course D .work false (w.begun c p) v → Course D .work false w v
  | apart {w v : World C} : Course D .work true w.departed v → Course D .work true w (w.rejoined v)
  | departing {w v : World C} : Course D .work false w.departed v → Course D .work false w v
  | accept {w v : World C} (c : ContainerId) (n m : Nat) : w.Has c →
      (w.container c).phase = .unconfigured → Course D .work true (w.validating c n) v →
      v.Checked D c → Course D .work true w (v.accepted c m)
  | reject {w v : World C} (c : ContainerId) (n : Nat) (type : TypeKey) (f : LookupFailure) :
      w.Has c → (w.container c).phase = .unconfigured → Course D .work true (w.validating c n) v →
      Course D .work true w (v.rejected c type (.definition f))
  | validating {w v : World C} (c : ContainerId) (n : Nat) : w.Has c →
      (w.container c).phase = .unconfigured → Course D .work false (w.validating c n) v →
      Course D .work false w v
  | teardown {w v : World C} (c : ContainerId) (r : Host.TeardownResult) : w.Has c →
      (w.container c).phase ≠ .destroyed →
      Course D (.sweep c (w.container c).registry.providers.reverse {} r) true
        (w.withPhase c .destroyed) v →
      Course D .work true w (v.closed c r.count (w.container c).phase)
  | tearing {w v : World C} (c : ContainerId) (r : Host.TeardownResult) : w.Has c →
      (w.container c).phase ≠ .destroyed →
      Course D (.sweep c (w.container c).registry.providers.reverse {} r) false
        (w.withPhase c .destroyed) v →
      Course D .work false w v
  | sweepNil (w : World C) (c : ContainerId) (r : Host.TeardownResult) (b : Bool) :
      Course D (.sweep c [] r r) b w w
  /-- Nothing is kept for the provider. -/
  | sweepPass {b : Bool} {w v : World C} (c : ContainerId) (p : Provider C)
      {rest : List (Provider C)} {r r' : Host.TeardownResult} : w.kept.get? p.id = none →
      Course D (.sweep c rest r r') b w v → Course D (.sweep c (p :: rest) r r') b w v
  /-- A kept value was disposed of. -/
  | sweepVisit {b : Bool} {w u v : World C} (c : ContainerId) (p : Provider C) (x : Value C)
      (o : Attempted Unit) {rest : List (Provider C)} {r r' : Host.TeardownResult} :
      w.Holds c p → (w.container c).phase = .destroyed → w.kept.get? p.id = some x →
      Course D .work true (w.releasing p x) u →
      Course D (.sweep c rest (r.visited o) r') b (u.disposed c p x o) v →
      Course D (.sweep c (p :: rest) r r') b w v
  | sweeping {w v : World C} (c : ContainerId) (p : Provider C) (x : Value C)
      {rest : List (Provider C)} {r r' : Host.TeardownResult} : w.Holds c p →
      (w.container c).phase = .destroyed → w.kept.get? p.id = some x →
      Course D .work false (w.releasing p x) v → Course D (.sweep c (p :: rest) r r') false w v

end Wiring
