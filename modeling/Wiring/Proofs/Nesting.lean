import Mathlib.Data.List.Nodup
import Wiring.Proofs.Asking
import Wiring.Proofs.Circularity
import Wiring.Proofs.Invariance
import Wiring.Proofs.Terminating

/-!
# Constructions nest

What is under construction on a thread is a stack. A construction goes on top of it and comes off
again when it ends, however it ends, so every call leaves the stack as it was. No provider is on it
twice, because one that is on it is refused as circular; and no other provider is refused, because
one that is not on it makes an entry in the journal before anything else, or has a value.

Main statement: `Codebase.constructions_nest`.
-/

namespace Wiring

variable {C : Client} {code : Codebase C} {h : Host C} {w v : World C} {c : ContainerId}
  {p : Provider C} {type : TypeKey} {k : Call C} {D : Outline}

namespace World

/-- What is under construction on the running thread is in order: nothing is twice, everything is
a provider of some container, and there is no value of it yet. An identity belongs to one provider
of one container, however many are defined alike. -/
structure Nested (w : World C) : Prop where
  nodup : w.building.Nodup
  held : ∀ x ∈ w.building, ∃ c p, w.Holds c p ∧ p.id = x
  not_kept : ∀ x ∈ w.building, w.kept.get? x = none
  unique : ∀ c p d q, w.Holds c p → w.Holds d q → p.id = q.id → c = d ∧ p = q

/-- What is under construction on the thread on which a call is answered. -/
def stackOf (w : World C) : Call C → List ProviderId
  | .getApart .. => []
  | _ => w.building

/-- In a coherent world only the order of the stack itself is left to show. -/
theorem Coherent.nested (hw : w.Coherent) (hnodup : w.building.Nodup) : w.Nested where
  nodup := hnodup
  held x hx := by
    obtain ⟨c, p, hp, hid, -⟩ := hw.underway_known x (mem_underway_iff.2 (.inl hx))
    exact ⟨c, p, hp, hid⟩
  not_kept x hx := by
    have hunderway := mem_underway_iff.2 (.inl hx)
    obtain ⟨c, p, hp, rfl, -⟩ := hw.underway_known x hunderway
    exact hw.underway_not_kept hp hunderway
  unique := hw.unique

end World

/-- No change of a course puts a provider on the stack twice. -/
theorem nodup_invariant : Invariant D fun w : World C => w.building.Nodup where
  -- Only beginnings and endings change the stack.
  quiet _ hi h := by rwa [h.level.building]
  begun _ hi hb := hi.cons hb.not_building
  ended _ hi _ := hi.erase _
  completed x _ hi _ _ := by
    rw [(World.Level.completed _ _ x).building]
    exact hi.erase _
  departed _ _ := .nil
  rejoined _ _ hi _ _ := hi
  validating _ _ hi _ _ := hi
  accepted _ _ hi _ _ := hi
  rejected _ _ _ hi _ := hi
  destroyed _ hi _ _ := hi
  closed _ _ _ hi _ _ _ := hi
  releasing _ hi _ _ _ := hi
  disposed x o _ hi _ _ _ := by rwa [(World.Level.disposed _ _ _ x o).building]

namespace Host

/-- A provider is refused: it fails as circular on the spot, before anything happens. -/
def Refuses (h : Host C) (c : ContainerId) (p : Provider C) (w : World C) : Prop :=
  (provide h c p).run.exec w =
    (some (.error (.circular p.definition.implementation p.definition.qualifiers)), w)

/-- A provider that is not under construction hands out the value that is kept, or its answer comes
after the beginning of a construction. -/
theorem provide_begins (hl : h.Lawful D) (hw : w.Coherent) (hp : w.Holds c p)
    (hready : (w.container c).phase = .ready) (hbuilding : p.id ∉ w.building)
    {a : Attempted (Value C)} (hexec : (provide h c p).run.exec w = (some a, v)) :
    (∃ x, w.kept.get? p.id = some x ∧ a = .ok x) ∨ (w.begun c p).Frame v := by
  -- An empty slot or a prototype leads to a making, unless another thread is at it.
  by_cases hkept : p.definition.scope = .singleton → w.kept.get? p.id = none
  · by_cases hwaiting : p.definition.scope = .singleton → ∀ thread ∈ w.waiting, p.id ∉ thread
    · have hbegin : w.CanBegin c p := ⟨hp, hready, hbuilding, hkept, hwaiting⟩
      have hphase : ((w.begun c p).container c).phase ≠ .unconfigured := by
        show (w.container c).phase ≠ _
        rw [hready]
        decide
      have hmake := makeBySource_follows hl p hphase
      obtain ⟨⟨made, u⟩, hsource⟩ :
        ∃ r, (makeBySource h c p.definition).run.exec (w.begun c p) = r := ⟨_, rfl⟩
      rw [exec_provide hbuilding hkept hwaiting, hsource] at hexec
      -- However the making ends, its beginning is in the journal.
      rcases made with _ | e | x <;> cases hexec
      · have hframe := (hmake.ends (hw.begun hbegin) hsource).1.frame
        exact .inr (hframe.trans (.ended u p))
      · have hframe := (hmake.ends (hw.begun hbegin) hsource).1.frame
        exact .inr (hframe.trans (.completed u p x))
    · push Not at hwaiting
      obtain ⟨hs, hthread⟩ := hwaiting
      rw [exec_provide_waiting hbuilding hs (hkept hs) hthread] at hexec
      cases hexec
  · push Not at hkept
    obtain ⟨hs, hsome⟩ := hkept
    obtain ⟨x, hx⟩ := Option.ne_none_iff_exists'.1 hsome
    rw [exec_provide_kept hs hx] at hexec
    cases hexec
    exact .inl ⟨x, hx, rfl⟩

/-- What is under construction is refused, and nothing else is. -/
theorem refuses_iff (hl : h.Lawful D) (hw : w.Coherent) (hp : w.Holds c p)
    (hready : (w.container c).phase = .ready) : h.Refuses c p w ↔ p.id ∈ w.building := by
  constructor
  · intro hrefuses
    by_contra hbuilding
    rcases provide_begins hl hw hp hready hbuilding hrefuses with ⟨x, -, hx⟩ | hframe
    · cases hx
    · -- The beginning of a construction would stay in the journal.
      have hlength := hframe.journal.length_le
      unfold World.begun World.enter at hlength
      simp only [List.length_cons] at hlength
      omega
  · intro hbuilding
    have hkept := hw.underway_not_kept hp (World.mem_underway_iff.2 (.inl hbuilding))
    exact exec_provide_circular hbuilding fun _ => hkept

/-- Nothing goes on the stack of a thread before the provider is asked there. -/
theorem Reaches.building (hl : h.Lawful D) (hk : h.Reaches k w c p type v) (hw : w.Coherent) :
    v.building = w.stackOf k := by
  induction hk with
  | get hopened =>
    have hcourse := (Machine.Follows.ends (ensureReady_follows hl _ _) hw hopened).1
    exact (hcourse.level rfl).building
  | getApart _ ih => exact ih hw.departed
  | single | advance => rfl

/-- A request made from inside a making stands one place higher on the stack. -/
theorem Asks.building (hl : h.Lawful D) (hk : h.Asks k w c p type v) (hw : w.Coherent) :
    v.building = w.stackOf k := by
  obtain ⟨u, hreaches, hopened⟩ := hk
  have hu := (hreaches.later hl hw).1.1
  have hcourse := (Machine.Follows.ends (ensureReady_follows hl c u) hu hopened).1
  exact (hcourse.level rfl).building.trans (hreaches.building hl hw)

/-- In a world, the provider is refused exactly if it is on the stack, and once it has answered, be
it with a value or with a failure, the stack is what it was and so is what is refused for it. -/
structure AsksInTurn (h : Host C) (c : ContainerId) (p : Provider C) (w : World C) : Prop where
  nested : w.Nested
  refuses_iff : h.Refuses c p w ↔ p.id ∈ w.building
  restored : ∀ a v, (provide h c p).run.exec w = (some a, v) → v.building = w.building ∧ v.Nested
  refuses_later : ∀ a v, (provide h c p).run.exec w = (some a, v) → ∀ d q, v.Holds d q →
    (v.container d).phase = .ready → (h.Refuses d q v ↔ q.id ∈ w.building)

/-- A provider whose slot is empty is made with every request of its making above it on the stack.
-/
theorem asksInTurn (hl : h.Lawful D) (hw : w.Coherent) (hnodup : w.building.Nodup)
    (hp : w.Holds c p) (hready : (w.container c).phase = .ready) : h.AsksInTurn c p w := by
  -- Every answer ends a course, and a course brings the stack back.
  have hanswer : ∀ a v, (provide h c p).run.exec w = (some a, v) →
      v.Coherent ∧ v.building = w.building := by
    intro a v hexec
    have hcourse := ((provide_follows hl hp hready).ends hw hexec).1
    exact ⟨hcourse.coherent hw, (hcourse.level rfl).building⟩
  constructor
  · exact hw.nested hnodup
  · exact refuses_iff hl hw hp hready
  · intro a v hexec
    obtain ⟨hv, hbuilding⟩ := hanswer a v hexec
    refine ⟨hbuilding, hv.nested ?_⟩
    rwa [hbuilding]
  · intro a v hexec d q hq hready'
    obtain ⟨hv, hbuilding⟩ := hanswer a v hexec
    rw [← hbuilding]
    exact refuses_iff hl hv hq hready'

end Host

namespace Codebase

/-- In every world of every run, what is under construction on a thread is a stack without
repetitions, of providers without a value. Every call that is answered leaves the stack as it was,
and a provider that a call asks is asked on the stack of its thread: it is refused as circular
exactly if it is on it, whatever came of earlier attempts. After a run nothing is left. -/
theorem constructions_nest {s : C.State} (hw : code.Visits (.blank s) w) :
    w.Nested ∧
    (∀ depth k r v, (code.perform depth k).exec w = (some r, v) →
      v.building = w.building ∧ v.waiting = w.waiting ∧ v.Nested) ∧
    (∀ depth k c p type u, (code.hostAt depth).Asks k w c p type u →
      u.building = w.stackOf k ∧ (code.hostAt depth).AsksInTurn c p u) ∧
    (code.Ends (.blank s) w → w.building = []) := by
  have hcoherent := hw.coherent
  have hnodup : w.building.Nodup :=
    (hw.course code.describes_any (World.blank_coherent s)).invariant nodup_invariant
      (World.blank_coherent s) .nil
  have hlawful := code.describes_any.host_lawful
  refine ⟨hcoherent.nested hnodup, ?_, ?_, ?_⟩
  · intro depth k r v hexec
    have hcourse := ((code.perform_follows code.describes_any depth k w).ends hcoherent hexec).1
    have hlevel := hcourse.level rfl
    refine ⟨hlevel.building, hlevel.waiting, (hcourse.coherent hcoherent).nested ?_⟩
    rwa [hlevel.building]
  · intro depth k c p type u hasks
    obtain ⟨⟨hu, -, -⟩, hp, hready⟩ := hasks.later (hlawful depth) hcoherent
    have hbuilding := hasks.building (hlawful depth) hcoherent
    refine ⟨hbuilding, Host.asksInTurn (hlawful depth) hu ?_ hp hready⟩
    -- A thread of its own starts with an empty stack, any other call with the caller's.
    rw [hbuilding]
    cases k with
    | getApart => exact .nil
    | _ => exact hnodup
  · intro hends
    exact (List.append_eq_nil_iff.1 hends.underway).1

end Codebase

namespace Sample

/-- The world in which the mirror of the first container looks into that of the second one. -/
def glanceWorld : World Sample :=
  ((mirrors.runUntil (fun w => w.building ≠ []) 3
    (hangMirrors.bind fun _ => Program.request (.get ⟨0⟩ (.named "Mirror") ∅))).exec blank).2

def mirrorOf (c : ContainerId) : Provider Sample := ⟨⟨c.number⟩, mirror.definition⟩

theorem glance_asks {c : ContainerId} (hready : (glanceWorld.container c).phase = .ready)
    (hfinds : (glanceWorld.container c).registry.scan (.named "Mirror", ∅) = .ok (mirrorOf c)) :
    (mirrors.hostAt 1).Asks (.get c (.named "Mirror") ∅) glanceWorld c (mirrorOf c)
      (.named "Mirror") (glanceWorld.looked c (.named "Mirror", ∅)) := by
  have hvisits : mirrors.Visits blank glanceWorld := ⟨_, _, _, _, rfl⟩
  have hresolves : glanceWorld.Resolves c (mirrorOf c) (.named "Mirror")
      (.get c (.named "Mirror") ∅) := ⟨rfl, rfl, by decide, hfinds⟩
  refine ⟨_, .of_resolves hvisits.coherent hready hresolves, Host.exec_ensureReady ?_⟩
  exact (World.container_looked glanceWorld c _ c).2.trans hready

/-- Of two mirrors that are defined alike, the one that is under construction is refused, and the
other one is not. -/
theorem mirrors_told_apart :
    (mirrorOf ⟨0⟩).definition = (mirrorOf ⟨1⟩).definition ∧ glanceWorld.building = [⟨0⟩] ∧
      (mirrors.hostAt 1).Refuses ⟨0⟩ (mirrorOf ⟨0⟩) (glanceWorld.looked ⟨0⟩ (.named "Mirror", ∅)) ∧
      ¬ (mirrors.hostAt 1).Refuses ⟨1⟩ (mirrorOf ⟨1⟩)
        (glanceWorld.looked ⟨1⟩ (.named "Mirror", ∅)) := by
  have hvisits : mirrors.Visits blank glanceWorld := ⟨_, _, _, _, rfl⟩
  obtain ⟨-, -, hasks, -⟩ := Codebase.constructions_nest hvisits
  have hfirst := (hasks _ _ _ _ _ _ (glance_asks (c := ⟨0⟩) rfl rfl)).2
  have hsecond := (hasks _ _ _ _ _ _ (glance_asks (c := ⟨1⟩) rfl rfl)).2
  have hbuilding : glanceWorld.building = [⟨0⟩] := by decide +kernel
  refine ⟨rfl, hbuilding, hfirst.refuses_iff.2 ?_, fun hrefuses => ?_⟩
  · exact hbuilding ▸ List.mem_singleton.2 rfl
  · have hmem : (mirrorOf ⟨1⟩).id ∈ glanceWorld.building := hsecond.refuses_iff.1 hrefuses
    rw [hbuilding] at hmem
    cases List.mem_singleton.1 hmem

end Sample

end Wiring
