import Mathlib.Logic.Relation
import Wiring.Proofs.Invariance

/-!
# What providers need

A component needs the providers of the objects that it declares. A provider that needs itself,
directly or not, lies on a cycle. Where a provider has made a value, all that it needs had been made
by then, and so had all that this needs. So it reaches no cycle, and whatever it reaches has made a
value.

Main statement: `Course.grounded`.
-/

namespace Wiring

variable {C : Client} {D : Outline}

/-- What components say of themselves, whenever they are asked. -/
structure Declarations where
  constructor : TypeKey → Constructor
  points : TypeKey → Points

/-- Of a type, an outline allows only what is declared. -/
structure Outline.Fixes (D : Outline) (L : Declarations) (type : TypeKey) : Prop where
  constructor : ∀ k, D.constructor type k → k = L.constructor type
  points : ∀ k, D.points type k → k = L.points type

namespace Declarations

variable (L : Declarations)

/-- What a type declares, in the order in which construction resolves it. -/
def resolutions (type : TypeKey) : List (String × Dependency) :=
  (L.points type).resolutions type.name (L.constructor type)

/-- A component needs the only provider of an object that it declares. A container is no object. -/
def Needs (r : Registry C) (p q : Provider C) : Prop :=
  p.definition.isComponent = true ∧
    ∃ member d type, (member, d) ∈ L.resolutions p.definition.implementation ∧
      d.want = .object type ∧ type ≠ .container ∧ r.scan (type, d.qualifiers) = .ok q

/-- From the first provider on, the needs lead to the second one, which lies on a cycle. -/
def Entangled (r : Registry C) (p q : Provider C) : Prop :=
  Relation.ReflTransGen (L.Needs r) p q ∧ Relation.TransGen (L.Needs r) q q

/-- A provider has made a value, and so has all that it needs, which is furnished in its turn. -/
inductive Furnished (r : Registry C) (made : ProviderId → Prop) : Provider C → Prop
  | intro {p : Provider C} : made p.id → (∀ q, L.Needs r p q → Furnished r made q) →
      Furnished r made p

variable {L} {r : Registry C} {p q : Provider C}

/-- What a provider needs goes by the providers alone. -/
theorem needs_congr {r' : Registry C} (h : r'.providers = r.providers) :
    L.Needs r' = L.Needs r := by
  funext p q
  unfold Needs
  have hscan : r'.scan = r.scan := funext fun _ => Registry.scan_congr h
  rw [hscan]

/-- So does whether it is entangled. -/
theorem entangled_congr {r' : Registry C} (h : r'.providers = r.providers) :
    L.Entangled r' = L.Entangled r := by
  funext p q
  unfold Entangled
  rw [needs_congr h]

/-- What a provider needs leads to wherever the provider itself leads. -/
theorem Entangled.head {o : Provider C} (hpq : L.Needs r p q) (hq : L.Entangled r q o) :
    L.Entangled r p o :=
  ⟨hq.1.head hpq, hq.2⟩

namespace Furnished

variable {P : ProviderId → Prop}

/-- What is furnished has been made. -/
theorem made (h : L.Furnished r P p) : P p.id := by
  cases h with
  | intro hmade _ => exact hmade

/-- What a furnished provider needs is furnished. -/
theorem needs (h : L.Furnished r P p) (hpq : L.Needs r p q) : L.Furnished r P q := by
  cases h with
  | intro _ hneeds => exact hneeds q hpq

/-- Whatever a furnished provider leads to is furnished. -/
theorem reaches (h : L.Furnished r P p) (hpq : Relation.ReflTransGen (L.Needs r) p q) :
    L.Furnished r P q := by
  induction hpq with
  | refl => exact h
  | tail _ hneeds ih => exact ih.needs hneeds

/-- More made and the same providers leave furnished what was. -/
theorem mono (h : L.Furnished r P p) {r' : Registry C} {P' : ProviderId → Prop}
    (hproviders : r'.providers = r.providers) (hmade : ∀ x, P x → P' x) :
    L.Furnished r' P' p := by
  induction h with
  | intro hp _ ih =>
    refine .intro (hmade _ hp) fun q hpq => ih q ?_
    rwa [needs_congr hproviders] at hpq

/-- A furnished provider does not need itself, however indirectly. -/
theorem not_transGen (h : L.Furnished r P p) : ¬ Relation.TransGen (L.Needs r) p p := by
  induction h with
  | intro _ _ ih =>
    intro hcycle
    -- The provider that comes first on the cycle lies on it as well.
    obtain ⟨q, hpq, hqp⟩ := Relation.TransGen.head'_iff.1 hcycle
    exact ih q hpq (.tail' hqp hpq)

/-- A furnished provider reaches no cycle: by induction on how it was furnished. -/
theorem not_entangled (h : L.Furnished r P p) (q : Provider C) : ¬ L.Entangled r p q :=
  fun hq => (h.reaches hq.1).not_transGen hq.2

end Furnished

end Declarations

namespace World

/-- The components of a container say of themselves what is declared. -/
def Declares (w : World C) (D : Outline) (L : Declarations) (c : ContainerId) : Prop :=
  ∀ p, w.Holds c p → p.definition.isComponent = true → D.Fixes L p.definition.implementation

/-- Every provider that has made a value is furnished. -/
def Grounded (D : Outline) (L : Declarations) (w : World C) : Prop :=
  ∀ c, w.Declares D L c → ∀ p, w.Holds c p → w.mades p.id ≠ [] →
    L.Furnished (w.container c).registry (fun x => w.mades x ≠ []) p

variable {L : Declarations} {w v : World C}

theorem Declares.congr {c : ContainerId} (hv : v.Declares D L c)
    (h : (v.container c).registry.providers = (w.container c).registry.providers) :
    w.Declares D L c := by
  intro p hp
  refine hv p ?_
  unfold Holds at hp ⊢
  rwa [h]

namespace Grounded

/-- The same providers have made the same values. -/
theorem congr (hw : w.Grounded D L)
    (hproviders : ∀ c, (v.container c).registry.providers = (w.container c).registry.providers)
    (hmades : ∀ x, v.mades x = w.mades x) : v.Grounded D L := by
  intro c hc p hp hmade
  rw [hmades] at hmade
  have hp' : w.Holds c p := by
    unfold Holds at hp ⊢
    rwa [← hproviders]
  refine (hw c (hc.congr (hproviders c)) p hp' hmade).mono (hproviders c) fun x hx => ?_
  rwa [hmades]

theorem of_eq (hw : w.Grounded D L) (hc : v.containers = w.containers)
    (hmades : ∀ x, v.mades x = w.mades x) : v.Grounded D L := by
  refine hw.congr (fun c => ?_) hmades
  rw [container_congr hc]

/-- A quiet step makes nothing and leaves the ground as it is. -/
theorem quiet (hw : w.Grounded D L) (hcoherent : w.Coherent) (h : Quiet w v) :
    v.Grounded D L := by
  have hmades : ∀ x, v.mades x = w.mades x := by
    intro x
    cases h <;> rfl
  intro c hc p hp hmade
  rw [hmades] at hmade
  -- It made its value before, so its container was open then and its providers are the same.
  obtain ⟨d, p', hp', hid, hopen⟩ := hcoherent.known_of_mades hmade
  have hphase := hopen.ne_unconfigured
  obtain ⟨rfl, rfl⟩ := (h.coherent hcoherent).unique d p' c p (hp'.later hphase h.frame) hp hid
  have hproviders := (h.frame.container d).providers hphase
  refine (hw d (hc.congr hproviders) p' hp' hmade).mono hproviders fun x hx => ?_
  rwa [hmades]

/-- A provider that has found all that it needs has found it furnished. -/
theorem completed (hw : w.Grounded D L) (hcoherent : w.Coherent) {c : ContainerId}
    {p : Provider C} (hp : w.Holds c p) (hsupplied : w.Supplied D c p) (x : Value C) :
    (w.completed p x).Grounded D L := by
  have hcontainer := container_congr (w.containers_completed p x)
  have hother : ∀ y, y ≠ p.id → (w.completed p x).mades y = w.mades y := fun y hy =>
    congrArg _ (Coherent.history_completed_other (w := w) x hy)
  have hmono : ∀ y, w.mades y ≠ [] → (w.completed p x).mades y ≠ [] := fun y hy => by
    by_cases hid : y = p.id
    · subst hid
      rw [Coherent.mades_completed]
      exact List.cons_ne_nil _ _
    · rwa [hother y hid]
  intro d hd q hq hmade
  replace hd : w.Declares D L d := hd.congr (by rw [hcontainer])
  unfold Holds at hq
  rw [hcontainer] at hq ⊢
  by_cases hid : q.id = p.id
  · obtain ⟨rfl, rfl⟩ := hcoherent.unique d q c p hq hp hid
    refine .intro hmade fun q' hneeds => ?_
    -- Whatever it needs has made a value already.
    obtain ⟨hcomponent, member, e, type, hmem, hwant, hne, hscan⟩ := hneeds
    obtain ⟨constructor, points, hconstructor, hpoints, hmet⟩ := hsupplied hcomponent
    have hfixes := hd q hq hcomponent
    obtain rfl := hfixes.constructor constructor hconstructor
    obtain rfl := hfixes.points points hpoints
    obtain ⟨q'', hscan', hmade'⟩ := hmet member e hmem type hwant hne
    obtain rfl : q' = q'' := Except.ok.inj (hscan.symm.trans hscan')
    exact (hw d hd q' (Registry.mem_of_scan hscan).1 hmade').mono rfl hmono
  · rw [hother q.id hid] at hmade
    exact (hw d hd q hq hmade).mono rfl hmono

/-- Along a course, every provider that makes a value is furnished. -/
theorem invariant (D : Outline) (L : Declarations) :
    Invariant D (Grounded D L : World C → Prop) where
  quiet hcoherent hw h := hw.quiet hcoherent h
  begun _ hw _ := hw.of_eq rfl (mades_milestone _ rfl)
  ended _ hw _ := hw.of_eq rfl fun _ => rfl
  completed x hcoherent hw hmaking hsupplied := hw.completed hcoherent hmaking.holds hsupplied x
  departed _ hw := hw.of_eq rfl fun _ => rfl
  rejoined _ _ _ hv _ := hv.of_eq rfl fun _ => rfl
  validating n _ hw _ _ := hw.congr (providers_advanced _ _ _ _) fun _ => rfl
  accepted n _ hw _ _ := hw.congr (providers_accepted _ _ n) fun _ => rfl
  rejected type f _ hw _ := hw.congr (providers_rejected _ _ type _) fun _ => rfl
  destroyed _ hw _ _ := hw.congr (providers_withPhase _ _ _) fun _ => rfl
  closed n previous _ hw _ _ _ := hw.congr (providers_closed _ _ n previous) fun _ => rfl
  releasing _ hw _ _ _ := hw.of_eq rfl (mades_milestone _ rfl)
  disposed {w c p} x o _ hw _ _ _ := by
    have hmark := hw.of_eq (v := w.enter (.milestone (.disposed p.id x))) rfl
      (mades_milestone _ rfl)
    -- A failed teardown writes an event as well, which makes nothing.
    rcases o with e | _
    · exact hmark.of_eq rfl fun _ => rfl
    · exact hmark

end Grounded

end World

open World

/-- Along a course, no provider that leads to a cycle makes a value. -/
theorem Course.grounded {L : Declarations} {a : Activity C} {b : Bool} {w v : World C}
    (h : Course D a b w v) (hw : w.Coherent) (hg : w.Grounded D L) : v.Grounded D L :=
  h.invariant (Grounded.invariant D L) hw hg

/-- Without a container there is nothing to ground. -/
theorem World.grounded_of_containers (D : Outline) (L : Declarations) {w : World C}
    (h : w.containers = ∅) : w.Grounded D L := by
  intro c _ p hp
  unfold World.Holds World.container at hp
  rw [h] at hp
  exact absurd hp List.not_mem_nil

end Wiring
