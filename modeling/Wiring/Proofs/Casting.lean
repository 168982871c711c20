import Wiring.Proofs.Exposing
import Wiring.Proofs.Provenance
import Wiring.Proofs.Walking

/-!
# Casts

A container holds values of all types alike, and the cast behind an exposure is written for values
of one type only: it looks at the type of the value that it is given, and makes nothing of a value
of another type. What the client's code makes is of the type that it is written for, a container
keeps under a provider's identity what this provider's source has made, and a request is left to a
provider only if it has the type that is asked for. So the look at the type always finds what it
looks for, and a request fails only where its container cannot be made ready, where no provider is
found, or where the provider fails itself.

Main statement: `Registration.described_casts`.
-/

namespace Wiring

variable {C : Client} {α : Type} {code : Codebase C} {w u v : World C} {c : ContainerId}
  {p : Provider C} {type key : TypeKey} {typeOf : Value C → TypeKey} {d : Definition C}
  {x : Value C}

/-! ## Client code that is typed -/

/-- Wherever a program ends, whatever it is answered and whatever it reads, it ends as said. -/
def Program.Returns (Q : α → Prop) : Program C α → Prop
  | .done a => Q a
  | .call _ next => ∀ r, (next r).Returns Q
  | .read next => ∀ s, (next s).Returns Q
  | .write _ next => next.Returns Q
  | .note _ next => next.Returns Q

/-- What a program returns whatever it is answered, it returns in every run. -/
theorem Program.Returns.of_run {h : Host C} {m : Program C α} {Q : α → Prop} {a : α}
    (hm : m.Returns Q) (hexec : (h.run m).exec w = (some a, v)) : Q a := by
  induction m generalizing w with
  | done b =>
    cases hexec
    exact hm
  | call k next ih =>
    obtain ⟨r, u, -, hrest⟩ := Machine.exec_bind_iff.1 hexec
    exact ih r (hm r) hrest
  | read next ih =>
    obtain ⟨s, u, -, hrest⟩ := Machine.exec_bind_iff.1 hexec
    exact ih s (hm s) hrest
  | write s next ih =>
    obtain ⟨_, u, -, hrest⟩ := Machine.exec_bind_iff.1 hexec
    exact ih hm hrest
  | note n next ih =>
    obtain ⟨_, u, -, hrest⟩ := Machine.exec_bind_iff.1 hexec
    exact ih hm hrest

/-- The code behind a definition is written for values of the implementation type: it makes no
others, and an object that it injects stays of this type. -/
structure Codebase.Types (code : Codebase C) (typeOf : Value C → TypeKey) (d : Definition C) :
    Prop where
  ready : ∀ x, d.source = .ready x → typeOf x = d.implementation
  produce : ∀ produce dispose c, d.source = .producer produce dispose →
    (code.produce produce c).Returns fun r => ∀ x, r = .ok x → typeOf x = d.implementation
  construct : d.source = .component → ∀ a,
    ((code.component d.implementation).construct a).Returns fun r =>
      ∀ o, r = .ok o → typeOf (.object o) = d.implementation
  setField : d.source = .component → ∀ o name i, typeOf (.object o) = d.implementation →
    ((code.component d.implementation).setField o name i).Returns fun r =>
      typeOf (.object r.1) = d.implementation
  callMethod : d.source = .component → ∀ o name a, typeOf (.object o) = d.implementation →
    ((code.component d.implementation).callMethod o name a).Returns fun r =>
      typeOf (.object r.1) = d.implementation

namespace Codebase.Types

open Host

variable {perform : (k : Call C) → Machine C (Reply C k)} {o o' : C.Object} {r : Attempted Unit}
  (ht : code.Types typeOf d) (hs : d.source = .component)
include ht hs

/-- The injection of a point keeps the type of the object. -/
theorem injectPoint {q : Point} (ho : typeOf (.object o) = d.implementation)
    (hexec : (injectPoint ⟨code, perform⟩ c d.implementation q o).exec w = (some (o', r), v)) :
    typeOf (.object o') = d.implementation := by
  unfold Host.injectPoint at hexec
  -- A dependency that fails leaves the object as it was.
  obtain ⟨resolved, w₁, -, hexec⟩ := Machine.exec_bind_iff.1 hexec
  rcases resolved with e | values
  · cases hexec
    exact ho
  · obtain ⟨_, w₂, -, hexec⟩ := Machine.exec_bind_iff.1 hexec
    obtain ⟨⟨o₁, outcome⟩, w₃, hrun, hexec⟩ := Machine.exec_bind_iff.1 hexec
    cases hexec
    -- Setting a field and calling a method both answer an object of the type they were given.
    rcases q with ⟨name, dependency⟩ | ⟨name, parameters⟩
    · rcases values with _ | ⟨i, rest⟩
      · cases hrun
        exact ho
      · exact (ht.setField hs o name i ho).of_run hrun
    · exact (ht.callMethod hs o name _ ho).of_run hrun

/-- So does the injection of all points in a row. -/
theorem injectPoints {l : List Point} (ho : typeOf (.object o) = d.implementation)
    (hexec : (injectPoints ⟨code, perform⟩ c d.implementation l o).exec w = (some (o', r), v)) :
    typeOf (.object o') = d.implementation := by
  induction l generalizing o w with
  | nil =>
    cases hexec
    exact ho
  | cons q rest ih =>
    obtain ⟨⟨o₁, r₁⟩, w₁, hpoint, hexec⟩ := Machine.exec_bind_iff.1 hexec
    have ho₁ := ht.injectPoint hs ho hpoint
    rcases r₁ with e | _
    · cases hexec
      exact ho₁
    · exact ih ho₁ hexec

/-- A component that is built is of its own type. -/
theorem build (hexec : (build ⟨code, perform⟩ c d.implementation).run.exec w = (some (.ok x), v)) :
    typeOf x = d.implementation := by
  unfold Host.build at hexec
  obtain ⟨constructor, w₁, -, hexec⟩ := exec_bind_step_iff.1 hexec
  obtain ⟨values, w₂, -, hexec⟩ := exec_bind_ok_iff.1 hexec
  obtain ⟨o, w₃, hconstruct, hexec⟩ := exec_bind_ok_iff.1 hexec
  obtain ⟨⟨o', r⟩, w₄, hinject, hexec⟩ := exec_bind_step_iff.1 hexec
  obtain ⟨_, w₅, -, hexec⟩ := exec_bind_ok_iff.1 hexec
  obtain ⟨_, w₆, -, hexec⟩ := exec_bind_ok_iff.1 hexec
  cases hexec
  -- What was constructed has the type, and injecting its points keeps it.
  have ho : typeOf (.object o) = d.implementation := by
    cases exec_invoke_iff.1 hconstruct with
    | ok hrun => exact (ht.construct hs _).of_run hrun o rfl
  unfold Host.injectObject at hinject
  obtain ⟨points, u₁, -, hinject⟩ := Machine.exec_bind_iff.1 hinject
  obtain ⟨_, u₂, -, hinject⟩ := Machine.exec_bind_iff.1 hinject
  exact ht.injectPoints hs ho hinject

omit hs in
/-- Whatever the source of a definition makes is of the implementation type. -/
theorem of_sources (hx : code.Sources d x) : typeOf x = d.implementation := by
  obtain ⟨perform, c, w, v, hexec⟩ := hx
  unfold makeBySource at hexec
  rcases hsource : d.source with y | ⟨produce, dispose⟩ | _ <;> rw [hsource] at hexec
  · cases hexec
    exact ht.ready _ hsource
  · cases exec_invoke_iff.1 hexec with
    | ok hrun => exact (ht.produce produce dispose c hsource).of_run hrun x rfl
  · exact ht.build hsource hexec

end Codebase.Types

/-! ## Casts that look at the type -/

/-- A value behind a pointer to one of its types. -/
structure Pointer (C : Client) where
  type : TypeKey
  value : Value C

/-- The value behind a pointer to a type; nothing if the pointer is to another type. -/
def Pointer.value? (b : Pointer C) (type : TypeKey) : Option (Value C) :=
  if b.type = type then some b.value else none

/-- The cast of an exposure. It is written for values of the implementation type, and of a value of
another type it makes nothing. -/
def Exposure.cast? (typeOf : Value C → TypeKey) (implementation : TypeKey) (e : Exposure C)
    (x : Value C) : Option (Pointer C) :=
  if typeOf x = implementation then some ⟨e.type, e.convert x⟩ else none

namespace Definition

/-- The pointer to a value as a type: as the wildcard to the value itself, else what the exposure of
the type makes of it. -/
def cast? (d : Definition C) (typeOf : Value C → TypeKey) (type : TypeKey) (x : Value C) :
    Option (Pointer C) :=
  if type.isWildcard then some ⟨.anything, x⟩
  else (d.exposures.find? (·.type = type)).bind (·.cast? typeOf d.implementation x)

/-- The value as a type that was asked for. Two types are looked at, that of the value and that of
the pointer. -/
def castTo? (d : Definition C) (typeOf : Value C → TypeKey) (type : TypeKey) (x : Value C) :
    Option (Value C) :=
  (d.cast? typeOf type x).bind (·.value? type)

/-- Of a value of the implementation type, both looks find what they look for. -/
theorem castTo?_eq_convert? (hx : typeOf x = d.implementation) :
    d.castTo? typeOf type x = d.convert? type x := by
  unfold castTo? cast? convert? TypeKey.isWildcard
  by_cases hwildcard : type = .anything
  · simp [hwildcard, Pointer.value?]
  · rcases hfind : d.exposures.find? (·.type = type) with _ | e
    · simp [hwildcard, hfind]
    · have htype : e.type = type := by simpa using List.find?_some hfind
      simp [hwildcard, hfind, Exposure.cast?, hx, Pointer.value?, htype]

end Definition

namespace Host

/-- The value of a provider as a requested type, by a cast that may make nothing of it. -/
def provideBy (h : Host C) (c : ContainerId) (p : Provider C) (type : TypeKey)
    (convert? : Value C → Option (Value C)) : Attempt C (Value C) := do
  ensureReady h c
  let x ← provide h c p
  match convert? x with
  | some y => return y
  | none =>
    throw (.invocation (Label.member p.definition.implementation.name "cast") (.notExposed type))

/-- Asking a provider as a type is asking it by the cast that the definition has for the type. -/
theorem provideAs_eq_provideBy (h : Host C) :
    h.provideAs c p type = h.provideBy c p type (p.definition.convert? type) := rfl

/-- The value of a provider, by a cast that makes something of every value. -/
def provideThrough (h : Host C) (c : ContainerId) (p : Provider C) (convert : Value C → Value C) :
    Attempt C (Value C) := do
  ensureReady h c
  let x ← provide h c p
  return convert x

/-- A cast that makes something of all that the source makes never fails. -/
theorem exec_provideBy {h : Host C} {convert? : Value C → Option (Value C)}
    {convert : Value C → Value C} (hw : w.Coherent)
    (hphase : (w.container c).phase ≠ .unconfigured) (hp : (w.container c).registry.Refers p)
    (hsourced : w.Sourced h.code)
    (hconvert : ∀ x, h.code.Sources p.definition x → convert? x = some (convert x)) :
    (h.provideBy c p type convert?).run.exec w = (h.provideThrough c p convert).run.exec w := by
  have hR := Machine.Agree.congruence (C := C)
  refine hR.bind_run rfl fun _ v hopened => ?_
  -- The container has been validated, so that its registry is still the one that refers to it.
  obtain rfl := eq_of_ensureReady hw hphase hopened
  refine hR.bind_run rfl fun x z hprovide => ?_
  rw [hconvert x (hsourced.sources_of_provide hp hprovide)]
  exact hR.pure_run z (convert x)

/-- Where a call is left to a provider, its container has been validated and refers to it. -/
theorem Reaches.refers {k : Call C} {depth : Nat} (hw : w.Coherent) (hsourced : w.Sourced code)
    (hk : (code.hostAt depth).Reaches k w c p type u) :
    u.Coherent ∧ (u.container c).phase ≠ .unconfigured ∧ (u.container c).registry.Refers p ∧
      u.Sourced code := by
  induction hk with
  -- A lookup may open the container first; what it finds is then among the providers or was
  -- remembered of them.
  | @get c type qualifiers p w u hopened hc htype hp =>
    obtain ⟨hcourse, hopen⟩ := Machine.Follows.ends
      (ensureReady_follows (code.describes_any.host_lawful depth) c w) hw hopened
    have hready := code.ensureReady_upholds depth c w
    rw [hopened] at hready
    have hlooked : u.Upholds code (u.looked c (type, qualifiers)) :=
      (World.Upholds.withRegistry fun _ => (Registry.retains_findUnique _ _).refers).trans
        (.of_eq rfl rfl rfl)
    refine ⟨(hcourse.coherent hw).looked hc _, ?_, ?_, hlooked.sourced (hready.sourced hsourced)⟩
    · rw [(World.container_looked u c _ c).2]
      exact hopen.isOpen.ne_unconfigured
    · unfold World.looked World.withRegistry
      rw [World.container_enter, World.container_withContainer_self]
      exact Registry.refers_of_findUnique hp
  -- A thread of its own leaves containers and slots as they are.
  | @getApart _ _ _ _ w _ _ ih =>
    have hdeparted : w.Upholds code w.departed := .of_eq rfl rfl rfl
    exact ih hw.departed (hdeparted.sourced hsourced)
  | single _ _ hphase hp => exact ⟨hw, hphase, .inl (Registry.mem_of_provider? hp).1, hsourced⟩
  | advance _ _ hphase hp => exact ⟨hw, hphase, .inl (Registry.mem_of_provider? hp).1, hsourced⟩

end Host

/-! ## Types that are asked for -/

/-- The handle that a call is made on. -/
def Call.handle? : Call C → Option Selection
  | .single sel => some sel
  | .advance cursor => some cursor.selection
  | _ => none

/-- If a call is made on a handle, a container has handed it out before. -/
def Codebase.HasHandle (code : Codebase C) (s : C.State) (w : World C) (k : Call C) : Prop :=
  ∀ sel, k.handle? = some sel → ∃ depth w₀ c type qs v₀, code.Visits (.blank s) w₀ ∧
    code.Hands depth w₀ c type qs sel v₀ ∧ v₀.Moves w

/-- The matches of a handle have the type that it was made for. -/
theorem Codebase.HasHandle.hasType {s : C.State} {k : Call C} {sel : Selection} {id : ProviderId}
    (hk : code.HasHandle s w k) (hsel : k.handle? = some sel) (hid : id ∈ sel.providers)
    (hp : (w.container sel.container).registry.provider? id = some p) :
    p.definition.hasType sel.type = true := by
  obtain ⟨depth, w₀, c, type, qs, v₀, hw₀, hhands, hmoves⟩ := hk sel hsel
  have hbacks := (hhands.backs hw₀.coherent).later hmoves
  obtain ⟨q, hq, rfl⟩ : ∃ q ∈ v₀.carriers c (type, qs), q.id = id := by
    rw [hbacks.ids] at hid
    exact List.mem_map.1 hid
  obtain rfl : q = p := Option.some.inj ((hbacks.found q hq).symm.trans hp)
  have hamong := Provider.isAmong_iff.2 (World.mem_carriers.1 hq).2
  obtain ⟨u, -, rfl, -⟩ := hhands.opened
  unfold Provider.isAmong at hamong
  exact (Bool.and_eq_true_iff.1 hamong).1

/-- A call is left to providers that have the type it asks for. -/
theorem Host.Reaches.hasType {s : C.State} {k : Call C} {depth : Nat} (hw : w.Coherent)
    (hhandle : code.HasHandle s w k) (hk : (code.hostAt depth).Reaches k w c p type u) :
    p.definition.hasType type = true := by
  induction hk with
  -- What a scan finds has the type it was asked for.
  | @get c type qualifiers p w u hopened hc htype hp =>
    have hcourse := (Machine.Follows.ends
      (ensureReady_follows (code.describes_any.host_lawful depth) c w) hw hopened).1
    rw [Registry.findUnique_fst ((hcourse.coherent hw).recalled c)] at hp
    have hexact := (Registry.mem_of_scan hp).2
    unfold Provider.isExact at hexact
    exact (Bool.and_eq_true_iff.1 hexact).1
  | getApart _ ih => exact ih hw.departed fun _ hsel => by cases hsel
  -- What a handle lists had the type when the handle was made, and definitions never change.
  | single hid _ _ hp => exact hhandle.hasType rfl (hid ▸ List.mem_singleton_self _) hp
  | @advance cursor id rest _ _ hid _ _ hp =>
    have hmem : id ∈ cursor.rest := hid ▸ List.mem_cons_self
    exact hhandle.hasType rfl (List.mem_of_mem_drop hmem) hp

open Registration Detail

/-- The types of a provider are distinct, the implementation type comes first and the others in the
order in which they were exposed first, and it answers to these and to the wildcard. Its source
makes values of the implementation type, and what is kept for the provider is what the source has
made. So the cast of every type that the provider answers to makes something of every such value:
what the cast that was exposed last for the type does, or the value itself if there is none and as
the wildcard. A request that is left to the provider asks for such a type, and is answered with the
value that the provider has for it, passed through this cast; that a value is not exposed is no
answer to it. -/
theorem Registration.described_casts (type : TypeKey) (source : Source C) (markers : Markers)
    (l : List (Detail C)) :
    let d := described type source markers l
    (d.types = (type :: (exposed l).map (·.type)).eraseDups ∧ d.types.Nodup ∧
      ∀ key, d.hasType key = true ↔
        key = .anything ∨ key = type ∨ ∃ e ∈ exposed l, e.type = key) ∧
    ∀ (code : Codebase C) (typeOf : Value C → TypeKey), code.Types typeOf d →
      (∀ x, code.Sources d x → typeOf x = type ∧
        ∀ key, d.hasType key = true → d.castTo? typeOf key x = some (through l key x)) ∧
      ∀ (s : C.State) (w : World C), code.Visits (.blank s) w →
        (∀ c p x, w.Holds c p → p.definition = d → w.kept.get? p.id = some x →
          code.Sources d x) ∧
        ∀ (depth : Nat) (k : Call C) c p key u, code.HasHandle s w k →
          (code.hostAt depth).Reaches k w c p key u → p.definition = d →
          d.hasType key = true ∧
          ((code.hostAt depth).provideBy c p key (d.castTo? typeOf key)).run.exec u =
            ((code.hostAt depth).provideThrough c p (through l key)).run.exec u ∧
          (code.perform (depth + 1) k).exec w =
            match ((code.hostAt depth).provideThrough c p (through l key)).run.exec u with
            | (some a, v) => (k.reply? a, w.replied k v)
            | (none, v) => (none, v) := by
  intro d
  have himplementation : d.implementation = type := implementation_described type source markers l
  refine ⟨⟨types_described .., nodup_types_described .., fun key => hasType_described ..⟩,
    fun code typeOf ht => ?_⟩
  -- The cast that the described exposures make is the one the source stands for.
  have hcasts : ∀ x, code.Sources d x → ∀ key, d.hasType key = true →
      d.castTo? typeOf key x = some (through l key x) := by
    intro x hx key hkey
    rw [Definition.castTo?_eq_convert? (ht.of_sources hx)]
    exact convert?_described type source markers l hkey x
  refine ⟨fun x hx => ⟨(ht.of_sources hx).trans himplementation, hcasts x hx⟩,
    fun s w hw => ⟨fun c p x hp hd hx => ?_, fun depth k c p key u hhandle hk hd => ?_⟩⟩
  -- A kept value has a source, and identities tell providers apart.
  · obtain ⟨q, hid, hq, hsources⟩ := hw.sourced.kept p.id x hx
    obtain rfl := hq.only c p (.inl hp) hid.symm
    exact hd ▸ hsources
  · obtain ⟨hu, hphase, hp, hsourced⟩ := hk.refers hw.coherent hw.sourced
    have hkey : d.hasType key = true := hd ▸ hk.hasType hw.coherent hhandle
    refine ⟨hkey, ?_, ?_⟩
    · exact Host.exec_provideBy hu hphase hp hsourced fun x hx => hcasts x (hd ▸ hx) key hkey
    · have hprovide : ((code.hostAt depth).provideAs c p key).run.exec u =
          ((code.hostAt depth).provideThrough c p (through l key)).run.exec u := by
        rw [Host.provideAs_eq_provideBy, hd]
        exact Host.exec_provideBy hu hphase hp hsourced fun x _ =>
          convert?_described type source markers l hkey x
      rw [← hprovide]
      exact Host.exec_answer_of_reaches hk

namespace Sample

/-- A lamp is exposed as a light, as itself and once more as a light. -/
def lightDetails : List (Detail Sample) :=
  [.expose (.named "Light") fun _ => .container ⟨0⟩, .expose (.named "Lamp") id,
    .expose (.named "Light") fun _ => .container ⟨7⟩]

/-- Every object is a lamp. -/
def kind : Value Sample → TypeKey
  | .container _ => .container
  | .object _ => .named "Lamp"

/-- A container with the lamp is validated. -/
def hangLight : Program Sample (Attempted Unit) := do
  let c ← Program.request .create
  let lamp : Registration Sample := .producer (.named "Lamp") ()
  let _ ← Program.request (.register c (lamp.describe lightDetails))
  Program.request (.validate c)

def lightHung : World Sample := ((lamps.run 2 hangLight).exec blank).2

def light : Provider Sample :=
  ⟨⟨0⟩, Registration.described (.named "Lamp") (.producer () none) {} lightDetails⟩

/-- The light is what the last cast makes of the lamp, and anything is the lamp itself. -/
theorem light_cast :
    light.definition.types = [.named "Lamp", .named "Light"] ∧
      ((lamps.perform 2 (.get ⟨0⟩ (.named "Light") ∅)).exec lightHung).1 =
        some (.ok (.container ⟨7⟩)) ∧
      ((lamps.perform 2 (.get ⟨0⟩ .anything ∅)).exec lightHung).1 =
        some (.ok (.object ())) := by
  have hvisits : lamps.Visits blank lightHung := Codebase.visits_of_run (Prod.eta _).symm
  have htypes : lamps.Types kind light.definition := by
    constructor
    · intro x hx
      cases hx
    · intro produce dispose c _ x hx
      cases hx
      rfl
    all_goals intro hcomponent; cases hcomponent
  obtain ⟨⟨hlist, -, -⟩, hcode⟩ :=
    Registration.described_casts (.named "Lamp") (.producer () none) {} lightDetails
  obtain ⟨-, hrun⟩ := hcode lamps kind htypes
  obtain ⟨-, hresolve⟩ := hrun () lightHung hvisits
  have hreaches : ∀ key, key ≠ .container →
      ((lightHung.container ⟨0⟩).registry.findUnique (key, ∅)).1 = .ok light →
      (lamps.hostAt 1).Reaches (.get ⟨0⟩ key ∅) lightHung ⟨0⟩ light key
        (lightHung.looked ⟨0⟩ (key, ∅)) :=
    fun key hne hp => .get (Host.exec_ensureReady (by decide +kernel)) ⟨_, rfl⟩ hne hp
  refine ⟨hlist.trans (by decide +kernel), ?_, ?_⟩
  · obtain ⟨-, -, hanswer⟩ := hresolve 1 _ ⟨0⟩ light (.named "Light") _ (fun _ h => by cases h)
      (hreaches (.named "Light") TypeKey.noConfusion rfl) rfl
    rw [hanswer]
    rfl
  · obtain ⟨-, -, hanswer⟩ := hresolve 1 _ ⟨0⟩ light .anything _ (fun _ h => by cases h)
      (hreaches .anything TypeKey.noConfusion rfl) rfl
    rw [hanswer]
    rfl

end Sample

end Wiring
