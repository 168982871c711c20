import Mathlib.Data.List.Forall2
import Wiring.Proofs.Assembly
import Wiring.Proofs.Derivation
import Wiring.Proofs.Singletons

/-!
# Arguments are taken in turn

Resolved dependencies become the arguments of a constructor or of an injection method, which takes
them one by one, each in a form of its choice. What a call on the arguments answers depends on how
many calls were made before, and on nothing else about them: each one uses up one argument, also
when it fails. The argument is taken if its dependency is of the form that the call asks for.

Main statement: `Codebase.arguments_taken_in_turn`.
-/

namespace Wiring

variable {C : Client}

/-! ## Forms -/

namespace Want

/-- The form in which what is wanted travels; the container travels as an object. -/
def shape : Want → Shape
  | object type => .object type
  | container => .object .container
  | selection type => .selection type

/-- What a call asks for fits what was declared: the same, where the container may be wanted as
itself or as an object. -/
inductive Fits : Want → Want → Prop
  | object (type : TypeKey) : Fits (.object type) (.object type)
  | selection (type : TypeKey) : Fits (.selection type) (.selection type)
  | container : Fits .container .container
  | containerAsObject : Fits (.object .container) .container
  | objectAsContainer : Fits .container (.object .container)

/-- What is wanted fits exactly if it travels in the same form. -/
theorem fits_iff {asked declared : Want} : asked.Fits declared ↔ declared.shape = asked.shape := by
  constructor
  · intro h
    cases h <;> rfl
  · intro h
    cases asked <;> cases declared <;> cases h <;> constructor

instance (asked declared : Want) : Decidable (asked.Fits declared) :=
  decidable_of_iff _ fits_iff.symm

end Want

namespace Payload

/-- The form in which a value travels. -/
def shape : Payload C → Shape
  | value type _ => .object type
  | selection s => .selection s.type

/-- What there is to take. -/
def taken : Payload C → Taken C
  | value _ v => .value v
  | selection s => .selection s

/-- What travels in the form of the container is one. -/
def IsSound (x : Payload C) : Prop :=
  x.shape = .object .container → ∃ c, x = .value .container (.container c)

end Payload

namespace Injected

/-- Anything but a container is a mismatch where a container is wanted. -/
theorem asContainer_of_ne {i : Injected C} (h : i.payload.shape ≠ .object .container) :
    i.asContainer = i.mismatch (.object .container) := by
  unfold asContainer
  split
  · next hpayload =>
    rw [hpayload] at h
    exact absurd rfl h
  · rfl

/-- A value is taken in the form in which it travels, and in no other one. -/
theorem asWanted_eq {i : Injected C} (hi : i.payload.IsSound) (want : Want) :
    i.asWanted want =
      if i.payload.shape = want.shape then .ok i.payload.taken else i.mismatch want.shape := by
  -- A value fits by its type, the container only by being one, and a selection by the type it
  -- selects.
  cases want with
  | object type =>
    obtain ⟨member, type' | s⟩ := i
    · by_cases h : type' = type
      · subst h
        simp [asWanted, asObject, Payload.shape, Payload.taken, Want.shape, Except.map]
      · simp [asWanted, asObject, Payload.shape, Want.shape, Except.map, mismatch, h]
    · rfl
  | container =>
    by_cases h : i.payload.shape = .object .container
    · obtain ⟨c, hpayload⟩ := hi h
      simp [asWanted, asContainer, Payload.shape, Payload.taken, Want.shape, Except.map, hpayload]
    · unfold asWanted
      rw [asContainer_of_ne h]
      exact (if_neg h).symm
  | selection type =>
    obtain ⟨member, type' | s⟩ := i
    · rfl
    · by_cases h : s.type = type
      · simp [asWanted, asSelection, Payload.shape, Payload.taken, Want.shape, Except.map, h]
      · simp [asWanted, asSelection, Payload.shape, Want.shape, Except.map, mismatch, h]

end Injected

/-! ## Calls on arguments -/

/-- What takes arguments: a constructor or an injection method. -/
inductive Callable
  | constructor
  | method (name : String)

namespace Callable

/-- The name in the labels of the parameters. -/
def name : Callable → String
  | constructor => "new"
  | method name => name

/-- The label of the whole. -/
def label (owner : String) : Callable → String
  | constructor => Label.member owner "new"
  | method name => Label.call owner name

end Callable

namespace Arguments

/-- One call: the next argument as an object, as the container, or as a lazy handle. -/
def next (a : Arguments C) : Want → Except Failure (Taken C) × Arguments C
  | .object type => ((a.nextObject type).1.map .value, (a.nextObject type).2)
  | .container => (a.nextContainer.1.map fun c => .value (.container c), a.nextContainer.2)
  | .selection type => ((a.nextSelection type).1.map .selection, (a.nextSelection type).2)

/-- What is left after some calls, whatever they answered. -/
def after (a : Arguments C) (calls : List Want) : Arguments C :=
  calls.foldl (fun a want => (a.next want).2) a

/-- The typed readers are one reader, applied to what is wanted. -/
theorem next_eq_take (a : Arguments C) (want : Want) : a.next want = a.take (·.asWanted want) := by
  obtain ⟨member, values⟩ := a
  cases want <;> cases values <;> rfl

/-- A call uses up an argument, whatever it asks for. -/
theorem next_snd (a : Arguments C) (want : Want) :
    (a.next want).2 = { a with values := a.values.tail } := by
  rw [next_eq_take]
  obtain ⟨member, values⟩ := a
  cases values <;> rfl

/-- A call decides the first of the values that are left, and an empty rest is an exhaustion. -/
theorem next_fst (a : Arguments C) (want : Want) :
    (a.next want).1 = match a.values.head? with
      | some i => i.asWanted want
      | none => .error (.invocation a.member .argumentMissing) := by
  rw [next_eq_take]
  obtain ⟨member, values⟩ := a
  cases values <;> rfl

/-- As many arguments are used up as calls were made. -/
theorem after_eq (a : Arguments C) (calls : List Want) :
    a.after calls = { a with values := a.values.drop calls.length } := by
  unfold after
  induction calls generalizing a with
  | nil => rfl
  | cons want rest ih =>
    rw [List.foldl_cons, ih, next_snd, List.length_cons, ← List.drop_one, List.drop_drop,
      Nat.add_comm]

/-- What a call answers after others is a matter of the argument in its turn. -/
theorem next_after (a : Arguments C) (calls : List Want) (want : Want) :
    ((a.after calls).next want).1 = match a.values[calls.length]? with
      | some i => i.asWanted want
      | none => .error (.invocation a.member .argumentMissing) := by
  rw [next_fst, after_eq, List.head?_drop]

end Arguments

/-! ## Resolved dependencies -/

/-- What a call answers about the argument that a dependency of a container was resolved to. It
succeeds exactly if it asks for what was declared, and then it takes the argument; the container is
always the resolving one. Otherwise it is refused under the label of the parameter. -/
structure Arguments.Decides (a : Arguments C) (want : Want) (c : ContainerId) (member : String)
    (d : Dependency) (i : Injected C) : Prop where
  succeeds_iff : (∃ t, (a.next want).1 = .ok t) ↔ want.Fits d.want
  taken : want.Fits d.want → (a.next want).1 = .ok i.payload.taken
  itself : want.Fits d.want → want.shape = .object .container →
    (a.next want).1 = .ok (.value (.container c))
  refused : ¬ want.Fits d.want →
    (a.next want).1 = .error (.invocation member (.argumentMismatch want.shape))

theorem Label.parameters_length (owner callable : String) (wanted : List Dependency) :
    (parameters owner callable wanted).length = wanted.length := by
  unfold parameters
  exact List.length_mapIdx

namespace Host

variable {h : Host C} {c : ContainerId} {w v : World C}

/-- A container that is asked for itself answers with itself. -/
def KnowsItself (h : Host C) : Prop :=
  ∀ c qualifiers w v x,
    (h.perform (.get c .container qualifiers)).exec w = (some (.ok x), v) → x = .container c

/-- A dependency of a place was resolved at some moment: the argument has the label of the place and
the form that the dependency asks for, and where that is the container it is the resolving one. -/
structure Resolved (h : Host C) (c : ContainerId) (member : String) (d : Dependency)
    (i : Injected C) : Prop where
  resolve : ∃ w v, (resolve h c member d).run.exec w = (some (.ok i), v)
  member : i.member = member
  shape : i.payload.shape = d.want.shape
  itself : d.want.shape = .object .container → i.payload = .value .container (.container c)

/-- What resolves carries what its dependency says. -/
theorem Resolved.isSound {member : String} {d : Dependency} {i : Injected C}
    (hi : h.Resolved c member d i) : i.payload.IsSound :=
  fun hshape => ⟨c, hi.itself (hi.shape.symm.trans hshape)⟩

/-- A dependency that resolves is resolved in its own container under its own label. -/
theorem resolved_of_exec (hs : h.Selects) (ht : h.KnowsItself) {member : String} {d : Dependency}
    {i : Injected C} (hexec : (Host.resolve h c member d).run.exec w = (some (.ok i), v)) :
    h.Resolved c member d i := by
  have hresolve := hexec
  unfold Host.resolve at hexec
  -- An object, the container itself or a selection is resolved, each in the form it was asked for.
  rcases hwant : d.want with type | _ | type <;> rw [hwant] at hexec <;> dsimp only at hexec
  · obtain ⟨x, u, hget, hend⟩ := exec_bind_ok_iff.1 hexec
    cases hend
    refine ⟨⟨w, v, hresolve⟩, rfl, by rw [hwant]; rfl, fun hshape => ?_⟩
    rw [hwant] at hshape
    obtain rfl := Shape.object.inj hshape
    obtain rfl := ht c d.qualifiers _ _ x hget
    rfl
  · cases hexec
    exact ⟨⟨w, w, hresolve⟩, rfl, by rw [hwant]; rfl, fun _ => rfl⟩
  · obtain ⟨s, u, hselect, hend⟩ := exec_bind_ok_iff.1 hexec
    cases hend
    obtain rfl := hs c type d.qualifiers _ _ s hselect
    refine ⟨⟨w, v, hresolve⟩, rfl, by rw [hwant]; rfl, fun hshape => ?_⟩
    rw [hwant] at hshape
    cases hshape

/-- Dependencies and values correspond one by one; by induction on the list. -/
theorem resolved_of_resolveAll (hs : h.Selects) (ht : h.KnowsItself)
    {labelled : List (String × Dependency)} {values : List (Injected C)}
    (hexec : (resolveAll h c labelled).run.exec w = (some (.ok values), v)) :
    List.Forall₂ (fun e i => h.Resolved c e.1 e.2 i) labelled values := by
  induction labelled generalizing w values with
  | nil =>
    cases hexec
    exact .nil
  | cons e rest ih =>
    unfold resolveAll at hexec
    obtain ⟨i, u, hfirst, hrest⟩ := exec_bind_ok_iff.1 hexec
    obtain ⟨values', u', hvalues, hend⟩ := exec_bind_ok_iff.1 hrest
    cases hend
    exact .cons (resolved_of_exec hs ht hfirst) (ih hvalues)

/-- Every parameter was resolved to the argument at its place. -/
theorem resolved_at (hs : h.Selects) (ht : h.KnowsItself) {owner callable : String}
    {wanted : List Dependency} {values : List (Injected C)}
    (hexec : (resolveAll h c (Label.parameters owner callable wanted)).run.exec w =
      (some (.ok values), v)) {n : Nat} {d : Dependency} (hd : wanted[n]? = some d) :
    ∃ i, values[n]? = some i ∧ h.Resolved c (Label.parameter owner callable n) d i := by
  have hentry : (Label.parameters owner callable wanted)[n]? =
      some (Label.parameter owner callable n, d) := by
    unfold Label.parameters
    rw [List.getElem?_mapIdx, hd]
    rfl
  obtain ⟨hlength, hall⟩ := List.forall₂_iff_get.1 (resolved_of_resolveAll hs ht hexec)
  obtain ⟨hn, hget⟩ := List.getElem?_eq_some_iff.1 hentry
  have hresolved := hall n hn (hlength ▸ hn)
  rw [List.get_eq_getElem, hget] at hresolved
  exact ⟨_, List.getElem?_eq_getElem _, hresolved⟩

/-- A call on arguments decides by what was declared whether it succeeds. -/
theorem Resolved.decides {member : String} {d : Dependency} {i : Injected C}
    (hi : h.Resolved c member d i) {a : Arguments C} {want : Want}
    (hnext : (a.next want).1 = i.asWanted want) : a.Decides want c member d i := by
  -- The verdict on the next value is read off what was asked for alone.
  have hasked : (a.next want).1 =
      if want.Fits d.want then .ok i.payload.taken
      else .error (.invocation member (.argumentMismatch want.shape)) := by
    rw [hnext, Injected.asWanted_eq hi.isSound, hi.shape, Injected.mismatch, hi.member]
    exact if_congr Want.fits_iff.symm rfl rfl
  by_cases hfits : want.Fits d.want
  · rw [if_pos hfits] at hasked
    refine ⟨⟨fun _ => hfits, fun _ => ⟨_, hasked⟩⟩, fun _ => hasked, fun _ hshape => ?_,
      fun h => absurd hfits h⟩
    rw [hasked, hi.itself ((Want.fits_iff.1 hfits).trans hshape)]
    rfl
  · rw [if_neg hfits] at hasked
    refine ⟨⟨fun ⟨t, ht⟩ => ?_, fun h => absurd h hfits⟩, fun h => absurd h hfits,
      fun h => absurd h hfits, fun _ => hasked⟩
    rw [hasked] at ht
    cases ht

end Host

namespace Codebase

/-- Answers at any depth know which container they come from. -/
theorem hostAt_knowsItself (code : Codebase C) (depth : Nat) :
    (code.hostAt depth).KnowsItself := by
  intro c qualifiers w v x hexec
  cases depth with
  | zero => cases hexec
  | succ depth =>
    have hget : (Host.getObject (code.hostAt depth) c .container qualifiers).run.exec w =
        (some (.ok x), v) := hexec
    unfold Host.getObject Host.askOnly at hget
    obtain ⟨_, u, -, hend⟩ := Host.exec_bind_ok_iff.1 hget
    cases hend
    rfl

/-- Where the declared dependencies of a constructor or of an injection method were resolved, every
call on the arguments, after any others, is about the dependency in its turn, and once there is none
left it is refused under the label of the whole. What is left are the declared dependencies less the
calls that were made. -/
theorem arguments_taken_in_turn {code : Codebase C} {depth : Nat} {c : ContainerId}
    {callable : Callable} {owner : String} {wanted : List Dependency} {values : List (Injected C)}
    {w v : World C}
    (hresolved : (Host.resolveAll (code.hostAt depth) c
      (Label.parameters owner callable.name wanted)).run.exec w = (some (.ok values), v))
    (before : List Want) (want : Want) :
    let a := (⟨callable.label owner, values⟩ : Arguments C).after before
    a.size = wanted.length - before.length ∧
      match wanted[before.length]? with
      | some d =>
        let member := Label.parameter owner callable.name before.length
        ∃ i, values[before.length]? = some i ∧ (code.hostAt depth).Resolved c member d i ∧
          a.Decides want c member d i
      | none => (a.next want).1 =
          .error (.invocation (callable.label owner) .argumentMissing) := by
  intro a
  have hlength := Host.resolveAll_length hresolved
  rw [Label.parameters_length] at hlength
  refine ⟨?_, ?_⟩
  -- What is left after some calls is the list without as many values.
  · show ((⟨callable.label owner, values⟩ : Arguments C).after before).values.length = _
    rw [Arguments.after_eq, List.length_drop, hlength]
  · have hnext := (⟨callable.label owner, values⟩ : Arguments C).next_after before want
    -- Beyond the last dependency there is no value; within the list value and dependency stand at
    -- the same place.
    rcases hd : wanted[before.length]? with _ | d
    · have hnone : values[before.length]? = none := by
        rw [List.getElem?_eq_none_iff] at hd ⊢
        omega
      rw [hnone] at hnext
      exact hnext
    · obtain ⟨i, hi, hentry⟩ := Host.resolved_at (code.hostAt_selects depth)
        (code.hostAt_knowsItself depth) hresolved hd
      rw [hi] at hnext
      exact ⟨i, hi, hentry, hentry.decides hnext⟩

end Codebase

namespace Sample

/-- What a porch asks for. -/
def porch : List Dependency := [.container, .selection (.named "Lamp"), .object (.named "Lamp")]

/-- What a porch gets. -/
def porchValues : List (Injected Sample) :=
  [⟨"Porch::light(arg 0)", .value .container (.container ⟨0⟩)⟩,
    ⟨"Porch::light(arg 1)", .selection ⟨⟨0⟩, .named "Lamp", ∅, [⟨0⟩]⟩⟩,
    ⟨"Porch::light(arg 2)", .value (.named "Lamp") (.object ())⟩]

/-- The porch asks for its second argument as a lamp and is refused; the third one is next and is a
lamp, and then there is none left. -/
theorem porch_taken_in_turn :
    let a : Arguments Sample := ⟨"Porch::light()", porchValues⟩
    let lamp := Want.object (.named "Lamp")
    ((a.after [.object .container]).next lamp).1 = .error (.invocation "Porch::light(arg 1)"
      (.argumentMismatch (.object (.named "Lamp")))) ∧
    ((a.after [.object .container, lamp]).next lamp).1 = .ok (.value (.object ())) ∧
    (a.after [.object .container, lamp, lamp]).size = 0 ∧
    ((a.after [.object .container, lamp, lamp]).next lamp).1 =
      .error (.invocation "Porch::light()" .argumentMissing) := by
  intro a lamp
  have hresolved : ((lamps.hostAt 3).resolveAll ⟨0⟩
      (Label.parameters "Porch" (Callable.method "light").name porch)).run.exec lampValidated =
      (some (.ok porchValues), _) := rfl
  have hturn := Codebase.arguments_taken_in_turn hresolved
  obtain ⟨-, _, -, -, hsecond⟩ := hturn [.object .container] lamp
  obtain ⟨-, i, hi, -, hthird⟩ := hturn [.object .container, lamp] lamp
  obtain ⟨hsize, hfourth⟩ := hturn [.object .container, lamp, lamp] lamp
  obtain rfl := Option.some.inj hi
  exact ⟨hsecond.refused (by decide), hthird.taken (.object _), hsize, hfourth⟩

end Sample

end Wiring
