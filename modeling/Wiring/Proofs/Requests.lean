import Wiring.Proofs.History

/-!
# Requests for the value of a provider

Several calls ask a container for a value: by type, on a thread of its own or not, as the single
match of a selection, or as the next match of a walk. Whichever it is, one provider is asked and
its value is handed out as one type.
-/

namespace Wiring

variable {C : Client}

/-- A value can be had as every type under which its provider answers, and as no other. -/
theorem Definition.convert?_isSome (d : Definition C) (type : TypeKey) (v : Value C) :
    (d.convert? type v).isSome = d.hasType type := by
  unfold convert? hasType types
  rcases hwild : type.isWildcard
  · have hfind : (d.exposures.find? (·.type = type)).isSome =
        (d.exposures.map (·.type)).contains type := by
      rw [Bool.eq_iff_iff, List.find?_isSome]
      simp
    rw [if_neg Bool.false_ne_true, Option.isSome_map, hfind, Bool.false_or]
  · rfl

/-- A cast is there only for a type that the definition has. -/
theorem Definition.hasType_of_convert? {d : Definition C} {type : TypeKey} {v x : Value C}
    (h : d.convert? type v = some x) : d.hasType type = true := by
  rw [← d.convert?_isSome type v, h]
  rfl

namespace Call

/-- The value that a call was answered with, or how it failed; nothing for calls that ask for
none. -/
def outcome? : (k : Call C) → Reply C k → Option (Attempted (Value C))
  | .get .., r => some r
  | .getApart .., r => some r
  | .single _, r => some r
  | .advance _, r => r.1
  | _, _ => none

/-- The container is asked for itself. -/
def IsForContainer : Call C → Prop
  | .get _ type _ => type = .container
  | .getApart _ type _ => type = .container
  | _ => False

end Call

namespace World

/-- In a world, a call asks a provider of a container for its value as some type. -/
def Resolves (w : World C) (c : ContainerId) (p : Provider C) (type : TypeKey) : Call C → Prop
  | .get d t qualifiers | .getApart d t qualifiers =>
    d = c ∧ t = type ∧ t ≠ .container ∧
      (w.container c).registry.scan (t, qualifiers) = .ok p
  | .single s =>
    s.container = c ∧ s.type = type ∧ p.definition.hasType type = true ∧
      ∃ id, s.providers = [id] ∧ (w.container c).registry.provider? id = some p
  | .advance cursor =>
    cursor.selection.container = c ∧ cursor.selection.type = type ∧
      p.definition.hasType type = true ∧
      ∃ id rest, cursor.rest = id :: rest ∧ (w.container c).registry.provider? id = some p
  | _ => False

/-- A provider's latest value, as some type, is this one. -/
def Yields (w : World C) (p : Provider C) (type : TypeKey) (x : Value C) : Prop :=
  ∃ y earlier, w.mades p.id = y :: earlier ∧ p.definition.convert? type y = some x

/-- What is yielded for a type comes from a provider that has it. -/
theorem Yields.hasType {w : World C} {p : Provider C} {type : TypeKey} {x : Value C}
    (h : w.Yields p type x) : p.definition.hasType type = true := by
  obtain ⟨y, earlier, _, hx⟩ := h
  exact Definition.hasType_of_convert? hx

end World

/-- A call that asks for a value and gets one gets the value of the provider that it asks. -/
def Call.Answered (k : Call C) (r : Reply C k) (w : World C) : Prop :=
  ∀ x, k.outcome? r = some (.ok x) →
    k.IsForContainer ∨ ∃ c p type, w.Resolves c p type k ∧ w.Yields p type x

end Wiring
