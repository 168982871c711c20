import Mathlib.Data.List.DropRight
import Wiring.Proofs.Sample

/-!
# Descriptions of providers

A registration is described by any number of calls in any order. Each call describes one aspect of
the provider, and what comes of an aspect is decided by the calls on it alone: of two scopes or two
pieces of disposing code the later counts, and qualifiers are added to the set that was given last.
What no call describes is taken from the declared markers, where stereotypes stand behind what the
provider declares itself.

Main statement: `Registration.describe_definition`.
-/

namespace Wiring

variable {C : Client} {β : Type}

/-! ## Declared markers -/

namespace Markers

/-- A qualifier is declared by the provider itself or by one of its stereotypes. -/
theorem mem_expandedQualifiers {m : Markers} {q : Qualifier} :
    q ∈ m.expandedQualifiers ↔ q ∈ m.qualifiers ∨ ∃ t ∈ m.stereotypes, q ∈ t.qualifiers := by
  obtain ⟨_, qualifiers, stereotypes⟩ := m
  unfold expandedQualifiers
  dsimp only
  induction stereotypes generalizing qualifiers with
  | nil => simp
  | cons t rest ih =>
    rw [List.foldl_cons, ih, Qualifiers.mem_putAll, or_assoc]
    simp [Sorted.mem_def]

/-- The order of the stereotypes does not matter, nor how often each of them is attached. -/
theorem expandedQualifiers_congr {m n : Markers} (hqualifiers : m.qualifiers = n.qualifiers)
    (hstereotypes : ∀ t, t ∈ m.stereotypes ↔ t ∈ n.stereotypes) :
    m.expandedQualifiers = n.expandedQualifiers := by
  refine Sorted.ext_of_mem fun q => ?_
  rw [mem_expandedQualifiers, mem_expandedQualifiers, hqualifiers]
  simp only [hstereotypes]

/-- The markers with all that the stereotypes stand for. -/
def expanded (m : Markers) : Markers :=
  { m with scope := m.expandedScope, qualifiers := m.expandedQualifiers }

/-- Nothing is left to expand. -/
theorem expanded_expanded (m : Markers) : m.expanded.expanded = m.expanded := by
  have hscope : m.expanded.expandedScope = m.expandedScope := by
    show ((m.scope <|> m.stereotypes.findSome? (·.scope)) <|>
      m.stereotypes.findSome? (·.scope)) = (m.scope <|> m.stereotypes.findSome? (·.scope))
    simp only [Option.orElse_eq_orElse, Option.orElse_eq_or, Option.or_assoc, Option.or_self]
  have hqualifiers : m.expanded.expandedQualifiers = m.expandedQualifiers := by
    refine Sorted.ext_of_mem fun q => mem_expandedQualifiers.trans ?_
    show q ∈ m.expandedQualifiers ∨ (∃ t ∈ m.stereotypes, q ∈ t.qualifiers) ↔ _
    rw [mem_expandedQualifiers, or_assoc, or_self]
  unfold expanded at hscope hqualifiers ⊢
  rw [hscope, hqualifiers]

end Markers

/-! ## Calls that describe a provider -/

/-- Exposes a type, in the place that it has or else behind the others. -/
def Exposure.put (es : List (Exposure C)) (e : Exposure C) : List (Exposure C) :=
  if es.any (·.type = e.type) then es.map fun x => if x.type = e.type then e else x
  else es ++ [e]

/-- What may be said of a provider. -/
inductive Aspect
  | scope
  | qualifiers
  | exposures
  | disposal
deriving DecidableEq

/-- A call that describes a provider. The calls for one of the two scopes are calls for a scope. -/
inductive Detail (C : Client)
  | scope (scope : Scope)
  | qualifier (q : Qualifier)
  | qualifiers (qs : Qualifiers)
  | expose (type : TypeKey) (convert : Value C → Value C)
  | onDestroy (dispose : C.Disposer)

namespace Detail

/-- The aspect that a call describes. -/
def aspect : Detail C → Aspect
  | scope _ => .scope
  | qualifier _ | qualifiers _ => .qualifiers
  | expose .. => .exposures
  | onDestroy _ => .disposal

/-- The scope that a call gives. -/
def scope? : Detail C → Option Scope
  | scope s => some s
  | _ => none

/-- The disposing code that a call gives. -/
def disposer? : Detail C → Option C.Disposer
  | onDestroy dispose => some dispose
  | _ => none

/-- The qualifier that a call adds. -/
def qualifier? : Detail C → Option Qualifier
  | qualifier q => some q
  | _ => none

/-- The set of qualifiers that a call gives. -/
def qualifiers? : Detail C → Option Qualifiers
  | qualifiers qs => some qs
  | _ => none

/-- What a call exposes. -/
def exposure? : Detail C → Option (Exposure C)
  | expose type convert => some ⟨type, convert⟩
  | _ => none

/-- The last set of qualifiers that is given, or the empty one. -/
def lastSet (l : List (Detail C)) : Qualifiers := (l.filterMap qualifiers?).getLast?.getD ∅

/-- The qualifiers that are added after the last set. -/
def addedSince (l : List (Detail C)) : List Qualifier :=
  (l.rtakeWhile (·.qualifiers?.isNone)).filterMap qualifier?

/-- The qualifiers that calls leave behind, if one of them is about qualifiers. -/
def marked (l : List (Detail C)) : Option Qualifiers :=
  if l.any (·.aspect = .qualifiers) then some ((lastSet l).putAll (addedSince l)) else none

/-- A later detail that sets the qualifiers overrules what was set before. -/
theorem lastSet_concat (l : List (Detail C)) (d : Detail C) :
    lastSet (l ++ [d]) = d.qualifiers?.getD (lastSet l) := by
  unfold lastSet
  rw [List.filterMap_append, List.getLast?_append]
  rcases hd : d.qualifiers? with _ | qs <;> simp [hd]

/-- Setting the qualifiers forgets those that were added before. -/
theorem addedSince_concat (l : List (Detail C)) (d : Detail C) :
    addedSince (l ++ [d]) =
      if d.qualifiers?.isNone then addedSince l ++ d.qualifier?.toList else [] := by
  unfold addedSince
  rw [List.rtakeWhile_concat]
  split
  · rcases hd : d.qualifier? with _ | q <;> simp [List.filterMap_append, hd]
  · rfl

/-- The qualifiers of a series: the last set, and on top what was added since. -/
theorem getD_marked (l : List (Detail C)) :
    (marked l).getD ∅ = (lastSet l).putAll (addedSince l) := by
  unfold marked
  split
  · rfl
  · next h =>
    -- Where no detail is about qualifiers, none sets and none adds any.
    have hnone : ∀ d ∈ l, d.qualifiers? = none ∧ d.qualifier? = none := by
      intro d hd
      have haspect : d.aspect ≠ .qualifiers := fun ha => h (List.any_eq_true.2 ⟨d, hd, by simpa⟩)
      cases d <;> first | exact absurd rfl haspect | exact ⟨rfl, rfl⟩
    have hlast : lastSet l = ∅ := by
      unfold lastSet
      rw [List.filterMap_eq_nil_iff.2 fun d hd => (hnone d hd).1]
      rfl
    have hadded : addedSince l = [] :=
      List.filterMap_eq_nil_iff.2 fun d hd => (hnone d ((List.rtakeWhile_suffix _ l).mem hd)).2
    rw [hlast, hadded]
    rfl

/-! ## What a call makes of an aspect -/

def onScope (scope : Option Scope) (d : Detail C) : Option Scope := d.scope? <|> scope

def onDisposal (dispose : Option C.Disposer) (d : Detail C) : Option C.Disposer :=
  d.disposer? <|> dispose

/-- The qualifiers after a call. -/
def onQualifiers (qs : Option Qualifiers) : Detail C → Option Qualifiers
  | qualifier q => some ((qs.getD ∅).put q)
  | qualifiers new => some new
  | _ => qs

/-- The exposures after a call. -/
def onExposures (es : List (Exposure C)) (d : Detail C) : List (Exposure C) :=
  match d.exposure? with
  | some e => Exposure.put es e
  | none => es

/-- What comes of an aspect is decided by the calls on it alone. -/
theorem foldl_aspect {f : β → Detail C → β} {a : Aspect}
    (h : ∀ b d, d.aspect ≠ a → f b d = b) (l : List (Detail C)) (b : β) :
    l.foldl f b = (l.filter (·.aspect = a)).foldl f b := by
  induction l generalizing b with
  | nil => rfl
  | cons d rest ih =>
    rw [List.foldl_cons, ih]
    by_cases ha : d.aspect = a
    · rw [List.filter_cons_of_pos (by simpa using ha), List.foldl_cons]
    · rw [List.filter_cons_of_neg (by simpa using ha), h b d ha]

/-- Where the later call counts, the last one does. -/
theorem foldl_orElse (given : Detail C → Option β) (l : List (Detail C)) (b : Option β) :
    l.foldl (fun b d => given d <|> b) b = ((l.filterMap given).getLast? <|> b) := by
  induction l generalizing b with
  | nil => rfl
  | cons d rest ih =>
    rw [List.foldl_cons, ih]
    rcases hd : given d with _ | x
    · rw [List.filterMap_cons_none hd]
      rfl
    · rw [List.filterMap_cons_some hd, List.getLast?_cons]
      rcases (rest.filterMap given).getLast? with _ | y <;> rfl

/-- One more call on the qualifiers that calls have left behind. -/
theorem marked_concat (l : List (Detail C)) (d : Detail C) :
    marked (l ++ [d]) = onQualifiers (marked l) d := by
  cases d with
  -- An added qualifier goes on top of what is marked so far.
  | qualifier q =>
    unfold onQualifiers
    rw [getD_marked]
    unfold marked
    rw [lastSet_concat, addedSince_concat, if_pos (by simp [aspect])]
    exact congrArg some List.foldl_append
  -- Qualifiers that are set take the place of what is marked so far.
  | qualifiers qs =>
    unfold marked
    rw [lastSet_concat, addedSince_concat, if_pos (by simp [aspect])]
    rfl
  | _ =>
    unfold marked
    rw [lastSet_concat, addedSince_concat]
    simp [aspect, qualifiers?, qualifier?, onQualifiers]

/-- Calls on qualifiers leave the set that was given last, with those that were added since. -/
theorem foldl_onQualifiers (l : List (Detail C)) : l.foldl onQualifiers none = marked l := by
  induction l using List.reverseRecOn with
  | nil => rfl
  | append_singleton l d ih =>
    rw [List.foldl_append, ih, marked_concat, List.foldl_cons, List.foldl_nil]

end Detail

/-! ## Descriptions -/

namespace Registration

open Detail

/-- Describes a provider by one call. -/
def refine (r : Registration C) : Detail C → Registration C
  | .scope s => r.withScope s
  | .qualifier q => r.withQualifier q
  | .qualifiers qs => r.withQualifiers qs
  | .expose type convert => r.expose type convert
  | .onDestroy dispose => r.withOnDestroy dispose

def describe (r : Registration C) (l : List (Detail C)) : Registration C := l.foldl refine r

/-- A call changes what it describes and nothing else. -/
theorem refine_eq (r : Registration C) (d : Detail C) :
    r.refine d = { r with
      exposures := onExposures r.exposures d
      scope := onScope r.scope d
      qualifiers := onQualifiers r.qualifiers d
      onDestroy := onDisposal r.onDestroy d } := by
  cases d <;> rfl

/-- Each aspect goes its own way. -/
theorem describe_eq (r : Registration C) (l : List (Detail C)) :
    r.describe l = { r with
      exposures := l.foldl onExposures r.exposures
      scope := l.foldl onScope r.scope
      qualifiers := l.foldl onQualifiers r.qualifiers
      onDestroy := l.foldl onDisposal r.onDestroy } := by
  unfold describe
  induction l generalizing r with
  | nil => rfl
  | cons d rest ih => rw [List.foldl_cons, ih, refine_eq]; rfl

/-- Calls on different aspects may be interleaved in any way. -/
theorem describe_congr (r : Registration C) {l l' : List (Detail C)}
    (h : ∀ a, l.filter (·.aspect = a) = l'.filter (·.aspect = a)) :
    r.describe l = r.describe l' := by
  have haspect : ∀ {β : Type} {f : β → Detail C → β} {a : Aspect} (b : β),
      (∀ b d, d.aspect ≠ a → f b d = b) → l.foldl f b = l'.foldl f b := by
    intro β f a b hf
    rw [foldl_aspect hf, foldl_aspect hf l', h a]
  rw [describe_eq, describe_eq, haspect (a := .exposures), haspect (a := .scope),
    haspect (a := .qualifiers), haspect (a := .disposal)]
  all_goals
    intro b d hne
    cases d <;> first | rfl | exact absurd rfl hne

/-- The provider of a type that calls describe. -/
def described (type : TypeKey) (source : Source C) (markers : Markers) (l : List (Detail C)) :
    Definition C :=
  ((ofSource type source markers).describe l).definition

/-- A provider has the scope that was given last, else the one that it declares itself, else that of
the first stereotype with one, and else it is a singleton. If a call is about qualifiers, it carries
the set that was given last and what was added since, and nothing that is declared; else it carries
what it declares itself and what its stereotypes stand for. The disposing code that was given last
runs. So calls on different aspects may be interleaved in any way, stereotypes may be permuted and
repeated as far as qualifiers go, and what was expanded once stays as it is. -/
theorem describe_definition (type : TypeKey) (source : Source C) (markers : Markers)
    (l : List (Detail C)) :
    let d := described type source markers l
    (d.scope = ((l.filterMap scope?).getLast? <|> markers.scope <|>
        markers.stereotypes.findSome? (·.scope)).getD .singleton ∧
      (∀ q, q ∈ d.qualifiers ↔
        if l.any (·.aspect = .qualifiers) then q ∈ lastSet l ∨ q ∈ addedSince l
        else q ∈ markers.qualifiers ∨ ∃ t ∈ markers.stereotypes, q ∈ t.qualifiers) ∧
      d.onDestroy = (l.filterMap disposer?).getLast?) ∧
    (∀ l' : List (Detail C), (∀ a, l'.filter (·.aspect = a) = l.filter (·.aspect = a)) →
      (ofSource type source markers).describe l' = (ofSource type source markers).describe l) ∧
    (∀ stereotypes, (∀ t, t ∈ stereotypes ↔ t ∈ markers.stereotypes) →
      { markers with stereotypes }.expandedQualifiers = markers.expandedQualifiers) ∧
    markers.expanded.expanded = markers.expanded := by
  intro d
  have hd : d = described type source markers l := rfl
  unfold described at hd
  rw [describe_eq] at hd
  refine ⟨⟨?_, fun q => ?_, ?_⟩, fun l' h => describe_congr _ h, fun stereotypes h =>
    Markers.expandedQualifiers_congr rfl h, Markers.expanded_expanded markers⟩
  -- The last scope among the details counts, then that of the markers.
  · have hscope : d.scope = (l.foldl onScope none).getD markers.resolvedScope := by rw [hd]; rfl
    rw [hscope]
    unfold onScope
    rw [foldl_orElse]
    rcases (l.filterMap scope?).getLast? with _ | s <;> rfl
  · have hqualifiers : d.qualifiers =
        (l.foldl onQualifiers none).getD markers.expandedQualifiers := by rw [hd]; rfl
    rw [hqualifiers, foldl_onQualifiers]
    unfold marked
    -- Details about qualifiers overrule the markers altogether.
    split
    · exact Qualifiers.mem_putAll
    · exact Markers.mem_expandedQualifiers
  · have honDestroy : d.onDestroy = l.foldl onDisposal none := by rw [hd]; rfl
    rw [honDestroy]
    unfold onDisposal
    rw [foldl_orElse]
    rcases (l.filterMap disposer?).getLast? with _ | dispose <;> rfl

-- To give no qualifiers is not the same as to say nothing about them.
example (type : TypeKey) (source : Source C) (markers : Markers) :
    (described type source markers [.qualifiers ∅]).qualifiers = ∅ := rfl

end Registration

namespace Sample

open Registration

/-- What is true of every light and of every tool. -/
def stereotypes : List Stereotype :=
  [{ name := "Light", qualifiers := .ofList [.named "bright"], scope := some .prototype },
    { name := "Tool", qualifiers := .ofList [.named "handy"] }]

def markers : Markers := { qualifiers := .ofList [.named "red"], stereotypes }

/-- Calls on the qualifiers, of which only the last two count. -/
def markings : List (Detail Sample) :=
  [.qualifier (.named "old"), .qualifiers ∅, .qualifier (.named "large")]

/-- The calls on the qualifiers between two on the scope, of which the later counts. -/
def interleaved : List (Detail Sample) :=
  .scope .prototype :: markings ++ [.scope .singleton]

/-- The lamp that these calls describe. -/
def describedLamp : Definition Sample := described (.named "Lamp") .component markers interleaved

/-- A lamp that is described as a large singleton is nothing that its markers say. The calls on the
scope may as well come first, and the stereotypes the other way round and twice. -/
theorem lamp_described :
    describedLamp.scope = .singleton ∧
      (∀ q, q ∈ describedLamp.qualifiers ↔ q = .named "large") ∧
      (ofSource (.named "Lamp") (.component : Source Sample) markers).describe
          ([.scope .prototype, .scope .singleton] ++ markings) =
        (ofSource (.named "Lamp") .component markers).describe interleaved ∧
      { markers with stereotypes := stereotypes.reverse ++ stereotypes }.expandedQualifiers =
        markers.expandedQualifiers := by
  obtain ⟨⟨hscope, hqualifiers, -⟩, horder, hstereotypes, -⟩ :=
    describe_definition (.named "Lamp") .component markers interleaved
  refine ⟨hscope, fun q => (hqualifiers q).trans ?_, horder _ fun a => by cases a <;> rfl,
    hstereotypes _ fun t => by simp [markers]⟩
  show q ∈ (∅ : Qualifiers) ∨ q ∈ [Qualifier.named "large"] ↔ q = .named "large"
  simp

end Sample

end Wiring
