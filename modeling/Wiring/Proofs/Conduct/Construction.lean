import Wiring.Proofs.Conduct.Configuration

/-!
# Courses of construction

What a component names is resolved before its construction has gone well, and stays so.
-/

namespace Wiring.Host

variable {C : Client} {D : Outline} {h : Host C} {w : World C} {c : ContainerId}

/-- A dependency that resolves has met its container: the lookup has found its provider there. -/
theorem resolve_follows (hl : h.Lawful D) (c : ContainerId) (member : String) (d : Dependency)
    (w : World C) :
    Attempt.Follows D (resolve h c member d) w (fun _ v => v.Met c d) (fun _ _ => True) := by
  unfold resolve
  rcases hwant : d.want with type | _ | type
  · refine .bind ((hl.perform (.get c type d.qualifiers) w).mono fun r v hr => ?_)
    rcases r with e | x
    · exact True.intro
    · refine .pure fun t ht hne => ?_
      obtain rfl : type = t := Want.object.inj (hwant.symm.trans ht)
      -- A call that is answered with a value says whose value it is.
      rcases hr x rfl with hcontainer | ⟨c', p, t, ⟨rfl, _, _, hscan⟩, y, earlier, hmades, _⟩
      · exact absurd hcontainer hne
      · exact ⟨p, hscan, by rw [hmades]; exact List.cons_ne_nil _ _⟩
  · refine .pure fun t ht _ => ?_
    rw [hwant] at ht
    cases ht
  · refine .bind ((hl.perform (.select c type d.qualifiers) w).mono fun r v _ => ?_)
    rcases r with e | x
    · exact True.intro
    · refine .pure fun t ht _ => ?_
      rw [hwant] at ht
      cases ht

/-- When all resolve, each of them has met its container; by induction on the list, as what is met
stays met. -/
theorem resolveAll_follows (hl : h.Lawful D) (l : List (String × Dependency))
    (hphase : (w.container c).phase ≠ .unconfigured) :
    Attempt.Follows D (resolveAll h c l) w (fun _ v => ∀ member d, (member, d) ∈ l → v.Met c d)
      (fun _ _ => True) := by
  induction l generalizing w with
  | nil => exact .pure fun member d hd => absurd hd List.not_mem_nil
  | cons e rest ih =>
    obtain ⟨member, d⟩ := e
    refine .bind ((resolve_follows hl c member d w).framed.mono ?_ fun _ _ h => h)
    rintro i u ⟨hwu, hd⟩
    have hphase' := (hwu.container c).phase.ne_unconfigured hphase
    -- What the first entry needs goes on being there while the others are resolved.
    refine .bind ((ih hphase').framed.mono ?_ fun _ _ h => h)
    rintro is v ⟨huv, hrest⟩
    refine .pure fun member' d' hd' => ?_
    rcases List.mem_cons.1 hd' with heq | hd'
    · cases heq
      exact hd.later hphase' huv
    · exact hrest member' d' hd'

/-- What a point needs was there if its injection went well. -/
theorem injectPoint_follows (hl : h.Lawful D) (type : TypeKey) (p : Point) (o : C.Object)
    (hphase : (w.container c).phase ≠ .unconfigured) :
    Machine.Follows D (injectPoint h c type p o) w fun r v =>
      r.2 = .ok () → ∀ member d, (member, d) ∈ p.resolutions type.name → v.Met c d := by
  unfold injectPoint
  have hall := (resolveAll_follows hl (p.resolutions type.name) hphase).framed
  refine .bind (Attempt.Follows.run (hall.mono ?_ fun _ _ _ => ?_))
  · rintro values u ⟨hwu, hmet⟩
    have hphase' := (hwu.container c).phase.ne_unconfigured hphase
    refine .bind (.quiet (.invoked u _) (.bind ((run_follows hl _ _).framed.mono ?_)))
    rintro ⟨o', r⟩ v ⟨huv, _⟩
    exact .pure fun _ member d hd =>
      (hmet member d hd).later hphase' ((World.Frame.enter u _).trans huv)
  · exact .pure fun h => by cases h

/-- When every point is satisfied, so is every dependency of every point. -/
theorem injectPoints_follows (hl : h.Lawful D) (type : TypeKey) (l : List Point) (o : C.Object)
    (hphase : (w.container c).phase ≠ .unconfigured) :
    Machine.Follows D (injectPoints h c type l o) w fun r v =>
      r.2 = .ok () →
        ∀ member d, (member, d) ∈ l.flatMap (Point.resolutions type.name) → v.Met c d := by
  induction l generalizing w o with
  | nil => exact .pure fun _ member d hd => absurd hd List.not_mem_nil
  | cons p rest ih =>
    unfold injectPoints
    refine .bind ((injectPoint_follows hl type p o hphase).framed.mono ?_)
    rintro ⟨o', e | _⟩ u ⟨hwu, hmet⟩
    · exact .pure fun h => by cases h
    · have hphase' := (hwu.container c).phase.ne_unconfigured hphase
      refine (ih o' hphase').framed.mono ?_
      rintro r v ⟨huv, hrest⟩ hr member d hd
      rw [List.flatMap_cons, List.mem_append] at hd
      rcases hd with hd | hd
      · exact (hmet rfl member d hd).later hphase' huv
      · exact hrest hr member d hd

/-- Injection into an object reads its points from its type and satisfies them all. -/
theorem injectObject_follows (hl : h.Lawful D) (type : TypeKey) (o : C.Object)
    (hphase : (w.container c).phase ≠ .unconfigured) :
    Machine.Follows D (injectObject h c type o) w fun r v =>
      r.2 = .ok () → ∃ points, D.points type points ∧
        ∀ member d, (member, d) ∈ points.injectionOrder.flatMap (Point.resolutions type.name) →
          v.Met c d := by
  unfold injectObject
  refine .bind ((points_follows hl type w).framed.mono ?_)
  rintro points u ⟨hwu, hpoints⟩
  have hphase' := (hwu.container c).phase.ne_unconfigured hphase
  have hreport : Quiet u (u.enter (.event c (.injecting type points.toList.length))) :=
    .remark u c True.intro
  refine .bind (.quiet hreport ?_)
  refine (injectPoints_follows (w := u.enter _) hl type points.injectionOrder o hphase').mono ?_
  exact fun r v hmet hr => ⟨points, hpoints, hmet hr⟩

/-- Hooks are run for their effect; nothing beyond the invariant is claimed of them. -/
theorem runHooks_follows (hl : h.Lawful D) (type : TypeKey) (o : C.Object)
    (l : List (Hook C.Object (Routine C Unit))) (w : World C) :
    Attempt.Follows D (runHooks h type o l) w (fun _ _ => True) (fun _ _ => True) := by
  induction l generalizing w with
  | nil => exact .pure True.intro
  | cons hook rest ih =>
    exact .bind ((invoke_follows hl _ _ w).mono (fun _ v _ => ih v) fun _ _ h => h)

theorem postConstruct_follows (hl : h.Lawful D) (type : TypeKey) (o : C.Object) (w : World C) :
    Attempt.Follows D (postConstruct h type o) w (fun _ _ => True) (fun _ _ => True) :=
  .bind (.step ((run_follows hl _ w).mono fun _ v _ => runHooks_follows hl type o _ v))

theorem preDestroy_follows (hl : h.Lawful D) (type : TypeKey) (o : C.Object) (w : World C) :
    Attempt.Follows D (preDestroy h type o) w (fun _ _ => True) (fun _ _ => True) :=
  .bind (.step ((run_follows hl _ w).mono fun _ v _ => runHooks_follows hl type o _ v))

/-- A component that was built found everything that it named. -/
theorem build_follows (hl : h.Lawful D) (type : TypeKey)
    (hphase : (w.container c).phase ≠ .unconfigured) :
    Attempt.Follows D (build h c type) w (fun _ v => ∃ constructor points,
      D.constructor type constructor ∧ D.points type points ∧
      ∀ member d, (member, d) ∈ points.resolutions type.name constructor → v.Met c d)
      (fun _ _ => True) := by
  unfold build
  refine .bind (.step ((constructor_follows hl type w).framed.mono ?_))
  rintro constructor w₁ ⟨hframe, hconstructor⟩
  have hphase₁ := (hframe.container c).phase.ne_unconfigured hphase
  refine .bind ((resolveAll_follows hl _ hphase₁).framed.mono ?_ fun _ _ h => h)
  rintro values w₂ ⟨hframe, hparameters⟩
  have hphase₂ := (hframe.container c).phase.ne_unconfigured hphase₁
  refine .bind ((invoke_follows hl _ _ w₂).framed.mono ?_ fun _ _ h => h)
  rintro o w₃ ⟨hframe₃, _⟩
  have hphase₃ := (hframe₃.container c).phase.ne_unconfigured hphase₂
  refine .bind (.step ((injectObject_follows hl type o hphase₃).framed.mono ?_))
  rintro ⟨o', injected⟩ w₄ ⟨hframe₄, hinjected⟩
  have hphase₄ := (hframe₄.container c).phase.ne_unconfigured hphase₃
  refine .bind (.settle (fun _ hr => ?_) fun _ _ => True.intro)
  obtain ⟨points, hpoints, hmet⟩ := hinjected hr
  refine .bind ((postConstruct_follows hl type o' w₄).framed.mono ?_ fun _ _ h => h)
  rintro _ v ⟨hframe₅, _⟩
  -- What was resolved at each stage is carried through the stages after it.
  refine .pure ⟨constructor, points, hconstructor, hpoints, fun member d hd => ?_⟩
  rcases List.mem_append.1 hd with hd | hd
  · exact (hparameters member d hd).later hphase₂ ((hframe₃.trans hframe₄).trans hframe₅)
  · exact (hmet member d hd).later hphase₄ hframe₅

/-- A source that answers has met what the definition depends on. -/
theorem makeBySource_follows (hl : h.Lawful D) (p : Provider C)
    (hphase : (w.container c).phase ≠ .unconfigured) :
    Attempt.Follows D (makeBySource h c p.definition) w (fun _ v => v.Supplied D c p)
      (fun _ _ => True) := by
  unfold makeBySource World.Supplied Definition.isComponent
  rcases p.definition.source with v | ⟨produce, dispose⟩ | _
  · exact .pure fun h => by cases h
  · exact (invoke_follows hl _ _ w).mono (fun _ _ _ h => by cases h) fun _ _ h => h
  · exact (build_follows hl _ hphase).mono (fun _ _ hmet _ => hmet) fun _ _ h => h

end Wiring.Host
