import Housewright.Proofs.Roof.DividerSync

/-!
# Roofs that were not edited

A roof is compared with itself when nothing was edited, and every ridge in it with the first ridge
of the same id.  So a ridge seems to have moved if another one with its id stands before it, or if
an end of it is not a number.

* `MultiPlaneRoof.planSync_self_iff` : when a plan for an unedited roof has nothing to do;
* `MultiPlaneRoof.plansNothing_of_nodup` : distinct ids and coordinates that are numbers suffice;
* `MultiPlaneRoof.doubled_patched` : of two ridges with one id the second takes a divider away
  from the first, although nothing was edited.
-/

namespace Housewright

variable {α : Type}

/-- One plan after another has nothing to do if neither has. -/
theorem SyncPlan.append_eq_empty_iff {p q : SyncPlan α} :
    p.append q = .empty ↔ p = .empty ∧ q = .empty := by
  obtain ⟨patches, lost⟩ := p
  obtain ⟨patches', lost'⟩ := q
  simp only [append, empty, mk.injEq, List.append_eq_nil_iff]
  tauto

theorem Ridge.patches_eq_nil_iff {faces : List (RoofFace α)} {r : Ridge α} :
    r.patches faces = [] ↔ ∀ f ∈ faces, f.followers r.id = [] := by
  simp [Ridge.patches]

section Planning

variable [Scalar α]

/-- Nothing is to be done about some ridges if there is nothing to do about any. -/
theorem syncRidges_eq_empty_iff {before after : MultiPlaneRoof α} {ridges : List (Ridge α)} :
    syncRidges before after ridges = .ok .empty ↔
      ∀ r ∈ ridges, r.sync (before.ridge? r.id) after.faces = .ok .empty := by
  induction ridges with
  | nil => exact iff_of_true rfl nofun
  | cons r rest ih =>
    simp only [syncRidges, bind_eq_ok, pure_eq_ok, SyncPlan.append_eq_empty_iff,
      List.forall_mem_cons, ← ih]
    constructor
    · rintro ⟨_, hfirst, _, hothers, rfl, rfl⟩
      exact ⟨hfirst, hothers⟩
    · rintro ⟨hfirst, hothers⟩
      exact ⟨_, hfirst, _, hothers, rfl, rfl⟩

/-- Nothing is to be done about a ridge that stands where the ridge it is compared with stood, or
that no divider follows. -/
theorem Ridge.sync_eq_empty_iff {first r : Ridge α} {faces : List (RoofFace α)} :
    r.sync (some first) faces = .ok .empty ↔
      ((first.start == r.start) = true ∧ (first.finish == r.finish) = true) ∨
      ((∃ length, r.length = .ok length ∧ ¬ length ≤ Tolerance.geometry) ∧
        ∀ f ∈ faces, f.followers r.id = []) := by
  rw [Ridge.sync, Option.any_some, ← Ridge.movedFrom_eq_false_iff]
  cases hmoved : first.movedFrom r with
  | false => exact iff_of_true rfl (.inl rfl)
  | true =>
    simp only [if_true, bind_eq_ok, reduceCtorEq, false_or]
    constructor
    · rintro ⟨length, hlength, h⟩
      split at h
      · cases pure_eq_ok.1 h
      next hlong =>
        have hpatches : r.patches faces = [] := congrArg SyncPlan.patches (pure_eq_ok.1 h)
        exact ⟨⟨length, hlength, hlong⟩, Ridge.patches_eq_nil_iff.1 hpatches⟩
    · rintro ⟨⟨length, hlength, hlong⟩, hnone⟩
      refine ⟨length, hlength, ?_⟩
      rw [if_neg hlong, Ridge.patches_eq_nil_iff.2 hnone]
      rfl

namespace MultiPlaneRoof

/-- Every ridge stands where the first ridge with its id does, or is longer than the tolerance
and followed by no divider. -/
def PlansNothing (roof : MultiPlaneRoof α) : Prop :=
  ∀ r ∈ roof.ridges, ∀ first, roof.ridge? r.id = some first →
    ((first.start == r.start) = true ∧ (first.finish == r.finish) = true) ∨
    ((∃ length, r.length = .ok length ∧ ¬ length ≤ Tolerance.geometry) ∧
      ∀ f ∈ roof.faces, f.followers r.id = [])

/-- **No edit**: when there is nothing to do for a roof that is compared with itself. -/
theorem planSync_self_iff {roof : MultiPlaneRoof α} :
    roof.planSync roof = .ok .empty ↔ roof.PlansNothing := by
  rw [planSync, syncRidges_eq_empty_iff, PlansNothing]
  refine forall₂_congr fun r hr => ?_
  obtain ⟨first, hfirst⟩ := exists_ridge?_of_mem hr
  rw [hfirst, Ridge.sync_eq_empty_iff]
  simp

end MultiPlaneRoof

end Planning

namespace MultiPlaneRoof

/-- The ends of all ridges have numbers as coordinates. -/
def EndsAreNumbers (roof : MultiPlaneRoof Float) : Prop :=
  ∀ r ∈ roof.ridges, ∀ p ∈ [r.start, r.finish], p.x.isNaN = false ∧ p.y.isNaN = false

instance (roof : MultiPlaneRoof Float) : Decidable roof.EndsAreNumbers :=
  inferInstanceAs (Decidable (∀ r ∈ roof.ridges, ∀ p ∈ [r.start, r.finish], _ ∧ _))

/-- A ridge that is the only one with its id stands where it stands. -/
theorem plansNothing_of_nodup {roof : MultiPlaneRoof Float}
    (hids : (roof.ridges.map (·.id)).Nodup) (hends : roof.EndsAreNumbers) :
    roof.PlansNothing := by
  intro r hr first hfirst
  obtain rfl : r = first := by
    rw [(ridge?_eq_some_iff hids).2 ⟨hr, rfl⟩] at hfirst
    exact Option.some.inj hfirst
  obtain ⟨hstart, hfinish⟩ : (r.start.x.isNaN = false ∧ r.start.y.isNaN = false) ∧
      r.finish.x.isNaN = false ∧ r.finish.y.isNaN = false := by
    simpa using hends r hr
  exact .inl ⟨Point.beq_self hstart.1 hstart.2, Point.beq_self hfinish.1 hfinish.2⟩

/-- A roof with two ridges of one id, one behind the other.  Its only face is bounded by the
divider of the first. -/
def doubled : MultiPlaneRoof Float where
  id := "roof"
  baseLevelId := "ground"
  eaveHeight := 0.0
  thickness := 0.2
  overhang := 0.0
  ridges :=
    [⟨"main", ⟨0.0, 0.0⟩, ⟨4.0, 0.0⟩, 3.0, false, false⟩,
      ⟨"main", ⟨0.0, 2.0⟩, ⟨4.0, 2.0⟩, 3.0, false, false⟩]
  faces :=
    [⟨"north", .ridgeSide, some "main", some 0.1, some 0.9, none, none, none, none, none,
      .compound [.materialized ⟨⟨0.0, 0.0⟩, ⟨4.0, 0.0⟩, .left⟩ (some "main")]⟩]

/-- **A divider that was healthy is patched without any edit**: it lay on the ridge that has its
id, and it does not once the plan is carried out. -/
theorem doubled_patched : doubled.EndsAreNumbers ∧ doubled.InSync ∧
    ∃ plan, doubled.planSync doubled = .ok plan ∧ plan.patches.length = 1 ∧
      ¬ (plan.applyTo doubled).InSync := by
  refine ⟨by decide +kernel, by decide +kernel, ?_⟩
  have hplan : (doubled.planSync doubled).toOption.any (fun plan =>
      plan.patches.length == 1 && !decide (plan.applyTo doubled).InSync) = true := by
    decide +kernel
  obtain ⟨plan, hplan, hcheck⟩ := exists_eq_ok_of_any hplan
  obtain ⟨hone, hstale⟩ := Bool.and_eq_true_iff.1 hcheck
  exact ⟨plan, hplan, beq_iff_eq.1 hone, by simpa using hstale⟩

end MultiPlaneRoof

end Housewright
