import Housewright.Geometry.Offset
import Housewright.Inspection.Roofs
import Housewright.Proofs.Binary64.Equality
import Housewright.Proofs.Steps
import Housewright.Scalar.Binary64

/-!
# What can stop the geometry of roofs

On floating-point numbers the divisors of the geometry are guarded: whatever the coordinates
are, nothing is divided by zero.  What is left is the square in a distance, which may leave the
finite range.

* `exists_meetingPoint`, `Ring.exists_clipEdge`, `FaceRegion.exists_resolve`: lines always meet,
  edges are always cut, and regions are always resolved;
* `Ring.offsetInward_failsOnly`, `Ring.clip_failsOnly`: only a distance that overflows stops the
  offset and the clipping of a ring;
* `MultiPlaneRoof.report_failsOnly`: nor does anything else stop the report on a roof.
-/

namespace Housewright

open Binary64

/-! ## Divisions -/

/-- A divisor that is not below the tolerance does not equal zero. -/
theorem beq_zero_of_not_lt {y : Float} (h : ¬ y < Tolerance.geometry) : (y == 0.0) = false := by
  by_contra hc
  exact h (lt_of_beq_zero (Bool.eq_true_of_not_eq_false hc) (by decide +kernel))

/-- Nor does one whose size is not below the tolerance. -/
theorem beq_zero_of_not_abs_lt {y : Float} (h : ¬ Scalar.abs y < Tolerance.geometry) :
    (y == 0.0) = false := by
  by_contra hc
  have habs : (y.abs == 0.0) = true := abs_beq_zero (Bool.eq_true_of_not_eq_false hc)
  exact h (lt_of_beq_zero habs (by decide +kernel : (0.0 : Float) < Tolerance.geometry))

/-- A divisor that is not within the tolerance does not equal zero. -/
theorem beq_zero_of_not_le {y : Float} (h : ¬ y ≤ Tolerance.geometry) : (y == 0.0) = false :=
  beq_zero_of_not_lt fun hlt => h (le_of_lt hlt)

theorem exists_divide (x : Float) {y : Float} (h : (y == 0.0) = false) :
    ∃ q, Scalar.divide x y = .ok q := by
  rw [Scalar.divide, h]
  exact ⟨x / y, rfl⟩

theorem Vec.exists_divide (v : Vec Float) {d : Float} (h : (d == 0.0) = false) :
    ∃ w, v.divide d = .ok w :=
  exists_bind_eq_ok (Housewright.exists_divide v.x h) fun _ =>
    exists_bind_eq_ok (Housewright.exists_divide v.y h) fun _ => ⟨_, rfl⟩

/-- Every vector can be scaled to length one, or is too short for that. -/
theorem Vec.exists_unit (v : Vec Float) : ∃ w, v.unit = .ok w := by
  unfold Vec.unit
  split_ifs with hshort
  · exact ⟨_, rfl⟩
  · exact v.exists_divide (beq_zero_of_not_lt hshort)

theorem exists_meetingPoint (p : Point Float) (d : Vec Float) (q : Point Float) (e : Vec Float) :
    ∃ m, meetingPoint p d q e = .ok m := by
  unfold meetingPoint
  simp only
  split_ifs with hparallel
  · exact ⟨_, rfl⟩
  · exact exists_bind_eq_ok (exists_divide _ (beq_zero_of_not_abs_lt hparallel)) fun _ => ⟨_, rfl⟩

theorem exists_segmentMeetsLine? (p q a b : Point Float) :
    ∃ m, segmentMeetsLine? p q a b = .ok m := by
  unfold segmentMeetsLine?
  simp only
  split_ifs with hparallel
  · exact ⟨_, rfl⟩
  · refine exists_bind_eq_ok (exists_divide _ (beq_zero_of_not_abs_lt hparallel)) fun t => ?_
    split_ifs
    · exact ⟨_, rfl⟩
    · exact ⟨_, rfl⟩

/-- **Every edge can be cut** by every half-plane. -/
theorem Ring.exists_clipEdge (h : HalfPlane Float) (eps : Float) (p q : Point Float) :
    ∃ points, Ring.clipEdge h eps p q = .ok points := by
  unfold Ring.clipEdge
  cases h.keeps eps p <;> cases h.keeps eps q
  · exact ⟨_, rfl⟩
  · exact exists_bind_eq_ok (exists_segmentMeetsLine? p q h.a h.b) fun _ => ⟨_, rfl⟩
  · exact exists_bind_eq_ok (exists_segmentMeetsLine? p q h.a h.b) fun _ => ⟨_, rfl⟩
  · exact ⟨_, rfl⟩

/-! ## Regions -/

theorem Ridge.exists_perpCut (r : Ridge Float) (t : Float) (keep : CutSide) :
    ∃ plane, r.perpCut t keep = .ok plane := by
  have hunit : ∃ u, r.unitDirection = .ok u := by
    refine Vec.exists_divide _ ?_
    by_cases hzero : (r.direction.length == 0.0) = true
    · rw [if_pos hzero]
      decide +kernel
    · rw [if_neg hzero]
      exact Bool.eq_false_of_not_eq_true hzero
  exact exists_bind_eq_ok hunit fun _ => ⟨_, rfl⟩

theorem RegionItem.exists_resolve (roof : MultiPlaneRoof Float) (item : RegionItem Float) :
    ∃ plane, item.resolve roof = .ok plane := by
  cases item with
  | explicit plane => exact ⟨_, rfl⟩
  | materialized plane ridgeId => exact ⟨_, rfl⟩
  | divider ridgeId keep => exact ⟨_, rfl⟩
  | perpCut ridgeId t keep =>
    simp only [RegionItem.resolve]
    cases roof.ridge? ridgeId with
    | none => exact ⟨none, rfl⟩
    | some r => exact exists_bind_eq_ok (r.exists_perpCut t keep) fun plane => ⟨some plane, rfl⟩

theorem exists_resolveItems (roof : MultiPlaneRoof Float) (items : List (RegionItem Float)) :
    ∃ planes, resolveItems roof items = .ok planes := by
  induction items with
  | nil => exact ⟨_, rfl⟩
  | cons item rest ih =>
    refine exists_bind_eq_ok (item.exists_resolve roof) fun plane => ?_
    cases plane with
    | none => exact ⟨_, rfl⟩
    | some plane => exact exists_bind_eq_ok ih fun _ => ⟨_, rfl⟩

/-- **Every region is resolved**, if only to nothing. -/
theorem FaceRegion.exists_resolve (roof : MultiPlaneRoof Float) (region : FaceRegion Float) :
    ∃ planes, region.resolve roof = .ok planes := by
  cases region with
  | halfPlanes planes => exact ⟨_, rfl⟩
  | ridgeCap ridgeId cap => exact ⟨_, rfl⟩
  | compound items => exact exists_resolveItems roof items

/-! ## Distances -/

/-- Only a square that is too large stops a computation. -/
abbrev OnlyOverflow {β : Type} (c : Computed β) : Prop := FailsOnly (· = .overflow) c

theorem Scalar.square_failsOnly (x : Float) : OnlyOverflow (Scalar.square x) := by
  unfold Scalar.square
  simp only
  split_ifs
  · exact .error rfl
  · exact .ok _

theorem Point.distance_failsOnly (p q : Point Float) : OnlyOverflow (p.distance q) :=
  .bind (Scalar.square_failsOnly _) fun _ => .bind (Scalar.square_failsOnly _) fun _ => .pure _

/-! ## Rings -/

namespace Ring

theorem keepDistant_failsOnly (eps : Float) (last : Point Float) (points : List (Point Float)) :
    OnlyOverflow (keepDistant eps last points) := by
  induction points generalizing last with
  | nil => exact .ok _
  | cons p rest ih =>
    refine .bind (last.distance_failsOnly p) fun d => ?_
    split_ifs
    · exact .bind (ih p) fun _ => .pure _
    · exact ih last

theorem withoutRepeats_failsOnly (eps : Float) (r : Ring Float) :
    OnlyOverflow (withoutRepeats eps r) := by
  cases r with
  | nil => exact .ok _
  | cons p rest =>
    refine .bind (keepDistant_failsOnly eps p rest) fun kept => ?_
    cases kept.getLast? with
    | none => exact .pure _
    | some last =>
      refine .bind (p.distance_failsOnly last) fun d => ?_
      split_ifs
      · exact .pure _
      · exact .pure _

theorem offsetCorner_failsOnly (inward : Vec Float → Vec Float) (distance : Float)
    (c : Corner Float) : OnlyOverflow (offsetCorner inward distance c) := by
  refine .bind (.of_exists (Vec.exists_unit _)) fun e => ?_
  refine .bind (.of_exists (Vec.exists_unit _)) fun f => ?_
  split_ifs
  · exact .pure _
  · exact .pure _
  · refine .bind (.of_exists (exists_meetingPoint _ e _ f)) fun mitre => ?_
    refine .bind (mitre.distance_failsOnly _) fun d => ?_
    split_ifs
    · exact .pure _
    · exact .pure _

/-- **Only an overflow stops the offset** of a ring. -/
theorem offsetInward_failsOnly (r : Ring Float) (distance : Float) :
    OnlyOverflow (r.offsetInward distance) := by
  unfold offsetInward
  split_ifs
  · exact .ok _
  · have hpoints : OnlyOverflow (r.offsetPoints distance) :=
      .bind (.mapM fun c _ => offsetCorner_failsOnly _ distance c) fun _ => .pure _
    exact .bind hpoints fun points => withoutRepeats_failsOnly _ points

/-- **Only an overflow stops the clipping** of a ring. -/
theorem clip_failsOnly (r : Ring Float) (h : HalfPlane Float) (eps : Float) :
    OnlyOverflow (r.clip h eps) := by
  refine .bind (.mapM fun e _ => .of_exists (exists_clipEdge h eps e.1 e.2)) fun points => ?_
  dsimp only
  split_ifs
  · exact .pure _
  · exact withoutRepeats_failsOnly eps _

end Ring

/-! ## Reports -/

theorem clipWhileArea_failsOnly (r : Ring Float) (planes : List (HalfPlane Float)) :
    OnlyOverflow (clipWhileArea r planes) := by
  induction planes generalizing r with
  | nil => exact .ok _
  | cons plane rest ih =>
    refine .bind (r.clip_failsOnly plane _) fun clipped => ?_
    split_ifs
    · exact .pure _
    · exact ih clipped

theorem RoofFace.invalidRest?_failsOnly (roof : MultiPlaneRoof Float) (f : RoofFace Float) :
    OnlyOverflow (f.invalidRest? roof) := by
  unfold RoofFace.invalidRest?
  split
  · exact .pure _
  · refine .bind (.of_exists (FaceRegion.exists_resolve roof _)) fun planes => ?_
    cases planes with
    | none => exact .pure _
    | some planes => exact .bind (clipWhileArea_failsOnly _ planes) fun _ => .pure _

theorem inspectRidges_failsOnly (earlier : List String) (ridges : List (Ridge Float)) :
    OnlyOverflow (inspectRidges earlier ridges) := by
  induction ridges generalizing earlier with
  | nil => exact .ok _
  | cons r rest ih =>
    have hridge : OnlyOverflow (r.inspect earlier) :=
      .bind (r.start.distance_failsOnly r.finish) fun _ => .pure _
    exact .bind hridge fun _ => .bind (ih _) fun _ => .pure _

/-- **Only an overflow stops the report** on a multi-plane roof. -/
theorem MultiPlaneRoof.report_failsOnly (roof : MultiPlaneRoof Float) :
    OnlyOverflow roof.report := by
  refine .bind (inspectRidges_failsOnly [] roof.ridges) fun ridges => ?_
  have hfaces : OnlyOverflow (inspectFaces roof) :=
    .mapM fun f _ => .bind (f.invalidRest?_failsOnly roof) fun _ => .pure _
  exact .bind hfaces fun faces => .pure _

end Housewright
