import Housewright.Planar.Binary64
import Housewright.Proofs.Construction.RoofReports
import Housewright.Proofs.Geometry.Overflow

/-!
# What stops a roof

A roof is stopped by what is wrong with its description, or by a computation on coordinates.  The
computations of the kernel aside, the only one of these is a square that is too large: every divisor
is guarded.  So whatever failures a kernel is known for, a roof has no others but overflows.

* `AreaKernel.StopsOnly`: a kernel all of whose failures are of one kind, and
  `AreaKernel.binary64_stopsOnly` for the one that programs run on;
* `RoofError.CausedBy`: the kind of failure behind an error of a roof;
* `GableSlopes.exists_heightAt`, `SplitSlope.exists_heightAt`: there is a height over every point;
* `House.buildRoof_causedBy`: what stops a roof of any kind;
* `House.buildReported_stopsOnly`: what is left of that when faults of the roof are reported.
-/

namespace Housewright

open Binary64

/-! ## Kernels -/

/-- A kernel all of whose failures are of one kind. -/
structure AreaKernel.StopsOnly {α : Type} (P : GeometryError → Prop) (kernel : AreaKernel α) :
    Prop where
  repair : ∀ r, FailsOnly P (kernel.repair r)
  difference : ∀ base cutter, FailsOnly P (kernel.difference base cutter)
  triangles : ∀ r, FailsOnly P (kernel.triangles r)

theorem AreaKernel.StopsOnly.mono {α : Type} {P Q : GeometryError → Prop} {kernel : AreaKernel α}
    (h : kernel.StopsOnly P) (hPQ : ∀ e, P e → Q e) : kernel.StopsOnly Q where
  repair r := (h.repair r).mono hPQ
  difference base cutter := (h.difference base cutter).mono hPQ
  triangles r := (h.triangles r).mono hPQ

/-- A failure of an operation that has no result for some of its arguments: a division by zero, an
index that is out of range, the extent of no points. -/
def GeometryError.isPartial : GeometryError → Bool
  | zeroDivision | indexOutOfRange | noPoints => true
  | _ => false

/-- A failure over a shape that is no area, or not one area. -/
def GeometryError.NoArea (e : GeometryError) : Prop := e.concernsShape = true ∧ e.isPartial = false

theorem Ring.enclosing_failsOnly (r : Ring Float) : FailsOnly GeometryError.NoArea r.enclosing := by
  unfold Ring.enclosing
  split_ifs
  · exact .error ⟨rfl, rfl⟩
  · cases r.exactVertices? with
    | none => exact .error ⟨rfl, rfl⟩
    | some e => exact .ok e

/-- The kernel that programs run on fails over shapes that are no area, or not one area. -/
theorem AreaKernel.binary64_stopsOnly : AreaKernel.binary64.StopsOnly GeometryError.NoArea where
  repair r := by
    show FailsOnly _ r.repair
    unfold Ring.repair
    split_ifs
    · exact .error ⟨rfl, rfl⟩
    · exact .ok r
    · split
      · exact .ok _
      · exact .error ⟨rfl, rfl⟩
  difference base cutter :=
    .bind base.enclosing_failsOnly fun _ => .bind cutter.enclosing_failsOnly fun _ => .pure _
  triangles r := by
    refine .bind r.enclosing_failsOnly fun exact => ?_
    cases exact.ears with
    | none => exact .error ⟨rfl, rfl⟩
    | some triangles => exact .pure _

/-! ## Errors of roofs -/

/-- The error says something about the roof, or its cause is of the given kind. -/
def RoofError.CausedBy (P : GeometryError → Prop) : RoofError → Prop
  | degenerateOutline _ cause => P cause
  | geometry cause => P cause
  | baseLevelMissing _ _ | zeroLengthRidge _ | noRidges _ => True

section Causes

variable {P : GeometryError → Prop}

theorem RoofError.causedBy_outlineError {e : GeometryError} (h : P e) (levelId : String) :
    (outlineError levelId e).CausedBy P := by
  unfold outlineError
  split
  · exact h
  · split_ifs
    · exact h
    · exact h

theorem Computed.forRoof_failsOnly {β : Type} {c : Computed β} (h : FailsOnly P c) :
    FailsOnly (RoofError.CausedBy P) c.forRoof :=
  h.mapError fun _ he => he

/-- What only an overflow stops is stopped by nothing but the given failures. -/
theorem failsOnly_of_overflow {β : Type} {c : Computed β} (hover : P .overflow)
    (h : OnlyOverflow c) : FailsOnly P c :=
  h.mono fun _ he => he ▸ hover

theorem House.baseLevel_failsOnly (h : House Float) (roof : Roof Float) :
    FailsOnly (RoofError.CausedBy P) (h.baseLevel roof) := by
  unfold House.baseLevel
  cases h.level? roof.baseLevelId with
  | none => exact .error trivial
  | some l => exact .ok l

/-! ## Heights, slopes and faces -/

/-- There is a height over every point: how far a side reaches is divided by only above the
tolerance. -/
theorem GableSlopes.exists_heightAt (g : GableSlopes Float) (p : Point Float) :
    ∃ z, g.heightAt p = .ok z := by
  unfold GableSlopes.heightAt
  simp only
  split_ifs with hside hreach hreach
  · exact ⟨_, rfl⟩
  · exact exists_bind_eq_ok (exists_divide _ (beq_zero_of_not_le hreach)) fun _ => ⟨_, rfl⟩
  · exact ⟨_, rfl⟩
  · exact exists_bind_eq_ok (exists_divide _ (beq_zero_of_not_le hreach)) fun _ => ⟨_, rfl⟩

theorem SplitSlope.exists_heightAt (s : SplitSlope Float) (p : Point Float) :
    ∃ z, s.heightAt p = .ok z := by
  unfold SplitSlope.heightAt
  split_ifs with hreach
  · exact ⟨_, rfl⟩
  · exact exists_bind_eq_ok (exists_divide _ (beq_zero_of_not_le hreach)) fun _ => ⟨_, rfl⟩

/-- Slopes fail only for a ridge without length, so that its direction can be scaled. -/
theorem GableRoof.slopes_failsOnly (r : GableRoof Float) (base : Float) (outline : Ring Float) :
    FailsOnly (RoofError.CausedBy P) (r.slopes base outline) := by
  unfold GableRoof.slopes
  simp only
  split_ifs with hlength
  · show FailsOnly (RoofError.CausedBy P) (.error (.zeroLengthRidge r.id))
    exact .error trivial
  · refine .bind (.of_exists ?_) fun along => .pure _
    obtain ⟨along, halong⟩ := r.ridge.direction.exists_divide (beq_zero_of_not_le hlength)
    exact ⟨along, Computed.forRoof_eq_ok.2 halong⟩

/-- Every face is resolved, if only to nothing. -/
theorem RoofFace.exists_resolve (roof : MultiPlaneRoof Float) (f : RoofFace Float) :
    ∃ face, f.resolve roof = .ok face := by
  unfold RoofFace.resolve
  split
  · exact ⟨_, rfl⟩
  · refine exists_bind_eq_ok (FaceRegion.exists_resolve roof _) fun planes => ?_
    cases planes with
    | none => exact ⟨_, rfl⟩
    | some planes => exact ⟨_, rfl⟩

/-! ## The four kinds of roof -/

variable {kernel : AreaKernel Float} (hover : P .overflow) (hkernel : kernel.StopsOnly P)

include hkernel

/-- A plate fails only when its ring cannot be triangulated, if there is a height everywhere. -/
theorem buildPlate_failsOnly (ring : Ring Float) {heightAt : Point Float → Computed Float}
    (hheight : ∀ p, ∃ z, heightAt p = .ok z) (thickness : Float)
    (isOpen : Point Float → Point Float → Bool) :
    FailsOnly P (buildPlate kernel ring heightAt thickness isOpen) := by
  have htriangles (r : Ring Float) : FailsOnly P (r.triangulate kernel) := by
    unfold Ring.triangulate
    split_ifs
    · exact .ok _
    · exact .bind (hkernel.triangles r) fun _ => .pure _
  refine .bind (.mapM fun p _ => ?_) fun top => ?_
  · exact .bind (.of_exists (hheight p)) fun _ => .pure _
  · exact .bind (htriangles _) fun _ => .pure _

include hover

theorem Level.roofOutline_failsOnly (l : Level Float) (overhang : Float) :
    FailsOnly (RoofError.CausedBy P) (l.roofOutline kernel overhang) := by
  have hgrown : FailsOnly P (l.footprint.outer.offsetInward (-overhang) >>= kernel.repair) :=
    .bind (failsOnly_of_overflow hover (Ring.offsetInward_failsOnly _ _)) hkernel.repair
  exact hgrown.mapError fun e he => RoofError.causedBy_outlineError he l.id

theorem House.buildFlatRoof_failsOnly (h : House Float) (r : FlatRoof Float) :
    FailsOnly (RoofError.CausedBy P) (h.buildFlatRoof kernel r) := by
  refine .bind (h.baseLevel_failsOnly _) fun level => ?_
  refine .bind (level.roofOutline_failsOnly hover hkernel _) fun outline => ?_
  cases h.sparedOutline? r with
  | none => exact .bind (.pure _) fun _ => .pure _
  | some above =>
    have hspared : FailsOnly P (kernel.repair above >>= kernel.difference outline) :=
      .bind (hkernel.repair above) (hkernel.difference outline)
    exact .bind (Computed.forRoof_failsOnly hspared) fun _ => .pure _

theorem GableSlopes.buildSide_failsOnly (g : GableSlopes Float) (outline : Ring Float)
    (thickness : Float) (keep : Side) :
    FailsOnly P (g.buildSide kernel outline thickness keep) := by
  refine .bind (failsOnly_of_overflow hover (outline.clip_failsOnly _ _)) fun half => ?_
  split_ifs
  · exact .bind (buildPlate_failsOnly hkernel half g.exists_heightAt _ _) fun _ => .pure _
  · exact .pure _

theorem House.buildGableRoof_failsOnly (h : House Float) (r : GableRoof Float) :
    FailsOnly (RoofError.CausedBy P) (h.buildGableRoof kernel r) := by
  refine .bind (h.baseLevel_failsOnly _) fun level => ?_
  refine .bind (level.roofOutline_failsOnly hover hkernel _) fun outline => ?_
  refine .bind (r.slopes_failsOnly _ outline) fun slopes => ?_
  have hside (keep : Side) := slopes.buildSide_failsOnly hover hkernel outline r.thickness keep
  refine .bind (Computed.forRoof_failsOnly (hside .left)) fun left => ?_
  exact .bind (Computed.forRoof_failsOnly (hside .right)) fun right => .pure _

theorem MultiRidgeRoof.buildHalf_failsOnly (r : MultiRidgeRoof Float) (ridge : Ridge Float)
    (base : Float) (outline : Ring Float) (keep : Side) :
    FailsOnly P (r.buildHalf kernel ridge base outline keep) := by
  refine .bind (failsOnly_of_overflow hover (outline.clip_failsOnly _ _)) fun half => ?_
  split_ifs
  · exact .pure _
  · have hplate (s : SplitSlope Float) :=
      buildPlate_failsOnly hkernel half s.exists_heightAt r.thickness fun _ _ => false
    exact .bind (hplate _) fun _ => .pure _

theorem House.buildMultiRidgeRoof_failsOnly (h : House Float) (r : MultiRidgeRoof Float) :
    FailsOnly (RoofError.CausedBy P) (h.buildMultiRidgeRoof kernel r) := by
  refine .bind (h.baseLevel_failsOnly _) fun level => ?_
  cases r.ridges with
  | nil => exact .error trivial
  | cons ridge rest =>
    refine .bind (level.roofOutline_failsOnly hover hkernel _) fun outline => ?_
    have hhalf (keep : Side) :=
      r.buildHalf_failsOnly hover hkernel ridge level.elevation outline keep
    refine .bind (Computed.forRoof_failsOnly (hhalf .right)) fun west => ?_
    exact .bind (Computed.forRoof_failsOnly (hhalf .left)) fun east => .pure _

omit hkernel in
theorem House.buildMultiPlaneRoof_failsOnly (h : House Float) (r : MultiPlaneRoof Float) :
    FailsOnly (RoofError.CausedBy P) (h.buildMultiPlaneRoof r) := by
  refine .bind (h.baseLevel_failsOnly _) fun level => ?_
  have hreport := failsOnly_of_overflow hover r.normalize.report_failsOnly
  refine .bind (Computed.forRoof_failsOnly hreport) fun report => ?_
  have hfaces : FailsOnly P (r.normalize.faces.mapM (RoofFace.resolve r.normalize)) :=
    .mapM fun f _ => .of_exists (f.exists_resolve _)
  exact .bind (Computed.forRoof_failsOnly hfaces) fun faces => .pure _

/-- **A roof of any kind** is stopped by what it is, by a failure that the kernel is known for, or
by an overflow. -/
theorem House.buildRoof_causedBy (h : House Float) (roof : Roof Float) :
    FailsOnly (RoofError.CausedBy P) (h.buildRoof kernel roof) := by
  cases roof with
  | flat r => exact h.buildFlatRoof_failsOnly hover hkernel r
  | gable r => exact h.buildGableRoof_failsOnly hover hkernel r
  | multiRidge r => exact h.buildMultiRidgeRoof_failsOnly hover hkernel r
  | multiPlane r => exact h.buildMultiPlaneRoof_failsOnly hover r

/-- **With its report**, a roof is stopped by such a failure only if no shape is to blame. -/
theorem House.buildReported_stopsOnly (h : House Float) (roof : Roof Float) :
    FailsOnly (fun e => P e ∧ e.concernsShape = false) (h.buildReported kernel roof) := by
  have hroof := h.buildRoof_causedBy hover hkernel roof
  unfold House.buildReported
  split_ifs
  · exact .ok _
  · split
    case h_1 id base report faces hb => exact .ok _
    case h_2 built hb => exact .ok _
    case h_3 e he =>
      cases hf : e.failure? with
      | none => exact .ok _
      | some failure =>
        cases e with
        | geometry cause =>
          obtain ⟨hshape, hcause⟩ := Option.ite_none_left_eq_some.1 hf
          obtain rfl := Option.some_inj.1 hcause
          exact .error ⟨hroof _ he, Bool.eq_false_of_not_eq_true hshape⟩
        | _ => cases hf

/-- **The roofs of a house** are stopped by nothing else. -/
theorem House.buildReportedRoofs_stopsOnly (h : House Float) :
    FailsOnly (fun e => P e ∧ e.concernsShape = false) (h.buildReportedRoofs kernel) :=
  .bind (.mapM fun roof _ => h.buildReported_stopsOnly hover hkernel roof) fun _ => .pure _

end Causes

end Housewright
