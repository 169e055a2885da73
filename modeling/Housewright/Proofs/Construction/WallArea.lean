import Mathlib.Tactic.NormNum.RealSqrt
import Housewright.Proofs.Construction.WallSegments
import Housewright.Proofs.Exact.Mitres

/-!
# The area of walls

The shell and the segments of a level are two forms of the same walls: `Level.wall_area` says that
both have the perimeter of the footprint times the wall thickness as their area.
-/

namespace Housewright

noncomputable section

/-- The wall segments of a level have the length and thickness of its walls. -/
theorem Level.exists_buildSegments_area (thickness : ℝ) {l : Level ℝ}
    (htwo : 2 ≤ l.footprint.outer.length)
    (hlong : ∀ e ∈ l.footprint.outer.edges, 0 < (Vec.between e.1 e.2).length) :
    ∃ segments, l.buildSegments thickness = .ok segments ∧
      (segments.map fun s => s.length * s.thickness).sum =
        thickness * l.footprint.outer.perimeter := by
  obtain ⟨segments, hsegments, hon⟩ := exists_buildSegments thickness htwo hlong
  refine ⟨segments, hsegments, ?_⟩
  have harea : segments.map (fun s => s.length * s.thickness) =
      l.footprint.outer.edges.zipIdx.map fun x =>
        thickness * (Vec.between x.1.1 x.1.2).length := by
    refine map_eq_map_of_forall₂ (hon.imp fun x s hs => ?_)
    rw [hs.thickness, WallSegment.length, WallSegment.along, hs.start, hs.finish, mul_comm]
    rfl
  have hedges : (l.footprint.outer.edges.zipIdx.map fun x =>
      thickness * (Vec.between x.1.1 x.1.2).length) =
      l.footprint.outer.edges.map fun e => thickness * (Vec.between e.1 e.2).length := by
    rw [← List.zipIdx_map_fst 0 l.footprint.outer.edges, List.map_map, List.zipIdx_map_fst]
    rfl
  rw [harea, hedges, List.sum_map_mul_left]
  rfl

/-- **The walls of a level** cover the perimeter of the footprint times the wall thickness.  If the
footprint has some area, its corners run straight on or have mitres within the limit, no edge is
shorter than a millionth, and the corners of the shell are not dropped but where they are repeated,
then the rings of the shell differ in area by that much, with the sign of the footprint's direction,
and the wall segments have that much area together. -/
theorem Level.wall_area (thickness : ℝ) (l : Level ℝ) (harea : l.footprint.outer.signedArea ≠ 0)
    (hjoins : ∀ c ∈ l.footprint.outer.corners, c.Joins)
    (hlong : ∀ e ∈ l.footprint.outer.edges, Tolerance.geometry ≤ (Vec.between e.1 e.2).length)
    (hinward : l.footprint.outer.OffsetDropsOnlyRepeats (thickness / 2))
    (houtward : l.footprint.outer.OffsetDropsOnlyRepeats (-(thickness / 2))) :
    ∃ shell segments, l.buildShell thickness = .ok shell ∧
      l.buildSegments thickness = .ok segments ∧
      Real.sign l.footprint.outer.signedArea * (shell.outer.signedArea - shell.inner.signedArea) =
        thickness * l.footprint.outer.perimeter ∧
      (segments.map fun s => s.length * s.thickness).sum =
        thickness * l.footprint.outer.perimeter := by
  have htwo : (2.0 : ℝ) = 2 := by norm_num
  obtain ⟨outer, inner, houter, hinner, hsub⟩ :=
    Ring.signedArea_offset_sub harea hjoins hlong hinward houtward
  have hthree := Ring.three_le_of_signedArea_ne_zero harea
  obtain ⟨segments, hsegments, hsum⟩ := exists_buildSegments_area thickness (l := l) (by omega)
    fun e he => HalfPlane.geometry_pos.trans_le (hlong e he)
  obtain ⟨shell, hshell, rfl, rfl⟩ : ∃ shell, l.buildShell thickness = .ok shell ∧
      shell.outer = outer ∧ shell.inner = inner := by
    unfold buildShell
    simp only [htwo]
    exact ⟨_, bind_eq_ok.2 ⟨outer, houter, bind_eq_ok.2 ⟨inner, hinner, rfl⟩⟩, rfl, rfl⟩
  refine ⟨shell, segments, hshell, hsegments, ?_, hsum⟩
  rw [hsub]
  ring

/-! ## A keep -/

/-- An outline with a corner that turns the other way, and one where its edges run straight on. -/
def Ring.keep : Ring ℝ := [⟨0, 0⟩, ⟨4, 0⟩, ⟨8, 0⟩, ⟨8, 4⟩, ⟨4, 4⟩, ⟨4, 8⟩, ⟨0, 8⟩]

namespace Ring

theorem corners_keep : keep.corners =
    [⟨⟨0, 8⟩, ⟨0, 0⟩, ⟨4, 0⟩⟩, ⟨⟨0, 0⟩, ⟨4, 0⟩, ⟨8, 0⟩⟩, ⟨⟨4, 0⟩, ⟨8, 0⟩, ⟨8, 4⟩⟩,
      ⟨⟨8, 0⟩, ⟨8, 4⟩, ⟨4, 4⟩⟩, ⟨⟨8, 4⟩, ⟨4, 4⟩, ⟨4, 8⟩⟩, ⟨⟨4, 4⟩, ⟨4, 8⟩, ⟨0, 8⟩⟩,
      ⟨⟨4, 8⟩, ⟨0, 8⟩, ⟨0, 0⟩⟩] := rfl

theorem signedArea_keep : keep.signedArea = 48 := by
  norm_num [keep, signedArea, edges]

theorem perimeter_keep : keep.perimeter = 32 := by
  norm_num [keep, perimeter, edges, Vec.between, Vec.length_eq]

theorem keep_long : ∀ e ∈ keep.edges, Tolerance.geometry ≤ (Vec.between e.1 e.2).length := by
  intro e he
  simp only [keep, edges, List.cons_append, List.nil_append, List.zip_cons_cons,
    List.zip_nil_right, List.mem_cons, List.not_mem_nil, or_false] at he
  rcases he with rfl | rfl | rfl | rfl | rfl | rfl | rfl <;>
    norm_num [Vec.between, Vec.length_eq, Tolerance.geometry]

theorem keep_joins : ∀ c ∈ keep.corners, c.Joins := by
  have hlimit : √2 ≤ 6 := Real.sqrt_le_iff.2 (by norm_num)
  intro c hc
  simp only [corners_keep, List.mem_cons, List.not_mem_nil, or_false] at hc
  rcases hc with rfl | rfl | rfl | rfl | rfl | rfl | rfl <;>
    norm_num [Corner.Joins, Corner.mitre, Corner.incoming, Corner.outgoing, Vec.between,
      Vec.direction, Vec.length_eq, Vec.cross, Vec.mitre, Vec.dot, Tolerance.geometry,
      Tolerance.mitreLimit, hlimit]

theorem keep_moved (d : ℤ) : keep.corners.map (·.moved d) =
    [(d, d), (4, d), (8 - d, d), (8 - d, 4 - d), (4 - d, 4 - d), (4 - d, 8 - d),
      (d, 8 - d)].map Point.ofInts := by
  norm_num [corners_keep, Corner.moved, Point.shift, Corner.mitre, Corner.incoming,
    Corner.outgoing, Vec.between, Vec.direction, Vec.length_eq, Vec.mitre, Vec.dot, Point.ofInts,
    sub_eq_add_neg]

/-- Whole distances move the corners to points with whole coordinates. -/
theorem keep_dropsOnlyRepeats (d : ℤ) : keep.OffsetDropsOnlyRepeats d := by
  have hleft : keep.leftward d = d := by
    rw [leftward, isCounterClockwise, signedArea_keep]
    norm_num
  have hint : ∀ c ∈ keep.corners, ∃ z, c.moved d = Point.ofInts z := by
    intro c hc
    have hmem : c.moved d ∈ keep.corners.map (·.moved d) := List.mem_map_of_mem hc
    rw [keep_moved] at hmem
    obtain ⟨z, -, hz⟩ := List.mem_map.1 hmem
    exact ⟨z, hz.symm⟩
  refine offsetDropsOnlyRepeats_of_apart keep_joins keep_long fun c hc c' hc' => ?_
  rw [hleft]
  obtain ⟨z, hz⟩ := hint c hc
  obtain ⟨z', hz'⟩ := hint c' hc'
  rw [hz, hz']
  obtain rfl | hne := eq_or_ne z z'
  · exact .inl rfl
  · refine .inr (lt_of_lt_of_le ?_ (Point.one_le_gap_ofInts hne))
    norm_num [Tolerance.geometry]

end Ring

/-- The walls of the keep are two metres thick and stand on 64 square metres. -/
theorem Level.keep_wall_area :
    ∃ shell segments,
      Level.buildShell 2 ⟨"L0", 0, 3, ⟨Ring.keep, []⟩, none⟩ = .ok shell ∧
      Level.buildSegments 2 ⟨"L0", 0, 3, ⟨Ring.keep, []⟩, none⟩ = .ok segments ∧
      shell.outer.signedArea - shell.inner.signedArea = 64 ∧
      (segments.map fun s => s.length * s.thickness).sum = 64 := by
  have harea : Ring.keep.signedArea ≠ 0 := by
    rw [Ring.signedArea_keep]
    norm_num
  have hinward := Ring.keep_dropsOnlyRepeats 1
  have houtward := Ring.keep_dropsOnlyRepeats (-1)
  obtain ⟨shell, segments, hshell, hsegments, hsub, hsum⟩ :=
    wall_area 2 ⟨"L0", 0, 3, ⟨Ring.keep, []⟩, none⟩ harea Ring.keep_joins Ring.keep_long
      (by norm_num at hinward ⊢; exact hinward) (by norm_num at houtward ⊢; exact houtward)
  refine ⟨shell, segments, hshell, hsegments, ?_, ?_⟩
  · rw [Ring.signedArea_keep, Ring.perimeter_keep, Real.sign_of_pos (by norm_num)] at hsub
    linarith
  · rw [hsum, Ring.perimeter_keep]
    norm_num

end

end Housewright
