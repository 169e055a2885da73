import Housewright.Proofs.Construction.PanelOpenings
import Housewright.Proofs.Exact.Cycles

/-!
# Placing openings in exact arithmetic

With real coordinates an opening is placed on every edge that its ring has and that is long
enough; the only part of its placement that takes a search is the outward normal.

* `Opening.placedAt` is the placed opening for a given normal, and `Opening.placeOn_eq_map` says
  that placing finds it;
* `House.placeOpening_cases`: an opening of a house is placed on the edge that it names, or is left
  out because there is no such edge.
-/

namespace Housewright

noncomputable section

/-! ## Directions -/

namespace Vec

/-- A vector scaled to length one. -/
def direction (v : Vec ℝ) : Vec ℝ := ⟨v.x / v.length, v.y / v.length⟩

variable {v : Vec ℝ}

theorem divide_length_eq_ok (hv : v.length ≠ 0) : v.divide v.length = .ok v.direction :=
  divide_eq_ok v hv

theorem length_mul_self (v : Vec ℝ) : v.length * v.length = v.x * v.x + v.y * v.y := by
  rw [length_eq, Real.mul_self_sqrt (by positivity)]
  ring

theorem length_mul_direction (hv : v.length ≠ 0) :
    v.length * v.direction.x = v.x ∧ v.length * v.direction.y = v.y :=
  ⟨mul_div_cancel₀ _ hv, mul_div_cancel₀ _ hv⟩

/-- A direction has length one. -/
theorem direction_square (hv : v.length ≠ 0) :
    v.direction.x * v.direction.x + v.direction.y * v.direction.y = 1 := by
  have hsquare := v.length_mul_self
  simp only [direction]
  field_simp
  linarith

end Vec

/-! ## Edges -/

/-- The edge with an index leads from the vertex there to the next. -/
theorem Footprint.edge_eq_ok {f : Footprint ℝ} {i : ℕ} (hi : i < f.outer.length) :
    f.edge i = .ok (f.outer.around i, f.outer.around (i + 1)) :=
  Footprint.edge_eq_ok_iff.2 (Ring.getElem?_edges_eq_some.2 ⟨hi, rfl⟩)

/-! ## Openings -/

namespace Opening

variable {o : Opening ℝ} {levelIndex edgeIndex : ℕ} {level : Level ℝ} {a b : Point ℝ}

/-- The opening placed on the edge from `a` to `b` of a level, with a given normal. -/
def placedAt (o : Opening ℝ) (levelIndex : ℕ) (level : Level ℝ) (edgeIndex : ℕ) (a b : Point ℝ)
    (outward : Vec ℝ) : PlacedOpening ℝ :=
  let along := Vec.between a b
  let uMin := o.uMin along.length
  let uMax := uMin + o.width
  let vMin := o.sillHeight
  let vMax := o.sillHeight + o.height
  let middle := a.shift along.direction ((uMin + uMax) / 2.0)
  { id := o.id, kind := o.kind, levelIndex, edgeIndex, uMin, uMax, vMin, vMax
    center := ⟨middle.x, middle.y, level.elevation + (vMin + vMax) / 2.0⟩
    tangent := along.direction, outward, style := o.style }

/-- The outward normal of an opening is always found. -/
theorem exists_outward (o : Opening ℝ) (outer : Ring ℝ) (a : Point ℝ) (tangent : Vec ℝ)
    (uMin uMax : ℝ) : ∃ n, o.outward outer a tangent uMin uMax = .ok n := by
  unfold outward
  cases o.edge.outwardSide with
  | none => exact outer.exists_outwardNormal a tangent uMin uMax _
  | some side => cases side <;> exact ⟨_, rfl⟩

/-- **An opening is placed** on an edge that is long enough, once its outward normal is found. -/
theorem placeOn_eq_map (he : level.footprint.edge edgeIndex = .ok (a, b))
    (hlong : Tolerance.geometry < (Vec.between a b).length) :
    o.placeOn levelIndex level edgeIndex =
      (o.outward level.footprint.outer a (Vec.between a b).direction
        (o.uMin (Vec.between a b).length) (o.uMin (Vec.between a b).length + o.width)).map
        fun outward => some (o.placedAt levelIndex level edgeIndex a b outward) := by
  have hne : (Vec.between a b).length ≠ 0 := (HalfPlane.geometry_pos.trans hlong).ne'
  simp only [placeOn, he]
  show (if _ then _ else _) = _
  rw [if_neg (not_le.2 hlong), Vec.divide_length_eq_ok hne]
  show (o.outward _ _ _ _ _ >>= _) = _
  cases o.outward level.footprint.outer a (Vec.between a b).direction
      (o.uMin (Vec.between a b).length) (o.uMin (Vec.between a b).length + o.width) with
  | error e => rfl
  | ok outward => rfl

/-- An opening on an edge that is too short is left out. -/
theorem placeOn_eq_none (he : level.footprint.edge edgeIndex = .ok (a, b))
    (hshort : (Vec.between a b).length ≤ Tolerance.geometry) :
    o.placeOn levelIndex level edgeIndex = .ok none := by
  simp only [placeOn, he]
  show (if _ then _ else _) = _
  rw [if_pos hshort]
  rfl

end Opening

/-- **An opening of a house** is placed on the edge that it names, if there is one, and left out
otherwise. -/
theorem House.placeOpening_cases (h : House ℝ) (o : Opening ℝ) :
    h.placeOpening o = .ok none ∨ ∃ (i e : ℕ) (level : Level ℝ),
      h.levelIndex? o.levelId = some i ∧ h.levels[i]? = some level ∧
        o.edge.edgeIndex = e ∧ e < level.footprint.outer.length ∧
        h.placeOpening o = o.placeOn i level e := by
  cases hi : h.levelIndex? o.levelId with
  | none => exact .inl (placeOpening_of_noLevel hi)
  | some i =>
    obtain ⟨level, hlevel⟩ := exists_level_of_levelIndex? hi
    rw [placeOpening_of_level hi hlevel]
    cases he : o.edgeIndex? level.footprint.outer with
    | none => exact .inl rfl
    | some e =>
      obtain ⟨hindex, hlt⟩ := Opening.edgeIndex?_eq_some.1 he
      exact .inr ⟨i, e, level, rfl, hlevel, hindex, hlt, rfl⟩

/-- Whether and where an opening of a house is placed is always settled. -/
theorem House.exists_placeOpening (h : House ℝ) (o : Opening ℝ) :
    ∃ r, h.placeOpening o = .ok r := by
  obtain hnone | ⟨i, e, level, -, -, -, hlt, hplace⟩ := h.placeOpening_cases o
  · exact ⟨none, hnone⟩
  · rw [hplace]
    exact o.exists_placeOn i (Footprint.edge_eq_ok hlt)

end

end Housewright
