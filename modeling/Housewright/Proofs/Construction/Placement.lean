import Housewright.Construction.Openings
import Housewright.Proofs.Description.LevelLookup
import Housewright.Proofs.Inspection.OpeningFit

/-!
# Where openings are placed

An opening is placed on the first level of the id it names, unless its edge is too short.
`placeOn_eq_ok` says what a placed opening is, `placeOpening_of_fits` that an opening that
fits a level is placed there if the level is the first of its id, and
`placeOpening_eq_ok_some` that it is placed nowhere else.
-/

namespace Housewright

variable {α : Type} [Scalar α]

/-- What an opening is like that was placed on an edge of the given length. -/
structure Opening.PlacedAs (o : Opening α) (levelIndex edgeIndex : ℕ) (length : α)
    (p : PlacedOpening α) : Prop where
  id : p.id = o.id
  levelIndex : p.levelIndex = levelIndex
  edgeIndex : p.edgeIndex = edgeIndex
  uMin : p.uMin = o.uMin length
  uMax : p.uMax = o.uMin length + o.width
  vMin : p.vMin = o.sillHeight
  vMax : p.vMax = o.sillHeight + o.height

/-- An opening is placed on its edge if the edge is long enough. -/
theorem Opening.placeOn_eq_ok {o : Opening α} {levelIndex edgeIndex : ℕ} {level : Level α}
    {a b : Point α} {placed : Option (PlacedOpening α)}
    (he : level.footprint.edge edgeIndex = .ok (a, b))
    (h : o.placeOn levelIndex level edgeIndex = .ok placed) :
    (Vec.between a b).length ≤ Tolerance.geometry ∧ placed = none ∨
      ¬ (Vec.between a b).length ≤ Tolerance.geometry ∧
        ∃ p, placed = some p ∧ o.PlacedAs levelIndex edgeIndex (Vec.between a b).length p := by
  simp only [Opening.placeOn, he, bind_eq_ok, Except.ok.injEq, exists_eq_left'] at h
  split_ifs at h with hshort
  · exact .inl ⟨hshort, (pure_eq_ok.1 h).symm⟩
  · simp only [bind_eq_ok, pure_eq_ok] at h
    obtain ⟨tangent, -, outward, -, rfl⟩ := h
    exact .inr ⟨hshort, _, rfl, rfl, rfl, rfl, rfl, rfl, rfl, rfl⟩

omit [Scalar α] in
/-- The edge that an opening names, if the ring has it. -/
theorem Opening.edgeIndex?_eq_some {o : Opening α} {outer : Ring α} {e : ℕ} :
    o.edgeIndex? outer = some e ↔ o.edge.edgeIndex = e ∧ e < outer.length := by
  rw [edgeIndex?, Option.ite_none_right_eq_some, Option.some_inj]
  omega

/-- An opening is placed on the first level of the id that it names. -/
theorem House.placeOpening_of_level {h : House α} {o : Opening α} {i : ℕ} {level : Level α}
    (hi : h.levelIndex? o.levelId = some i) (hl : h.levels[i]? = some level) :
    h.placeOpening o = match o.edgeIndex? level.footprint.outer with
      | some e => o.placeOn i level e
      | none => .ok none := by
  have hlevel : h.level? o.levelId = some level := by rw [h.level?_eq, hi, Option.bind_some, hl]
  cases he : o.edgeIndex? level.footprint.outer with
  | none => simp only [placeOpening, hi, hlevel, he]
  | some e => simp only [placeOpening, hi, hlevel, he]

/-- An opening that names no level is left out. -/
theorem House.placeOpening_of_noLevel {h : House α} {o : Opening α}
    (hi : h.levelIndex? o.levelId = none) : h.placeOpening o = .ok none := by
  simp only [placeOpening, hi]

omit [Scalar α] in
/-- The index that is found for an id is that of a level. -/
theorem House.exists_level_of_levelIndex? {h : House α} {id : String} {i : ℕ}
    (hi : h.levelIndex? id = some i) : ∃ level, h.levels[i]? = some level := by
  obtain ⟨hlt, -⟩ := List.findIdx?_eq_some_iff_getElem.1 hi
  exact ⟨_, List.getElem?_eq_getElem hlt⟩

/-- The index of the edge of an opening that fits. -/
theorem Opening.Fits.edgeIndex?_eq {tolerance : α} {level : Level α} {o : Opening α}
    {a b : Point α} (f : o.Fits tolerance level a b) :
    o.edgeIndex? level.footprint.outer = some o.edge.edgeIndex.toNat :=
  if_pos ⟨f.edge_nonneg, f.edge_lt⟩

/-- The edge of an opening that fits, at its index. -/
theorem Opening.Fits.edge_toNat {tolerance : α} {level : Level α} {o : Opening α}
    {a b : Point α} (f : o.Fits tolerance level a b) :
    level.footprint.edge (o.edge.edgeIndex.toNat : Int) = .ok (a, b) := by
  rw [Int.toNat_of_nonneg f.edge_nonneg]
  exact f.edge

/-- An opening that fits the first level of its id is placed there. -/
theorem House.placeOpening_of_fits {h : House α} {o : Opening α} {tolerance : α} {i : ℕ}
    {level : Level α} {a b : Point α} (hi : h.levelIndex? o.levelId = some i)
    (hl : h.levels[i]? = some level) (f : o.Fits tolerance level a b) :
    h.placeOpening o = o.placeOn i level o.edge.edgeIndex.toNat := by
  rw [House.placeOpening_of_level hi hl, f.edgeIndex?_eq]

/-- An opening that fits the last level of its id is placed there, if no other level has the
id and the edge is long enough. -/
theorem House.placeOpening_of_namesOneLevel {h : House α} {o : Opening α} {tolerance : α}
    {level : Level α} {a b : Point α} {r : Option (PlacedOpening α)}
    (hl : h.lastLevel? o.levelId = some level) (f : o.Fits tolerance level a b)
    (hone : h.NamesOneLevel o.levelId) (hr : h.placeOpening o = .ok r) :
    ∃ i, h.lastLevelIndex? o.levelId = some i ∧ h.levels[i]? = some level ∧
      ((Vec.between a b).length ≤ Tolerance.geometry ∧ r = none ∨
        ¬ (Vec.between a b).length ≤ Tolerance.geometry ∧ ∃ p, r = some p ∧
          o.PlacedAs i o.edge.edgeIndex.toNat (Vec.between a b).length p) := by
  rw [House.lastLevel?_eq, Option.bind_eq_some_iff] at hl
  obtain ⟨i, hi, hlevel⟩ := hl
  rw [House.placeOpening_of_fits ((House.levelIndex?_eq_lastLevelIndex?_iff.2 hone).trans hi)
    hlevel f] at hr
  exact ⟨i, hi, hlevel, Opening.placeOn_eq_ok f.edge_toNat hr⟩

/-- An opening is placed on the first level of its id and on its own edge. -/
theorem House.placeOpening_eq_ok_some {h : House α} {o : Opening α} {p : PlacedOpening α}
    (hp : h.placeOpening o = .ok (some p)) :
    p.id = o.id ∧ h.levelIndex? o.levelId = some p.levelIndex ∧
      o.edge.edgeIndex = p.edgeIndex := by
  unfold House.placeOpening at hp
  split at hp
  · rename_i i level hi hl
    split at hp
    · rename_i e he
      obtain ⟨⟨h0, -⟩, he⟩ := Option.ite_none_right_eq_some.1 he
      obtain rfl := Option.some_inj.1 he
      simp only [Opening.placeOn, bind_eq_ok] at hp
      obtain ⟨⟨a, b⟩, -, hp⟩ := hp
      split_ifs at hp with hshort
      · cases hp
      · simp only [bind_eq_ok, pure_eq_ok, Option.some_inj] at hp
        obtain ⟨tangent, -, outward, -, rfl⟩ := hp
        exact ⟨rfl, hi, (Int.toNat_of_nonneg h0).symm⟩
    · cases hp
  · cases hp

/-- **All openings of a house are placed** if and only if each of them is. -/
theorem House.placeOpenings_eq_ok_iff {h : House α} {placed : List (PlacedOpening α)} :
    h.placeOpenings = .ok placed ↔ ∃ found,
      List.Forall₂ (fun o r => h.placeOpening o = .ok r) h.openings found ∧
        found.filterMap id = placed := by
  simp only [House.placeOpenings, bind_eq_ok, pure_eq_ok, mapM_eq_ok]

end Housewright
