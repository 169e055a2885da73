import Housewright.Proofs.Construction.Stoppages
import Housewright.Proofs.Description.LevelLookup
import Housewright.Proofs.Inspection.OpeningFit

/-!
# Which openings are accepted

An opening is refused if a comparison holds that must not hold, and no comparison with
not-a-number holds.  So an offset, a sill, a length or a height of a wall that is not a number
breaks no rule.  Only the size of an opening is first compared the other way round.

* `Opening.Conforms`: the rules for an opening, for some reading of "at most";
* `House.accepts_iff_hosts`, `House.exists_refused_of_not_hosts`: what is accepted, and which
  opening is refused otherwise;
* `House.refusedOpening?_exact`: the openings that conform are accepted and the first one that
  does not is refused, where "at most" leaves out not-a-number; if no sum or length is
  not-a-number, it is `≤`;
* `House.strayWindow`: a window without a place that is accepted.
-/

namespace Housewright

open Binary64

/-! ## Comparisons that fail -/

/-- `x` is at most `y`, or one of them is not a number and nothing is said. -/
def Binary64.NotAbove (x y : Float) : Prop := x ≤ y ∨ x.isNaN = true ∨ y.isNaN = true

/-- What is not below is at most, or not a number. -/
theorem Binary64.not_lt_iff_notAbove {x y : Float} : ¬ y < x ↔ NotAbove x y := by
  constructor
  · intro h
    by_cases hx : x.isNaN = true
    · exact .inr (.inl hx)
    by_cases hy : y.isNaN = true
    · exact .inr (.inr hy)
    exact .inl ((not_lt_iff (Bool.eq_false_of_not_eq_true hy)
      (Bool.eq_false_of_not_eq_true hx)).1 h)
  · rintro (hle | hnan) hlt
    · exact not_lt_of_le hle hlt
    · obtain ⟨hy, hx⟩ := isNaN_of_lt hlt
      rw [hx, hy] at hnan
      exact hnan.elim nofun nofun

/-- Between numbers nothing is left out. -/
theorem Binary64.notAbove_iff_le {x y : Float} (hx : x.isNaN = false) (hy : y.isNaN = false) :
    NotAbove x y ↔ x ≤ y := by
  rw [NotAbove, hx, hy]
  exact or_iff_left (not_or.2 ⟨Bool.false_ne_true, Bool.false_ne_true⟩)

/-- What is at least as large as a number above zero is above zero. -/
theorem Binary64.pos_of_le {x y : Float} (hx : 0.0 < x) (hxy : x ≤ y) : 0.0 < y := by
  obtain ⟨hzero, hxn⟩ := isNaN_of_lt hx
  obtain ⟨-, hy⟩ := isNaN_of_le hxy
  rw [lt_iff hzero hxn] at hx
  rw [le_iff hxn hy] at hxy
  exact (lt_iff hzero hy).2 (hx.trans_le hxy)

/-! ## The rules -/

/-- The rules for an opening on the edge of a level from `a` to `b`, where `atMost` compares. -/
structure Opening.Conforms (atMost : Float → Float → Prop) (tolerance : Float)
    (level : Level Float) (o : Opening Float) (a b : Point Float) : Prop where
  edge_nonneg : 0 ≤ o.edge.edgeIndex
  edge_lt : o.edge.edgeIndex < level.footprint.outer.length
  edge : level.footprint.edge o.edge.edgeIndex = .ok (a, b)
  width : Tolerance.openingSize ≤ o.width
  height : Tolerance.openingSize ≤ o.height
  sill : atMost (-tolerance) o.sillHeight
  top : atMost (o.sillHeight + o.height) (level.height + tolerance)
  length : atMost tolerance (Vec.between a b).length
  offset : atMost (-tolerance) o.offset
  finish : atMost (o.offset + o.width) ((Vec.between a b).length + tolerance)

/-- The opening conforms to the rules on an edge of a level that has its id. -/
def House.Hosts (atMost : Float → Float → Prop) (tolerance : Float) (h : House Float)
    (o : Opening Float) : Prop :=
  ∃ level ∈ h.levels, level.id = o.levelId ∧ ∃ a b, o.Conforms atMost tolerance level a b

/-- Where the opening ends, how high it reaches, and how far it might, are numbers. -/
structure Opening.Measured (tolerance : Float) (level : Level Float) (o : Opening Float)
    (a b : Point Float) : Prop where
  top : (o.sillHeight + o.height).isNaN = false
  wall : (level.height + tolerance).isNaN = false
  finish : (o.offset + o.width).isNaN = false
  edge : ((Vec.between a b).length + tolerance).isNaN = false

section Rules

variable {tolerance : Float} {level : Level Float} {o : Opening Float} {a b : Point Float}

/-- A size is accepted if it is large enough, which not-a-number is not. -/
theorem openingSize_le_iff {x : Float} :
    Tolerance.openingSize ≤ x ↔ 0.0 < x ∧ ¬ x < Tolerance.openingSize := by
  have hsize : (0.0 : Float) < Tolerance.openingSize := by decide +kernel
  constructor
  · intro h
    exact ⟨pos_of_le hsize h, not_lt_of_le h⟩
  · rintro ⟨hpos, hnot⟩
    exact (not_lt_iff (isNaN_of_lt hpos).2 (isNaN_of_lt hsize).2).1 hnot

/-- An opening fits if it conforms to the rules, as far as they compare numbers. -/
theorem Opening.fits_iff_conforms :
    o.Fits tolerance level a b ↔ o.Conforms NotAbove tolerance level a b := by
  constructor
  · intro f
    exact {
      edge_nonneg := f.edge_nonneg
      edge_lt := f.edge_lt
      edge := f.edge
      width := openingSize_le_iff.2 ⟨f.width_pos, f.width⟩
      height := openingSize_le_iff.2 ⟨f.height_pos, f.height⟩
      sill := not_lt_iff_notAbove.1 f.sill
      top := not_lt_iff_notAbove.1 f.top
      length := not_lt_iff_notAbove.1 f.length
      offset := not_lt_iff_notAbove.1 f.offset
      finish := not_lt_iff_notAbove.1 f.finish }
  · intro c
    obtain ⟨hwidth, hwide⟩ := openingSize_le_iff.1 c.width
    obtain ⟨hheight, hhigh⟩ := openingSize_le_iff.1 c.height
    exact {
      edge_nonneg := c.edge_nonneg
      edge_lt := c.edge_lt
      edge := c.edge
      width_pos := hwidth
      height_pos := hheight
      width := hwide
      height := hhigh
      sill := not_lt_iff_notAbove.2 c.sill
      top := not_lt_iff_notAbove.2 c.top
      length := not_lt_iff_notAbove.2 c.length
      offset := not_lt_iff_notAbove.2 c.offset
      finish := not_lt_iff_notAbove.2 c.finish }

/-- What conforms by a stricter comparison conforms. -/
theorem Opening.Conforms.imp {r s : Float → Float → Prop} (hrs : ∀ x y, r x y → s x y)
    (c : o.Conforms r tolerance level a b) : o.Conforms s tolerance level a b :=
  { c with
    sill := hrs _ _ c.sill
    top := hrs _ _ c.top
    length := hrs _ _ c.length
    offset := hrs _ _ c.offset
    finish := hrs _ _ c.finish }

/-- A measured opening conforms if all its comparisons hold. -/
theorem Opening.Measured.conforms_iff (m : o.Measured tolerance level a b)
    (htol : 0.0 ≤ tolerance) :
    o.Conforms NotAbove tolerance level a b ↔ o.Conforms (· ≤ ·) tolerance level a b := by
  obtain ⟨-, ht⟩ := isNaN_of_le htol
  have hneg : (-tolerance).isNaN = false := (isNaN_neg tolerance).trans ht
  obtain ⟨hsill, -⟩ := isNaN_of_add m.top
  obtain ⟨hoffset, -⟩ := isNaN_of_add m.finish
  obtain ⟨hlength, -⟩ := isNaN_of_add m.edge
  refine ⟨fun c => { c with
    sill := (notAbove_iff_le hneg hsill).1 c.sill
    top := (notAbove_iff_le m.top m.wall).1 c.top
    length := (notAbove_iff_le ht hlength).1 c.length
    offset := (notAbove_iff_le hneg hoffset).1 c.offset
    finish := (notAbove_iff_le m.finish m.edge).1 c.finish }, ?_⟩
  exact Opening.Conforms.imp fun _ _ => .inl

end Rules

/-! ## The verdict -/

section Verdict

variable {h : House Float} {tolerance : Float} {o : Opening Float}

/-- An opening without a fault is one that its level hosts. -/
theorem House.fault?_eq_ok_none_iff (hids : (h.levels.map (·.id)).Nodup) :
    o.fault? tolerance (h.lastLevel? o.levelId) = .ok none ↔ h.Hosts NotAbove tolerance o := by
  rw [Opening.fault?_eq_ok_none_iff]
  constructor
  · rintro ⟨level, a, b, hlevel, f⟩
    obtain ⟨hmem, hid⟩ := (House.lastLevel?_eq_some_iff hids).1 hlevel
    exact ⟨level, hmem, hid, a, b, Opening.fits_iff_conforms.1 f⟩
  · rintro ⟨level, hmem, hid, a, b, c⟩
    exact ⟨level, a, b, (House.lastLevel?_eq_some_iff hids).2 ⟨hmem, hid⟩,
      Opening.fits_iff_conforms.2 c⟩

/-- **The openings of a house are accepted** if and only if it hosts every one. -/
theorem House.accepts_iff_hosts (hids : (h.levels.map (·.id)).Nodup) :
    h.refusedOpening? tolerance = .ok none ↔
      ∀ o ∈ h.openings, h.Hosts NotAbove tolerance o := by
  simp only [House.refusedOpening?, firstRefused?_eq_none_iff, House.fault?_eq_ok_none_iff hids]

/-- If it does not, the first opening that it does not host is refused. -/
theorem House.exists_refused_of_not_hosts (hids : (h.levels.map (·.id)).Nodup)
    (hnot : ¬ ∀ o ∈ h.openings, h.Hosts NotAbove tolerance o) :
    ∃ before o after fault, h.openings = before ++ o :: after ∧
      (∀ p ∈ before, h.Hosts NotAbove tolerance p) ∧ ¬ h.Hosts NotAbove tolerance o ∧
      o.fault? tolerance (h.lastLevel? o.levelId) = .ok (some fault) ∧
      h.refusedOpening? tolerance = .ok (some ⟨o.id, fault⟩) := by
  obtain ⟨r, hr⟩ := exists_firstRefused? tolerance h.lastLevel? h.openings
  cases r with
  | none => exact absurd ((House.accepts_iff_hosts hids).1 hr) hnot
  | some r =>
    obtain ⟨before, o, after, fault, hsplit, hbefore, ho, rfl⟩ := firstRefused?_eq_some_iff.1 hr
    refine ⟨before, o, after, fault, hsplit, fun p hp => ?_, fun hhosts => ?_, ho, hr⟩
    · exact (House.fault?_eq_ok_none_iff hids).1 (hbefore p hp)
    · cases ho.symm.trans ((House.fault?_eq_ok_none_iff hids).2 hhosts)

/-- What is hosted by a stricter comparison is hosted. -/
theorem House.Hosts.imp {r s : Float → Float → Prop} (hrs : ∀ x y, r x y → s x y)
    (hhosts : h.Hosts r tolerance o) : h.Hosts s tolerance o := by
  obtain ⟨level, hmem, hid, a, b, c⟩ := hhosts
  exact ⟨level, hmem, hid, a, b, c.imp hrs⟩

/-- An opening that is measured on its host is hosted if all its comparisons hold. -/
theorem House.hosts_iff_of_measured (htol : 0.0 ≤ tolerance)
    (hmeasured : ∀ level ∈ h.levels, ∀ a b, level.id = o.levelId →
      level.footprint.edge o.edge.edgeIndex = .ok (a, b) → o.Measured tolerance level a b) :
    h.Hosts NotAbove tolerance o ↔ h.Hosts (· ≤ ·) tolerance o := by
  refine ⟨?_, House.Hosts.imp fun _ _ => .inl⟩
  rintro ⟨level, hmem, hid, a, b, c⟩
  exact ⟨level, hmem, hid, a, b, ((hmeasured level hmem a b hid c.edge).conforms_iff htol).1 c⟩

/-- **Openings are accepted exactly if their houses host them.**  In a house with distinct level
ids, all openings are accepted if every one conforms to the rules, as far as they compare
numbers; otherwise the first one that does not is refused, and nothing else stops the check.
Where all sums and lengths are numbers, an opening conforms if every comparison holds. -/
theorem House.refusedOpening?_exact (h : House Float) (tolerance : Float)
    (hids : (h.levels.map (·.id)).Nodup) (htol : 0.0 ≤ tolerance) :
    (h.refusedOpening? tolerance = .ok none ↔ ∀ o ∈ h.openings, h.Hosts NotAbove tolerance o) ∧
      ((¬ ∀ o ∈ h.openings, h.Hosts NotAbove tolerance o) →
        ∃ before o after fault, h.openings = before ++ o :: after ∧
          (∀ p ∈ before, h.Hosts NotAbove tolerance p) ∧ ¬ h.Hosts NotAbove tolerance o ∧
          o.fault? tolerance (h.lastLevel? o.levelId) = .ok (some fault) ∧
          h.refusedOpening? tolerance = .ok (some ⟨o.id, fault⟩)) ∧
      (∀ o, h.Hosts (· ≤ ·) tolerance o → h.Hosts NotAbove tolerance o) ∧
      ∀ o, (∀ level ∈ h.levels, ∀ a b, level.id = o.levelId →
          level.footprint.edge o.edge.edgeIndex = .ok (a, b) → o.Measured tolerance level a b) →
        (h.Hosts NotAbove tolerance o ↔ h.Hosts (· ≤ ·) tolerance o) := by
  refine ⟨House.accepts_iff_hosts hids, House.exists_refused_of_not_hosts hids, ?_, ?_⟩
  · exact fun o hhosts => hhosts.imp fun _ _ => .inl
  · exact fun o hmeasured => House.hosts_iff_of_measured htol hmeasured

end Verdict

/-! ## A window without a place -/

/-- A room of four metres by four with a window in its first wall, at an offset that is not a
number. -/
def House.strayWindow : House Float where
  name := "Room"
  wallThickness := 0.3
  elevationConvention := .topOfSlab
  allowGroundSupport := true
  supportGapLevelIds := []
  levels := [⟨"ground", 0.0, 2.8, ⟨[⟨0.0, 0.0⟩, ⟨4.0, 0.0⟩, ⟨4.0, 4.0⟩, ⟨0.0, 4.0⟩], []⟩, none⟩]
  roofs := []
  openings := [⟨"window", .window, "ground", ⟨0, false, none⟩, 0.0 / 0.0, 1.0, 1.0, 1.0, none⟩]

/-- The window conforms to all rules that compare numbers. -/
theorem House.hosts_strayWindow :
    ∀ o ∈ House.strayWindow.openings, House.strayWindow.Hosts NotAbove Tolerance.openingFit o := by
  intro o ho
  obtain rfl := List.mem_singleton.1 ho
  refine ⟨_, List.mem_singleton.2 rfl, rfl, ⟨0.0, 0.0⟩, ⟨4.0, 0.0⟩, ?_⟩
  exact {
    edge_nonneg := by decide
    edge_lt := by decide
    edge := rfl
    width := by decide +kernel
    height := by decide +kernel
    sill := .inl (by decide +kernel)
    top := .inl (by decide +kernel)
    length := .inl (by decide +kernel)
    offset := .inr (.inr (by decide +kernel))
    finish := .inr (.inl (by decide +kernel)) }

/-- So the room is accepted. -/
theorem House.strayWindow_accepted :
    House.strayWindow.refusedOpening? Tolerance.openingFit = .ok none :=
  (House.refusedOpening?_exact House.strayWindow Tolerance.openingFit (by decide)
    (by decide +kernel)).1.2 House.hosts_strayWindow

/-- **Acceptance does not mean that every comparison holds**: a window is accepted that does not
start at any place of its wall. -/
theorem House.accepts_without_offset : ∃ (h : House Float) (tolerance : Float),
    (h.levels.map (·.id)).Nodup ∧ 0.0 ≤ tolerance ∧ h.refusedOpening? tolerance = .ok none ∧
      ¬ ∀ o ∈ h.openings, h.Hosts (· ≤ ·) tolerance o := by
  refine ⟨House.strayWindow, Tolerance.openingFit, by decide, by decide +kernel,
    (House.accepts_iff_hosts (by decide)).2 House.hosts_strayWindow, fun hall => ?_⟩
  obtain ⟨level, -, -, a, b, c⟩ := hall _ List.mem_cons_self
  have hoffset : ¬ (-Tolerance.openingFit : Float) ≤ 0.0 / 0.0 := by decide +kernel
  exact hoffset c.offset

end Housewright
