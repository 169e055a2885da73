import Housewright.Proofs.Construction.ExactPlacement
import Housewright.Proofs.Exact.Containment

/-!
# Footprints run backwards

A footprint can be given in either direction.  When the outer ring of a level is turned around and
its openings name the same edges as before, now run backwards, the openings stay where they are.

* `Ring.outwardNormal_reverse`: the search for the outside finds the same normal, because the ring
  contains the same points and both ways prefer the same side;
* `Opening.placeOn_turned`: an opening keeps its centre and its normal, and is seen from the other
  end of its edge;
* `House.placeOpenings_turnLevel` says so of all openings of a house.
-/

namespace Housewright

noncomputable section

/-! ## The outside -/

namespace Vec

/-- The opposite direction. -/
def opposite (v : Vec ℝ) : Vec ℝ := ⟨-v.x, -v.y⟩

@[simp] theorem left_opposite (v : Vec ℝ) : v.opposite.left = v.right := by
  rw [opposite, left, right, neg_neg]

@[simp] theorem right_opposite (v : Vec ℝ) : v.opposite.right = v.left := by
  rw [opposite, left, right, neg_neg]

theorem direction_between_comm (a b : Point ℝ) :
    (between b a).direction = (between a b).direction.opposite := by
  simp only [direction, opposite, length_between_comm a b]
  simp only [between, ← neg_div, neg_sub]

end Vec

/-- Going back from the end of an edge. -/
theorem Point.shift_opposite {a b : Point ℝ} (hlength : (Vec.between a b).length ≠ 0) (u : ℝ) :
    b.shift (Vec.between a b).direction.opposite ((Vec.between a b).length - u) =
      a.shift (Vec.between a b).direction u := by
  obtain ⟨hx, hy⟩ := Vec.length_mul_direction hlength
  generalize (Vec.between a b).direction = t at *
  generalize (Vec.between a b).length = L at *
  simp only [Vec.between] at hx hy
  refine Point.eq_of_coordinates ?_ ?_
  · simp only [shift, Vec.opposite]
    linear_combination -hx
  · simp only [shift, Vec.opposite]
    linear_combination -hy

/-- The middle of a span, seen from the other end of its edge. -/
theorem Point.shift_middle_opposite {a b : Point ℝ} (hlength : (Vec.between a b).length ≠ 0)
    (uMin uMax : ℝ) :
    b.shift (Vec.between a b).direction.opposite
      (((Vec.between a b).length - uMax + ((Vec.between a b).length - uMin)) / 2.0) =
      a.shift (Vec.between a b).direction ((uMin + uMax) / 2.0) := by
  rw [← shift_opposite hlength]
  congr 1
  norm_num
  ring

namespace Ring

variable {r : Ring ℝ}

/-- A probe tells the same of a ring that is run backwards. -/
theorem probesOutside_reverse (hclear : ∀ e ∈ r.edges, EndsClear e.1 e.2) (normal : Vec ℝ)
    (origin : Point ℝ) (distance : ℝ) :
    Ring.probesOutside r.reverse normal origin distance =
      r.probesOutside normal origin distance := by
  rw [probesOutside, contains_reverse hclear, probesOutside]

theorem countOutside_reverse (hclear : ∀ e ∈ r.edges, EndsClear e.1 e.2) (normal : Vec ℝ)
    (probes : List (Point ℝ × ℝ)) :
    Ring.countOutside r.reverse normal probes = r.countOutside normal probes := by
  simp only [countOutside, probesOutside_reverse hclear]

/-- How many probes leave a ring does not depend on their order. -/
theorem countOutside_perm (r : Ring ℝ) (normal : Vec ℝ) {probes others : List (Point ℝ × ℝ)}
    (h : probes.Perm others) : r.countOutside normal probes = r.countOutside normal others := by
  choose found hfound using fun probe : Point ℝ × ℝ =>
    r.exists_probesOutside normal probe.1 probe.2
  have hcount (probes : List (Point ℝ × ℝ)) :
      r.countOutside normal probes = .ok ((probes.map found).countP id) :=
    bind_eq_ok.2 ⟨_, mapM_eq_ok_map fun probe _ => hfound probe, rfl⟩
  rw [hcount, hcount, (h.map found).countP_eq]

/-- Seen from the other end of the edge the same probes vote. -/
theorem votingProbes_opposite {a b : Point ℝ} (hlength : (Vec.between a b).length ≠ 0)
    (uMin uMax distance : ℝ) :
    (votingProbes b (Vec.between a b).direction.opposite ((Vec.between a b).length - uMax)
      ((Vec.between a b).length - uMin) distance).Perm
      (votingProbes a (Vec.between a b).direction uMin uMax distance) := by
  have hfirst : (Vec.between a b).length - uMax +
      ((Vec.between a b).length - uMin - ((Vec.between a b).length - uMax)) * 0.25 =
      (Vec.between a b).length - (uMin + (uMax - uMin) * 0.75) := by ring
  have hmiddle : ((Vec.between a b).length - uMax + ((Vec.between a b).length - uMin)) / 2.0 =
      (Vec.between a b).length - (uMin + uMax) / 2.0 := by
    norm_num
    ring
  have hlast : (Vec.between a b).length - uMax +
      ((Vec.between a b).length - uMin - ((Vec.between a b).length - uMax)) * 0.75 =
      (Vec.between a b).length - (uMin + (uMax - uMin) * 0.25) := by ring
  unfold votingProbes
  simp only [hfirst, hmiddle, hlast, List.flatMap_cons, List.flatMap_nil,
    Point.shift_opposite hlength]
  -- the quarter points have changed places
  exact List.Perm.flatMap_right
    (fun u => [(a.shift (Vec.between a b).direction u, distance),
      (a.shift (Vec.between a b).direction u, 2.0 * distance)])
    (List.reverse_perm [uMin + (uMax - uMin) * 0.25, (uMin + uMax) / 2.0,
      uMin + (uMax - uMin) * 0.75])

/-- A ring of some area that is run backwards changes its direction. -/
theorem isCounterClockwise_reverse (harea : r.signedArea ≠ 0) :
    isCounterClockwise r.reverse = !r.isCounterClockwise := by
  have hzero : (0.0 : ℝ) = 0 := by norm_num
  rw [isCounterClockwise, isCounterClockwise, signedArea_reverse, hzero, ← decide_not,
    decide_eq_decide, not_lt]
  exact ⟨fun h => (neg_pos.1 h).le, fun h => neg_pos.2 (lt_of_le_of_ne h harea)⟩

/-- **The same normal is found** for a ring that is run backwards, seen from the other end of the
edge. -/
theorem outwardNormal_reverse (harea : r.signedArea ≠ 0)
    (hclear : ∀ e ∈ r.edges, EndsClear e.1 e.2) {a b : Point ℝ}
    (hlength : (Vec.between a b).length ≠ 0) (uMin uMax distance : ℝ) :
    Ring.outwardNormal r.reverse b (Vec.between a b).direction.opposite
      ((Vec.between a b).length - uMax) ((Vec.between a b).length - uMin) distance =
      r.outwardNormal a (Vec.between a b).direction uMin uMax distance := by
  have hsides : (if isCounterClockwise r.reverse then
        ((Vec.between a b).direction.opposite.right, (Vec.between a b).direction.opposite.left)
      else
        ((Vec.between a b).direction.opposite.left, (Vec.between a b).direction.opposite.right)) =
      if r.isCounterClockwise then
        ((Vec.between a b).direction.right, (Vec.between a b).direction.left)
      else ((Vec.between a b).direction.left, (Vec.between a b).direction.right) := by
    rw [isCounterClockwise_reverse harea, Vec.left_opposite, Vec.right_opposite]
    cases r.isCounterClockwise <;> rfl
  unfold outwardNormal
  simp only [hsides, Point.shift_middle_opposite hlength, probesOutside_reverse hclear,
    countOutside_reverse hclear,
    countOutside_perm r _ (votingProbes_opposite hlength uMin uMax distance)]

end Ring

/-! ## Openings -/

/-- The index of an edge in a ring of `n` vertices that is run backwards. -/
def turnedIndex (n e : ℕ) : ℕ := if e + 1 = n then e else n - 2 - e

theorem turnedIndex_lt {n e : ℕ} (he : e < n) : turnedIndex n e < n := by
  unfold turnedIndex
  split_ifs <;> omega

theorem turnedIndex_cast {n e : ℕ} (he : e < n) :
    (turnedIndex n e : Int) = ((n : Int) - 2 - e) % n := by
  unfold turnedIndex
  split_ifs with hlast
  · rw [← Int.add_emod_right, Int.emod_eq_of_lt] <;> omega
  · rw [Int.emod_eq_of_lt] <;> omega

/-- The edge at the turned index leads back. -/
theorem Ring.around_turnedIndex {r : Ring ℝ} {e : ℕ} (he : e < r.length) :
    around r.reverse (turnedIndex r.length e) = r.around (e + 1) ∧
      around r.reverse (turnedIndex r.length e + 1) = r.around e := by
  unfold turnedIndex
  split_ifs with hlast
  · have hback : r.length - 1 - e = 0 := by omega
    have hlap : e + 1 = 0 + r.length := by omega
    have hlap' : e + 1 = 0 + r.reverse.length := by rwa [List.length_reverse]
    constructor
    · rw [around_reverse he, hback, hlap, around_add_length]
    · rw [hlap', around_add_length, around_reverse (by omega)]
      congr 1
      omega
  · constructor
    · rw [around_reverse (by omega)]
      congr 1
      omega
    · rw [around_reverse (by omega)]
      congr 1
      omega

/-- The same edge of a ring of `n` vertices that is run backwards. -/
def EdgeRef.turned (n : ℕ) (e : EdgeRef) : EdgeRef where
  edgeIndex := (n - 2 - e.edgeIndex) % n
  fromEnd := !e.fromEnd
  outwardSide := e.outwardSide.map Side.opposite

/-- An opening for an outer ring that is run backwards.  An opening on an edge that the ring does
not have stays as it is. -/
def Opening.turned (outer : Ring ℝ) (o : Opening ℝ) : Opening ℝ :=
  if 0 ≤ o.edge.edgeIndex ∧ o.edge.edgeIndex < outer.length then
    { o with edge := o.edge.turned outer.length }
  else o

/-- A level with its outer ring run backwards. -/
def Level.turned (l : Level ℝ) : Level ℝ :=
  { l with footprint := { l.footprint with outer := l.footprint.outer.reverse } }

/-- An edge and the same one run backwards. -/
theorem Level.edge_turned {l : Level ℝ} {e : ℕ} {a b : Point ℝ}
    (hedge : l.footprint.outer.edges[e]? = some (a, b)) :
    l.footprint.edge e = .ok (a, b) ∧
      l.turned.footprint.edge (turnedIndex l.footprint.outer.length e : ℕ) = .ok (b, a) := by
  obtain ⟨he, hab⟩ := Ring.getElem?_edges_eq_some.1 hedge
  obtain ⟨rfl, rfl⟩ := Prod.mk.inj hab
  obtain ⟨hstart, hend⟩ := Ring.around_turnedIndex he
  refine ⟨Footprint.edge_eq_ok he, ?_⟩
  rw [← hstart, ← hend]
  refine Footprint.edge_eq_ok ?_
  show _ < l.footprint.outer.reverse.length
  rw [List.length_reverse]
  exact turnedIndex_lt he

/-- A placed opening and the same one seen from the other end of its edge, which has a given length
and is one of `n` edges. -/
structure PlacedOpening.Mirrored (n : ℕ) (length : ℝ) (p q : PlacedOpening ℝ) : Prop where
  id : q.id = p.id
  kind : q.kind = p.kind
  levelIndex : q.levelIndex = p.levelIndex
  edgeIndex : (q.edgeIndex : Int) = ((n : Int) - 2 - p.edgeIndex) % n
  uMin : q.uMin = length - p.uMax
  uMax : q.uMax = length - p.uMin
  vMin : q.vMin = p.vMin
  vMax : q.vMax = p.vMax
  center : q.center = p.center
  tangent : q.tangent = p.tangent.opposite
  outward : q.outward = p.outward
  style : q.style = p.style

namespace Opening

variable {o : Opening ℝ} {l : Level ℝ} {a b : Point ℝ}

/-- Measured from the other end, an opening starts where it ended. -/
theorem uMin_turned (o : Opening ℝ) (n : ℕ) (length : ℝ) :
    uMin { o with edge := o.edge.turned n } length = length - (o.uMin length + o.width) := by
  unfold uMin
  cases hfrom : o.edge.fromEnd with
  | true =>
    simp only [EdgeRef.turned, hfrom, Bool.not_true, Bool.false_eq_true, if_false, if_true]
    ring
  | false => simp [EdgeRef.turned, hfrom]

/-- **The outward normal** of an opening does not depend on the direction of the footprint. -/
theorem outward_turned {r : Ring ℝ} (harea : r.signedArea ≠ 0)
    (hclear : ∀ e ∈ r.edges, EndsClear e.1 e.2) (hlength : (Vec.between a b).length ≠ 0)
    (n : ℕ) (uMin uMax : ℝ) :
    outward { o with edge := o.edge.turned n } r.reverse b (Vec.between a b).direction.opposite
      ((Vec.between a b).length - uMax) ((Vec.between a b).length - uMin) =
      o.outward r a (Vec.between a b).direction uMin uMax := by
  unfold outward
  cases hside : o.edge.outwardSide with
  | none => simp [EdgeRef.turned, hside, Ring.outwardNormal_reverse harea hclear hlength]
  | some side => cases side <;> simp [EdgeRef.turned, hside, Side.opposite]

/-- **An opening on an edge** that is run backwards is placed as before, seen from the other end. -/
theorem placeOn_turned {e : ℕ} (harea : l.footprint.outer.signedArea ≠ 0)
    (hclear : ∀ e ∈ l.footprint.outer.edges, EndsClear e.1 e.2)
    (hedge : l.footprint.outer.edges[e]? = some (a, b)) (i : ℕ)
    (hlong : Tolerance.geometry < (Vec.between a b).length) :
    ∃ p q, o.placeOn i l e = .ok (some p) ∧
      placeOn { o with edge := o.edge.turned l.footprint.outer.length } i l.turned
        (turnedIndex l.footprint.outer.length e) = .ok (some q) ∧
      o.PlacedAs i e (Vec.between a b).length p ∧
      p.Mirrored l.footprint.outer.length (Vec.between a b).length q := by
  have hne : (Vec.between a b).length ≠ 0 := (HalfPlane.geometry_pos.trans hlong).ne'
  obtain ⟨he, -⟩ := Ring.getElem?_edges_eq_some.1 hedge
  obtain ⟨hforward, hback⟩ := Level.edge_turned hedge
  have hlong' : Tolerance.geometry < (Vec.between b a).length := by
    rwa [Vec.length_between_comm a b]
  have huMin := uMin_turned o l.footprint.outer.length (Vec.between a b).length
  have huMax : (Vec.between a b).length - (o.uMin (Vec.between a b).length + o.width) + o.width =
      (Vec.between a b).length - o.uMin (Vec.between a b).length := by ring
  obtain ⟨n, hn⟩ := o.exists_outward l.footprint.outer a (Vec.between a b).direction
    (o.uMin (Vec.between a b).length) (o.uMin (Vec.between a b).length + o.width)
  have hn' : outward { o with edge := o.edge.turned l.footprint.outer.length }
      l.turned.footprint.outer b (Vec.between b a).direction
      (uMin { o with edge := o.edge.turned l.footprint.outer.length } (Vec.between b a).length)
      (uMin { o with edge := o.edge.turned l.footprint.outer.length } (Vec.between b a).length +
        o.width) = .ok n := by
    rw [Vec.length_between_comm a b, Vec.direction_between_comm a b, huMin, huMax]
    exact (outward_turned harea hclear hne _ _ _).trans hn
  rw [placeOn_eq_map hforward hlong, placeOn_eq_map hback hlong', hn, hn']
  refine ⟨_, _, rfl, rfl, ⟨rfl, rfl, rfl, rfl, rfl, rfl, rfl⟩, ?_⟩
  refine ⟨rfl, rfl, rfl, turnedIndex_cast he, ?_, ?_, rfl, rfl, ?_, ?_, rfl, rfl⟩
  · simp only [placedAt, Vec.length_between_comm a b, huMin]
  · simp only [placedAt, Vec.length_between_comm a b, huMin, huMax]
  · simp only [placedAt, Vec.length_between_comm a b, Vec.direction_between_comm a b, huMin, huMax,
      Point.shift_middle_opposite hne]
    rfl
  · exact Vec.direction_between_comm a b

/-- An opening on an edge that is too short is left out from either end. -/
theorem placeOn_turned_of_short {e : ℕ} (hedge : l.footprint.outer.edges[e]? = some (a, b)) (i : ℕ)
    (hshort : (Vec.between a b).length ≤ Tolerance.geometry) :
    o.placeOn i l e = .ok none ∧
      placeOn { o with edge := o.edge.turned l.footprint.outer.length } i l.turned
        (turnedIndex l.footprint.outer.length e) = .ok none := by
  obtain ⟨hforward, hback⟩ := Level.edge_turned hedge
  refine ⟨placeOn_eq_none hforward hshort, placeOn_eq_none hback ?_⟩
  rwa [Vec.length_between_comm a b]

theorem levelId_turned (outer : Ring ℝ) (o : Opening ℝ) :
    (o.turned outer).levelId = o.levelId := by
  unfold turned
  split_ifs <;> rfl

/-- An opening on an edge of a ring is on the same edge of the ring run backwards. -/
theorem edgeIndex?_turned {outer : Ring ℝ} {e : ℕ} (he : o.edgeIndex? outer = some e) :
    o.turned outer = { o with edge := o.edge.turned outer.length } ∧
      (o.turned outer).edgeIndex? outer.reverse = some (turnedIndex outer.length e) := by
  obtain ⟨hindex, hlt⟩ := edgeIndex?_eq_some.1 he
  have hturned : o.turned outer = { o with edge := o.edge.turned outer.length } :=
    if_pos ⟨by omega, by omega⟩
  refine ⟨hturned, edgeIndex?_eq_some.2 ⟨?_, ?_⟩⟩
  · rw [hturned, turnedIndex_cast hlt, ← hindex]
    rfl
  · rw [List.length_reverse]
    exact turnedIndex_lt hlt

/-- An opening on no edge of a ring is on none of the ring run backwards. -/
theorem edgeIndex?_turned_eq_none {outer : Ring ℝ} (he : o.edgeIndex? outer = none) :
    (o.turned outer).edgeIndex? outer.reverse = none := by
  have hrange : ¬ (0 ≤ o.edge.edgeIndex ∧ o.edge.edgeIndex < outer.length) := by
    intro hrange
    rw [edgeIndex?, if_pos hrange] at he
    cases he
  rw [turned, if_neg hrange, edgeIndex?, List.length_reverse, if_neg hrange]

end Opening

/-! ## Houses -/

namespace House

/-- A house with the outer ring of one level run backwards, and with its openings on the same
edges as before. -/
def turnLevel (h : House ℝ) (i : ℕ) : House ℝ :=
  match h.levels[i]? with
  | none => h
  | some l =>
    { h with
      levels := h.levels.set i l.turned
      openings := h.openings.map fun o =>
        if h.levelIndex? o.levelId = some i then o.turned l.footprint.outer else o }

/-- What becomes of a placed opening when the level with an index is turned. -/
def TurnedWith (i : ℕ) (l : Level ℝ) (p q : PlacedOpening ℝ) : Prop :=
  if p.levelIndex = i then ∃ a b, l.footprint.outer.edges[p.edgeIndex]? = some (a, b) ∧
    p.Mirrored l.footprint.outer.length (Vec.between a b).length q
  else q = p

variable {h : House ℝ} {i : ℕ} {l : Level ℝ}

theorem levels_turnLevel (hl : h.levels[i]? = some l) :
    (h.turnLevel i).levels = h.levels.set i l.turned := by
  rw [turnLevel, hl]

theorem openings_turnLevel (hl : h.levels[i]? = some l) :
    (h.turnLevel i).openings = h.openings.map fun o =>
      if h.levelIndex? o.levelId = some i then o.turned l.footprint.outer else o := by
  rw [turnLevel, hl]

/-- Turning a level leaves the ids of the levels alone. -/
theorem levelIndex?_turnLevel (hl : h.levels[i]? = some l) (id : String) :
    (h.turnLevel i).levelIndex? id = h.levelIndex? id := by
  have hfind (levels : List (Level ℝ)) : levels.findIdx? (·.id == id) =
      (levels.map (·.id)).findIdx? (· == id) := by
    rw [List.findIdx?_map]
    rfl
  have hids : (h.levels.set i l.turned).map (·.id) = h.levels.map (·.id) := by
    rw [List.map_set]
    refine List.ext_getElem? fun j => ?_
    rw [List.getElem?_set]
    split_ifs with hj hlt
    · subst hj
      rw [List.getElem?_map, hl]
      rfl
    · subst hj
      rw [List.getElem?_eq_none (not_lt.1 hlt)]
    · rfl
  rw [levelIndex?, levelIndex?, levels_turnLevel hl, hfind, hids, hfind]

/-- An opening of another level stays as it is. -/
theorem exists_placeOpening_of_ne {j : ℕ} {o : Opening ℝ} (hl : h.levels[i]? = some l)
    (hj : h.levelIndex? o.levelId = some j) (hne : j ≠ i) :
    ∃ r, h.placeOpening o = .ok r ∧ (h.turnLevel i).placeOpening o = .ok r ∧
      Option.Rel (TurnedWith i l) r r := by
  obtain ⟨level, hlevel⟩ := exists_level_of_levelIndex? hj
  have hlevel' : (h.turnLevel i).levels[j]? = some level := by
    rw [levels_turnLevel hl, List.getElem?_set_ne (Ne.symm hne), hlevel]
  obtain ⟨r, hr⟩ := h.exists_placeOpening o
  refine ⟨r, hr, ?_, ?_⟩
  · rw [placeOpening_of_level ((levelIndex?_turnLevel hl _).trans hj) hlevel',
      ← placeOpening_of_level hj hlevel, hr]
  · cases r with
    | none => exact .none
    | some p =>
      obtain ⟨-, hindex, -⟩ := placeOpening_eq_ok_some hr
      have hp : p.levelIndex ≠ i := by
        intro hp
        exact hne ((Option.some_inj.1 (hj.symm.trans hindex)).trans hp)
      exact .some ((if_neg hp).mpr rfl)

/-- An opening of the level that is turned is seen from the other end of its edge. -/
theorem exists_placeOpening_of_eq {o : Opening ℝ} (hl : h.levels[i]? = some l)
    (harea : l.footprint.outer.signedArea ≠ 0)
    (hclear : ∀ e ∈ l.footprint.outer.edges, EndsClear e.1 e.2)
    (hi : h.levelIndex? o.levelId = some i) :
    ∃ r s, h.placeOpening o = .ok r ∧
      (h.turnLevel i).placeOpening (o.turned l.footprint.outer) = .ok s ∧
      Option.Rel (TurnedWith i l) r s ∧
      ∀ (e : ℕ) (a b : Point ℝ), o.edge.edgeIndex = e →
        l.footprint.outer.edges[e]? = some (a, b) → Tolerance.geometry < (Vec.between a b).length →
        ∃ p, r = some p ∧ o.PlacedAs i e (Vec.between a b).length p := by
  obtain ⟨hlt, -⟩ := List.getElem?_eq_some_iff.1 hl
  have hlevel : (h.turnLevel i).levels[i]? = some l.turned := by
    rw [levels_turnLevel hl, List.getElem?_set_self hlt]
  have hi' : (h.turnLevel i).levelIndex? (o.turned l.footprint.outer).levelId = some i := by
    rw [Opening.levelId_turned, levelIndex?_turnLevel hl, hi]
  have houter : l.turned.footprint.outer = l.footprint.outer.reverse := rfl
  rw [placeOpening_of_level hi hl, placeOpening_of_level hi' hlevel, houter]
  cases he : o.edgeIndex? l.footprint.outer with
  | none =>
    simp only [Opening.edgeIndex?_turned_eq_none he]
    refine ⟨none, none, rfl, rfl, .none, fun e a b hindex hedge _ => ?_⟩
    obtain ⟨helt, -⟩ := Ring.getElem?_edges_eq_some.1 hedge
    cases he.symm.trans (Opening.edgeIndex?_eq_some.2 ⟨hindex, helt⟩)
  | some e =>
    obtain ⟨hturned, he'⟩ := Opening.edgeIndex?_turned he
    obtain ⟨hindex, helt⟩ := Opening.edgeIndex?_eq_some.1 he
    simp only [he']
    rw [hturned]
    obtain ⟨⟨a, b⟩, hedge⟩ : ∃ ab, l.footprint.outer.edges[e]? = some ab :=
      ⟨_, Ring.getElem?_edges_eq_some.2 ⟨helt, rfl⟩⟩
    have hsame {e' : ℕ} {a' b' : Point ℝ} (hindex' : o.edge.edgeIndex = e')
        (hedge' : l.footprint.outer.edges[e']? = some (a', b')) : e' = e ∧ a' = a ∧ b' = b := by
      obtain rfl : e' = e := by omega
      exact ⟨rfl, Prod.mk.inj (Option.some_inj.1 (hedge'.symm.trans hedge))⟩
    by_cases hlong : Tolerance.geometry < (Vec.between a b).length
    · obtain ⟨p, q, hp, hq, hat, hmirror⟩ := Opening.placeOn_turned harea hclear hedge i hlong
      refine ⟨some p, some q, hp, hq, ?_, fun e' a' b' hindex' hedge' _ => ?_⟩
      · exact .some ((if_pos hat.levelIndex).mpr ⟨a, b, hat.edgeIndex ▸ hedge, hmirror⟩)
      · obtain ⟨rfl, rfl, rfl⟩ := hsame hindex' hedge'
        exact ⟨p, rfl, hat⟩
    · obtain ⟨hp, hq⟩ := Opening.placeOn_turned_of_short (o := o) hedge i (not_lt.1 hlong)
      refine ⟨none, none, hp, hq, .none, fun e' a' b' hindex' hedge' hlong' => ?_⟩
      obtain ⟨rfl, rfl, rfl⟩ := hsame hindex' hedge'
      exact absurd hlong' hlong

/-- What is placed for an opening before and after a level is turned. -/
theorem exists_placeOpening_turnLevel (o : Opening ℝ) (hl : h.levels[i]? = some l)
    (harea : l.footprint.outer.signedArea ≠ 0)
    (hclear : ∀ e ∈ l.footprint.outer.edges, EndsClear e.1 e.2) :
    ∃ r s, h.placeOpening o = .ok r ∧
      (h.turnLevel i).placeOpening
        (if h.levelIndex? o.levelId = some i then o.turned l.footprint.outer else o) = .ok s ∧
      Option.Rel (TurnedWith i l) r s ∧
      ∀ (e : ℕ) (a b : Point ℝ), h.levelIndex? o.levelId = some i → o.edge.edgeIndex = e →
        l.footprint.outer.edges[e]? = some (a, b) → Tolerance.geometry < (Vec.between a b).length →
        ∃ p, r = some p ∧ o.PlacedAs i e (Vec.between a b).length p := by
  by_cases hi : h.levelIndex? o.levelId = some i
  · rw [if_pos hi]
    obtain ⟨r, s, hr, hs, hrel, hplaced⟩ := exists_placeOpening_of_eq hl harea hclear hi
    exact ⟨r, s, hr, hs, hrel, fun e a b _ => hplaced e a b⟩
  · rw [if_neg hi]
    cases hj : h.levelIndex? o.levelId with
    | none =>
      refine ⟨none, none, placeOpening_of_noLevel hj,
        placeOpening_of_noLevel ((levelIndex?_turnLevel hl _).trans hj), .none, ?_⟩
      intro e a b hi'
      cases hi'
    | some j =>
      have hne : j ≠ i := fun hji => hi (hj.trans (congrArg some hji))
      obtain ⟨r, hr, hs, hrel⟩ := exists_placeOpening_of_ne hl hj hne
      exact ⟨r, r, hr, hs, hrel, fun e a b hi' => absurd (Option.some_inj.1 hi') hne⟩

/-- **Placed openings do not depend on the direction of a footprint.**  If the outer ring of a level
has some area and no edge whose ends are different points less than a millionth apart, the openings
of a house are placed before and after the ring is run backwards.  Those of the level keep their
centres, their normals and their heights, have the opposite tangents, and are measured from the
other ends of their edges; those of other levels stay as they are.  Every opening of the level is
among them whose edge the ring has and is longer than a millionth. -/
theorem placeOpenings_turnLevel (h : House ℝ) {i : ℕ} {l : Level ℝ} (hl : h.levels[i]? = some l)
    (harea : l.footprint.outer.signedArea ≠ 0)
    (hclear : ∀ e ∈ l.footprint.outer.edges, EndsClear e.1 e.2) :
    ∃ placed turned, h.placeOpenings = .ok placed ∧ (h.turnLevel i).placeOpenings = .ok turned ∧
      List.Forall₂ (TurnedWith i l) placed turned ∧
      ∀ o ∈ h.openings, h.levelIndex? o.levelId = some i → ∀ (e : ℕ) (a b : Point ℝ),
        o.edge.edgeIndex = e → l.footprint.outer.edges[e]? = some (a, b) →
        Tolerance.geometry < (Vec.between a b).length →
        ∃ p ∈ placed, o.PlacedAs i e (Vec.between a b).length p := by
  choose before after hbefore hafter hrel hplaced using fun o =>
    exists_placeOpening_turnLevel o hl harea hclear
  have hfound : h.openings.mapM h.placeOpening = .ok (h.openings.map before) :=
    mapM_eq_ok_map fun o _ => hbefore o
  have hturned : (h.turnLevel i).openings.mapM (h.turnLevel i).placeOpening =
      .ok (h.openings.map after) := by
    rw [openings_turnLevel hl, mapM_eq_ok, List.forall₂_map_left_iff, List.forall₂_map_right_iff,
      List.forall₂_same]
    exact fun o _ => hafter o
  refine ⟨(h.openings.map before).filterMap id, (h.openings.map after).filterMap id,
    bind_eq_ok.2 ⟨_, hfound, rfl⟩, bind_eq_ok.2 ⟨_, hturned, rfl⟩, ?_, ?_⟩
  · refine List.rel_filterMap (R := Option.Rel (TurnedWith i l)) (fun _ _ hr => hr) ?_
    rw [List.forall₂_map_left_iff, List.forall₂_map_right_iff, List.forall₂_same]
    exact fun o _ => hrel o
  · intro o ho hi e a b he hedge hlong
    obtain ⟨p, hp, hat⟩ := hplaced o e a b hi he hedge hlong
    exact ⟨p, List.mem_filterMap.2 ⟨some p, hp ▸ List.mem_map_of_mem ho, rfl⟩, hat⟩

/-- The window of the room is seen from the other end of its edge. -/
theorem roomWithWindow_turned :
    ∃ placed turned, roomWithWindow.placeOpenings = .ok placed ∧
      (roomWithWindow.turnLevel 0).placeOpenings = .ok turned ∧
      ∃ p ∈ placed, ∃ q ∈ turned, p.id = "window" ∧
        p.Mirrored 4 (Vec.between (⟨4, 4⟩ : Point ℝ) ⟨0, 4⟩).length q := by
  have hlong {a b : Point ℝ} (h : 1 ≤ (b.x - a.x) ^ 2 + (b.y - a.y) ^ 2) :
      Tolerance.geometry < (Vec.between a b).length := by
    rw [Vec.length_eq, Real.lt_sqrt HalfPlane.geometry_pos.le, Vec.between]
    refine lt_of_lt_of_le ?_ h
    norm_num [Tolerance.geometry]
  have hclear : ∀ e ∈ Ring.edges ([⟨0, 0⟩, ⟨4, 0⟩, ⟨4, 4⟩, ⟨0, 4⟩] : Ring ℝ),
      EndsClear e.1 e.2 := by
    intro e he
    refine .inr (hlong ?_).le
    simp only [Ring.edges, List.cons_append, List.nil_append, List.zip_cons_cons,
      List.zip_nil_right, List.mem_cons, List.not_mem_nil, or_false] at he
    rcases he with rfl | rfl | rfl | rfl <;> norm_num
  have harea : Ring.signedArea ([⟨0, 0⟩, ⟨4, 0⟩, ⟨4, 4⟩, ⟨0, 4⟩] : Ring ℝ) ≠ 0 := by
    norm_num [Ring.signedArea, Ring.edges]
  obtain ⟨placed, turned, hplaced, hturned, hall, hevery⟩ :=
    placeOpenings_turnLevel roomWithWindow (i := 0) rfl harea hclear
  obtain ⟨p, hp, hat⟩ := hevery _ List.mem_cons_self rfl 2 ⟨4, 4⟩ ⟨0, 4⟩ rfl rfl
    (hlong (by norm_num))
  obtain ⟨k, hk⟩ := List.mem_iff_getElem?.1 hp
  obtain ⟨q, hq, hpq⟩ := exists_of_forall₂ hall hk
  obtain ⟨a, b, hedge, hmirror⟩ := (if_pos hat.levelIndex).mp hpq
  rw [hat.edgeIndex] at hedge
  obtain ⟨rfl, rfl⟩ := Prod.mk.inj (Option.some_inj.1 hedge)
  exact ⟨placed, turned, hplaced, hturned, p, hp, q, List.mem_of_getElem? hq, hat.id, hmirror⟩

end House

end

end Housewright
