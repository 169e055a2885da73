import Housewright.Planar.Binary64
import Housewright.Proofs.Binary64.Sizeless
import Housewright.Proofs.Construction.NamedCorners
import Housewright.Proofs.Exact.Tilings
import Housewright.Proofs.Geometry.RepeatedCorners
import Housewright.Proofs.Geometry.RoundedArea

/-!
# Triangulated rings

`Ring.triangulate` names the corners of triangles between vertices by their indices.  No triangle is
lost that is not tiny, and none gets another corner.  The triples are to run counter-clockwise, and
those that do not by the shoelace sum are turned round; where that sum has the wrong sign, it is the
other ones that are.

* `Ring.Accounts`: what becomes of a triangle;
* `Ring.AccountsFor.sum_eq`: what the triples weigh, together with the triangles dropped;
* `Ring.signedArea_nonneg_of_triangulate`, `Ring.spanned_orient_pos`: which way the triples run;
* `Ring.triangulate_keeps_corners`: the triples of a ring, in binary arithmetic and in exact one;
* `Ring.sliver_turns_right`: a thin triangle far from the origin is handed back clockwise.
-/

namespace Housewright

/-! ## Triangles and their triples -/

section Accounts

variable {α : Type} [Scalar α] {r : Ring α} {t : Triangle α} {s : IndexTriple}
  {triangles : List (Triangle α)} {triples : List IndexTriple}

namespace Ring

/-- What becomes of a triangle: a triple with the same corners, unless it is tiny or has a corner
twice.  Such a triangle is not large. -/
structure Accounts (r : Ring α) (t : Triangle α) (s : Option IndexTriple) : Prop where
  names : ∀ u, s = some u → u.Names r t
  dropped_iff : s = none ↔ t.IsTiny ∨ t.HasRepeat
  kept : Tolerance.geometry * Tolerance.geometry < t.area → s.isSome

/-- The triples are what has become of the triangles, one after the other. -/
def AccountsFor (r : Ring α) (triangles : List (Triangle α)) (triples : List IndexTriple) : Prop :=
  ∃ found, List.Forall₂ r.Accounts triangles found ∧ triples = found.reduceOption

/-- **Vertices that are named** account for the triangles between them. -/
theorem Named.accountsFor (hnamed : r.Named) (hwithin : ∀ t ∈ triangles, t.Within r)
    (hlarge : ∀ t ∈ triangles, Tolerance.geometry * Tolerance.geometry < t.area →
      ¬ t.IsTiny ∧ ¬ t.HasRepeat) :
    r.AccountsFor triangles (triangles.filterMap r.indexTriangle?) := by
  refine ⟨triangles.map r.indexTriangle?, ?_, ?_⟩
  · rw [List.forall₂_map_right_iff, List.forall₂_same]
    intro t ht
    have hdropped := hnamed.indexTriangle?_eq_none_iff (hwithin t ht)
    refine ⟨fun u hu => ?_, hdropped, fun harea => ?_⟩
    · obtain ⟨-, -, rfl⟩ := indexTriangle?_eq_some_iff.1 hu
      exact orient_names (hnamed.cornersIn_lookUp (hwithin t ht))
    · rw [Option.isSome_iff_ne_none, ne_eq, hdropped, not_or]
      exact hlarge t ht harea
  · rw [List.reduceOption, List.filterMap_map]
    rfl

/-- **What the triples weigh**, together with the tiny triangles, is what the triangles weigh. -/
theorem AccountsFor.sum_eq (h : r.AccountsFor triangles triples) {f : Triangle α → ℝ}
    {g : IndexTriple → ℝ} (hsame : ∀ t s, s.Names r t → g s = f t)
    (hflat : ∀ t : Triangle α, t.HasRepeat → f t = 0) :
    (triples.map g).sum + ((triangles.filter fun t => t.IsTiny).map f).sum =
      (triangles.map f).sum := by
  obtain ⟨found, hall, rfl⟩ := h
  induction hall with
  | nil => simp
  | @cons t s rest found hfirst _ ih =>
    rw [List.map_cons, List.sum_cons, ← ih]
    cases s with
    | some u =>
      have htiny : ¬ t.IsTiny := fun htiny => by cases hfirst.dropped_iff.2 (.inl htiny)
      rw [List.reduceOption_cons_of_some, List.map_cons, List.sum_cons,
        hsame t u (hfirst.names u rfl), List.filter_cons_of_neg (by simpa using htiny), add_assoc]
    | none =>
      rw [List.reduceOption_cons_of_none]
      rcases em t.IsTiny with htiny | htiny
      · rw [List.filter_cons_of_pos (by simpa using htiny), List.map_cons, List.sum_cons]
        ring
      · have hrepeat := (hfirst.dropped_iff.1 rfl).resolve_left htiny
        rw [List.filter_cons_of_neg (by simpa using htiny), hflat t hrepeat, zero_add]

end Ring

end Accounts

/-! ## Large triangles have three corners -/

namespace Triangle

open Binary64

instance : DecidableEq (Triangle Float) := fun s t =>
  decidable_of_iff (s.a = t.a ∧ s.b = t.b ∧ s.c = t.c) (by cases s; cases t; simp)

/-- **A triangle with a corner twice** is not large, though its area may be no number. -/
theorem not_hasRepeat {t : Triangle Float} (ha : t.a.IsFinite) (hb : t.b.IsFinite)
    (hc : t.c.IsFinite) (hlarge : Tolerance.geometry * Tolerance.geometry < t.area) :
    ¬ t.HasRepeat := by
  obtain ⟨a, b, c⟩ := t
  have htol : 0 ≤ units (Tolerance.geometry * Tolerance.geometry) := by decide +kernel
  have hflat (h : Sizeless ((b.x - a.x) * (a.y - c.y) + (c.x - a.x) * (b.y - a.y))) : False :=
    h.half.abs.not_lt htol hlarge
  rintro (hab | hac | hbc)
  · obtain rfl : a = b := hab
    exact hflat (((isZero_sub_self ha.1).mul _).add ((isZero_sub_self ha.2).mul_left _))
  · obtain rfl : a = c := hac
    exact hflat (((isZero_sub_self ha.2).mul_left _).add ((isZero_sub_self ha.1).mul _))
  · obtain rfl : b = c := hbc
    exact hflat (sizeless_mul_sub ha.2 hb.2 _)

theorem area_eq_zero {t : Triangle ℝ} (h : t.HasRepeat) : t.area = 0 := by
  rw [area_eq]
  rcases h with h | h | h <;> simp [h]

end Triangle

/-! ## Areas -/

open Binary64

noncomputable section

/-- The triangle with the exact values of the coordinates. -/
def Triangle.exact (t : Triangle Float) : Triangle ℝ := ⟨t.a.exact, t.b.exact, t.c.exact⟩

/-- What corners span is decided by whole numbers. -/
theorem Point.spanned_exact_mul (p q v : Point Float) :
    p.exact.spanned q.exact v.exact * (oneUnits * oneUnits) =
      ((units q.x - units p.x) * (units v.y - units p.y) -
        (units q.y - units p.y) * (units v.x - units p.x) : ℤ) := by
  have hone := oneUnits_pos_real
  simp only [spanned, exact, value]
  push_cast
  field_simp

namespace IndexTriple

theorem mem_of_mem_cornersIn {α : Type} {r : Ring α} {s : IndexTriple} {p : Point α}
    (hp : p ∈ s.cornersIn r) : p ∈ r := by
  obtain ⟨i, -, hi⟩ := List.mem_filterMap.1 hp
  exact List.mem_of_getElem? hi

theorem cornersIn_eq {α : Type} {r : Ring α} {s : IndexTriple} (hi : s.i < r.length)
    (hj : s.j < r.length) (hk : s.k < r.length) : s.cornersIn r = [r[s.i], r[s.j], r[s.k]] := by
  simp [cornersIn, hi, hj, hk]

theorem cornersIn_map {α β : Type} (f : Point α → Point β) (s : IndexTriple) (r : Ring α) :
    s.cornersIn (r.map f) = (s.cornersIn r).map f := by
  simp only [cornersIn, List.getElem?_map, List.map_filterMap]

/-- A triple names what it names when the coordinates are read exactly. -/
theorem Names.exact {r : Ring Float} {t : Triangle Float} {s : IndexTriple} (h : s.Names r t) :
    s.Names (r.map Point.exact) t.exact := by
  simp only [Names, cornersIn_map]
  rcases h with h | h
  · exact .inl (by rw [h]; rfl)
  · exact .inr (by rw [h]; rfl)

/-- A triple takes up the area of the triangle that it names. -/
theorem Names.abs_signedArea {r : Ring ℝ} {t : Triangle ℝ} {s : IndexTriple} (h : s.Names r t) :
    |Ring.signedArea (s.cornersIn r)| = t.area := by
  rw [t.area_eq]
  rcases h with h | h
  · rw [h, Ring.signedArea_triangle]
  · rw [h, Ring.signedArea_triangle, Point.spanned_back, neg_div, abs_neg]

end IndexTriple

namespace Ring

variable {triples : List IndexTriple}

/-- **Rounded coordinates that are distinct** account for triangles between finite vertices. -/
theorem KeysDistinct.accountsFor {r : Ring Float} {triangles : List (Triangle Float)}
    (hkeys : r.KeysDistinct) (hfinite : ∀ p ∈ r, p.IsFinite)
    (hwithin : ∀ t ∈ triangles, t.Within r) :
    r.AccountsFor triangles (triangles.filterMap r.indexTriangle?) := by
  refine (hkeys.named_of_isFinite hfinite).accountsFor hwithin fun t ht harea => ?_
  obtain ⟨ha, hb, hc⟩ := hwithin t ht
  exact ⟨fun htiny => not_lt_of_le htiny harea,
    Triangle.not_hasRepeat (hfinite _ ha) (hfinite _ hb) (hfinite _ hc) harea⟩

/-- The same in exact arithmetic. -/
theorem KeysDistinct.accountsFor_exact {r : Ring ℝ} {triangles : List (Triangle ℝ)}
    (hkeys : r.KeysDistinct) (hwithin : ∀ t ∈ triangles, t.Within r) :
    r.AccountsFor triangles (triangles.filterMap r.indexTriangle?) := by
  refine hkeys.named_exact.accountsFor hwithin fun t _ harea => ⟨not_le.2 harea, fun hrepeat => ?_⟩
  rw [Triangle.area_eq_zero hrepeat] at harea
  exact absurd harea (not_lt.2 (mul_self_nonneg _))

/-- **The areas of the triples** and of the tiny triangles add up to the area of the ring. -/
theorem AccountsFor.sum_area {r : Ring ℝ} {triangles : List (Triangle ℝ)}
    (h : r.AccountsFor triangles triples) (htiles : Tiles triangles r) :
    (triples.map fun s => |signedArea (s.cornersIn r)|).sum +
      ((triangles.filter fun t => t.IsTiny).map Triangle.area).sum = |r.signedArea| := by
  rw [h.sum_eq (fun _ _ hnames => hnames.abs_signedArea) fun _ => Triangle.area_eq_zero,
    htiles.sum_area]

/-- The same for coordinates that are read exactly. -/
theorem AccountsFor.sum_exact_area {r : Ring Float} {triangles : List (Triangle Float)}
    (h : r.AccountsFor triangles triples)
    (htiles : Tiles (triangles.map Triangle.exact) (r.map Point.exact)) :
    (triples.map fun s => |signedArea (s.cornersIn (r.map Point.exact))|).sum +
      ((triangles.filter fun t => t.IsTiny).map fun t => t.exact.area).sum =
        |signedArea (r.map Point.exact)| := by
  have hflat (t : Triangle Float) (ht : t.HasRepeat) : t.exact.area = 0 := by
    refine Triangle.area_eq_zero ?_
    rcases ht with ht | ht | ht <;> simp [Triangle.HasRepeat, Triangle.exact, ht]
  rw [h.sum_eq (fun _ _ hnames => hnames.exact.abs_signedArea) hflat, ← htiles.sum_area,
    List.map_map]
  rfl

/-! ## Directions -/

/-- **In exact arithmetic** a triple never runs clockwise. -/
theorem signedArea_nonneg_of_triangulate {kernel : AreaKernel ℝ} {r : Ring ℝ}
    (h : r.triangulate kernel = .ok triples) : ∀ s ∈ triples, 0 ≤ signedArea (s.cornersIn r) := by
  intro s hs
  have hzero : (0.0 : ℝ) = 0 := by norm_num
  obtain ⟨hi, hj, hk⟩ := inRange_of_triangulate h s hs
  have hcorners := IndexTriple.cornersIn_eq hi hj hk
  obtain ⟨-, t, -, rfl⟩ := exists_of_mem_triangulate h hs
  have hback (p q v : Point ℝ) : signedArea [p, v, q] = -signedArea [p, q, v] := by
    rw [signedArea_triangle, signedArea_triangle, Point.spanned_back, neg_div]
  rw [hcorners]
  rcases signedArea_orient hcorners with hleft | hright
  · exact not_lt.1 (hzero ▸ hleft)
  · rw [hback, hzero] at hright
    linarith

/-- A triple runs counter-clockwise if its corners span enough for their distance from the
origin. -/
theorem spanned_orient_pos {r : Ring Float} {s : IndexTriple} {p q v : Point Float} {k : ℕ}
    (hk : k ≤ 500) (hreach : ∀ p ∈ r, p.InReach k) (h : (r.orient s).cornersIn r = [p, q, v])
    (hlarge : 2 ^ (2 * k) < 2 ^ 48 * |p.exact.spanned q.exact v.exact|) :
    0 < p.exact.spanned q.exact v.exact := by
  have hmem {c : Point Float} (hc : c ∈ [p, q, v]) : c.InReach k :=
    hreach c (IndexTriple.mem_of_mem_cornersIn (h ▸ hc))
  have hp : p.InReach k := hmem (by simp)
  have hq : q.InReach k := hmem (by simp)
  have hv : v.InReach k := hmem (by simp)
  have hback := p.exact.spanned_back q.exact v.exact
  rcases signedArea_orient h with hleft | hright
  · rw [signedArea_lt_zero_iff hk hp hq hv hlarge, not_lt] at hleft
    refine lt_of_le_of_ne hleft fun hzero => ?_
    rw [← hzero, abs_zero, mul_zero] at hlarge
    exact absurd hlarge (not_lt.2 (by positivity))
  · rw [signedArea_lt_zero_iff hk hp hv hq (by rwa [hback, abs_neg])] at hright
    linarith

end Ring

/-! ## Triangulations -/

/-- A kernel that leaves rings as they are and always finds the same triangles. -/
def AreaKernel.finding {α : Type} (triangles : List (Triangle α)) : AreaKernel α where
  repair r := .ok r
  difference a _ := .ok [⟨a, []⟩]
  triangles _ := .ok triangles

namespace Ring

/-- **The triples of a ring**, for kernels whose triangles lie between its vertices: all of them
have three different indices of vertices.

With binary coordinates they run counter-clockwise if what they span is not too small for their
distance from the origin; with exact ones all of them do.  Where rounded coordinates tell the
vertices apart, the triples are those of the triangles that are not tiny, with the same corners, and
their areas and those of the tiny ones add up to the area of the ring if the triangles tile it. -/
theorem triangulate_keeps_corners (kernel : AreaKernel Float) (exactKernel : AreaKernel ℝ) :
    (∀ (r : Ring Float) (triangles : List (Triangle Float)),
      3 ≤ r.length → kernel.triangles r = .ok triangles → (∀ t ∈ triangles, t.Within r) →
      ∃ triples, r.triangulate kernel = .ok triples ∧
        (∀ s ∈ triples, s.Apart ∧ s.i < r.length ∧ s.j < r.length ∧ s.k < r.length) ∧
        (∀ k ≤ 500, (∀ p ∈ r, p.InReach k) → ∀ s ∈ triples, ∀ p q v, s.cornersIn r = [p, q, v] →
          2 ^ (2 * k) < 2 ^ 48 * |p.exact.spanned q.exact v.exact| →
            0 < p.exact.spanned q.exact v.exact) ∧
        ((∀ p ∈ r, p.IsFinite) → r.KeysDistinct → r.AccountsFor triangles triples ∧
          (Tiles (triangles.map Triangle.exact) (r.map Point.exact) →
            (triples.map fun s => |signedArea (s.cornersIn (r.map Point.exact))|).sum +
              ((triangles.filter fun t => t.IsTiny).map fun t => t.exact.area).sum =
                |signedArea (r.map Point.exact)|))) ∧
    (∀ (r : Ring ℝ) (triangles : List (Triangle ℝ)),
      3 ≤ r.length → exactKernel.triangles r = .ok triangles → (∀ t ∈ triangles, t.Within r) →
      ∃ triples, r.triangulate exactKernel = .ok triples ∧
        (∀ s ∈ triples, s.Apart ∧ s.i < r.length ∧ s.j < r.length ∧ s.k < r.length ∧
          0 ≤ signedArea (s.cornersIn r)) ∧
        (r.KeysDistinct → r.AccountsFor triangles triples ∧
          (Tiles triangles r → (triples.map fun s => signedArea (s.cornersIn r)).sum +
            ((triangles.filter fun t => t.IsTiny).map Triangle.area).sum = |r.signedArea|))) := by
  constructor
  · intro r triangles h3 htriangles hwithin
    have hok := triangulate_eq_ok h3 htriangles
    refine ⟨_, hok, fun s hs => ⟨apart_of_triangulate hok s hs, inRange_of_triangulate hok s hs⟩,
      fun k hk hreach s hs p q v hcorners hlarge => ?_, fun hfinite hkeys => ?_⟩
    · obtain ⟨-, t, -, rfl⟩ := exists_of_mem_triangulate hok hs
      exact spanned_orient_pos hk hreach hcorners hlarge
    · have haccounts := hkeys.accountsFor hfinite hwithin
      exact ⟨haccounts, haccounts.sum_exact_area⟩
  · intro r triangles h3 htriangles hwithin
    have hok := triangulate_eq_ok h3 htriangles
    have hleft := signedArea_nonneg_of_triangulate hok
    refine ⟨_, hok, fun s hs => ?_, fun hkeys => ?_⟩
    · obtain ⟨hi, hj, hk⟩ := inRange_of_triangulate hok s hs
      exact ⟨apart_of_triangulate hok s hs, hi, hj, hk, hleft s hs⟩
    · have haccounts := hkeys.accountsFor_exact hwithin
      refine ⟨haccounts, fun htiles => ?_⟩
      rw [← haccounts.sum_area htiles]
      congr 2
      exact List.map_congr_left fun s hs => (abs_of_nonneg (hleft s hs)).symm

/-- A square without one of its quarters. -/
def bend : Ring Float :=
  [⟨0.0, 0.0⟩, ⟨4.0, 0.0⟩, ⟨4.0, 2.0⟩, ⟨2.0, 2.0⟩, ⟨2.0, 4.0⟩, ⟨0.0, 4.0⟩]

/-- The triangles that it falls into. -/
def bendTriangles : List (Triangle Float) :=
  [⟨⟨2.0, 2.0⟩, ⟨0.0, 4.0⟩, ⟨2.0, 4.0⟩⟩, ⟨⟨2.0, 2.0⟩, ⟨4.0, 2.0⟩, ⟨4.0, 0.0⟩⟩,
    ⟨⟨0.0, 4.0⟩, ⟨2.0, 2.0⟩, ⟨0.0, 0.0⟩⟩, ⟨⟨2.0, 2.0⟩, ⟨4.0, 0.0⟩, ⟨0.0, 0.0⟩⟩]

/-- The coordinates of the bend are whole numbers. -/
theorem bend_values : value 0.0 = (0 : ℤ) ∧ value 2.0 = (2 : ℤ) ∧ value 4.0 = (4 : ℤ) :=
  ⟨value_eq (by decide +kernel), value_eq (by decide +kernel), value_eq (by decide +kernel)⟩

theorem bend_exact : bend.map Point.exact =
    [(0, 0), (4, 0), (4, 2), (2, 2), (2, 4), (0, 4)].map Point.ofInts := by
  obtain ⟨h0, h2, h4⟩ := bend_values
  simp [bend, Point.exact, Point.ofInts, h0, h2, h4]

theorem bendTriangles_tile : Tiles (bendTriangles.map Triangle.exact) (bend.map Point.exact) := by
  obtain ⟨h0, h2, h4⟩ := bend_values
  have hfill : Triangulates 6 [⟨3, 4, 5⟩, ⟨3, 1, 2⟩, ⟨5, 0, 3⟩, ⟨3, 0, 1⟩] :=
    ⟨[(5, 3), (3, 1), (0, 3)], by decide⟩
  rw [bend_exact]
  refine Triangulates.tiles hfill ?_
  norm_num [bendTriangles, Triangle.exact, Point.exact, h0, h2, h4, Triangle.leftward,
    Point.spanned, around, Point.ofInts]

/-- **The bend** falls into four triangles whose areas add up to its own, in binary arithmetic and
in exact one. -/
theorem bend_keeps_corners :
    (∃ triples, bend.triangulate AreaKernel.binary64 = .ok triples ∧
      bend.AccountsFor bendTriangles triples ∧
      (∀ s ∈ triples, ∀ p q v, s.cornersIn bend = [p, q, v] →
        2 ^ (2 * 2) < 2 ^ 48 * |p.exact.spanned q.exact v.exact| →
          0 < p.exact.spanned q.exact v.exact) ∧
      (triples.map fun s => |signedArea (s.cornersIn (bend.map Point.exact))|).sum = 12) ∧
    ∃ triples, triangulate (.finding (bendTriangles.map Triangle.exact)) (bend.map Point.exact) =
        .ok triples ∧
      (triples.map fun s => signedArea (s.cornersIn (bend.map Point.exact))).sum = 12 := by
  obtain ⟨h0, h2, h4⟩ := bend_values
  have hreach : ∀ p ∈ bend, p.InReach 2 := by
    have hfinite : ∀ p ∈ bend, p.IsFinite := by decide +kernel
    refine fun p hp => ⟨hfinite p hp, ?_, ?_⟩ <;> revert p <;> norm_num [bend, h0, h2, h4]
  have hwithin : ∀ t ∈ bendTriangles, t.Within bend := by
    simp [bendTriangles, Triangle.Within, bend]
  have harea : signedArea (bend.map Point.exact) = 12 := by
    rw [bend_exact]
    norm_num [signedArea, edges, Point.ofInts]
  obtain ⟨hbinary, hexact⟩ := triangulate_keeps_corners .binary64
    (.finding (bendTriangles.map Triangle.exact))
  constructor
  · obtain ⟨triples, hok, -, hleft, hrest⟩ :=
      hbinary bend bendTriangles (by decide) (by decide +kernel) hwithin
    obtain ⟨haccounts, hsum⟩ := hrest (fun p hp => (hreach p hp).finite) (by decide +kernel)
    refine ⟨triples, hok, haccounts, hleft 2 (by decide) hreach, ?_⟩
    have hnone : (bendTriangles.filter fun t => t.IsTiny) = [] := by decide +kernel
    rw [hnone, List.map_nil, List.sum_nil, add_zero, harea] at hsum
    rw [hsum bendTriangles_tile]
    norm_num
  · have hwithin' : ∀ t ∈ bendTriangles.map Triangle.exact, t.Within (bend.map Point.exact) := by
      intro t ht
      obtain ⟨u, hu, rfl⟩ := List.mem_map.1 ht
      obtain ⟨ha, hb, hc⟩ := hwithin u hu
      exact ⟨List.mem_map_of_mem ha, List.mem_map_of_mem hb, List.mem_map_of_mem hc⟩
    obtain ⟨triples, hok, -, hrest⟩ :=
      hexact (bend.map Point.exact) _ (by decide) rfl hwithin'
    have hkeys : KeysDistinct (bend.map Point.exact) :=
      bend_exact ▸ keysDistinct_map_ofInts (by decide)
    obtain ⟨-, hsum⟩ := hrest hkeys
    refine ⟨triples, hok, ?_⟩
    have hnone : ((bendTriangles.map Triangle.exact).filter fun t => t.IsTiny) = [] := by
      norm_num [bendTriangles, Triangle.exact, Point.exact, h0, h2, h4, Triangle.IsTiny,
        Triangle.area_eq, Point.spanned, Tolerance.geometry]
    rw [hnone, List.map_nil, List.sum_nil, add_zero, harea] at hsum
    rw [hsum bendTriangles_tile]
    norm_num

/-- A thin triangle, which runs clockwise. -/
def sliverTriangle : Triangle Float :=
  ⟨⟨4468000.84, 5334008.17⟩, ⟨4468003.89, 5334006.95⟩, ⟨4468003.86, 5334006.96⟩⟩

/-- Its corners run the other way, far from the origin. -/
def sliver : Ring Float := [sliverTriangle.a, sliverTriangle.c, sliverTriangle.b]

/-- **The shoelace sum of the sliver** has the wrong sign.  The one triangle that it falls into runs
clockwise, and is not turned round. -/
theorem sliver_turns_right :
    AreaKernel.binary64.triangles sliver = .ok [sliverTriangle] ∧ sliverTriangle.Within sliver ∧
      Tiles [sliverTriangle.exact] (sliver.map Point.exact) ∧ (∀ p ∈ sliver, p.IsFinite) ∧
      sliver.KeysDistinct ∧ Tolerance.geometry * Tolerance.geometry < sliverTriangle.area ∧
      sliver.triangulate AreaKernel.binary64 = .ok [⟨0, 2, 1⟩] ∧
      signedArea (IndexTriple.cornersIn ⟨0, 2, 1⟩ (sliver.map Point.exact)) < 0 := by
  have hright :
      sliverTriangle.a.exact.spanned sliverTriangle.b.exact sliverTriangle.c.exact < 0 := by
    refine neg_of_mul_neg_left ?_ (mul_pos oneUnits_pos_real oneUnits_pos_real).le
    rw [Point.spanned_exact_mul, Int.cast_lt_zero]
    decide +kernel
  have hring : sliverTriangle.exact.leftward = sliver.map Point.exact := if_neg (not_le.2 hright)
  have hwithin : sliverTriangle.Within sliver := by simp [Triangle.Within, sliver]
  refine ⟨by decide +kernel, hwithin, hring ▸ Triangle.tiles_leftward _, by decide +kernel,
    by decide +kernel, by decide +kernel, by decide +kernel, ?_⟩
  have hcorners : IndexTriple.cornersIn ⟨0, 2, 1⟩ (sliver.map Point.exact) =
      [sliverTriangle.a.exact, sliverTriangle.b.exact, sliverTriangle.c.exact] := rfl
  rw [hcorners, signedArea_triangle]
  linarith

end Ring

end

end Housewright
