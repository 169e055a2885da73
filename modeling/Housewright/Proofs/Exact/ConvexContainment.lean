import Housewright.Proofs.Exact.Chords
import Housewright.Proofs.Exact.RayParity

/-!
# Points in convex rings

A ring contains the points on the inner side of all its edges, if each edge has all other vertices
on that side.

* `Ring.ConvexTo` says so of a ring that is run counter-clockwise, or clockwise;
* `meetsRay_eq_of_left`: from the inside a ray to the right meets the edges that go up past its
  height (`RisesPast`), and `Ring.ConvexTo.rayHits_eq_one`: there is one such edge;
* `Ring.ConvexTo.even_rayHits`: from a point that is not inside and on no edge, the ray meets an
  even number of edges;
* `Ring.ConvexTo.reverse`: run backwards, the inside is on the other hand;
* `Ring.convex_contains_iff`: what such a ring contains.
-/

namespace Housewright

noncomputable section

/-- The two ways around a ring. -/
inductive Winding where
  | counterClockwise
  | clockwise
  deriving DecidableEq

/-- The point is strictly on the inner side of the edge from `a` to `b`. -/
def Winding.Inner (w : Winding) (a b v : Point ℝ) : Prop :=
  match w with
  | .counterClockwise => 0 < a.spanned b v
  | .clockwise => a.spanned b v < 0

namespace Ring

/-- **A convex ring**: each of its edges has all vertices but its own ends strictly on the inner
side. -/
structure ConvexTo (w : Winding) (r : Ring ℝ) : Prop where
  three_le : 3 ≤ r.length
  others : ∀ i < r.length, ∀ j < r.length, j ≠ i → j ≠ (i + 1) % r.length →
    w.Inner (r.around i) (r.around (i + 1)) (r.around j)

end Ring

/-! ## The edges that a ray meets -/

/-- The segment from `a` to `b` goes up past the height of a point. -/
def RisesPast (p a b : Point ℝ) : Prop := a.y ≤ p.y ∧ p.y < b.y

instance (p a b : Point ℝ) : Decidable (RisesPast p a b) := inferInstanceAs (Decidable (_ ∧ _))

theorem RisesPast.passesLevel {p a b : Point ℝ} (h : RisesPast p a b) :
    passesLevel p a b = true := by
  simp [Housewright.passesLevel, not_lt.2 h.1, h.2]

@[simp] theorem spanned_levelPoint (p a b : Point ℝ) : a.spanned b (levelPoint p a b) = 0 := by
  rw [levelPoint, Point.spanned_along_right, Point.spanned_return, Point.spanned_self]
  ring

/-- **From the left of a segment** a ray meets it if it goes up past the point. -/
theorem meetsRay_eq_of_left {p a b : Point ℝ} (hp : 0 < a.spanned b p) :
    meetsRay p a b = decide (RisesPast p a b) := by
  unfold meetsRay
  by_cases hpass : passesLevel p a b
  · obtain ⟨hy, -, -⟩ := levelPoint_spec hpass
    have hgain : 0 < (b.y - a.y) * ((levelPoint p a b).x - p.x) := by
      have hline := spanned_levelPoint p a b
      rw [Point.spanned] at hp hline
      rw [hy] at hline
      linarith
    rw [hpass, Bool.true_and, decide_eq_decide]
    rw [passesLevel, bne_iff_ne, ne_eq, decide_eq_decide] at hpass
    constructor
    · intro hx
      have hup : 0 < b.y - a.y := pos_of_mul_pos_left hgain (sub_nonneg.2 hx.le)
      exact ⟨not_lt.1 fun ha => hpass (iff_of_true ha (by linarith)),
        not_le.1 fun hb => hpass (iff_of_false (by linarith) (not_lt.2 hb))⟩
    · rintro ⟨ha, hb⟩
      exact sub_pos.1 (pos_of_mul_pos_right hgain (by linarith))
  · have hfalls : ¬ RisesPast p a b := fun hrise => hpass hrise.passesLevel
    rw [Bool.not_eq_true] at hpass
    rw [hpass, Bool.false_and, decide_eq_false hfalls]

/-- Of two segments that go up past a point, one that begins to the left of the other and stays
there is to the left of it at that height. -/
theorem levelPoint_lt {p a b c d : Point ℝ} (hrise : RisesPast p a b) (hrise' : RisesPast p c d)
    (hc : 0 < a.spanned b c) (hd : 0 ≤ a.spanned b d) :
    (levelPoint p c d).x < (levelPoint p a b).x := by
  obtain ⟨hy, -, -⟩ := levelPoint_spec hrise.passesLevel
  obtain ⟨hy', h0, -⟩ := levelPoint_spec hrise'.passesLevel
  obtain ⟨ha, hb⟩ := hrise
  obtain ⟨hc', hd'⟩ := hrise'
  have hshort : (p.y - c.y) / (d.y - c.y) < 1 := (div_lt_one (by linarith)).2 (by linarith)
  have hleft : 0 < a.spanned b (levelPoint p c d) := by
    rw [levelPoint, Point.spanned_along_right]
    exact add_pos_of_pos_of_nonneg (mul_pos (sub_pos.2 hshort) hc) (mul_nonneg h0 hd)
  have hline := spanned_levelPoint p a b
  rw [Point.spanned, hy'] at hleft
  rw [Point.spanned, hy] at hline
  have hgain : 0 < (b.y - a.y) * ((levelPoint p a b).x - (levelPoint p c d).x) := by linarith
  exact sub_pos.1 (pos_of_mul_pos_right hgain (by linarith))

/-- A corner that is seen on the inner side from a point of its two edges, and is extreme in some
direction up or down, is beyond the point. -/
theorem Point.corner_beyond {u v w p : Point ℝ} (huv : 0 < u.spanned v p)
    (hvw : 0 < v.spanned w p) (hturn : 0 < u.spanned v w) {d : ℝ} (hd : d ≠ 0)
    (hu : d * u.y ≤ d * v.y) (hw : d * w.y ≤ d * v.y) : d * p.y < d * v.y := by
  have hheights : (d * v.y - d * u.y) * v.spanned w p + (d * v.y - d * w.y) * u.spanned v p =
      (d * v.y - d * p.y) * u.spanned v w := by
    simp only [spanned]
    ring
  by_contra hnot
  have hleft := mul_nonneg (sub_nonneg.2 hu) hvw.le
  have hright := mul_nonneg (sub_nonneg.2 hw) huv.le
  have hdown : (d * v.y - d * p.y) * u.spanned v w ≤ 0 :=
    mul_nonpos_of_nonpos_of_nonneg (sub_nonpos.2 (not_lt.1 hnot)) hturn.le
  -- then the whole corner is level
  have hu0 : d * v.y - d * u.y = 0 :=
    (mul_eq_zero.1 (le_antisymm (by linarith) hleft)).resolve_right hvw.ne'
  have hw0 : d * v.y - d * w.y = 0 :=
    (mul_eq_zero.1 (le_antisymm (by linarith) hright)).resolve_right huv.ne'
  have huy : v.y = u.y := mul_left_cancel₀ hd (sub_eq_zero.1 hu0)
  have hwy : v.y = w.y := mul_left_cancel₀ hd (sub_eq_zero.1 hw0)
  rw [spanned, ← huy, ← hwy] at hturn
  linarith

/-- A point of the line through two points is reached along it. -/
theorem Point.exists_along {a b p : Point ℝ} (hne : a ≠ b) (hline : a.spanned b p = 0) :
    ∃ t, p = a.along b t := by
  have hlength : (b.x - a.x) ^ 2 + (b.y - a.y) ^ 2 ≠ 0 := by
    intro hzero
    have hx : b.x - a.x = 0 := by nlinarith
    have hy : b.y - a.y = 0 := by nlinarith
    exact hne (eq_of_coordinates (sub_eq_zero.1 hx).symm (sub_eq_zero.1 hy).symm)
  rw [spanned] at hline
  obtain ⟨t, hx, hy⟩ := HalfPlane.exists_multiple (v := p) (w := a) hlength (by linarith)
  exact ⟨t, eq_of_coordinates hx hy⟩

namespace Ring

variable {r : Ring ℝ} {p v : Point ℝ}

/-! ## Counter-clockwise rings -/

/-- Seen from an edge, the vertices after its ends lie to the left. -/
theorem ConvexTo.spanned_pos (hr : r.ConvexTo .counterClockwise) (i : ℕ) {k : ℕ} (h2 : 2 ≤ k)
    (hk : k < r.length) : 0 < (r.around i).spanned (r.around (i + 1)) (r.around (i + k)) := by
  have hn : 0 < r.length := by omega
  have hapart {l : ℕ} (hl : l < k) : (i + k) % r.length ≠ (i + l) % r.length := by
    intro heq
    have hsame := Nat.ModEq.add_left_cancel' i heq
    rw [Nat.ModEq, Nat.mod_eq_of_lt hk, Nat.mod_eq_of_lt (hl.trans hk)] at hsame
    exact hl.ne' hsame
  have hleft := hr.others (i % r.length) (Nat.mod_lt i hn) ((i + k) % r.length) (Nat.mod_lt _ hn)
    (hapart (l := 0) (by omega)) (by rw [Nat.mod_add_mod]; exact hapart (by omega))
  rwa [around_mod, around_mod, around_mod_add] at hleft

/-- An edge has the whole ring to its left. -/
theorem ConvexTo.spanned_nonneg (hr : r.ConvexTo .counterClockwise) (i : ℕ) (hv : v ∈ r) :
    0 ≤ (r.around i).spanned (r.around (i + 1)) v := by
  obtain ⟨k, hk, rfl⟩ := exists_around_add hv i
  match k with
  | 0 => exact (Point.spanned_return _ _).ge
  | 1 => rw [Point.spanned_self]
  | k + 2 => exact (hr.spanned_pos i (by omega) hk).le

/-- The ring reaches beyond a point on the inner side of its edges, up and down. -/
theorem ConvexTo.exists_beyond (hr : r.ConvexTo .counterClockwise)
    (hin : ∀ i, 0 < (r.around i).spanned (r.around (i + 1)) p) {d : ℝ} (hd : d ≠ 0) :
    ∃ v ∈ r, d * p.y < d * v.y := by
  have h3 := hr.three_le
  obtain ⟨k, hk, hmax⟩ := Finset.exists_max_image (Finset.range r.length)
    (fun i => d * (r.around i).y) ⟨0, Finset.mem_range.2 (by omega)⟩
  have hall (i : ℕ) : d * (r.around i).y ≤ d * (r.around k).y := by
    rw [← around_mod]
    exact hmax _ (Finset.mem_range.2 (Nat.mod_lt _ (by omega)))
  have hk := Finset.mem_range.1 hk
  have hlap : r.around (k + (r.length - 1) + 1) = r.around k := by
    rw [show k + (r.length - 1) + 1 = k + r.length by omega, around_add_length]
  have hbefore := hin (k + (r.length - 1))
  have hafter := hin (k + (r.length - 1) + 1)
  have hturn := hr.spanned_pos (k + (r.length - 1)) le_rfl h3
  rw [hlap] at hbefore hafter hturn
  refine ⟨r.around k, ?_, Point.corner_beyond hbefore hafter hturn hd (hall _) (hall _)⟩
  rw [around_eq_getElem hk]
  exact List.getElem_mem hk

/-- Some edge goes up past a point on the inner side of all edges. -/
theorem ConvexTo.exists_rise (hr : r.ConvexTo .counterClockwise)
    (hin : ∀ i, 0 < (r.around i).spanned (r.around (i + 1)) p) :
    ∃ i < r.length, RisesPast p (r.around i) (r.around (i + 1)) := by
  have hn : 0 < r.length := by have := hr.three_le; omega
  obtain ⟨low, hlow, hlowY⟩ := hr.exists_beyond hin (d := -1) (by norm_num)
  obtain ⟨high, hhigh, hhighY⟩ := hr.exists_beyond hin one_ne_zero
  obtain ⟨i, hi, rfl⟩ := exists_around_add hlow 0
  obtain ⟨m, hm, rfl⟩ := exists_around_add hhigh i
  rw [Nat.zero_add] at hlowY
  obtain ⟨k, hk, hk'⟩ := Nat.exists_not_and_succ_of_not_zero_of_exists
    (p := fun k => p.y < (r.around (i + k)).y) (by rw [Nat.add_zero]; linarith) ⟨m, by linarith⟩
  refine ⟨(i + k) % r.length, Nat.mod_lt _ hn, ?_⟩
  rw [around_mod, around_mod_add]
  exact ⟨not_lt.1 hk, hk'⟩

/-- Of two edges that go up past a point, each would be to the left of the other one there. -/
theorem ConvexTo.rise_unique (hr : r.ConvexTo .counterClockwise) {i j : ℕ} (hi : i < r.length)
    (hj : j < r.length) (hrise : RisesPast p (r.around i) (r.around (i + 1)))
    (hrise' : RisesPast p (r.around j) (r.around (j + 1))) : j = i := by
  have hleft {i j : ℕ} (hi : i < r.length) (hj : j < r.length) (hne : j ≠ i)
      (hrise : RisesPast p (r.around i) (r.around (i + 1)))
      (hrise' : RisesPast p (r.around j) (r.around (j + 1))) :
      (levelPoint p (r.around j) (r.around (j + 1))).x <
        (levelPoint p (r.around i) (r.around (i + 1))).x := by
    refine levelPoint_lt hrise hrise' (hr.others i hi j hj hne fun hnext => ?_) ?_
    · -- the edge after one that goes up past the point begins above it
      rw [hnext, around_mod] at hrise'
      exact not_lt.2 hrise'.1 hrise.2
    · exact hr.spanned_nonneg i (mem_of_mem_edges (mem_edges_around (by omega) j)).2
  by_contra hne
  exact lt_asymm (hleft hi hj hne hrise hrise') (hleft hj hi (Ne.symm hne) hrise' hrise)

/-- **From a point on the inner side of all edges** a ray meets one edge. -/
theorem ConvexTo.rayHits_eq_one (hr : r.ConvexTo .counterClockwise)
    (hin : ∀ i, 0 < (r.around i).spanned (r.around (i + 1)) p) : r.rayHits p = 1 := by
  obtain ⟨i, hi, hrise⟩ := hr.exists_rise hin
  have hone : (List.range r.length).filter (fun j =>
      decide (RisesPast p (r.around j) (r.around (j + 1)))) = [i] := by
    refine eq_singleton_of_nodup (List.nodup_range.filter _) ?_ fun j hj => ?_
    · exact List.mem_filter.2 ⟨List.mem_range.2 hi, decide_eq_true hrise⟩
    · obtain ⟨hj, hrise'⟩ := List.mem_filter.1 hj
      exact hr.rise_unique hi (List.mem_range.1 hj) hrise (of_decide_eq_true hrise')
  have hmeets : (fun e : Point ℝ × Point ℝ => meetsRay p e.2 e.1) ∘
      (fun j => (r.around j, r.around (j + 1))) =
        fun j => decide (RisesPast p (r.around j) (r.around (j + 1))) := by
    funext j
    rw [Function.comp_apply, meetsRay_comm, meetsRay_eq_of_left (hin j)]
  rw [rayHits, edges_eq_map, List.countP_map, hmeets, List.countP_eq_length_filter, hone,
    List.length_singleton]

/-- **From a point that is not on the inner side of all edges**, and on none of them, a ray meets
an even number of edges. -/
theorem ConvexTo.even_rayHits (hr : r.ConvexTo .counterClockwise) {i : ℕ}
    (hout : (r.around i).spanned (r.around (i + 1)) p ≤ 0)
    (hoff : ∀ t, 0 ≤ t → t ≤ 1 → p ≠ (r.around i).along (r.around (i + 1)) t) :
    Even (r.rayHits p) := by
  have h3 := hr.three_le
  have hright {j : ℕ} (h : (r.around j).spanned (r.around (j + 1)) p < 0) : Even (r.rayHits p) :=
    even_rayHits_of_right (fun v hv => hr.spanned_nonneg j hv) h
  rcases hout.lt_or_eq with hneg | hline
  · exact hright hneg
  have hnext := hr.spanned_pos i le_rfl h3
  have hends : r.around i ≠ r.around (i + 1) := fun heq => by
    rw [heq, Point.spanned_stay] at hnext
    exact lt_irrefl 0 hnext
  obtain ⟨t, rfl⟩ := Point.exists_along hends hline
  by_cases h0 : 0 ≤ t
  · -- beyond the end of the edge, the point is to the right of the next edge
    have h1 : 1 < t := not_le.1 fun h1 => hoff t h0 h1 rfl
    refine hright (j := i + 1) ?_
    rw [Point.spanned_along_right, Point.spanned_return, mul_zero, add_zero, ← Point.spanned_rotate]
    exact mul_neg_of_neg_of_pos (sub_neg.2 h1) hnext
  · -- before its start, to the right of the edge before
    have hbefore := hr.spanned_pos (i + (r.length - 1)) le_rfl h3
    have hlap : i + (r.length - 1) + 1 = i + r.length := by omega
    have hlap' : i + (r.length - 1) + 2 = i + 1 + r.length := by omega
    rw [hlap, hlap', around_add_length, around_add_length] at hbefore
    refine hright (j := i + (r.length - 1)) ?_
    rw [hlap, around_add_length, Point.spanned_along_right, Point.spanned_self, mul_zero, zero_add]
    exact mul_neg_of_neg_of_pos (not_le.1 h0) hbefore

/-- A convex ring that is run counter-clockwise has a positive area. -/
theorem ConvexTo.signedArea_pos (hr : r.ConvexTo .counterClockwise) : 0 < r.signedArea := by
  have h3 := hr.three_le
  have hfirst : r.around 0 ∈ r := by
    rw [around_eq_getElem (by omega)]
    exact List.getElem_mem _
  rw [signedArea_eq_sum (r.around 0), edges_eq_map, List.map_map, sum_map_range]
  refine div_pos (Finset.sum_pos' (fun i _ => ?_) ⟨1, Finset.mem_range.2 (by omega), ?_⟩) two_pos
  · rw [Function.comp_apply, Point.spanned_rotate]
    exact hr.spanned_nonneg i hfirst
  · exact hr.spanned_pos 0 le_rfl h3

/-! ## Either way around -/

/-- **Run backwards**, a convex ring has its inside on the other hand. -/
theorem ConvexTo.reverse (hr : r.ConvexTo .clockwise) :
    ConvexTo .counterClockwise r.reverse := by
  refine ⟨by rw [List.length_reverse]; exact hr.three_le, fun i hi j hj hji hjnext => ?_⟩
  have hnext : (i + 1) % List.length r.reverse < List.length r.reverse := Nat.mod_lt _ (by omega)
  rw [← around_mod _ (i + 1)]
  rw [List.length_reverse] at hi hj hjnext hnext ⊢
  rw [around_reverse hi, around_reverse hnext, around_reverse hj]
  -- the edge into the `i`th vertex of the reversed ring begins at the next one
  have hback : (r.length - 1 - (i + 1) % r.length + 1) % r.length = r.length - 1 - i := by
    obtain hlt | heq := (Nat.succ_le_of_lt hi).lt_or_eq
    · rw [Nat.mod_eq_of_lt hlt, Nat.mod_eq_of_lt (by omega)]
      omega
    · rw [show i + 1 = r.length from heq, Nat.mod_self, Nat.sub_zero, Nat.sub_add_cancel (by omega),
        Nat.mod_self]
      omega
  have hright := hr.others (r.length - 1 - (i + 1) % r.length) (by omega) (r.length - 1 - j)
    (by omega) (by omega) (by rw [hback]; omega)
  rw [← around_mod r (_ + 1), hback] at hright
  show 0 < Point.spanned _ _ _
  rw [Point.spanned_swap]
  exact neg_pos.2 hright

/-- The inner side of an edge is the same one if the edge is run backwards in a reversed ring. -/
theorem inner_swap {a b : Point ℝ} :
    Winding.counterClockwise.Inner b a p ↔ Winding.clockwise.Inner a b p := by
  rw [Winding.Inner, Winding.Inner, Point.spanned_swap, neg_pos]

/-- What a convex ring that is run counter-clockwise contains. -/
theorem ConvexTo.contains_of_counterClockwise (hr : r.ConvexTo .counterClockwise)
    (hlong : ∀ e ∈ r.edges, Tolerance.geometry ≤ (Vec.between e.1 e.2).length) {eps : ℝ}
    (heps : 0 ≤ eps) (p : Point ℝ) :
    r.contains p eps = .ok true ↔ (∃ e ∈ r.edges, p.IsNear e.1 e.2 eps) ∨
      ∀ e ∈ r.edges, Winding.counterClockwise.Inner e.1 e.2 p := by
  have hnear : r.IsNearEdge p eps ↔ ∃ e ∈ r.edges, p.IsNear e.1 e.2 eps := by
    refine exists_congr fun e => and_congr_right fun he => ?_
    rw [Point.isNear_iff (hlong e he), footOnSegment_comm p (.inr (hlong e he))]
  rw [contains_eq_true_iff, hnear, and_iff_right hr.three_le]
  refine or_congr_right' fun hfar => ⟨fun hodd => ?_, fun hin => ?_⟩
  · by_contra hout
    push Not at hout
    obtain ⟨e, he, hout⟩ := hout
    obtain ⟨i, hi, rfl⟩ := List.mem_map.1 (edges_eq_map r ▸ he)
    refine Nat.not_even_iff_odd.2 hodd (hr.even_rayHits (not_lt.1 hout) fun t h0 h1 heq => ?_)
    exact hfar ⟨_, he, t, h0, h1, by rw [← heq, Point.gap_self]; exact heps⟩
  · have hn : 0 < r.length := by have := hr.three_le; omega
    rw [hr.rayHits_eq_one fun i => hin _ (mem_edges_around hn i)]
    exact odd_one

/-- **What a convex ring contains**: whichever way it is run, it contains the points that are near
an edge, and those that are strictly on the inner side of every edge. -/
theorem convex_contains_iff {w : Winding} (hr : r.ConvexTo w)
    (hlong : ∀ e ∈ r.edges, Tolerance.geometry ≤ (Vec.between e.1 e.2).length) {eps : ℝ}
    (heps : 0 ≤ eps) (p : Point ℝ) :
    (r.isCounterClockwise = true ↔ w = .counterClockwise) ∧
      ∃ inside, r.contains p eps = .ok inside ∧
        (inside = true ↔ (∃ e ∈ r.edges, p.IsNear e.1 e.2 eps) ∨
          ∀ e ∈ r.edges, w.Inner e.1 e.2 p) := by
  obtain ⟨inside, hinside⟩ := r.exists_contains p eps
  have hzero : (0.0 : ℝ) = 0 := by norm_num
  rw [isCounterClockwise, decide_eq_true_iff, hzero]
  cases w with
  | counterClockwise =>
    refine ⟨iff_of_true hr.signedArea_pos rfl, inside, hinside, ?_⟩
    rw [← hr.contains_of_counterClockwise hlong heps, hinside, Except.ok.injEq]
  | clockwise =>
    have hpos := hr.reverse.signedArea_pos
    rw [signedArea_reverse] at hpos
    refine ⟨iff_of_false (by linarith) (by decide), inside, hinside, ?_⟩
    have hedge {P : Point ℝ × Point ℝ → Prop} :
        (∀ e ∈ edges r.reverse, P e) ↔ ∀ e ∈ r.edges, P e.swap := by
      simp only [(edges_reverse_perm r).mem_iff, List.forall_mem_map]
    have hlong' : ∀ e ∈ edges r.reverse, Tolerance.geometry ≤ (Vec.between e.1 e.2).length := by
      refine hedge.2 fun e he => (hlong e he).trans_eq ?_
      rw [Prod.fst_swap, Prod.snd_swap, Vec.length_between_comm]
    have hturned := hr.reverse.contains_of_counterClockwise hlong' heps p
    rw [contains_reverse fun e he => .inr (hlong e he), hinside, Except.ok.injEq] at hturned
    rw [hturned, hedge]
    refine or_congr ?_ (forall₂_congr fun e _ => inner_swap)
    simp only [(edges_reverse_perm r).mem_iff, List.mem_map, exists_exists_and_eq_and,
      Prod.fst_swap, Prod.snd_swap]
    exact exists_congr fun e => and_congr_right fun _ => Point.isNear_comm

/-- A square that stands on a corner, run clockwise. -/
def lozenge : Ring ℝ := [⟨0, 4⟩, ⟨4, 8⟩, ⟨8, 4⟩, ⟨4, 0⟩]

/-- The lozenge contains a point that is as high as two of its corners. -/
theorem lozenge_contains_level :
    lozenge.ConvexTo .clockwise ∧
    (∀ e ∈ lozenge.edges, Tolerance.geometry ≤ (Vec.between e.1 e.2).length) ∧
    (0 : ℝ) ≤ Tolerance.geometry ∧ lozenge.isCounterClockwise = false ∧
    (∀ e ∈ lozenge.edges, Winding.clockwise.Inner e.1 e.2 ⟨3, 4⟩) ∧
    lozenge.contains ⟨3, 4⟩ Tolerance.geometry = .ok true := by
  have hconvex : lozenge.ConvexTo .clockwise := by
    refine ⟨by decide, fun i hi j hj hji hjnext => ?_⟩
    change i < 4 at hi
    change j < 4 at hj
    change j ≠ (i + 1) % 4 at hjnext
    show Point.spanned _ _ _ < 0
    interval_cases i <;> interval_cases j <;>
      first
      | exact absurd rfl hji
      | exact absurd rfl hjnext
      | norm_num [around, lozenge, Point.spanned]
  have hlong : ∀ e ∈ lozenge.edges, Tolerance.geometry ≤ (Vec.between e.1 e.2).length := by
    simp only [Vec.geometry_le_length_iff]
    norm_num [lozenge, edges, Vec.between, Tolerance.geometry]
  have hin : ∀ e ∈ lozenge.edges, Winding.clockwise.Inner e.1 e.2 ⟨3, 4⟩ := by
    norm_num [lozenge, edges, Winding.Inner, Point.spanned]
  obtain ⟨hturn, inside, hinside, hiff⟩ :=
    convex_contains_iff hconvex hlong HalfPlane.geometry_pos.le ⟨3, 4⟩
  refine ⟨hconvex, hlong, HalfPlane.geometry_pos.le, ?_, hin, ?_⟩
  · rw [← Bool.not_eq_true, hturn]
    decide
  · rw [hinside, hiff.2 (.inr hin)]

end Ring

end

end Housewright
