import Mathlib.Algebra.BigOperators.Intervals
import Housewright.Proofs.Exact.ConvexRing
import Housewright.Proofs.Exact.SplitArea

/-!
# Rings as cycles

What belongs to a ring as a cycle does not depend on the vertex it begins with, and is turned
around when the ring is run backwards.

* `Ring.edgesInto_perm_edges`, `Ring.edges_reverse_perm`: both ways of listing the edges list the
  same ones, and the edges of a reversed ring are the reversed edges;
* `Ring.around` numbers the vertices for ever, so that sums over a ring are sums over a period
  (`Ring.edges_eq_map`, `Ring.corners_eq_map`);
* `Ring.signedArea_eq_sum`, `Ring.signedArea_reverse`, `Ring.TurnsLeft.signedArea_pos`: the area
  as a sum over the edges, its sign for a reversed ring and for a ring that turns left;
* `Ring.StrictlyConvex`: a ring that turns left, or does so when it is run backwards.
-/

namespace Housewright

/-! ## Edges in either direction -/

section Edges

variable {α : Type} {r : Ring α} {p last : Point α}

/-- The edges of a path that is prolonged. -/
theorem zip_append_singleton (p x : Point α) (points : List (Point α)) :
    (p :: points).zip (points ++ [x]) =
      (p :: points).zip points ++ [(points.getLastD p, x)] := by
  induction points generalizing p with
  | nil => rfl
  | cons q rest ih =>
    rw [List.cons_append, List.zip_cons_cons, ih, List.zip_cons_cons, List.getLastD_cons]
    rfl

/-- A ring is run from its first vertex back to it. -/
theorem Ring.edges_cons (p : Point α) (rest : List (Point α)) :
    edges (p :: rest) = (p :: rest ++ [p]).zip (rest ++ [p]) := by
  have hzip : ((p :: rest) ++ [p]).zip ((rest ++ [p]) ++ []) =
      (p :: rest).zip (rest ++ [p]) ++ [p].zip [] := List.zip_append (by simp)
  rw [List.append_nil, List.zip_nil_right, List.append_nil] at hzip
  exact hzip.symm

/-- A ring has the edges of its path and the one that closes it. -/
theorem Ring.edges_eq_append (hp : r.head? = some p) (hlast : r.getLast? = some last) :
    r.edges = r.zip r.tail ++ [(last, p)] := by
  cases r with
  | nil => cases hp
  | cons q rest =>
    obtain rfl : q = p := Option.some_inj.1 hp
    rw [List.getLast?_cons, Option.some_inj, ← List.getLastD_eq_getLast?] at hlast
    rw [edges, zip_append_singleton, hlast]
    rfl

theorem Ring.edgesInto_eq_cons (hp : r.head? = some p) (hlast : r.getLast? = some last) :
    r.edgesInto = (last, p) :: r.zip r.tail := by
  unfold edgesInto
  cases r with
  | nil => cases hp
  | cons q rest =>
    obtain rfl : q = p := Option.some_inj.1 hp
    rw [hlast]
    rfl

theorem Ring.exists_ends (hr : r ≠ []) : ∃ p last, r.head? = some p ∧ r.getLast? = some last :=
  ⟨r.head hr, r.getLast hr, List.head?_eq_some_head hr, List.getLast?_eq_some_getLast hr⟩

/-- **The edges into the vertices** are the edges out of them. -/
theorem Ring.edgesInto_perm_edges (r : Ring α) : r.edgesInto.Perm r.edges := by
  obtain rfl | hr := eq_or_ne r []
  · exact .refl _
  · obtain ⟨p, last, hp, hlast⟩ := exists_ends hr
    rw [edges_eq_append hp hlast, edgesInto_eq_cons hp hlast]
    exact (List.perm_append_singleton _ _).symm

/-- The edges of a path that is run backwards. -/
theorem zip_tail_reverse (points : List (Point α)) :
    points.reverse.zip points.reverse.tail =
      ((points.zip points.tail).map Prod.swap).reverse := by
  refine List.ext_getElem (by simp) fun i hi _ => ?_
  simp only [List.length_zip, List.length_reverse, List.length_tail] at hi
  simp only [List.getElem_zip, List.getElem_tail, List.getElem_reverse, List.getElem_map,
    List.length_map, List.length_zip, List.length_tail, Prod.swap_prod_mk, Prod.mk.injEq]
  constructor <;> congr 1 <;> omega

/-- **A ring run backwards** has the edges run backwards. -/
theorem Ring.edges_reverse_perm (r : Ring α) :
    (Ring.edges r.reverse).Perm (r.edges.map Prod.swap) := by
  obtain rfl | hr := eq_or_ne r []
  · exact .refl _
  · obtain ⟨p, last, hp, hlast⟩ := exists_ends hr
    have hp' : r.reverse.getLast? = some p := by rw [List.getLast?_reverse, hp]
    have hlast' : r.reverse.head? = some last := by rw [List.head?_reverse, hlast]
    rw [edges_eq_append hp hlast, edges_eq_append hlast' hp', zip_tail_reverse, List.map_append]
    exact (List.reverse_perm _).append_right _

theorem Ring.mem_edges_reverse {e : Point α × Point α} :
    e ∈ Ring.edges r.reverse ↔ e.swap ∈ r.edges := by
  rw [(edges_reverse_perm r).mem_iff, List.mem_map]
  exact ⟨fun ⟨f, hf, he⟩ => he ▸ f.swap_swap.symm ▸ hf, fun h => ⟨_, h, e.swap_swap⟩⟩

end Edges

noncomputable section

/-! ## Vertices numbered for ever -/

theorem sum_map_range (f : ℕ → ℝ) (n : ℕ) :
    ((List.range n).map f).sum = ∑ i ∈ Finset.range n, f i := rfl

namespace Ring

/-- Edges run between vertices. -/
theorem mem_of_mem_edges {r : Ring ℝ} {e : Point ℝ × Point ℝ} (he : e ∈ r.edges) :
    e.1 ∈ r ∧ e.2 ∈ r :=
  mem_of_mem_edgesInto (r.edgesInto_perm_edges.mem_iff.2 he)

/-- The vertices of a ring in order, again and again. -/
def around (r : Ring ℝ) (i : ℕ) : Point ℝ := r.getD (i % r.length) ⟨0, 0⟩

theorem around_eq_getElem {r : Ring ℝ} {i : ℕ} (hi : i < r.length) : r.around i = r[i] := by
  rw [around, Nat.mod_eq_of_lt hi, List.getD_eq_getElem _ _ hi]

/-- After a whole lap the same vertex comes again. -/
@[simp] theorem around_add_length (r : Ring ℝ) (i : ℕ) : r.around (i + r.length) = r.around i := by
  rw [around, around, Nat.add_mod_right]

theorem around_mod_add (r : Ring ℝ) (i k : ℕ) : r.around (i % r.length + k) = r.around (i + k) := by
  rw [around, around, Nat.mod_add_mod]

theorem around_mod (r : Ring ℝ) (i : ℕ) : r.around (i % r.length) = r.around i :=
  r.around_mod_add i 0

/-- **The edges** lead from each vertex to the next. -/
theorem edges_eq_map (r : Ring ℝ) :
    r.edges = (List.range r.length).map fun i => (r.around i, r.around (i + 1)) := by
  refine List.ext_getElem (by simp) fun i hi _ => ?_
  rw [length_edges] at hi
  rw [List.getElem_map, List.getElem_range, around_eq_getElem hi]
  cases r with
  | nil => simp at hi
  | cons p rest =>
    simp only [edges, List.getElem_zip]
    congr 1
    by_cases hlast : i < rest.length
    · rw [around_eq_getElem (by simpa using hlast), List.getElem_append_left hlast,
        List.getElem_cons_succ]
    · obtain rfl : i = rest.length := by
        rw [List.length_cons] at hi
        omega
      rw [List.getElem_concat_length rfl, around, List.length_cons, Nat.mod_self]
      rfl

/-- An edge by its index. -/
theorem getElem?_edges_eq_some {r : Ring ℝ} {i : ℕ} {e : Point ℝ × Point ℝ} :
    r.edges[i]? = some e ↔ i < r.length ∧ (r.around i, r.around (i + 1)) = e := by
  rw [edges_eq_map, List.getElem?_map]
  by_cases hi : i < r.length
  · rw [List.getElem?_range hi, Option.map_some, Option.some_inj]
    exact ⟨fun he => ⟨hi, he⟩, fun he => he.2⟩
  · rw [List.getElem?_eq_none (by simpa using hi), Option.map_none]
    exact ⟨fun he => by simp at he, fun he => absurd he.1 hi⟩

/-- The edge into the first vertex comes from the last one. -/
theorem edgesInto_eq_map_around (r : Ring ℝ) :
    r.edgesInto = (List.range r.length).map fun i =>
      (r.around (i + (r.length - 1)), r.around i) := by
  rw [edgesInto_eq_map]
  refine List.map_congr_left fun i hi => ?_
  have hi := List.mem_range.1 hi
  rw [lap_succ hi, around_eq_getElem hi]
  congr 1
  cases i with
  | zero =>
    have hr : r ≠ [] := List.ne_nil_of_length_pos hi
    rw [← lap_length hr]
    obtain ⟨n, hn⟩ := Nat.exists_eq_add_one_of_ne_zero hi.ne'
    rw [hn, lap_succ (by omega), around_eq_getElem (by omega)]
    congr 1
    omega
  | succ i =>
    have hback : i + 1 + (r.length - 1) = i + r.length := by omega
    rw [lap_succ (by omega), hback, around_add_length, around_eq_getElem (by omega)]

/-- The vertices of a ring that is run backwards. -/
theorem around_reverse {r : Ring ℝ} {i : ℕ} (hi : i < r.length) :
    around r.reverse i = r.around (r.length - 1 - i) := by
  rw [around_eq_getElem (by rwa [List.length_reverse]), List.getElem_reverse,
    around_eq_getElem (by omega)]

/-- **The corners** have the vertices before and after on either side. -/
theorem corners_eq_map (r : Ring ℝ) :
    r.corners = (List.range r.length).map fun i =>
      ⟨r.around (i + (r.length - 1)), r.around i, r.around (i + 1)⟩ := by
  rw [corners, edgesInto_eq_map_around, edges_eq_map, List.zipWith_map, List.zipWith_self]

/-- Every vertex and the next one are the ends of an edge. -/
theorem mem_edges_around {r : Ring ℝ} (hr : 0 < r.length) (i : ℕ) :
    (r.around i, r.around (i + 1)) ∈ r.edges := by
  rw [edges_eq_map, List.mem_map]
  exact ⟨i % r.length, List.mem_range.2 (Nat.mod_lt i hr), by rw [around_mod, around_mod_add]⟩

/-- Every vertex is met within a lap. -/
theorem exists_around_add {r : Ring ℝ} {v : Point ℝ} (hv : v ∈ r) (i : ℕ) :
    ∃ k < r.length, r.around (i + k) = v := by
  obtain ⟨j, hj, rfl⟩ := List.mem_iff_getElem.1 hv
  have hn : 0 < r.length := by omega
  refine ⟨(j + i * (r.length - 1)) % r.length, Nat.mod_lt _ hn, ?_⟩
  have hlaps : i + (j + i * (r.length - 1)) = j + i * r.length := by
    obtain ⟨n, hn⟩ := Nat.exists_eq_add_one_of_ne_zero hn.ne'
    rw [hn, Nat.add_sub_cancel]
    ring
  rw [Nat.add_comm, around_mod_add, Nat.add_comm, hlaps, around, Nat.add_mul_mod_self_right,
    ← around, around_eq_getElem hj]

/-- The edges at a corner are edges of the ring. -/
theorem mem_edges_of_mem_corners {r : Ring ℝ} {c : Corner ℝ} (hc : c ∈ r.corners) :
    (c.before, c.apex) ∈ r.edges ∧ (c.apex, c.after) ∈ r.edges := by
  rw [corners_eq_map] at hc
  obtain ⟨i, hi, rfl⟩ := List.mem_map.1 hc
  have hi := List.mem_range.1 hi
  have hn : 0 < r.length := by omega
  have hback := mem_edges_around hn (i + (r.length - 1))
  have hlap : i + (r.length - 1) + 1 = i + r.length := by omega
  rw [hlap, around_add_length] at hback
  exact ⟨hback, mem_edges_around hn i⟩

/-! ## Areas -/

/-- **The area** is half the sum of what the edges sweep, seen from any point. -/
theorem signedArea_eq_sum (o : Point ℝ) (r : Ring ℝ) :
    r.signedArea = (r.edges.map fun e => o.spanned e.1 e.2).sum / 2 := by
  cases r with
  | nil => simp [edges]
  | cons p rest =>
    rw [signedArea_cons o, ← sum_zip_eq_sweep, edges_cons, List.cons_append]

/-- The area of a ring that is given by its vertices, in order. -/
theorem signedArea_map_range {v : ℕ → Point ℝ} {n : ℕ} (hv : v n = v 0) (o : Point ℝ) :
    signedArea ((List.range n).map v) =
      (∑ i ∈ Finset.range n, o.spanned (v i) (v (i + 1))) / 2 := by
  have haround {i : ℕ} (hi : i ≤ n) (hn : 0 < n) : around ((List.range n).map v) i = v i := by
    obtain hi | rfl := hi.lt_or_eq
    · rw [around_eq_getElem (by simpa using hi), List.getElem_map, List.getElem_range]
    · rw [← around_mod, List.length_map, List.length_range, Nat.mod_self,
        around_eq_getElem (by simpa using hn), List.getElem_map, List.getElem_range, hv]
  rw [signedArea_eq_sum o, edges_eq_map, List.map_map, List.length_map, List.length_range,
    ← sum_map_range]
  congr 2
  refine List.map_congr_left fun i hi => ?_
  have hi := List.mem_range.1 hi
  rw [Function.comp_apply, haround hi.le (by omega), haround hi (by omega)]

/-- **A ring run backwards** has the opposite area. -/
theorem signedArea_reverse (r : Ring ℝ) : signedArea r.reverse = -r.signedArea := by
  have hswap (e : Point ℝ × Point ℝ) :
      Point.spanned ⟨0, 0⟩ e.2 e.1 = -Point.spanned ⟨0, 0⟩ e.1 e.2 := by
    rw [Point.spanned, Point.spanned]
    ring
  rw [signedArea_eq_sum ⟨0, 0⟩, signedArea_eq_sum ⟨0, 0⟩ r,
    ((edges_reverse_perm r).map _).sum_eq, List.map_map, ← neg_div, List.sum_neg, List.map_map]
  exact congrArg (·.sum / 2) (List.map_congr_left fun e _ => hswap e)

/-- A way that always turns to the left, seen from a point, sweeps to the left. -/
theorem sweep_nonneg {o s : Point ℝ} {points : List (Point ℝ)}
    (hleft : (s :: points).Pairwise fun p q => 0 < o.spanned p q) : 0 ≤ sweep o s points := by
  induction points generalizing s with
  | nil => exact le_rfl
  | cons p rest ih =>
    obtain ⟨hs, hrest⟩ := List.pairwise_cons.1 hleft
    exact add_nonneg (hs p List.mem_cons_self).le (ih hrest)

/-- **A ring that turns left** has a positive area. -/
theorem TurnsLeft.signedArea_pos {r : Ring ℝ} (hr : r.TurnsLeft) (h3 : 3 ≤ r.length) :
    0 < r.signedArea := by
  match r, h3 with
  | p :: q :: s :: rest, _ =>
    obtain ⟨hleft, -⟩ := List.triplewise_cons.1 hr
    obtain ⟨hq, hrest⟩ := List.pairwise_cons.1 hleft
    have hpos := hq s List.mem_cons_self
    have hnonneg := sweep_nonneg hrest
    rw [signedArea_cons p, List.cons_append, List.cons_append, sweep, sweep, sweep_append, sweep,
      sweep, Point.spanned_stay, Point.spanned_return]
    linarith

/-! ## Strictly convex rings -/

/-- A ring with at least three vertices that turns left at any three of them, or does so when it
is run backwards. -/
structure StrictlyConvex (r : Ring ℝ) : Prop where
  three_le : 3 ≤ r.length
  turns : r.TurnsLeft ∨ TurnsLeft r.reverse

/-- A strictly convex ring is counter-clockwise if it turns left. -/
theorem TurnsLeft.isCounterClockwise {r : Ring ℝ} (hr : r.TurnsLeft) (h3 : 3 ≤ r.length) :
    r.isCounterClockwise = true := by
  have hzero : (0.0 : ℝ) = 0 := by norm_num
  rw [Ring.isCounterClockwise, decide_eq_true_iff, hzero]
  exact hr.signedArea_pos h3

theorem not_isCounterClockwise_of_reverse {r : Ring ℝ} (hr : TurnsLeft r.reverse)
    (h3 : 3 ≤ r.length) : r.isCounterClockwise = false := by
  have hzero : (0.0 : ℝ) = 0 := by norm_num
  have hpos := hr.signedArea_pos (by rwa [List.length_reverse])
  rw [signedArea_reverse] at hpos
  rw [Ring.isCounterClockwise, decide_eq_false_iff_not, hzero]
  linarith

end Ring

end

end Housewright
