import Mathlib.Data.List.Rotate
import Housewright.Proofs.Exact.Containment

/-!
# Ray casting and cuts

Whether a ray meets an edge does not depend on the direction in which the edge is run.  A chord
bounds the pieces on both of its sides, so the ray meets it twice in all, or not at all, and what
the pieces contain tells what the ring contains.

* `Point.IsNear` says that a point is within some distance of a segment, and `Point.isNear_iff` that
  it is enough to look at the foot on the segment;
* `Ring.edges_append_comm`, `Ring.edges_chord`: the edges of a ring that begins elsewhere, and of
  the two pieces that a chord cuts a ring into;
* `Ring.contains_eq_ok_of_far`: away from its edges a ring contains the points from which a ray
  meets an odd number of them;
* `Ring.contains_cut`: so a ring contains such a point if exactly one of its two pieces does, and it
  does not matter where a ring begins or which way it is run.
-/

namespace Housewright

/-! ## Paths -/

section Paths

variable {α : Type}

/-- The legs of a path, from each point to the next. -/
def legs (points : List (Point α)) : List (Point α × Point α) := points.zip points.tail

/-- A path is run up to one of its points, and then on from there. -/
theorem legs_append_cons (points : List (Point α)) (v : Point α) (later : List (Point α)) :
    legs (points ++ v :: later) = legs (points ++ [v]) ++ legs (v :: later) := by
  induction points with
  | nil => rfl
  | cons p rest ih =>
    cases rest with
    | nil => rfl
    | cons q rest => exact congrArg ((p, q) :: ·) ih

namespace Ring

/-- A ring is run from its first vertex to any other one, and back. -/
theorem edges_cons_append_cons (p q : Point α) (there back : List (Point α)) :
    edges (p :: there ++ q :: back) = legs (p :: there ++ [q]) ++ legs (q :: back ++ [p]) := by
  have hsplit := legs_append_cons (p :: there) q (back ++ [p])
  rw [List.cons_append, edges_cons]
  simpa [legs] using hsplit

/-- **A ring that begins elsewhere** has the same edges. -/
theorem edges_append_comm (before after : Ring α) :
    (edges (before ++ after)).Perm (edges (after ++ before)) := by
  cases before with
  | nil => rw [List.nil_append, List.append_nil]
  | cons p before =>
    cases after with
    | nil => rw [List.nil_append, List.append_nil]
    | cons q after =>
      rw [edges_cons_append_cons, edges_cons_append_cons]
      exact List.perm_append_comm

theorem edges_rotate (r : Ring α) (k : ℕ) : (edges (r.rotate k)).Perm r.edges := by
  rw [List.rotate_eq_drop_append_take_mod]
  have hsplit := edges_append_comm (r.drop (k % r.length)) (r.take (k % r.length))
  rwa [List.take_append_drop] at hsplit

/-! ## Chords -/

/-- What a chord from the `i`th vertex to the `j`th cuts off: the vertices from one to the other. -/
def chordPiece (r : Ring α) (i j : ℕ) : Ring α := (r.take (j + 1)).drop i

/-- What such a chord leaves: the vertices from the `j`th to the last, and on to the `i`th. -/
def chordRest (r : Ring α) (i j : ℕ) : Ring α := r.drop j ++ r.take (i + 1)

/-- Both ways from one vertex to another, closed by the chord between them. -/
theorem edges_append_edges (p q : Point α) (there back : List (Point α)) :
    (edges (p :: there ++ [q]) ++ edges (q :: back ++ [p])).Perm
      (edges (p :: there ++ q :: back) ++ [(q, p), (p, q)]) := by
  have hclose (u v : Point α) : legs ([u] ++ [v]) = [(u, v)] := rfl
  rw [edges_cons_append_cons, edges_cons_append_cons, edges_cons_append_cons, hclose, hclose,
    List.append_assoc, List.append_assoc, List.singleton_append]
  exact List.Perm.append_left _ List.perm_middle.symm

/-- **The two pieces of a ring** have its edges together, and the chord in both directions. -/
theorem edges_chord {r : Ring α} {i j : ℕ} (hij : i < j) (hj : j < r.length) :
    ((r.chordPiece i j).edges ++ (r.chordRest i j).edges).Perm
      (r.edges ++ [(r[j], r[i]), (r[i], r[j])]) := by
  have hthere : (r.take j).drop i = r[i] :: (r.take j).drop (i + 1) := by
    have hi : i < (r.take j).length := by
      rw [List.length_take]
      omega
    rw [List.drop_eq_getElem_cons hi, List.getElem_take]
  have hpiece : r.chordPiece i j = r[i] :: (r.take j).drop (i + 1) ++ [r[j]] := by
    rw [chordPiece, ← List.take_append_getElem hj, List.drop_append_of_le_length, hthere]
    rw [List.length_take]
    omega
  have hrest : r.chordRest i j = r[j] :: (r.drop (j + 1) ++ r.take i) ++ [r[i]] := by
    rw [chordRest, List.drop_eq_getElem_cons hj, ← List.take_append_getElem (hij.trans hj),
      List.cons_append, List.cons_append, List.append_assoc]
  -- the ring, begun at its `i`th vertex
  have hring : r[i] :: (r.take j).drop (i + 1) ++ r[j] :: (r.drop (j + 1) ++ r.take i) =
      r.drop i ++ r.take i := by
    rw [← hthere, ← List.cons_append, ← List.drop_eq_getElem_cons hj, ← List.append_assoc,
      ← List.drop_append_of_le_length (by rw [List.length_take]; omega), List.take_append_drop]
  have hperm := edges_append_edges r[i] r[j] ((r.take j).drop (i + 1)) (r.drop (j + 1) ++ r.take i)
  have hbegin := edges_append_comm (r.drop i) (r.take i)
  rw [List.take_append_drop] at hbegin
  rw [hring, ← hpiece, ← hrest] at hperm
  exact hperm.trans (hbegin.append_right _)

end Ring

end Paths

noncomputable section

/-! ## Points near a segment -/

/-- Neither coordinate differs by more than the distance. -/
theorem Point.abs_sub_le_gap (p q : Point ℝ) :
    |p.x - q.x| ≤ p.gap q ∧ |p.y - q.y| ≤ p.gap q := by
  constructor
  · exact Real.abs_le_sqrt (by nlinarith [mul_self_nonneg (p.y - q.y)])
  · exact Real.abs_le_sqrt (by nlinarith [mul_self_nonneg (p.x - q.x)])

/-- The point is within some distance of a point of the segment from `a` to `b`. -/
def Point.IsNear (p a b : Point ℝ) (eps : ℝ) : Prop :=
  ∃ t, 0 ≤ t ∧ t ≤ 1 ∧ p.gap (a.along b t) ≤ eps

/-- It does not matter in which direction the segment is run. -/
theorem Point.isNear_comm {p a b : Point ℝ} {eps : ℝ} : p.IsNear a b eps ↔ p.IsNear b a eps := by
  have hback {a b : Point ℝ} : p.IsNear a b eps → p.IsNear b a eps := by
    rintro ⟨t, h0, h1, hgap⟩
    exact ⟨1 - t, sub_nonneg.2 h1, sub_le_self 1 h0, by rwa [along_one_sub]⟩
  exact ⟨hback, hback⟩

/-- A point is not near a segment that runs beside it. -/
theorem Point.not_isNear_of_beside {p a b : Point ℝ} {eps : ℝ}
    (h : a.x = b.x ∧ eps < |p.x - a.x| ∨ a.y = b.y ∧ eps < |p.y - a.y|) : ¬ p.IsNear a b eps := by
  rintro ⟨t, -, -, hgap⟩
  obtain ⟨hx, hy⟩ := p.abs_sub_le_gap (a.along b t)
  rcases h with ⟨hupright, hfar⟩ | ⟨hlevel, hfar⟩
  · have hsame : (a.along b t).x = a.x := by
      rw [along, hupright]
      ring
    rw [hsame] at hx
    linarith
  · have hsame : (a.along b t).y = a.y := by
      rw [along, hlevel]
      ring
    rw [hsame] at hy
    linarith

/-- Clamping moves a number to the nearest point of the unit interval. -/
theorem sq_clampUnit_sub_le (s : ℝ) {t : ℝ} (h0 : 0 ≤ t) (h1 : t ≤ 1) :
    (Scalar.clampUnit s - s) ^ 2 ≤ (t - s) ^ 2 := by
  rw [clampUnit_eq]
  rcases le_total s 0 with hs | hs
  · rw [min_eq_right (hs.trans zero_le_one), max_eq_left hs]
    nlinarith
  · rcases le_total s 1 with hs1 | hs1
    · rw [min_eq_right hs1, max_eq_right hs, sub_self, zero_pow two_ne_zero]
      exact sq_nonneg _
    · rw [min_eq_left hs1, max_eq_right zero_le_one]
      nlinarith

/-- **The foot on a segment** is the point of the segment that is nearest. -/
theorem gap_footOnSegment_le {p a b : Point ℝ}
    (hlong : Tolerance.geometry ≤ (Vec.between a b).length) {t : ℝ} (h0 : 0 ≤ t) (h1 : t ≤ 1) :
    p.gap (footOnSegment p a b) ≤ p.gap (a.along b t) := by
  have hsquare := Vec.geometry_le_length_iff.1 hlong
  unfold footOnSegment
  simp only [if_neg (not_lt.2 hsquare)]
  have hpos := (mul_pos HalfPlane.geometry_pos HalfPlane.geometry_pos).trans_le hsquare
  generalize hl : (Vec.between a b).x * (Vec.between a b).x +
    (Vec.between a b).y * (Vec.between a b).y = l at hpos
  generalize hs : ((p.x - a.x) * (Vec.between a b).x + (p.y - a.y) * (Vec.between a b).y) / l = s
  rw [div_eq_iff hpos.ne'] at hs
  -- the square of a distance, seen from where the perpendicular meets the line
  have hgap (u : ℝ) : p.gap (a.along b u) =
      Real.sqrt ((p.x - a.x) ^ 2 + (p.y - a.y) ^ 2 - l * s ^ 2 + l * (u - s) ^ 2) := by
    simp only [Vec.between] at hl hs
    rw [Point.gap, Point.along]
    congr 1
    linear_combination (-2 * u) * hs + u ^ 2 * hl
  have hclamp := sq_clampUnit_sub_le s h0 h1
  rw [hgap, hgap]
  exact Real.sqrt_le_sqrt (add_le_add_right (mul_le_mul_of_nonneg_left hclamp hpos.le) _)

theorem Point.isNear_of_foot {p a b : Point ℝ} {eps : ℝ}
    (hgap : p.gap (footOnSegment p a b) ≤ eps) : p.IsNear a b eps := by
  obtain ⟨t, h0, h1, hfoot⟩ := footOnSegment_eq_along p a b
  exact ⟨t, h0, h1, hfoot ▸ hgap⟩

/-- To see whether a point is near a segment it is enough to look at the foot. -/
theorem Point.isNear_iff {p a b : Point ℝ} {eps : ℝ}
    (hlong : Tolerance.geometry ≤ (Vec.between a b).length) :
    p.IsNear a b eps ↔ p.gap (footOnSegment p a b) ≤ eps :=
  ⟨fun ⟨_, h0, h1, hgap⟩ => (gap_footOnSegment_le hlong h0 h1).trans hgap, isNear_of_foot⟩

namespace Ring

/-! ## Parity -/

/-- The point is near no edge of the ring. -/
def IsFar (r : Ring ℝ) (p : Point ℝ) (eps : ℝ) : Prop := ∀ e ∈ r.edges, ¬ p.IsNear e.1 e.2 eps

/-- A segment run in both directions is met twice, or not at all. -/
theorem even_countP_both_ways (p a b : Point ℝ) :
    Even ([(a, b), (b, a)].countP fun e => meetsRay p e.2 e.1) := by
  rw [List.countP_cons, List.countP_singleton, meetsRay_comm p a b]
  cases meetsRay p b a <;> decide

/-- One or two vertices are run around the way one came. -/
theorem even_rayHits_of_length_lt {r : Ring ℝ} (hshort : r.length < 3) (p : Point ℝ) :
    Even (r.rayHits p) := by
  match r, hshort with
  | [], _ => exact Even.zero
  | [a], _ => simp [rayHits, edges, meetsRay, passesLevel]
  | [a, b], _ => exact even_countP_both_ways p a b

/-- **Away from its edges** a ring contains the points from which a ray meets an odd number of
them. -/
theorem contains_eq_ok_of_far {r : Ring ℝ} {p : Point ℝ} {eps : ℝ} (hfar : r.IsFar p eps) :
    r.contains p eps = .ok (decide (Odd (r.rayHits p))) := by
  have hnear : ¬ r.IsNearEdge p eps := by
    rintro ⟨e, he, hgap⟩
    exact hfar e he (Point.isNear_comm.1 (Point.isNear_of_foot hgap))
  have hiff : r.contains p eps = .ok true ↔ Odd (r.rayHits p) := by
    rw [contains_eq_true_iff]
    refine ⟨fun h => h.2.resolve_left hnear, fun hodd => ⟨?_, .inr hodd⟩⟩
    by_contra hshort
    exact Nat.not_even_iff_odd.2 hodd (even_rayHits_of_length_lt (not_le.1 hshort) p)
  obtain ⟨inside, hinside⟩ := r.exists_contains p eps
  rw [hinside, Except.ok.injEq] at hiff
  rw [hinside]
  exact congrArg Except.ok (Bool.eq_iff_iff.2 (by rw [decide_eq_true_iff, hiff]))

/-- Rings with the same edges contain the same points, in whichever order the edges come. -/
theorem contains_eq_of_edges_perm {r s : Ring ℝ} (hperm : r.edges.Perm s.edges) (p : Point ℝ)
    (eps : ℝ) : r.contains p eps = s.contains p eps := by
  have hlength : r.length = s.length := by
    rw [← length_edges, hperm.length_eq, length_edges]
  refine contains_congr ?_
  rw [contains_eq_true_iff, contains_eq_true_iff, hlength, rayHits, rayHits, hperm.countP_eq,
    IsNearEdge, IsNearEdge]
  simp only [hperm.mem_iff]

/-- **The ray meets the pieces of a ring** as often as the ring, up to an even number. -/
theorem odd_rayHits_chord {r : Ring ℝ} {i j : ℕ} (hij : i < j) (hj : j < r.length) (p : Point ℝ) :
    Odd (r.rayHits p) ↔
      Xor (Odd ((r.chordPiece i j).rayHits p)) (Odd ((r.chordRest i j).rayHits p)) := by
  have hcount := (edges_chord hij hj).countP_eq fun e => meetsRay p e.2 e.1
  rw [List.countP_append, List.countP_append] at hcount
  have hboth : Odd (r.rayHits p) ↔
      Odd ((r.chordPiece i j).rayHits p + (r.chordRest i j).rayHits p) := by
    rw [rayHits, rayHits, rayHits, hcount, Nat.odd_add]
    exact (iff_true_right (even_countP_both_ways p r[j] r[i])).symm
  rw [hboth, Nat.odd_add, xor_iff_iff_not, Nat.not_odd_iff_even]

/-- Away from the ring and from a chord, one is away from the pieces. -/
theorem IsFar.of_chord {r : Ring ℝ} {i j : ℕ} (hij : i < j) (hj : j < r.length) {p : Point ℝ}
    {eps : ℝ} (hfar : r.IsFar p eps) (hchord : ¬ p.IsNear r[i] r[j] eps) :
    (r.chordPiece i j).IsFar p eps ∧ (r.chordRest i j).IsFar p eps := by
  have hall {e : Point ℝ × Point ℝ}
      (he : e ∈ (r.chordPiece i j).edges ++ (r.chordRest i j).edges) : ¬ p.IsNear e.1 e.2 eps := by
    rw [(edges_chord hij hj).mem_iff, List.mem_append, List.mem_pair] at he
    obtain he | rfl | rfl := he
    · exact hfar e he
    · exact fun hnear => hchord (Point.isNear_comm.1 hnear)
    · exact hchord
  exact ⟨fun e he => hall (List.mem_append_left _ he),
    fun e he => hall (List.mem_append_right _ he)⟩

/-- **Cutting a ring**: away from its edges and from the chord between two of its vertices, a ring
contains a point if exactly one of the two pieces does.  And it does not matter where the ring
begins, nor, if the ends of each edge count as two points or are one, which way it is run. -/
theorem contains_cut (r : Ring ℝ) :
    (∀ (i j : ℕ) (p : Point ℝ) (eps : ℝ) (_ : i < j) (_ : j < r.length),
      r.IsFar p eps → ¬ p.IsNear r[i] r[j] eps →
        ∃ inPiece inRest, (r.chordPiece i j).contains p eps = .ok inPiece ∧
          (r.chordRest i j).contains p eps = .ok inRest ∧
          r.contains p eps = .ok (inPiece ^^ inRest)) ∧
      (∀ (k : ℕ) (p : Point ℝ) (eps : ℝ),
        Ring.contains (r.rotate k) p eps = r.contains p eps) ∧
      ((∀ e ∈ r.edges, EndsClear e.1 e.2) → ∀ (p : Point ℝ) (eps : ℝ),
        Ring.contains r.reverse p eps = r.contains p eps) := by
  refine ⟨fun i j p eps hij hj hfar hchord => ?_,
    fun k => contains_eq_of_edges_perm (r.edges_rotate k), contains_reverse⟩
  obtain ⟨hpiece, hrest⟩ := hfar.of_chord hij hj hchord
  refine ⟨_, _, contains_eq_ok_of_far hpiece, contains_eq_ok_of_far hrest, ?_⟩
  rw [contains_eq_ok_of_far hfar]
  refine congrArg Except.ok (Bool.eq_iff_iff.2 ?_)
  rw [decide_eq_true_iff, Bool.xor_iff_ne, ne_eq, decide_eq_decide, odd_rayHits_chord hij hj,
    xor_iff_not_iff]

/-- An outline around a yard that is open at the back. -/
def horseshoe : Ring ℝ :=
  [⟨0, 0⟩, ⟨8, 0⟩, ⟨8, 8⟩, ⟨4, 8⟩, ⟨4, 4⟩, ⟨1, 4⟩, ⟨1, 8⟩, ⟨0, 8⟩]

/-- A point of the yard is in both pieces of a horseshoe that is cut along the back, and so it is
not in the horseshoe. -/
theorem horseshoe_contains_cut :
    horseshoe.IsFar ⟨3, 6⟩ Tolerance.geometry ∧
    ¬ Point.IsNear ⟨3, 6⟩ ⟨8, 8⟩ ⟨0, 8⟩ Tolerance.geometry ∧
    (∀ e ∈ horseshoe.edges, EndsClear e.1 e.2) ∧
    (horseshoe.chordPiece 2 7).contains ⟨3, 6⟩ Tolerance.geometry = .ok true ∧
    (horseshoe.chordRest 2 7).contains ⟨3, 6⟩ Tolerance.geometry = .ok true ∧
    horseshoe.contains ⟨3, 6⟩ Tolerance.geometry = .ok false ∧
    Ring.contains (horseshoe.rotate 3) ⟨3, 6⟩ Tolerance.geometry = .ok false ∧
    Ring.contains horseshoe.reverse ⟨3, 6⟩ Tolerance.geometry = .ok false := by
  have hedges {P : Point ℝ × Point ℝ → Prop} (h : ∀ e ∈ ([(⟨0, 0⟩, ⟨8, 0⟩), (⟨8, 0⟩, ⟨8, 8⟩),
      (⟨8, 8⟩, ⟨4, 8⟩), (⟨4, 8⟩, ⟨4, 4⟩), (⟨4, 4⟩, ⟨1, 4⟩), (⟨1, 4⟩, ⟨1, 8⟩), (⟨1, 8⟩, ⟨0, 8⟩),
      (⟨0, 8⟩, ⟨0, 0⟩)] : List (Point ℝ × Point ℝ)), P e) : ∀ e ∈ horseshoe.edges, P e := h
  have hfar : horseshoe.IsFar ⟨3, 6⟩ Tolerance.geometry := by
    refine hedges fun e he => Point.not_isNear_of_beside ?_
    revert e
    norm_num [Tolerance.geometry]
  have hchord : ¬ Point.IsNear ⟨3, 6⟩ ⟨8, 8⟩ ⟨0, 8⟩ Tolerance.geometry :=
    Point.not_isNear_of_beside (by norm_num [Tolerance.geometry])
  have hclear : ∀ e ∈ horseshoe.edges, EndsClear e.1 e.2 := by
    refine hedges fun e he => .inr (Vec.geometry_le_length_iff.2 ?_)
    revert e
    norm_num [Vec.between, Tolerance.geometry]
  have hpiece : (horseshoe.chordPiece 2 7).contains ⟨3, 6⟩ Tolerance.geometry = .ok true := by
    refine contains_eq_true_iff.2 ⟨by simp [chordPiece, horseshoe], .inr ?_⟩
    norm_num [chordPiece, horseshoe, rayHits, edges, meetsRay, passesLevel, levelPoint,
      Point.along, List.countP_cons]
  have hrest : (horseshoe.chordRest 2 7).contains ⟨3, 6⟩ Tolerance.geometry = .ok true := by
    refine contains_eq_true_iff.2 ⟨by simp [chordRest, horseshoe], .inr ?_⟩
    norm_num [chordRest, horseshoe, rayHits, edges, meetsRay, passesLevel, levelPoint,
      Point.along, List.countP_cons]
  obtain ⟨hcut, hrotate, hreverse⟩ := contains_cut horseshoe
  obtain ⟨inPiece, inRest, hin, hout, hall⟩ :=
    hcut 2 7 ⟨3, 6⟩ Tolerance.geometry (by decide) (by simp [horseshoe]) hfar hchord
  rw [hpiece, Except.ok.injEq] at hin
  rw [hrest, Except.ok.injEq] at hout
  rw [← hin, ← hout] at hall
  refine ⟨hfar, hchord, hclear, hpiece, hrest, hall, ?_, ?_⟩
  · rw [hrotate, hall, Bool.xor_self]
  · rw [hreverse hclear, hall, Bool.xor_self]

end Ring

end

end Housewright
