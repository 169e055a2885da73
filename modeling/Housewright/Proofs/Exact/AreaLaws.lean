import Housewright.Proofs.Exact.RayParity
import Housewright.Proofs.Geometry.RepeatedCorners

/-!
# Laws of the area

The shoelace sum adds up what the edges of a ring sweep.  It depends on the edges alone, in whatever
order they come, and what is swept along an edge is taken away again when the edge is run back.

* `Ring.signedArea_eq_of_perm`: the order of the edges does not matter, and so neither does the
  vertex that a ring begins with (`Ring.signedArea_rotate`);
* `Ring.signedArea_map_shift`: a ring that is moved as a whole keeps its area, since it may be seen
  from any point;
* `Ring.Repeats.signedArea_eq`: an edge without length sweeps nothing;
* `Ring.signedArea_chord`: a chord is run in both directions, so that the areas on its two sides add
  up;
* `Ring.signedArea_laws`: all of this, and that a ring run backwards has the opposite area.
-/

namespace Housewright

noncomputable section

/-! ## Swept edges -/

/-- What is swept along an edge is swept back on the way back. -/
theorem Point.spanned_back (o p q : Point ℝ) : o.spanned q p = -o.spanned p q := by
  rw [spanned, spanned]
  ring

/-- Moving everything does not change what is swept. -/
theorem Point.spanned_shift (o p q : Point ℝ) (v : Vec ℝ) (t : ℝ) :
    (o.shift v t).spanned (p.shift v t) (q.shift v t) = o.spanned p q := by
  simp only [spanned, shift]
  ring

namespace Ring

/-- The edges of a ring whose vertices are mapped. -/
theorem edges_map {α : Type} (f : Point α → Point α) (r : Ring α) :
    edges (r.map f) = r.edges.map (Prod.map f f) := by
  cases r with
  | nil => rfl
  | cons p rest =>
    rw [List.map_cons, edges, edges, List.zip_eq_zipWith, List.zip_eq_zipWith, List.map_zipWith,
      ← List.map_cons, ← List.map_singleton, ← List.map_append, List.zipWith_map]
    rfl

/-! ## The laws -/

/-- **The order of the edges** does not matter for the area. -/
theorem signedArea_eq_of_perm {r s : Ring ℝ} (hperm : r.edges.Perm s.edges) :
    r.signedArea = s.signedArea := by
  rw [signedArea_eq_sum ⟨0, 0⟩, signedArea_eq_sum ⟨0, 0⟩, (hperm.map _).sum_eq]

theorem signedArea_rotate (r : Ring ℝ) (k : ℕ) : signedArea (r.rotate k) = r.signedArea :=
  signedArea_eq_of_perm (r.edges_rotate k)

/-- **A ring that is moved** keeps its area. -/
theorem signedArea_map_shift (r : Ring ℝ) (v : Vec ℝ) (t : ℝ) :
    signedArea (r.map (·.shift v t)) = r.signedArea := by
  -- the moved ring is seen from the moved origin
  rw [signedArea_eq_sum (Point.shift ⟨0, 0⟩ v t), signedArea_eq_sum ⟨0, 0⟩, edges_map, List.map_map]
  congr 2
  apply List.map_congr_left
  intro e _
  exact Point.spanned_shift ⟨0, 0⟩ e.1 e.2 v t

/-- The area of a ring, seen from a vertex where two stretches of it meet. -/
theorem signedArea_append (p : Point ℝ) (before after : List (Point ℝ)) :
    signedArea (before ++ p :: after) = sweep p p (after ++ before ++ [p]) / 2 := by
  have hperm := edges_append_comm before (p :: after)
  rw [signedArea_eq_of_perm hperm, List.cons_append, signedArea_cons p]

/-- **A copy of a vertex** next to it does not change the area. -/
theorem Repeats.signedArea_eq {p : Point ℝ} {i : ℕ} {r s : Ring ℝ} (h : Repeats p i r s) :
    s.signedArea = r.signedArea := by
  cases h with
  | next before after =>
    rw [signedArea_append, signedArea_append, List.cons_append, List.cons_append, sweep,
      Point.spanned_self, zero_add]
  | closing rest =>
    rw [List.cons_append, signedArea_cons p, signedArea_cons p, sweep_append p p (rest ++ [p])]
    simp [sweep]

/-- **A chord** splits a ring into two pieces with its area together. -/
theorem signedArea_chord {r : Ring ℝ} {i j : ℕ} (hij : i < j) (hj : j < r.length) :
    (r.chordPiece i j).signedArea + (r.chordRest i j).signedArea = r.signedArea := by
  have hsum := ((edges_chord hij hj).map fun e => Point.spanned ⟨0, 0⟩ e.1 e.2).sum_eq
  have hchord := Point.spanned_back ⟨0, 0⟩ r[i] r[j]
  rw [List.map_append, List.sum_append, List.map_append, List.sum_append] at hsum
  simp only [List.map_cons, List.map_nil, List.sum_cons, List.sum_nil] at hsum
  rw [signedArea_eq_sum ⟨0, 0⟩, signedArea_eq_sum ⟨0, 0⟩, signedArea_eq_sum ⟨0, 0⟩ r, ← add_div,
    hsum]
  linarith

/-- **The shoelace sum is an oriented area.**  It does not depend on the vertex that a ring begins
with, on where the ring lies, or on copies of vertices; it is taken with the opposite sign when the
ring is run backwards; and what a chord between any two vertices cuts off, and what it leaves, have
the area of the ring together. -/
theorem signedArea_laws (r : Ring ℝ) :
    (∀ k, signedArea (r.rotate k) = r.signedArea) ∧
      (∀ (v : Vec ℝ) (t : ℝ), signedArea (r.map (·.shift v t)) = r.signedArea) ∧
      (∀ (p : Point ℝ) (i : ℕ) (s : Ring ℝ), Repeats p i r s → s.signedArea = r.signedArea) ∧
      signedArea r.reverse = -r.signedArea ∧
      ∀ i j, i < j → j < r.length →
        r.signedArea = (r.chordPiece i j).signedArea + (r.chordRest i j).signedArea := by
  refine ⟨r.signedArea_rotate, r.signedArea_map_shift, ?_, r.signedArea_reverse, ?_⟩
  · intro p i s hcopy
    exact hcopy.signedArea_eq
  · intro i j hij hj
    exact (signedArea_chord hij hj).symm

/-- The horseshoe has the area of a square without its yard, which a chord along the back gives as
well, and so does the same horseshoe elsewhere, begun at another vertex, with a vertex given twice
or closed by its first one. -/
theorem horseshoe_area :
    horseshoe.signedArea = 52 ∧
    signedArea (horseshoe.rotate 3) = 52 ∧
    signedArea (horseshoe.map (·.shift ⟨1, 2⟩ 3)) = 52 ∧
    signedArea (⟨0, 0⟩ :: horseshoe) = 52 ∧
    signedArea (horseshoe ++ [⟨0, 0⟩]) = 52 ∧
    signedArea horseshoe.reverse = -52 ∧
    (horseshoe.chordPiece 2 7).signedArea + (horseshoe.chordRest 2 7).signedArea = 52 := by
  have harea : horseshoe.signedArea = 52 := by
    norm_num [signedArea, horseshoe, edges]
  obtain ⟨hrotate, hshift, hcopy, hreverse, hchord⟩ := signedArea_laws horseshoe
  have htwice : Repeats ⟨0, 0⟩ 0 horseshoe (⟨0, 0⟩ :: horseshoe) := .next [] horseshoe.tail
  have hclosed : Repeats ⟨0, 0⟩ 0 horseshoe (horseshoe ++ [⟨0, 0⟩]) := .closing horseshoe.tail
  refine ⟨harea, ?_, ?_, ?_, ?_, ?_, ?_⟩
  · rw [hrotate, harea]
  · rw [hshift, harea]
  · rw [hcopy _ _ _ htwice, harea]
  · rw [hcopy _ _ _ hclosed, harea]
  · rw [hreverse, harea]
  · rw [← hchord 2 7 (by decide) (by simp [horseshoe]), harea]

end Ring

end

end Housewright
