import Housewright.Geometry.HalfPlane
import Housewright.Proofs.Steps

/-!
# Edges and corners one after the other

The corners of a ring are those at its vertices, each between the vertex before it and the one after
it.  `Ring.cornersBetween` goes through a path of vertices that way.

* `Ring.map_snd_edgesInto`, `Ring.mem_of_mem_edgesInto`: the edges of a ring lead to its vertices,
  from its vertices;
* `Ring.clip_of_edges`, `Ring.clip_of_keeps`: a ring is clipped by cutting its edges, and nothing is
  cut off by a half-plane that keeps all of its vertices;
* `Ring.corners_eq`: the corners of a ring lie between its last vertex and its first one;
* `Ring.edges_eq_map_corners`: its edges lead away from its corners;
* `Ring.corners_reverse`: a ring that is run backwards has its corners run backwards.
-/

namespace Housewright.Ring

variable {α : Type} {r : Ring α}

/-! ## Edges -/

/-- Edges run between vertices. -/
theorem mem_of_mem_edgesInto {e : Point α × Point α} (he : e ∈ r.edgesInto) :
    e.1 ∈ r ∧ e.2 ∈ r := by
  unfold edgesInto at he
  split at he
  · cases he
  · rename_i last hlast
    obtain ⟨h1, h2⟩ := List.of_mem_zip he
    refine ⟨?_, h2⟩
    obtain h | h := List.mem_cons.1 h1
    · rw [h]
      exact List.mem_of_getLast? hlast
    · exact h

/-- Every vertex is the end of an edge. -/
theorem map_snd_edgesInto (r : Ring α) : r.edgesInto.map (·.2) = r := by
  unfold edgesInto
  cases hlast : r.getLast? with
  | none => exact (List.getLast?_eq_none_iff.1 hlast).symm
  | some last => exact List.map_snd_zip (by simp)

section Clipping

variable [Scalar α] {h : HalfPlane α} {eps : α}

/-- A ring is clipped edge by edge, and then points are dropped that are too close, if three or
more are left. -/
theorem clip_of_edges {cuts : Point α × Point α → List (Point α)}
    (hcuts : ∀ e ∈ r.edgesInto, clipEdge h eps e.1 e.2 = .ok (cuts e)) :
    r.clip h eps = if (r.edgesInto.flatMap cuts).length < 3 then .ok (r.edgesInto.flatMap cuts)
      else withoutRepeats eps (r.edgesInto.flatMap cuts) := by
  have hall : (r.edgesInto.mapM fun (e : Point α × Point α) => clipEdge h eps e.1 e.2) =
      .ok (r.edgesInto.map cuts) :=
    mapM_eq_ok.2 (List.forall₂_map_right_iff.2 (List.forall₂_same.2 hcuts))
  unfold clip
  rw [hall, List.flatMap_def]
  rfl

/-- A half-plane that keeps all vertices cuts no edge. -/
theorem clip_of_keeps (hr : ∀ p ∈ r, h.keeps eps p = true) :
    r.clip h eps = if r.length < 3 then .ok r else r.withoutRepeats eps := by
  have hends : (r.edgesInto.flatMap fun e => [e.2]) = r := by
    rw [← List.map_eq_flatMap, map_snd_edgesInto]
  have hcuts (e : Point α × Point α) (he : e ∈ r.edgesInto) :
      clipEdge h eps e.1 e.2 = .ok [e.2] := by
    obtain ⟨hp, hq⟩ := mem_of_mem_edgesInto he
    rw [clipEdge, hr _ hp, hr _ hq]
    rfl
  have hclip := clip_of_edges hcuts
  rwa [hends] at hclip

end Clipping

/-! ## Corners -/

/-- The corners at some vertices, between the vertex before them and the one after them. -/
def cornersBetween (before : Point α) : List (Point α) → Point α → List (Corner α)
  | [], _ => []
  | p :: rest, after => ⟨before, p, rest.headD after⟩ :: cornersBetween p rest after

theorem cornersBetween_append (before : Point α) (xs ys : List (Point α)) (after : Point α) :
    cornersBetween before (xs ++ ys) after =
      cornersBetween before xs (ys.headD after) ++
        cornersBetween (xs.getLastD before) ys after := by
  induction xs generalizing before with
  | nil => rfl
  | cons x xs ih =>
    have hnext : (xs ++ ys).headD after = xs.headD (ys.headD after) := by cases xs <;> rfl
    rw [List.cons_append, cornersBetween, cornersBetween, ih x, hnext, List.cons_append,
      List.getLastD_cons]

@[simp] theorem length_cornersBetween (before : Point α) (xs : List (Point α)) (after : Point α) :
    (cornersBetween before xs after).length = xs.length := by
  induction xs generalizing before with
  | nil => rfl
  | cons x xs ih => exact congrArg (· + 1) (ih x)

theorem zipWith_edges (before : Point α) (xs : List (Point α)) (after : Point α) :
    List.zipWith (fun e f => (⟨e.1, f.1, f.2⟩ : Corner α)) ((before :: xs).zip xs)
      (xs.zip (xs.tail ++ [after])) = cornersBetween before xs after := by
  induction xs generalizing before with
  | nil => rfl
  | cons x xs ih =>
    cases xs with
    | nil => rfl
    | cons y xs => exact congrArg (_ :: ·) (ih x)

/-- The corners of a ring lie between its last vertex and its first one. -/
theorem corners_eq {last first : Point α} (hlast : r.getLast? = some last)
    (hfirst : r.head? = some first) : r.corners = cornersBetween last r first := by
  cases r with
  | nil => cases hlast
  | cons p rest =>
    obtain rfl := Option.some_inj.1 hfirst
    rw [corners, edgesInto, hlast]
    exact zipWith_edges last (p :: rest) p

/-- The edges of a ring lead away from its corners. -/
theorem edges_eq_map_corners (r : Ring α) : r.edges = r.corners.map fun c => (c.apex, c.after) := by
  have hmap (before : Point α) (xs : List (Point α)) (after : Point α) :
      (cornersBetween before xs after).map (fun c => (c.apex, c.after)) =
        xs.zip (xs.tail ++ [after]) := by
    induction xs generalizing before with
    | nil => rfl
    | cons x xs ih =>
      rw [cornersBetween, List.map_cons, ih x]
      cases xs <;> rfl
  cases r with
  | nil => rfl
  | cons p rest =>
    rw [corners_eq List.getLast?_cons List.head?_cons, hmap]
    rfl

/-! ## Corners run backwards -/

/-- A corner that is run backwards. -/
def Corner.backwards (c : Corner α) : Corner α := ⟨c.after, c.apex, c.before⟩

theorem cornersBetween_reverse (before : Point α) (xs : List (Point α)) (after : Point α) :
    cornersBetween after xs.reverse before =
      ((cornersBetween before xs after).map Corner.backwards).reverse := by
  induction xs generalizing before with
  | nil => rfl
  | cons x xs ih =>
    have hlast : xs.reverse.getLastD after = xs.headD after := by
      rw [List.getLastD_eq_getLast?, List.getLast?_reverse]
      cases xs <;> rfl
    rw [List.reverse_cons, cornersBetween_append, hlast]
    exact (congrArg (· ++ [_]) (ih x)).trans List.reverse_cons.symm

/-- **A ring that is run backwards** has its corners run backwards. -/
theorem corners_reverse (r : Ring α) :
    corners r.reverse = (r.corners.map Corner.backwards).reverse := by
  obtain rfl | hr := eq_or_ne r []
  · rfl
  · have hlast := List.getLast?_eq_some_getLast hr
    have hfirst := List.head?_eq_some_head hr
    rw [corners_eq hlast hfirst, ← cornersBetween_reverse]
    exact corners_eq (List.getLast?_reverse ▸ hfirst) (List.head?_reverse ▸ hlast)

end Housewright.Ring
