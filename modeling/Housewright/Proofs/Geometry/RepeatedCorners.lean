import Housewright.Proofs.Binary64.SignedZeros
import Housewright.Proofs.Geometry.CornerOrder
import Housewright.Proofs.Geometry.Overflow
import Housewright.Proofs.Geometry.Passes

/-!
# Rings with a repeated vertex

A vertex that follows itself adds an edge without length, and both corners at that edge disappear
from the offset: the corner of the ring that the vertex stood for is lost with them.

* `Ring.Repeats`: a copy of a vertex stands directly after it, or a copy of the first vertex at
  the end;
* `Ring.Repeats.corners_cases`: the corner at the vertex is replaced by two flat ones;
* `Ring.Repeats.isCounterClockwise_eq`: the ring still runs the same way;
* `Ring.offsetInward_repeated`: its offset joins what the other corners are moved to;
* `Ring.quad_loses_corner`: a square is moved to a triangle.
-/

namespace Housewright

open Binary64

namespace Ring

/-! ## A repeated vertex -/

section Corners

variable {α : Type} {p : Point α} {i : ℕ} {r s : Ring α}

/-- The second ring is the first one with a copy of its vertex `p`, which has the index `i`:
directly after the vertex, or at the end of the ring if the vertex is the first one. -/
inductive Repeats (p : Point α) : ℕ → Ring α → Ring α → Prop
  | next (before after : List (Point α)) :
    Repeats p before.length (before ++ p :: after) (before ++ p :: p :: after)
  | closing (rest : List (Point α)) : Repeats p 0 (p :: rest) (p :: rest ++ [p])

/-- **Two flat corners** take the place of the corner at the vertex. -/
theorem Repeats.corners_cases (h : Repeats p i r s) :
    ∃ before after xs ys, xs.length = i ∧ r.corners = xs ++ ⟨before, p, after⟩ :: ys ∧
      (s.corners = xs ++ ⟨before, p, p⟩ :: ⟨p, p, after⟩ :: ys ∨
        xs = [] ∧ s.corners = ⟨p, p, after⟩ :: ys ++ [⟨before, p, p⟩]) := by
  cases h with
  | next before after =>
    have hlast : (before ++ p :: after).getLast? = some (after.getLast?.getD p) := by
      simp [List.getLast?_cons]
    have hlast' : (before ++ p :: p :: after).getLast? = some (after.getLast?.getD p) := by
      simp [List.getLast?_cons]
    have hfirst : (before ++ p :: after).head? = some (before.headD p) := by cases before <;> rfl
    have hfirst' : (before ++ p :: p :: after).head? = some (before.headD p) := by
      cases before <;> rfl
    have hr := corners_eq hlast hfirst
    have hs := corners_eq hlast' hfirst'
    rw [cornersBetween_append] at hr hs
    exact ⟨_, _, _, _, length_cornersBetween _ _ _, hr, .inl hs⟩
  | closing rest =>
    have hfirst : (p :: rest ++ [p]).head? = some p := rfl
    have hr : corners (p :: rest) = _ := corners_eq List.getLast?_cons List.head?_cons
    have hs := corners_eq List.getLast?_concat hfirst
    have hhead : (rest ++ [p]).headD p = rest.headD p := by cases rest <;> rfl
    rw [List.cons_append, cornersBetween, cornersBetween_append, hhead,
      List.getLastD_eq_getLast?] at hs
    exact ⟨_, _, [], _, rfl, hr, .inr ⟨rfl, hs⟩⟩

end Corners

/-! ## The way a ring runs -/

section Winding

variable {p : Point Float} {i : ℕ} {r s : Ring Float}

/-- What the edge after a corner adds to the shoelace sum. -/
def Corner.shoelace (c : Corner Float) : Float := c.apex.x * c.after.y - c.after.x * c.apex.y

theorem signedArea_eq_corners (r : Ring Float) :
    r.signedArea = r.corners.foldl (fun sum c => sum + c.shoelace) 0.0 / 2.0 := by
  rw [signedArea, edges_eq_map_corners, List.foldl_map]
  rfl

/-- **The ring still runs the same way**: an edge without length adds nothing to its area, as long
as the product of the coordinates of its ends is finite. -/
theorem Repeats.isCounterClockwise_eq (h : Repeats p i r s)
    (hproduct : (p.x * p.y).isFinite = true) : s.isCounterClockwise = r.isCounterClockwise := by
  obtain ⟨before, after, xs, ys, -, hr, hs⟩ := h.corners_cases
  have hflat : IsZero (Corner.shoelace ⟨before, p, p⟩) := isZero_sub_self hproduct
  have hsum : Alike (s.corners.foldl (fun sum c => sum + c.shoelace) 0.0)
      (r.corners.foldl (fun sum c => sum + c.shoelace) 0.0) := by
    rcases hs with hs | ⟨rfl, hs⟩
    · have hinsert := Alike.foldl_insert hflat 0.0 xs (⟨p, p, after⟩ :: ys)
      -- the second flat corner adds what the corner at `p` adds
      have hsecond : (xs ++ ⟨p, p, after⟩ :: ys).foldl (fun sum c => sum + c.shoelace) 0.0 =
          (xs ++ ⟨before, p, after⟩ :: ys).foldl (fun sum c => sum + c.shoelace) 0.0 := by
        rw [List.foldl_append, List.foldl_append]
        rfl
      rw [hs, hr, ← hsecond]
      exact hinsert
    · have hinsert := Alike.foldl_insert hflat 0.0 (⟨p, p, after⟩ :: ys) []
      rw [List.append_nil] at hinsert
      rw [hs, hr]
      exact hinsert
  unfold isCounterClockwise
  rw [signedArea_eq_corners, signedArea_eq_corners]
  exact decide_eq_decide.2 ((hsum.div 2.0).lt_iff 0.0)

end Winding

/-! ## The moved corners -/

section Moved

variable {p : Point Float} {i : ℕ} {r s : Ring Float} {distance : Float}

/-- Turns the direction of an edge into its inward normal, for the way the ring runs. -/
def inward (r : Ring Float) : Vec Float → Vec Float :=
  if r.isCounterClockwise then Vec.left else Vec.right

/-- The points that some corners are moved to. -/
def movedPoints (inward : Vec Float → Vec Float) (distance : Float)
    (corners : List (Corner Float)) : Computed (List (Point Float)) := do
  return (← corners.mapM (offsetCorner inward distance)).flatten

/-- The points that some corners are moved to, joined to a ring. -/
def joinMoved (inward : Vec Float → Vec Float) (distance : Float)
    (corners : List (Corner Float)) : Computed (Ring Float) := do
  withoutRepeats Tolerance.geometry (← movedPoints inward distance corners)

theorem offsetInward_eq (hthree : 3 ≤ r.length) (hdistance : (distance == 0.0) = false) :
    r.offsetInward distance = joinMoved r.inward distance r.corners := by
  have hmoves : ¬ (r.length < 3 || distance == 0.0) = true := by
    rw [hdistance, Bool.or_false, decide_eq_true_iff]
    omega
  exact if_neg hmoves

theorem movedPoints_append_eq_ok {inward : Vec Float → Vec Float} {xs ys : List (Corner Float)}
    {points : List (Point Float)} :
    movedPoints inward distance (xs ++ ys) = .ok points ↔
      ∃ a b, movedPoints inward distance xs = .ok a ∧ movedPoints inward distance ys = .ok b ∧
        a ++ b = points := by
  simp only [movedPoints, List.mapM_append, bind_eq_ok, pure_eq_ok]
  constructor
  · rintro ⟨-, ⟨as, has, bs, hbs, rfl⟩, rfl⟩
    exact ⟨_, _, ⟨as, has, rfl⟩, ⟨bs, hbs, rfl⟩, List.flatten_append.symm⟩
  · rintro ⟨-, -, ⟨as, has, rfl⟩, ⟨bs, hbs, rfl⟩, rfl⟩
    exact ⟨_, ⟨as, has, bs, hbs, rfl⟩, List.flatten_append⟩

theorem movedPoints_cons_eq_ok {inward : Vec Float → Vec Float} {c : Corner Float}
    {ys : List (Corner Float)} {points : List (Point Float)} :
    movedPoints inward distance (c :: ys) = .ok points ↔
      ∃ group b, offsetCorner inward distance c = .ok group ∧
        movedPoints inward distance ys = .ok b ∧ group ++ b = points := by
  simp only [movedPoints, List.mapM_cons, bind_eq_ok, pure_eq_ok]
  constructor
  · rintro ⟨-, ⟨group, hgroup, bs, hbs, rfl⟩, rfl⟩
    exact ⟨group, _, hgroup, ⟨bs, hbs, rfl⟩, rfl⟩
  · rintro ⟨group, -, hgroup, ⟨bs, hbs, rfl⟩, rfl⟩
    exact ⟨_, ⟨group, hgroup, bs, hbs, rfl⟩, rfl⟩

/-- A corner without points can be left out. -/
theorem movedPoints_middle {inward : Vec Float → Vec Float} {c : Corner Float}
    (hc : offsetCorner inward distance c = .ok []) (xs ys : List (Corner Float)) :
    movedPoints inward distance (xs ++ c :: ys) = movedPoints inward distance (xs ++ ys) := by
  unfold movedPoints
  rw [List.mapM_append, List.mapM_append, List.mapM_cons, hc]
  cases xs.mapM (offsetCorner inward distance) with
  | error e => rfl
  | ok groups =>
    cases ys.mapM (offsetCorner inward distance) with
    | error e => rfl
    | ok groups' => exact congrArg Except.ok (by simp)

/-- An edge from a point to itself has no direction. -/
theorem unit_between_self (hx : p.x.isFinite = true) (hy : p.y.isFinite = true) :
    (Vec.between p p).unit = .ok Vec.zero := by
  have hlength : (Vec.between p p).length = 0.0 :=
    vectorLength_eq_zero (isZero_sub_self hx) (isZero_sub_self hy)
  have hshort : (0.0 : Float) < Tolerance.geometry := by decide +kernel
  rw [Vec.unit, hlength, if_pos hshort]

theorem offsetCorner_of_flat {inward : Vec Float → Vec Float} {before apex after : Point Float}
    (hflat : (Vec.between before apex).unit = .ok Vec.zero ∨
      (Vec.between apex after).unit = .ok Vec.zero) :
    offsetCorner inward distance ⟨before, apex, after⟩ = .ok [] := by
  have hzero : (Vec.zero == (Vec.zero : Vec Float)) = true := by decide +kernel
  obtain ⟨e, he⟩ := (Vec.between before apex).exists_unit
  obtain ⟨f, hf⟩ := (Vec.between apex after).exists_unit
  have hlost : (e == Vec.zero || f == Vec.zero) = true := by
    rcases hflat with hflat | hflat
    · obtain rfl : e = Vec.zero := Except.ok.inj (he.symm.trans hflat)
      rw [hzero, Bool.true_or]
    · obtain rfl : f = Vec.zero := Except.ok.inj (hf.symm.trans hflat)
      rw [hzero, Bool.or_true]
  rw [offsetCorner, he, hf]
  exact if_pos hlost

/-- The corner at the vertex is lost, and no other one. -/
theorem Repeats.movedPoints_eq (h : Repeats p i r s) (hx : p.x.isFinite = true)
    (hy : p.y.isFinite = true) (inward : Vec Float → Vec Float) :
    movedPoints inward distance s.corners =
      movedPoints inward distance (r.corners.eraseIdx i) := by
  obtain ⟨before, after, xs, ys, rfl, hr, hs⟩ := h.corners_cases
  have hunit := unit_between_self hx hy
  have hfirst : offsetCorner inward distance ⟨before, p, p⟩ = .ok [] :=
    offsetCorner_of_flat (.inr hunit)
  have hsecond : offsetCorner inward distance ⟨p, p, after⟩ = .ok [] :=
    offsetCorner_of_flat (.inl hunit)
  have herase : r.corners.eraseIdx xs.length = xs ++ ys := by
    rw [hr, List.eraseIdx_append_of_length_le le_rfl, Nat.sub_self, List.eraseIdx_cons_zero]
  rw [herase]
  rcases hs with hs | ⟨rfl, hs⟩
  · rw [hs, movedPoints_middle hfirst, movedPoints_middle hsecond]
  · rw [hs, movedPoints_middle hfirst, List.append_nil]
    exact movedPoints_middle hsecond [] ys

/-- **A corner that is left out** leaves the joined points as they are, up to the starting vertex,
if and only if it has no points, provided that all points were kept. -/
theorem isRotated_iff_of_joinMoved {inward : Vec Float → Vec Float} {c : Corner Float}
    {xs ys : List (Corner Float)} {t u : Ring Float}
    (ht : movedPoints inward distance (xs ++ c :: ys) = .ok t)
    (hkept : joinMoved inward distance (xs ++ c :: ys) = .ok t)
    (hu : joinMoved inward distance (xs ++ ys) = .ok u) :
    u ~r t ↔ offsetCorner inward distance c = .ok [] := by
  constructor
  · intro hrotated
    obtain ⟨a, rest, ha, hrest, rfl⟩ := movedPoints_append_eq_ok.1 ht
    obtain ⟨group, b, hgroup, hb, rfl⟩ := movedPoints_cons_eq_ok.1 hrest
    obtain ⟨others, hothers, hu⟩ := bind_eq_ok.1 hu
    obtain rfl : a ++ b = others := Except.ok.inj
      ((movedPoints_append_eq_ok.2 ⟨a, b, ha, hb, rfl⟩).symm.trans hothers)
    have hle := (withoutRepeats_sublist hu).length_le
    have hlength := hrotated.perm.length_eq
    simp only [List.length_append] at hle hlength
    obtain rfl : group = [] := List.length_eq_zero_iff.1 (by omega)
    exact hgroup
  · intro hc
    have hsame : joinMoved inward distance (xs ++ c :: ys) = joinMoved inward distance (xs ++ ys) :=
      congrArg (· >>= withoutRepeats Tolerance.geometry) (movedPoints_middle hc xs ys)
    obtain rfl : t = u := Except.ok.inj (hkept.symm.trans (hsame.trans hu))
    exact List.IsRotated.refl t

end Moved

/-! ## The offset of a ring with a repeated vertex -/

section Offset

variable {p : Point Float} {i : ℕ} {r s : Ring Float}

theorem Repeats.length_le (h : Repeats p i r s) : r.length ≤ s.length := by
  cases h <;> simp

/-- **A repeated vertex costs the ring its corner there.**  A ring that is moved by no distance
keeps the copy.  Otherwise what the other corners are moved to is joined; if all moved corners
of the ring itself are kept, this is its offset, up to the starting vertex, if and only if the
corner at the vertex is moved to no points. -/
theorem offsetInward_repeated (distance : Float) (h : Repeats p i r s) (hthree : 3 ≤ r.length)
    (hx : p.x.isFinite = true) (hy : p.y.isFinite = true)
    (hproduct : (p.x * p.y).isFinite = true) :
    ((distance == 0.0) = true → s.offsetInward distance = .ok s) ∧
      ((distance == 0.0) = false →
        s.offsetInward distance = joinMoved r.inward distance (r.corners.eraseIdx i) ∧
        ∀ t u c, r.offsetPoints distance = .ok t → r.offsetInward distance = .ok t →
          s.offsetInward distance = .ok u → r.corners[i]? = some c →
            (u ~r t ↔ offsetCorner r.inward distance c = .ok [])) := by
  refine ⟨fun hzero => ?_, fun hdistance => ?_⟩
  · exact if_pos (by rw [hzero, Bool.or_true])
  have hinward : s.inward = r.inward := by
    rw [inward, inward, h.isCounterClockwise_eq hproduct]
  have hs : s.offsetInward distance = joinMoved r.inward distance (r.corners.eraseIdx i) := by
    rw [offsetInward_eq (hthree.trans h.length_le) hdistance, hinward, joinMoved, joinMoved,
      h.movedPoints_eq hx hy]
  refine ⟨hs, fun t u c ht hr hu hc => ?_⟩
  obtain ⟨hi, rfl⟩ := List.getElem?_eq_some_iff.1 hc
  have hsplit : r.corners = r.corners.take i ++ r.corners[i] :: r.corners.drop (i + 1) := by
    rw [← List.drop_eq_getElem_cons hi, List.take_append_drop]
  rw [hs, List.eraseIdx_eq_take_drop_succ] at hu
  rw [offsetInward_eq hthree hdistance] at hr
  have ht' : movedPoints r.inward distance r.corners = .ok t := ht
  rw [hsplit] at ht' hr
  exact isRotated_iff_of_joinMoved ht' hr hu

/-! ### A square -/

/-- Points are equal if their coordinates are. -/
instance : DecidableEq (Point Float) := fun p q =>
  decidable_of_iff (p.x = q.x ∧ p.y = q.y) (by cases p; cases q; simp)

/-- A square, counter-clockwise from a corner. -/
def quad : Ring Float := [⟨0.0, 0.0⟩, ⟨4.0, 0.0⟩, ⟨4.0, 4.0⟩, ⟨0.0, 4.0⟩]

/-- The square with its first corner given twice. -/
def quadTwice : Ring Float := [⟨0.0, 0.0⟩, ⟨0.0, 0.0⟩, ⟨4.0, 0.0⟩, ⟨4.0, 4.0⟩, ⟨0.0, 4.0⟩]

theorem quadTwice_repeats : Repeats ⟨0.0, 0.0⟩ 0 quad quadTwice :=
  .next [] [⟨4.0, 0.0⟩, ⟨4.0, 4.0⟩, ⟨0.0, 4.0⟩]

theorem offsetInward_quad :
    quad.offsetInward 0.5 = .ok [⟨0.5, 0.5⟩, ⟨3.5, 0.5⟩, ⟨3.5, 3.5⟩, ⟨0.5, 3.5⟩] := by
  decide +kernel

theorem offsetInward_quadTwice :
    quadTwice.offsetInward 0.5 = .ok [⟨3.5, 0.5⟩, ⟨3.5, 3.5⟩, ⟨0.5, 3.5⟩] := by
  decide +kernel

/-- The square with one corner given twice joins what the other three corners are moved to. -/
theorem quadTwice_joined :
    Repeats ⟨0.0, 0.0⟩ 0 quad quadTwice ∧
      quadTwice.offsetInward 0.5 = joinMoved quad.inward 0.5 (quad.corners.eraseIdx 0) ∧
      ∃ t u c, quad.offsetPoints 0.5 = .ok t ∧ quad.offsetInward 0.5 = .ok t ∧
        quadTwice.offsetInward 0.5 = .ok u ∧ quad.corners[0]? = some c ∧
        (u ~r t ↔ offsetCorner quad.inward 0.5 c = .ok []) := by
  have hpoints : quad.offsetPoints 0.5 =
      .ok [⟨0.5, 0.5⟩, ⟨3.5, 0.5⟩, ⟨3.5, 3.5⟩, ⟨0.5, 3.5⟩] := by decide +kernel
  have hcorner : quad.corners[0]? = some ⟨⟨0.0, 4.0⟩, ⟨0.0, 0.0⟩, ⟨4.0, 0.0⟩⟩ := rfl
  obtain ⟨hjoined, hiff⟩ := (offsetInward_repeated 0.5 quadTwice_repeats (by decide)
    (by decide +kernel) (by decide +kernel) (by decide +kernel)).2 (by decide +kernel)
  exact ⟨quadTwice_repeats, hjoined, _, _, _, hpoints, offsetInward_quad, offsetInward_quadTwice,
    hcorner, hiff _ _ _ hpoints offsetInward_quad offsetInward_quadTwice hcorner⟩

/-- **The square is moved to a triangle** when one of its corners is given twice. -/
theorem quad_loses_corner :
    Repeats ⟨0.0, 0.0⟩ 0 quad quadTwice ∧ ∃ t u, quad.offsetInward 0.5 = .ok t ∧
      quadTwice.offsetInward 0.5 = .ok u ∧ ¬ u ~r t := by
  refine ⟨quadTwice_repeats, _, _, offsetInward_quad, offsetInward_quadTwice, fun hrotated => ?_⟩
  have hlength := hrotated.perm.length_eq
  simp at hlength

end Offset

end Ring

end Housewright
