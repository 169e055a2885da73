import Housewright.Proofs.Exact.Clipping
import Housewright.Construction.Roofs

/-!
# Splitting a ring along a line

A ring, convex or not, is clipped to the left and to the right of a line.  The two halves have
the area of the ring together, counted with its sign.

* `Ring.signedArea_eq_sweep`: the area of a ring is what the way around it sweeps, seen from
  any point;
* `HalfPlane.sweep_cut`: seen from a point of the line, a clipped edge sweeps the share of the
  edge that lies inside, and ways along the line sweep nothing;
* `Ring.signedArea_cutRing`: so a clipped ring has the area of these shares;
* `Ring.signedArea_split`: the shares to the left and to the right make up the edges.
-/

namespace Housewright

noncomputable section

/-! ## Swept areas -/

/-- Twice the area swept on the way from `s` through some points, seen from `o`. -/
def sweep (o s : Point ℝ) : List (Point ℝ) → ℝ
  | [] => 0
  | p :: rest => o.spanned s p + sweep o p rest

theorem getLastD_append (points later : List (Point ℝ)) (s : Point ℝ) :
    (points ++ later).getLastD s = later.getLastD (points.getLastD s) := by
  rw [List.getLastD_eq_getLast?, List.getLastD_eq_getLast?, List.getLastD_eq_getLast?,
    List.getLast?_append]
  cases later.getLast? <;> rfl

theorem sweep_append (o s : Point ℝ) (points later : List (Point ℝ)) :
    sweep o s (points ++ later) = sweep o s points + sweep o (points.getLastD s) later := by
  induction points generalizing s with
  | nil => simp [sweep]
  | cons p rest ih =>
    rw [List.cons_append, sweep, sweep, ih, List.getLastD_cons]
    ring

/-- What is swept along edges is the sum of what each of them sweeps. -/
theorem sum_zip_eq_sweep (o s : Point ℝ) (points : List (Point ℝ)) :
    (((s :: points).zip points).map fun e => o.spanned e.1 e.2).sum = sweep o s points := by
  induction points generalizing s with
  | nil => rfl
  | cons p rest ih =>
    rw [List.zip_cons_cons, List.map_cons, List.sum_cons, ih]
    rfl

/-- The point that an area is seen from matters only to ways that are not closed. -/
theorem sweep_origin (o s : Point ℝ) (points : List (Point ℝ)) :
    sweep o s points = sweep ⟨0, 0⟩ s points +
      ((o.x * s.y - s.x * o.y) - (o.x * (points.getLastD s).y - (points.getLastD s).x * o.y)) := by
  induction points generalizing s with
  | nil => simp [sweep]
  | cons p rest ih =>
    rw [sweep, sweep, ih, List.getLastD_cons, Point.spanned, Point.spanned]
    ring

namespace Ring

/-- **The area of a ring** is half of what the way around it sweeps. -/
theorem signedArea_cons (o p : Point ℝ) (rest : List (Point ℝ)) :
    signedArea (p :: rest) = sweep o p (rest ++ [p]) / 2 := by
  have hzip (s : Point ℝ) (points : List (Point ℝ)) :
      (((s :: points).zip (points ++ [p])).map fun e => e.1.x * e.2.y - e.2.x * e.1.y).sum =
        sweep ⟨0, 0⟩ s (points ++ [p]) := by
    induction points generalizing s with
    | nil => simp [sweep, Point.spanned]
    | cons q rest ih =>
      rw [List.cons_append, List.zip_cons_cons, List.map_cons, List.sum_cons, ih, sweep,
        Point.spanned]
      ring
  have hfold (edges : List (Point ℝ × Point ℝ)) (start : ℝ) :
      edges.foldl (fun area e => area + (e.1.x * e.2.y - e.2.x * e.1.y)) start =
        start + (edges.map fun e => e.1.x * e.2.y - e.2.x * e.1.y).sum := by
    induction edges generalizing start with
    | nil => simp
    | cons e rest ih =>
      rw [List.foldl_cons, ih, List.map_cons, List.sum_cons]
      ring
  have hlast : (rest ++ [p]).getLastD p = p := by simp
  rw [sweep_origin, hlast, sub_self, add_zero, ← hzip]
  show (edges (p :: rest)).foldl (fun area e => area + (e.1.x * e.2.y - e.2.x * e.1.y)) 0.0 / 2.0
    = _
  rw [hfold, edges]
  norm_num

/-- The area of a ring, with the way around it begun at the last vertex. -/
theorem signedArea_eq_sweep (o : Point ℝ) {r : Ring ℝ} {last : Point ℝ}
    (hlast : r.getLast? = some last) : r.signedArea = sweep o last r / 2 := by
  cases r with
  | nil => cases hlast
  | cons p rest =>
    have heq : rest.getLastD p = last := by
      rw [List.getLast?_cons] at hlast
      rw [List.getLastD_eq_getLast?]
      exact Option.some_inj.1 hlast
    rw [signedArea_cons o, sweep_append, heq, sweep, sweep, sweep]
    ring

/-- A ring without vertices has no area. -/
@[simp] theorem signedArea_nil : signedArea ([] : Ring ℝ) = 0 := by
  rw [signedArea, edges, List.foldl_nil]
  norm_num

/-! ## Repeated points -/

theorem sweep_distant_zero (o s : Point ℝ) (points : List (Point ℝ)) :
    sweep o s (distant 0 s points) = sweep o s points := by
  induction points generalizing s with
  | nil => rfl
  | cons p rest ih =>
    obtain rfl | hne := eq_or_ne s p
    · rw [distant_zero_repeat, ih, sweep, Point.spanned_self, zero_add]
    · rw [distant_zero_of_ne hne, sweep, sweep, ih]

theorem sweep_unclosed_zero (o p : Point ℝ) (points : List (Point ℝ)) :
    sweep o p (unclosed 0 p points ++ [p]) = sweep o p (points ++ [p]) := by
  obtain rfl | ⟨init, last, rfl⟩ := points.eq_nil_or_concat'
  · rfl
  · obtain rfl | hne := eq_or_ne p last
    · rw [unclosed_zero_repeat, sweep_append o p (init ++ [p])]
      simp [sweep]
    · rw [unclosed_zero_of_ne hne]

/-- **Dropping repeated points** does not change the area. -/
theorem signedArea_pruned_zero (r : Ring ℝ) : (r.pruned 0).signedArea = r.signedArea := by
  cases r with
  | nil => rfl
  | cons p rest =>
    rw [pruned, signedArea_cons p, signedArea_cons p, sweep_unclosed_zero, sweep_append,
      sweep_append, sweep_distant_zero, getLastD_distant_zero]

end Ring

/-! ## Shares of edges -/

namespace HalfPlane

/-- The share of the edge from `p` to `q` that lies inside a half-plane. -/
def share (h : HalfPlane ℝ) (p q : Point ℝ) : ℝ :=
  if 0 ≤ h.depth p then if 0 ≤ h.depth q then 1 else h.depth p / (h.depth p - h.depth q)
  else if 0 ≤ h.depth q then 1 - h.depth p / (h.depth p - h.depth q) else 0

/-- Where the way around a clipped ring is when the way around the ring is at `p`: there, if it
is inside, and somewhere on the line otherwise. -/
def Follows (h : HalfPlane ℝ) (p s : Point ℝ) : Prop :=
  if 0 ≤ h.depth p then s = p else h.depth s = 0

variable {h : HalfPlane ℝ} {p q s : Point ℝ}

/-- The line of a half-plane goes through its first point. -/
@[simp] theorem depth_a (h : HalfPlane ℝ) : h.depth h.a = 0 := by
  cases hk : h.keep with
  | left => simp [depth, hk, sideOfLine]
  | right => simp [depth, hk, sideOfLine]

/-- Ways along the line sweep nothing, seen from a point of it. -/
theorem spanned_eq_zero (hab : h.a ≠ h.b) (hp : h.depth p = 0) (hq : h.depth q = 0) :
    h.a.spanned p q = 0 := by
  have hside (v : Point ℝ) (hv : h.depth v = 0) :
      (v.x - h.a.x) * (h.b.y - h.a.y) - (v.y - h.a.y) * (h.b.x - h.a.x) = 0 := by
    show sideOfLine v h.a h.b = 0
    obtain hs | hs := h.sideOfLine_cases
    · rw [hs, hv]
    · rw [hs, hv, neg_zero]
  have hps := hside p hp
  have hqs := hside q hq
  -- the span times the direction of the line is zero
  have hx : h.a.spanned p q * (h.b.x - h.a.x) = 0 := by
    rw [Point.spanned]
    linear_combination (q.x - h.a.x) * hps - (p.x - h.a.x) * hqs
  have hy : h.a.spanned p q * (h.b.y - h.a.y) = 0 := by
    rw [Point.spanned]
    linear_combination (q.y - h.a.y) * hps - (p.y - h.a.y) * hqs
  by_contra hne
  refine hab ?_
  have hbx := (mul_eq_zero.1 hx).resolve_left hne
  have hby := (mul_eq_zero.1 hy).resolve_left hne
  exact Point.eq_of_coordinates (sub_eq_zero.1 hbx).symm (sub_eq_zero.1 hby).symm

/-- **A clipped edge** sweeps its share of the edge. -/
theorem sweep_cut (hab : h.a ≠ h.b) (hs : h.Follows p s) :
    sweep h.a s (h.cut p q) = h.share p q * h.a.spanned p q ∧
      h.Follows q ((h.cut p q).getLastD s) := by
  unfold Follows at hs ⊢
  unfold cut share
  by_cases hp : 0 ≤ h.depth p
  · rw [if_pos hp] at hs
    subst hs
    by_cases hq : 0 ≤ h.depth q
    · simp [hp, hq, sweep]
    · have hne : h.depth s ≠ h.depth q := fun heq => hq (heq ▸ hp)
      simp only [hp, hq, if_true, if_false, sweep, add_zero, hit, Point.spanned_along_right,
        Point.spanned_self, mul_zero, zero_add]
      exact ⟨trivial, depth_hit h hne⟩
  · rw [if_neg hp] at hs
    by_cases hq : 0 ≤ h.depth q
    · have hne : h.depth p ≠ h.depth q := fun heq => hp (heq ▸ hq)
      have hline := spanned_eq_zero hab hs (depth_hit h hne)
      simp only [hp, hq, if_true, if_false, sweep, add_zero, hline, zero_add]
      simp only [hit, Point.spanned_along_left, Point.spanned_self, mul_zero, add_zero]
      exact ⟨trivial, rfl⟩
    · simp only [hp, hq, if_false, sweep, zero_mul]
      exact ⟨trivial, hs⟩

/-- Clipped edges, one after the other, sweep their shares. -/
theorem sweep_cuts (hab : h.a ≠ h.b) (points : List (Point ℝ)) (hs : h.Follows p s) :
    sweep h.a s (((p :: points).zip points).flatMap fun e => h.cut e.1 e.2) =
        (((p :: points).zip points).map fun e => h.share e.1 e.2 * h.a.spanned e.1 e.2).sum ∧
      h.Follows (points.getLastD p)
        ((((p :: points).zip points).flatMap fun e => h.cut e.1 e.2).getLastD s) := by
  induction points generalizing p s with
  | nil => exact ⟨rfl, hs⟩
  | cons q rest ih =>
    obtain ⟨hsweep, hfollows⟩ := sweep_cut (q := q) hab hs
    obtain ⟨ihsweep, ihfollows⟩ := ih hfollows
    rw [List.zip_cons_cons, List.flatMap_cons, List.map_cons, List.sum_cons, sweep_append, hsweep,
      ihsweep, List.getLastD_cons]
    refine ⟨rfl, ?_⟩
    rw [getLastD_append]
    exact ihfollows

/-- **The area of a clipped ring** is made up of the shares of the edges. -/
theorem signedArea_cutRing (hab : h.a ≠ h.b) (r : Ring ℝ) :
    (h.cutRing r).signedArea =
      (r.edgesInto.map fun e => h.share e.1 e.2 * h.a.spanned e.1 e.2).sum / 2 := by
  unfold cutRing Ring.edgesInto
  cases hlast : r.getLast? with
  | none => simp
  | some last =>
    have hend : r.getLastD last = last := by rw [List.getLastD_eq_getLast?, hlast]; rfl
    -- any way that starts where the clipped way may be ends where it may be
    have hrun {s : Point ℝ} (hs : h.Follows last s) := sweep_cuts hab r hs
    have hstart : h.Follows last (if 0 ≤ h.depth last then last else h.a) := by
      unfold Follows
      split
      · rfl
      · exact depth_a h
    cases hcut : (((last :: r).zip r).flatMap fun e => h.cut e.1 e.2).getLast? with
    | none =>
      obtain ⟨hsweep, -⟩ := hrun hstart
      rw [List.getLast?_eq_none_iff.1 hcut] at hsweep ⊢
      rw [← hsweep, Ring.signedArea_nil, sweep, zero_div]
    | some y =>
      obtain ⟨-, hy⟩ := hrun hstart
      rw [hend, List.getLastD_eq_getLast?, hcut, Option.getD_some] at hy
      obtain ⟨hsweep, -⟩ := hrun hy
      rw [Ring.signedArea_eq_sweep h.a hcut, hsweep]

/-- **The shares on both sides of a line** make up the edge, unless it runs along the line. -/
theorem share_add_share {h' : HalfPlane ℝ} (hop : ∀ v, h'.depth v = -h.depth v)
    (hne : ¬ (h.depth p = 0 ∧ h.depth q = 0)) : h.share p q + h'.share p q = 1 := by
  have hparameter : -h.depth p / (-h.depth p - -h.depth q) =
      h.depth p / (h.depth p - h.depth q) := by
    rw [← neg_sub', neg_div_neg_eq]
  simp only [share, hop, hparameter, Left.nonneg_neg_iff]
  obtain hp | hp | hp := lt_trichotomy (h.depth p) 0
  · obtain hq | hq | hq := lt_trichotomy (h.depth q) 0
    · simp [hp.le, hp.not_ge, hq.le, hq.not_ge]
    · simp [hp.le, hp.not_ge, hq, hp.ne]
    · simp [hp.le, hp.not_ge, hq.le, hq.not_ge]
  · obtain hq | hq | hq := lt_trichotomy (h.depth q) 0
    · simp [hp, hq.le, hq.not_ge]
    · exact absurd ⟨hp, hq⟩ hne
    · simp [hp, hq.le, hq.not_ge]
  · obtain hq | hq | hq := lt_trichotomy (h.depth q) 0
    · simp [hp.le, hp.not_ge, hq.le, hq.not_ge]
    · simp [hp.le, hp.not_ge, hq, hp.ne']
    · simp [hp.le, hp.not_ge, hq.le, hq.not_ge]

/-- The clipped rings on both sides of a line have the area of the ring together. -/
theorem signedArea_cutRings {a b : Point ℝ} (hab : a ≠ b) (r : Ring ℝ) :
    ((HalfPlane.mk a b .left).cutRing r).signedArea +
      ((HalfPlane.mk a b .right).cutRing r).signedArea = r.signedArea := by
  have hop (v : Point ℝ) : (HalfPlane.mk a b .right).depth v =
      -(HalfPlane.mk a b .left).depth v := rfl
  have hshares (p q : Point ℝ) : (HalfPlane.mk a b .left).share p q * a.spanned p q +
      (HalfPlane.mk a b .right).share p q * a.spanned p q = a.spanned p q := by
    by_cases hline : (HalfPlane.mk a b .left).depth p = 0 ∧ (HalfPlane.mk a b .left).depth q = 0
    · rw [spanned_eq_zero (h := ⟨a, b, .left⟩) hab hline.1 hline.2]
      ring
    · rw [← add_mul, share_add_share hop hline, one_mul]
  rw [signedArea_cutRing hab, signedArea_cutRing hab, ← add_div, ← List.sum_map_add]
  simp only [hshares]
  cases hlast : r.getLast? with
  | none =>
    rw [List.getLast?_eq_none_iff.1 hlast]
    simp [Ring.edgesInto]
  | some last =>
    rw [Ring.signedArea_eq_sweep a hlast, ← sum_zip_eq_sweep, Ring.edgesInto, hlast]

end HalfPlane

/-! ## Both halves -/

/-- A line splits a ring cleanly if its two sides cut it cleanly. -/
def Ring.SplitsCleanly (r : Ring ℝ) (a b : Point ℝ) (eps : ℝ) : Prop :=
  ∀ keep, (HalfPlane.mk a b keep).CutsCleanly eps r

/-- A clean cut leaves the area of the cut edges. -/
theorem HalfPlane.CutsCleanly.exists_clip {h : HalfPlane ℝ} {eps : ℝ} {r : Ring ℝ}
    (hclean : h.CutsCleanly eps r) (h0 : 0 ≤ eps) (h1 : eps ≤ Tolerance.geometry) :
    ∃ half, r.clip h eps = .ok half ∧ half.signedArea = (h.cutRing r).signedArea := by
  refine ⟨_, hclean.clip_eq_ok h0 h1, ?_⟩
  split
  · rfl
  · exact Ring.signedArea_pruned_zero _

/-- The ridge line of a gable roof has two ends. -/
theorem GableRoof.side_ends_ne {roof : GableRoof ℝ} {base : ℝ} {outline : Ring ℝ}
    {g : GableSlopes ℝ} (hg : roof.slopes base outline = .ok g) (keep : Side) :
    (g.side keep).a ≠ (g.side keep).b := by
  unfold slopes at hg
  simp only at hg
  split at hg
  · cases hg
  · rename_i hlong
    have hpos : 0 < roof.ridge.direction.length := HalfPlane.geometry_pos.trans (not_le.1 hlong)
    rw [Vec.divide_eq_ok _ hpos.ne'] at hg
    obtain rfl := Except.ok.inj hg
    intro heq
    have hextent : (Tolerance.referenceExtent : ℝ) = 1000 := by
      norm_num [Tolerance.referenceExtent]
    simp only [GableSlopes.side, Point.shift, hextent, Point.mk.injEq] at heq
    obtain ⟨hx, hy⟩ := heq
    have hx : roof.ridge.direction.x / roof.ridge.direction.length = 0 := by linarith
    have hy : roof.ridge.direction.y / roof.ridge.direction.length = 0 := by linarith
    rw [div_eq_zero_iff, or_iff_left hpos.ne'] at hx hy
    rw [Vec.length_eq, hx, hy] at hpos
    norm_num at hpos

/-- An outline with a notch that reaches down to the line of its ridge. -/
def notchedOutline : Ring ℝ := [⟨0, -1⟩, ⟨6, -1⟩, ⟨6, 1⟩, ⟨3, 0⟩, ⟨0, 1⟩]

/-- A gable roof with its ridge along the first axis. -/
def notchedGable : GableRoof ℝ where
  id := "gable"
  baseLevelId := "ground"
  ridge := ⟨⟨0, 0⟩, ⟨6, 0⟩⟩
  ridgeHeight := 4
  eaveHeight := 3
  overhang := 0
  thickness := 1

/-- A line splits a ring cleanly if the cut edges on both sides have whole coordinates. -/
theorem Ring.splitsCleanly_of_ints {r : Ring ℝ} {a b : Point ℝ} {left right : List (ℤ × ℤ)}
    (hoff : ∀ v ∈ r, sideOfLine v a b = 0 ∨ Tolerance.geometry < |sideOfLine v a b|)
    (hleft : (HalfPlane.mk a b .left).cutRing r = left.map Point.ofInts)
    (hright : (HalfPlane.mk a b .right).cutRing r = right.map Point.ofInts) :
    r.SplitsCleanly a b Tolerance.geometry := by
  intro keep
  cases keep with
  | left => exact HalfPlane.cutsCleanly_of_ints hoff hleft
  | right => exact HalfPlane.cutsCleanly_of_ints hoff hright

theorem notchedOutline_splits_ridge :
    notchedOutline.SplitsCleanly ⟨-1000, 0⟩ ⟨1000, 0⟩ Tolerance.geometry := by
  have hbelow : (HalfPlane.mk ⟨-1000, 0⟩ ⟨1000, 0⟩ .left).cutRing notchedOutline =
      [(0, 0), (0, -1), (6, -1), (6, 0), (3, 0), (3, 0), (3, 0)].map Point.ofInts := by
    norm_num [HalfPlane.cutRing, notchedOutline, Ring.edgesInto, HalfPlane.cut,
      HalfPlane.depth, sideOfLine, HalfPlane.hit, Point.along, Point.ofInts]
  have habove : (HalfPlane.mk ⟨-1000, 0⟩ ⟨1000, 0⟩ .right).cutRing notchedOutline =
      [(0, 0), (6, 0), (6, 1), (3, 0), (0, 1)].map Point.ofInts := by
    norm_num [HalfPlane.cutRing, notchedOutline, Ring.edgesInto, HalfPlane.cut,
      HalfPlane.depth, sideOfLine, HalfPlane.hit, Point.along, Point.ofInts]
  refine Ring.splitsCleanly_of_ints ?_ hbelow habove
  norm_num [notchedOutline, sideOfLine, Tolerance.geometry]

theorem notchedOutline_splits_across :
    notchedOutline.SplitsCleanly ⟨3, -1000⟩ ⟨3, 1000⟩ Tolerance.geometry := by
  have heast : (HalfPlane.mk ⟨3, -1000⟩ ⟨3, 1000⟩ .left).cutRing notchedOutline =
      [(3, -1), (6, -1), (6, 1), (3, 0), (3, 0)].map Point.ofInts := by
    norm_num [HalfPlane.cutRing, notchedOutline, Ring.edgesInto, HalfPlane.cut,
      HalfPlane.depth, sideOfLine, HalfPlane.hit, Point.along, Point.ofInts]
  have hwest : (HalfPlane.mk ⟨3, -1000⟩ ⟨3, 1000⟩ .right).cutRing notchedOutline =
      [(0, -1), (3, -1), (3, 0), (3, 0), (0, 1)].map Point.ofInts := by
    norm_num [HalfPlane.cutRing, notchedOutline, Ring.edgesInto, HalfPlane.cut,
      HalfPlane.depth, sideOfLine, HalfPlane.hit, Point.along, Point.ofInts]
  refine Ring.splitsCleanly_of_ints ?_ heast hwest
  norm_num [notchedOutline, sideOfLine, Tolerance.geometry]

theorem notchedGable_slopes :
    ∃ g, notchedGable.slopes 0 notchedOutline = .ok g ∧
      ∀ keep, g.side keep = ⟨⟨-1000, 0⟩, ⟨1000, 0⟩, keep⟩ := by
  have hlength : notchedGable.ridge.direction.length = 6 := by
    rw [Vec.length_eq, Real.sqrt_eq_iff_mul_self_eq_of_pos (by norm_num)]
    norm_num [notchedGable, RidgeLine.direction, Vec.between]
  unfold GableRoof.slopes
  simp only
  rw [hlength, if_neg (by norm_num [Tolerance.geometry]), Vec.divide_eq_ok _ (by norm_num)]
  refine ⟨_, rfl, fun keep => ?_⟩
  norm_num [GableSlopes.side, notchedGable, RidgeLine.direction, Vec.between, Point.shift,
    Tolerance.referenceExtent]

end

end Housewright
