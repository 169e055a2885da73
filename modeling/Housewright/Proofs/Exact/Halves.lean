import Housewright.Proofs.Exact.Chords
import Housewright.Construction.Plates

/-!
# The two sides of a line

A strictly convex ring is clipped to both sides of a line.  Where the line crosses the ring both
halves have an edge on it, and these are the same edge run in opposite directions.

* `Ring.StrictlyConvex.pruned_cutRing`: a clipped ring is convex again, whichever way it is run; a
  ring that turns right is seen in a mirror;
* `HalfPlane.depth_mem_cutRing`, `HalfPlane.mem_cutRing_opposite`: off the line a clipped ring has
  vertices of the ring, and on the line the same points from both sides;
* `Ring.StrictlyConvex.half_cases`: a half has one edge on the line, between points that are apart,
  or none;
* `Ring.StrictlyConvex.edgesOnLine_both`, `Ring.StrictlyConvex.edgesOnLine_single`: both halves have
  the same edge there; if there is only one half, its edge is an edge of the ring;
* `Ring.StrictlyConvex.leavesOpen_cases` puts the sides together.
-/

namespace Housewright

noncomputable section

/-! ## Rings seen in a mirror -/

/-- The point on the other side of the first axis. -/
def Point.mirror (p : Point ℝ) : Point ℝ := ⟨p.x, -p.y⟩

theorem Point.gap_mirror (p q : Point ℝ) : p.mirror.gap q.mirror = p.gap q := by
  rw [gap, gap]
  congr 1
  simp only [mirror]
  ring

theorem Point.spanned_mirror (o p q : Point ℝ) :
    o.mirror.spanned p.mirror q.mirror = o.spanned q p := by
  simp only [spanned, mirror]
  ring

/-- The half-plane on the other side of the first axis. -/
def HalfPlane.mirror (h : HalfPlane ℝ) : HalfPlane ℝ := ⟨h.a.mirror, h.b.mirror, h.keep.opposite⟩

theorem HalfPlane.depth_mirror (h : HalfPlane ℝ) (p : Point ℝ) :
    h.mirror.depth p.mirror = h.depth p := by
  obtain ⟨a, b, keep⟩ := h
  cases keep with
  | left =>
    simp only [depth, mirror, Side.opposite, sideOfLine, Point.mirror]
    ring
  | right =>
    simp only [depth, mirror, Side.opposite, sideOfLine, Point.mirror]
    ring

theorem Point.along_mirror (p q : Point ℝ) (t : ℝ) :
    p.mirror.along q.mirror t = (p.along q t).mirror := by
  refine eq_of_coordinates rfl ?_
  simp only [along, mirror]
  ring

theorem HalfPlane.hit_mirror (h : HalfPlane ℝ) (p q : Point ℝ) :
    h.mirror.hit p.mirror q.mirror = (h.hit p q).mirror := by
  rw [hit, hit, depth_mirror, depth_mirror, Point.along_mirror]

namespace Ring

variable {r : Ring ℝ} {h : HalfPlane ℝ} {eps : ℝ}

/-- A ring turns left in a mirror if it does so when it is run backwards. -/
theorem turnsLeft_map_mirror : TurnsLeft (r.map Point.mirror) ↔ TurnsLeft r.reverse := by
  have hturn (p q v : Point ℝ) : p.mirror.spanned q.mirror v.mirror = v.spanned q p := by
    rw [Point.spanned_mirror, Point.spanned_rotate]
  rw [TurnsLeft, TurnsLeft, List.triplewise_map, List.triplewise_reverse]
  simp only [hturn]

theorem edgesInto_map (f : Point ℝ → Point ℝ) (r : Ring ℝ) :
    edgesInto (r.map f) = r.edgesInto.map (Prod.map f f) := by
  unfold edgesInto
  rw [List.getLast?_map]
  cases r.getLast? with
  | none => rfl
  | some last =>
    show (f last :: r.map f).zip (r.map f) = ((last :: r).zip r).map (Prod.map f f)
    rw [← List.map_cons, List.zip_map]

theorem cutRing_mirror (h : HalfPlane ℝ) (r : Ring ℝ) :
    h.mirror.cutRing (r.map Point.mirror) = (h.cutRing r).map Point.mirror := by
  rw [HalfPlane.cutRing, HalfPlane.cutRing, edgesInto_map, List.flatMap_map, List.map_flatMap]
  refine List.flatMap_congr fun e _ => ?_
  simp only [HalfPlane.cut, Prod.map_fst, Prod.map_snd, HalfPlane.depth_mirror,
    HalfPlane.hit_mirror]
  split_ifs <;> rfl

/-- What distances decide is the same in a mirror. -/
theorem pruned_map_mirror (eps : ℝ) (r : Ring ℝ) :
    pruned eps (r.map Point.mirror) = (r.pruned eps).map Point.mirror := by
  have hdistant (last : Point ℝ) (points : List (Point ℝ)) :
      distant eps last.mirror (points.map Point.mirror) =
        (distant eps last points).map Point.mirror := by
    induction points generalizing last with
    | nil => rfl
    | cons p rest ih =>
      rw [List.map_cons, distant, distant, Point.gap_mirror, ih, ih]
      split <;> rfl
  cases r with
  | nil => rfl
  | cons p rest =>
    rw [List.map_cons, pruned, pruned, hdistant, List.map_cons]
    congr 1
    unfold unclosed
    rw [List.getLast?_map]
    cases (distant eps p rest).getLast? with
    | none => rfl
    | some last =>
      simp only [Option.map_some, Point.gap_mirror]
      split
      · rw [List.map_dropLast]
      · rfl

/-- **A clipped ring is convex again**, whichever way it is run. -/
theorem StrictlyConvex.pruned_cutRing (hr : r.StrictlyConvex) (h : HalfPlane ℝ) (heps : 0 ≤ eps) :
    ((h.cutRing r).pruned eps).TurnsLeft ∨ TurnsLeft ((h.cutRing r).pruned eps).reverse := by
  refine hr.turns.imp (fun hleft => hleft.pruned_cutRing hr.three_le heps) fun hright => ?_
  have hmirror := (turnsLeft_map_mirror.2 hright).pruned_cutRing (h := h.mirror)
    (by rw [List.length_map]; exact hr.three_le) heps
  rw [cutRing_mirror, pruned_map_mirror] at hmirror
  exact turnsLeft_map_mirror.1 hmirror

/-- A ring that can be run so that it turns left is run so when it is run counter-clockwise. -/
theorem counterClockwise_turnsLeft (h3 : 3 ≤ r.length) (hr : r.TurnsLeft ∨ TurnsLeft r.reverse) :
    r.counterClockwise.TurnsLeft := by
  have hzero : (0.0 : ℝ) = 0 := by norm_num
  rw [counterClockwise, hzero]
  rcases hr with hleft | hright
  · rwa [if_neg (hleft.signedArea_pos h3).le.not_gt]
  · have hpos := hright.signedArea_pos (by rwa [List.length_reverse])
    rw [signedArea_reverse] at hpos
    rwa [if_pos (by linarith)]

theorem mem_counterClockwise {α : Type} [Scalar α] {r : Ring α} {v : Point α} :
    v ∈ r.counterClockwise ↔ v ∈ r := by
  unfold counterClockwise
  split
  · exact List.mem_reverse
  · rfl

theorem length_counterClockwise {α : Type} [Scalar α] (r : Ring α) :
    r.counterClockwise.length = r.length := by
  unfold counterClockwise
  split
  · exact List.length_reverse
  · rfl

end Ring

/-! ## What a cut leaves -/

namespace HalfPlane

variable {h h' : HalfPlane ℝ} {r : Ring ℝ} {p q x : Point ℝ}

/-- Vertices of a clipped ring are vertices that are inside, and points where an edge changes
sides. -/
theorem mem_cutRing_cases (hx : x ∈ h.cutRing r) : (x ∈ r ∧ 0 ≤ h.depth x) ∨
    ∃ e ∈ r.edgesInto, (0 ≤ h.depth e.1 ↔ h.depth e.2 < 0) ∧ x = h.hit e.1 e.2 := by
  obtain ⟨e, he, hx⟩ := List.mem_flatMap.1 hx
  obtain ⟨-, hq⟩ := Ring.mem_of_mem_edgesInto he
  unfold cut at hx
  split_ifs at hx with hin hin' hin'
  · obtain rfl := List.mem_singleton.1 hx
    exact .inl ⟨hq, hin'⟩
  · obtain rfl := List.mem_singleton.1 hx
    exact .inr ⟨e, he, iff_of_true hin (not_le.1 hin'), rfl⟩
  · rcases List.mem_cons.1 hx with rfl | hx
    · exact .inr ⟨e, he, iff_of_false hin (not_lt.2 hin'), rfl⟩
    · obtain rfl := List.mem_singleton.1 hx
      exact .inl ⟨hq, hin'⟩
  · cases hx

theorem depth_hit_of_cross (hcross : 0 ≤ h.depth p ↔ h.depth q < 0) : h.depth (h.hit p q) = 0 := by
  refine h.depth_hit fun heq => ?_
  rw [heq] at hcross
  exact (not_iff_self (not_le.trans hcross.symm)).elim

/-- A clipped ring is inside, and off the line it has only vertices of the ring. -/
theorem depth_mem_cutRing (hx : x ∈ h.cutRing r) :
    0 ≤ h.depth x ∧ (h.depth x ≠ 0 → x ∈ r) := by
  rcases mem_cutRing_cases hx with ⟨hv, hin⟩ | ⟨e, -, hcross, rfl⟩
  · exact ⟨hin, fun _ => hv⟩
  · rw [depth_hit_of_cross hcross]
    exact ⟨le_rfl, fun hne => absurd rfl hne⟩

/-- A half-plane that keeps a ring does not change it. -/
theorem cutRing_eq_self (hin : ∀ v ∈ r, 0 ≤ h.depth v) : h.cutRing r = r := by
  have hcut (e : Point ℝ × Point ℝ) (he : e ∈ r.edgesInto) : h.cut e.1 e.2 = [e.2] := by
    obtain ⟨hp, hq⟩ := Ring.mem_of_mem_edgesInto he
    rw [cut, if_pos (hin _ hp), if_pos (hin _ hq)]
  rw [cutRing, List.flatMap_congr hcut, ← List.map_eq_flatMap, Ring.map_snd_edgesInto]

/-- **The line of a cut is the same from both sides**: what one half has on it the other has. -/
theorem mem_cutRing_opposite (hop : ∀ v, h'.depth v = -h.depth v) (hx : x ∈ h.cutRing r)
    (hline : h.depth x = 0) : x ∈ h'.cutRing r := by
  have honLine {v : Point ℝ} (hv : v ∈ r) (hv0 : h.depth v = 0) : v ∈ h'.cutRing r :=
    mem_cutRing hv (by rw [hop, hv0, neg_zero])
  rcases mem_cutRing_cases hx with ⟨hv, -⟩ | ⟨e, he, hcross, rfl⟩
  · exact honLine hv hline
  · obtain ⟨hp, hq⟩ := Ring.mem_of_mem_edgesInto he
    by_cases hp0 : h.depth e.1 = 0
    · rw [hit_of_start hp0]
      exact honLine hp hp0
    · by_cases hq0 : h.depth e.2 = 0
      · rw [hit_of_end hp0 hq0]
        exact honLine hq hq0
      · have hsame : h'.hit e.1 e.2 = h.hit e.1 e.2 := by
          rw [hit, hit, hop, hop, ← neg_sub', neg_div_neg_eq]
        rw [← hsame]
        refine hit_mem_cutRing he ?_
        rw [hop, hop, Left.nonneg_neg_iff, neg_lt_zero]
        constructor
        · intro hle
          exact (not_lt.1 fun hneg => (hcross.2 hneg).not_gt (hle.lt_of_ne hp0)).lt_of_ne' hq0
        · intro hpos
          exact (not_lt.1 fun hin => (hcross.1 hin.le).not_gt hpos)

/-- The ring reaches the inside of a half-plane. -/
def IsReached (h : HalfPlane ℝ) (r : Ring ℝ) : Prop := ∃ v ∈ r, 0 < h.depth v

/-- What is cut from a ring that does not reach the inside has no area. -/
theorem signedArea_eq_zero_of_not_isReached (hab : h.a ≠ h.b) (hr : ¬ h.IsReached r) {s : Ring ℝ}
    (hs : ∀ v ∈ s, v ∈ h.cutRing r) : s.signedArea = 0 := by
  have hline {v : Point ℝ} (hv : v ∈ s) : h.depth v = 0 := by
    by_contra hne
    obtain ⟨hin, hmem⟩ := depth_mem_cutRing (hs v hv)
    exact hr ⟨v, hmem hne, hin.lt_of_ne' hne⟩
  rw [Ring.signedArea_eq_sum h.a, List.sum_eq_zero, zero_div]
  intro x hx
  obtain ⟨e, he, rfl⟩ := List.mem_map.1 hx
  obtain ⟨hp, hq⟩ := Ring.mem_of_mem_edges he
  exact spanned_eq_zero hab (hline hp) (hline hq)

end HalfPlane

namespace Ring

variable {r : Ring ℝ} {h h' : HalfPlane ℝ} {eps : ℝ} {A B : Point ℝ}

/-- Neighbours that are kept are farther apart than the tolerance, unless one of them is the first
vertex and one was dropped that is close to it, but not to the other. -/
theorem gap_of_mem_edges_pruned {e : Point ℝ × Point ℝ} (he : e ∈ (r.pruned eps).edges)
    (hne : e.1 ≠ e.2) :
    eps < e.1.gap e.2 ∨ ∃ d ∈ r, eps < e.1.gap d ∧ e.2.gap d ≤ eps := by
  have hpruned : r.pruned eps ≠ [] := by
    intro hnil
    rw [hnil] at he
    cases he
  obtain ⟨p, last, hp, hlast⟩ := exists_ends hpruned
  rw [edges_eq_append hp hlast, List.mem_append, List.mem_singleton] at he
  rcases he with he | rfl
  · obtain ⟨i, hi, rfl⟩ := List.mem_iff_getElem.1 he
    rw [List.length_zip, List.length_tail] at hi
    have hfar := (isChain_pruned eps r).getElem i (by omega)
    simp only [List.getElem_zip, List.getElem_tail]
    exact .inl hfar
  · cases hkept : r.pruned eps with
    | nil => exact absurd hkept hpruned
    | cons first kept =>
      rw [hkept, List.head?_cons, Option.some_inj] at hp
      subst hp
      cases hend : kept.getLast? with
      | none =>
        rw [hkept, List.getLast?_eq_none_iff.1 hend, List.getLast?_singleton,
          Option.some_inj] at hlast
        exact absurd hlast.symm hne
      | some q =>
        rw [hkept, List.getLast?_cons, hend, Option.getD_some, Option.some_inj] at hlast
        subst hlast
        refine (gap_closing_of_pruned hkept hend).imp_left fun hfar => ?_
        rwa [Point.gap_comm]

/-- A clipped ring has at most two vertices on the line. -/
theorem StrictlyConvex.eq_or_eq_of_line (hr : r.StrictlyConvex) (hab : h.a ≠ h.b) {v : Point ℝ}
    (hA : A ∈ h.cutRing r) (hB : B ∈ h.cutRing r) (hv : v ∈ h.cutRing r) (hne : A ≠ B)
    (hA0 : h.depth A = 0) (hB0 : h.depth B = 0) (hv0 : h.depth v = 0) : v = A ∨ v = B := by
  rw [← mem_pruned_zero] at hA hB hv
  rcases hr.pruned_cutRing h le_rfl with hleft | hright
  · exact hleft.eq_or_eq_of_line hab hA hB hv hne hA0 hB0 hv0
  · exact hright.eq_or_eq_of_line hab (List.mem_reverse.2 hA) (List.mem_reverse.2 hB)
      (List.mem_reverse.2 hv) hne hA0 hB0 hv0

end Ring

/-- What is left of a ring inside a half-plane, without points that are too close, and run
counter-clockwise. -/
def HalfPlane.half (h : HalfPlane ℝ) (eps : ℝ) (r : Ring ℝ) : Ring ℝ :=
  Ring.counterClockwise ((h.cutRing r).pruned eps)

/-- The vertices of a ring are on a line or farther from it than a tolerance. -/
def HalfPlane.OffLine (h : HalfPlane ℝ) (eps : ℝ) (r : Ring ℝ) : Prop :=
  ∀ v ∈ r, h.depth v ≠ 0 → ∀ x, h.depth x = 0 → eps < x.gap v

namespace Ring

variable {r : Ring ℝ} {h h' : HalfPlane ℝ} {eps : ℝ} {A B : Point ℝ}

/-- Two points of a clipped ring on the line are kept if they are apart. -/
theorem StrictlyConvex.mem_half_of_apart (hr : r.StrictlyConvex) (heps : 0 ≤ eps) (hab : h.a ≠ h.b)
    (hoff : h.OffLine eps r) (hA : A ∈ h.cutRing r) (hB : B ∈ h.cutRing r) (hA0 : h.depth A = 0)
    (hB0 : h.depth B = 0) (hlong : eps < A.gap B) : A ∈ h.half eps r := by
  have hne : A ≠ B := Point.gap_pos_iff.1 (heps.trans_lt hlong)
  refine mem_counterClockwise.2 (mem_pruned_of_apart hA fun u hu huA => ?_)
  rw [Point.gap_comm]
  by_cases hu0 : h.depth u = 0
  · rcases hr.eq_or_eq_of_line hab hA hB hu hne hA0 hB0 hu0 with rfl | rfl
    · exact absurd rfl huA
    · exact hlong
  · exact hoff u ((HalfPlane.depth_mem_cutRing hu).2 hu0) hu0 A hA0

/-- Two neighbours on the line are kept only if they are apart. -/
theorem StrictlyConvex.gap_of_mem_edges (hr : r.StrictlyConvex) (heps : 0 ≤ eps) (hab : h.a ≠ h.b)
    (hoff : h.OffLine eps r) (he : (A, B) ∈ ((h.cutRing r).pruned eps).edges) (hne : A ≠ B)
    (hA0 : h.depth A = 0) (hB0 : h.depth B = 0) : eps < A.gap B := by
  obtain ⟨hA, hB⟩ := mem_of_mem_edges he
  have hcut := (pruned_sublist eps (h.cutRing r)).subset
  rcases gap_of_mem_edges_pruned he hne with hfar | ⟨d, hd, hfar, hnear⟩
  · exact hfar
  · have hd0 : h.depth d = 0 := by
      by_contra hd0
      exact hnear.not_gt (hoff d ((HalfPlane.depth_mem_cutRing hd).2 hd0) hd0 B hB0)
    rcases hr.eq_or_eq_of_line hab (hcut hA) (hcut hB) hd hne hA0 hB0 hd0 with rfl | rfl
    · rw [Point.gap_self] at hfar
      exact absurd heps hfar.not_ge
    · exact hfar

/-- **A half of a convex ring** has one edge on the line of the cut if the clipped ring has two
points there that are apart, and none otherwise. -/
theorem StrictlyConvex.half_cases (hr : r.StrictlyConvex) (heps : 0 ≤ eps) (hab : h.a ≠ h.b)
    (hoff : h.OffLine eps r) (h3 : 3 ≤ (h.half eps r).length) :
    (h.edgesOnLine (h.half eps r) = [] ∧ ∀ A ∈ h.cutRing r, ∀ B ∈ h.cutRing r, h.depth A = 0 →
      h.depth B = 0 → A.gap B ≤ eps) ∨
    ∃ A ∈ h.cutRing r, ∃ B ∈ h.cutRing r, eps < A.gap B ∧ h.IsChord A B ∧
      h.edgesOnLine (h.half eps r) = [(A, B)] := by
  have hturns : (h.half eps r).TurnsLeft := counterClockwise_turnsLeft
    (length_counterClockwise ((h.cutRing r).pruned eps) ▸ h3) (hr.pruned_cutRing h heps)
  have hcut {v : Point ℝ} (hv : v ∈ h.half eps r) : v ∈ h.cutRing r :=
    (pruned_sublist eps _).subset (mem_counterClockwise.1 hv)
  have hin (v : Point ℝ) (hv : v ∈ h.half eps r) : 0 ≤ h.depth v :=
    (HalfPlane.depth_mem_cutRing (hcut hv)).1
  rcases hturns.line_cases h3 hab hin with ⟨hsame, hnone⟩ | ⟨A, hA, B, hB, hne, hchord, hone⟩
  · refine .inl ⟨hnone, fun A hA B hB hA0 hB0 => ?_⟩
    by_contra hshort
    have hlong : eps < A.gap B := not_le.1 hshort
    have hlong' : eps < B.gap A := by rwa [Point.gap_comm]
    have heq := hsame A (hr.mem_half_of_apart heps hab hoff hA hB hA0 hB0 hlong) B
      (hr.mem_half_of_apart heps hab hoff hB hA hB0 hA0 hlong') hA0 hB0
    exact Point.gap_pos_iff.1 (heps.trans_lt hlong) heq
  · refine .inr ⟨A, hcut hA, B, hcut hB, ?_, hchord, hone⟩
    have he : (A, B) ∈ (h.half eps r).edges := by
      have hself : (A, B) ∈ h.edgesOnLine (h.half eps r) := hone ▸ List.mem_singleton_self _
      exact (HalfPlane.mem_edgesOnLine.1 hself).1
    unfold HalfPlane.half counterClockwise at he
    split at he
    · rw [Point.gap_comm]
      exact hr.gap_of_mem_edges heps hab hoff (mem_edges_reverse.1 he) hne.symm hchord.finish
        hchord.start
    · exact hr.gap_of_mem_edges heps hab hoff he hne hchord.start hchord.finish

/-- A convex ring with an edge along a line lies on one side of it. -/
theorem StrictlyConvex.not_isReached (hr : r.StrictlyConvex) (hop : ∀ v, h'.depth v = -h.depth v)
    (he : (A, B) ∈ r.edges) (hne : A ≠ B) (hA0 : h.depth A = 0) (hB0 : h.depth B = 0)
    (hreached : h.IsReached r) : ¬ h'.IsReached r := by
  rintro ⟨v', hv', hv0'⟩
  obtain ⟨v, hv, hv0⟩ := hreached
  rw [hop] at hv0'
  obtain ⟨c, hspan⟩ := HalfPlane.exists_spanned_eq_mul hA0 hB0 hv0.ne'
  have hAv : A ≠ v := fun heq => hv0.ne' (heq ▸ hA0)
  have hBv : B ≠ v := fun heq => hv0.ne' (heq ▸ hB0)
  obtain ⟨hA, hB⟩ := mem_of_mem_edges he
  have hc : c ≠ 0 := by
    rintro rfl
    have hzero : A.spanned B v = 0 := by rw [hspan, zero_mul]
    rcases hr.turns with hleft | hright
    · exact hleft.spanned_ne_zero hA hB hv hne hAv hBv hzero
    · exact hright.spanned_ne_zero (List.mem_reverse.2 hA) (List.mem_reverse.2 hB)
        (List.mem_reverse.2 hv) hne hAv hBv hzero
  -- all vertices are on one side of the edge
  have hside : 0 ≤ A.spanned B v * A.spanned B v' := by
    rcases hr.turns with hleft | hright
    · have hedge := (edgesInto_perm_edges r).mem_iff.2 he
      exact mul_nonneg (hleft.left_of_edge hedge hv) (hleft.left_of_edge hedge hv')
    · have hedge := (edgesInto_perm_edges _).mem_iff.2 (mem_edges_reverse.2 he : (B, A) ∈ _)
      have hv1 := hright.left_of_edge hedge (List.mem_reverse.2 hv)
      have hv2 := hright.left_of_edge hedge (List.mem_reverse.2 hv')
      rw [Point.spanned_swap] at hv1 hv2
      nlinarith
  rw [hspan, hspan] at hside
  have hpos := mul_pos (mul_self_pos.2 hc) (mul_pos hv0 hv0')
  nlinarith

theorem StrictlyConvex.exists_depth_ne_zero (hr : r.StrictlyConvex) (hab : h.a ≠ h.b) :
    ∃ v ∈ r, h.depth v ≠ 0 := by
  rcases hr.turns with hleft | hright
  · exact hleft.exists_depth_ne_zero hr.three_le hab
  · obtain ⟨v, hv, hv0⟩ := hright.exists_depth_ne_zero
      (by rw [List.length_reverse]; exact hr.three_le) hab
    exact ⟨v, List.mem_reverse.1 hv, hv0⟩

/-- **When both sides are reached**, the edges of the two halves on the line are the same, run in
opposite directions. -/
theorem StrictlyConvex.edgesOnLine_both (hr : r.StrictlyConvex) (heps : 0 ≤ eps) (hab : h.a ≠ h.b)
    (hab' : h'.a ≠ h'.b) (hop : ∀ v, h'.depth v = -h.depth v) (hoff : h.OffLine eps r)
    (hoff' : h'.OffLine eps r) (h3 : 3 ≤ (h.half eps r).length)
    (h3' : 3 ≤ (h'.half eps r).length) :
    h'.edgesOnLine (h'.half eps r) = (h.edgesOnLine (h.half eps r)).map Prod.swap := by
  have hop' (v : Point ℝ) : h.depth v = -h'.depth v := by rw [hop, neg_neg]
  rcases hr.half_cases heps hab hoff h3 with ⟨hnone, hshort⟩ | ⟨A, hA, B, hB, hlong, hchord, hone⟩
  · rcases hr.half_cases heps hab' hoff' h3' with
      ⟨hnone', -⟩ | ⟨A', hA', B', hB', hlong', hchord', -⟩
    · rw [hnone, hnone', List.map_nil]
    · have hline {v : Point ℝ} (hv : h'.depth v = 0) : h.depth v = 0 := by rw [hop', hv, neg_zero]
      exact absurd hlong' (hshort A' (HalfPlane.mem_cutRing_opposite hop' hA' hchord'.start) B'
        (HalfPlane.mem_cutRing_opposite hop' hB' hchord'.finish) (hline hchord'.start)
        (hline hchord'.finish)).not_gt
  · have hline {v : Point ℝ} (hv : h.depth v = 0) : h'.depth v = 0 := by rw [hop, hv, neg_zero]
    have hline' {v : Point ℝ} (hv : h'.depth v = 0) : h.depth v = 0 := by rw [hop', hv, neg_zero]
    rcases hr.half_cases heps hab' hoff' h3' with
      ⟨-, hshort'⟩ | ⟨A', hA', B', hB', hlong', hchord', hone'⟩
    · exact absurd hlong (hshort' A (HalfPlane.mem_cutRing_opposite hop hA hchord.start) B
        (HalfPlane.mem_cutRing_opposite hop hB hchord.finish) (hline hchord.start)
        (hline hchord.finish)).not_gt
    · have hne : A ≠ B := Point.gap_pos_iff.1 (heps.trans_lt hlong)
      have hne' : A' ≠ B' := Point.gap_pos_iff.1 (heps.trans_lt hlong')
      have hends {v : Point ℝ} (hv : v ∈ h'.cutRing r) (hv0 : h'.depth v = 0) : v = A ∨ v = B :=
        hr.eq_or_eq_of_line hab hA hB (HalfPlane.mem_cutRing_opposite hop' hv hv0) hne hchord.start
          hchord.finish (hline' hv0)
      rw [hone, hone']
      rcases hends hA' hchord'.start with rfl | rfl
      · rcases hends hB' hchord'.finish with rfl | rfl
        · exact absurd rfl hne'
        · -- the inside is on different sides of the edge
          obtain ⟨c, hc, hspan⟩ := hchord.leftward
          obtain ⟨c', hc', hspan'⟩ := hchord'.leftward
          obtain ⟨v, -, hv0⟩ := hr.exists_depth_ne_zero hab
          have hsame := (hspan v).symm.trans (hspan' v)
          rw [hop] at hsame
          have hzero : (c + c') * h.depth v = 0 := by linarith
          exact absurd hzero (mul_ne_zero (add_pos hc hc').ne' hv0)
      · rcases hends hB' hchord'.finish with rfl | rfl
        · rfl
        · exact absurd rfl hne'

/-- **When only one side is reached**, its half has an edge on the line if the ring has one there
that is longer than the tolerance. -/
theorem StrictlyConvex.edgesOnLine_single (hr : r.StrictlyConvex) (heps : 0 ≤ eps)
    (hab : h.a ≠ h.b) (hop : ∀ v, h'.depth v = -h.depth v) (hoff : h.OffLine eps r)
    (hnot : ¬ h'.IsReached r) (h3 : 3 ≤ (h.half eps r).length) :
    (h.edgesOnLine (h.half eps r) = [] ∧
      ∀ e ∈ r.edges, h.depth e.1 = 0 → h.depth e.2 = 0 → e.1.gap e.2 ≤ eps) ∨
    ∃ A B, A ≠ B ∧ h.edgesOnLine (h.half eps r) = [(A, B)] ∧
      ∃ e ∈ r.edges, h.depth e.1 = 0 ∧ h.depth e.2 = 0 ∧ eps < e.1.gap e.2 := by
  have hin (v : Point ℝ) (hv : v ∈ r) : 0 ≤ h.depth v := by
    by_contra hneg
    exact hnot ⟨v, hv, by rw [hop]; linarith⟩
  have hcases := hr.half_cases heps hab hoff h3
  rw [HalfPlane.cutRing_eq_self hin] at hcases
  rcases hcases with ⟨hnone, hshort⟩ | ⟨A, hA, B, hB, hlong, hchord, hone⟩
  · refine .inl ⟨hnone, fun e he => ?_⟩
    obtain ⟨hp, hq⟩ := mem_of_mem_edges he
    exact hshort _ hp _ hq
  · have hne : A ≠ B := Point.gap_pos_iff.1 (heps.trans_lt hlong)
    refine .inr ⟨A, B, hne, hone, ?_⟩
    obtain ⟨c, hc, hspan⟩ := hchord.leftward
    have hleft (v : Point ℝ) (hv : v ∈ r) : 0 ≤ A.spanned B v := by
      rw [hspan]
      exact mul_nonneg hc.le (hin v hv)
    rcases hr.turns with hturns | hturns
    · exact ⟨(A, B), hturns.mem_edges_of_left hA hB hne hleft, hchord.start, hchord.finish, hlong⟩
    · have he := hturns.mem_edges_of_left (List.mem_reverse.2 hA) (List.mem_reverse.2 hB) hne
        fun v hv => hleft v (List.mem_reverse.1 hv)
      exact ⟨(B, A), mem_edges_reverse.1 he, hchord.finish, hchord.start, by rwa [Point.gap_comm]⟩

end Ring

/-- The edges on the line that are left open: those of the half, if the side is reached. -/
inductive HalfPlane.LeavesOpen (h : HalfPlane ℝ) (eps : ℝ) (r : Ring ℝ) :
    List (Point ℝ × Point ℝ) → Prop
  | half (reached : h.IsReached r) (three_le : 3 ≤ (h.half eps r).length) :
    LeavesOpen h eps r (h.edgesOnLine (h.half eps r))
  | nothing (unreached : ¬ h.IsReached r) : LeavesOpen h eps r []

/-- **The edges that both sides of a line leave open** cancel, unless one of them is an edge of the
ring that runs along the line. -/
theorem Ring.StrictlyConvex.leavesOpen_cases {r : Ring ℝ} {h h' : HalfPlane ℝ} {eps : ℝ}
    {opened opened' : List (Point ℝ × Point ℝ)} (hr : r.StrictlyConvex) (heps : 0 ≤ eps)
    (hab : h.a ≠ h.b) (hab' : h'.a ≠ h'.b) (hop : ∀ v, h'.depth v = -h.depth v)
    (hoff : h.OffLine eps r) (hopened : h.LeavesOpen eps r opened)
    (hopened' : h'.LeavesOpen eps r opened') :
    ((opened ++ opened').Perm ((opened ++ opened').map Prod.swap) ∧
      ∀ e ∈ r.edges, h.depth e.1 = 0 → h.depth e.2 = 0 → e.1.gap e.2 ≤ eps) ∨
    ∃ A B, A ≠ B ∧ opened ++ opened' = [(A, B)] ∧
      ∃ e ∈ r.edges, h.depth e.1 = 0 ∧ h.depth e.2 = 0 ∧ eps < e.1.gap e.2 := by
  have hop' (v : Point ℝ) : h.depth v = -h'.depth v := by rw [hop, neg_neg]
  have hzero (v : Point ℝ) : h'.depth v = 0 ↔ h.depth v = 0 := by rw [hop, neg_eq_zero]
  have hoff' : h'.OffLine eps r := fun v hv hv0 x hx =>
    hoff v hv (mt (hzero v).2 hv0) x ((hzero x).1 hx)
  cases hopened with
  | half hreached h3 =>
    cases hopened' with
    | half hreached' h3' =>
      rw [hr.edgesOnLine_both heps hab hab' hop hoff hoff' h3 h3']
      left
      constructor
      · have hback : (h.edgesOnLine (h.half eps r)).map Prod.swap |>.map Prod.swap |>.Perm
            (h.edgesOnLine (h.half eps r)) := by simp
        rw [List.map_append]
        exact List.perm_append_comm.trans (hback.symm.append_left _)
      · intro e he hp0 hq0
        by_contra hlong
        have hne : e.1 ≠ e.2 := Point.gap_pos_iff.1 (heps.trans_lt (not_le.1 hlong))
        exact hr.not_isReached hop he hne hp0 hq0 hreached hreached'
    | nothing hnot' =>
      rw [List.append_nil]
      refine (hr.edgesOnLine_single heps hab hop hoff hnot' h3).imp_left ?_
      rintro ⟨hnone, hshort⟩
      rw [hnone]
      exact ⟨.refl _, hshort⟩
  | nothing hnot =>
    cases hopened' with
    | half hreached' h3' =>
      have hsingle := hr.edgesOnLine_single heps hab' hop' hoff' hnot h3'
      simp only [hzero] at hsingle
      rw [List.nil_append]
      refine hsingle.imp_left ?_
      rintro ⟨hnone, hshort⟩
      rw [hnone]
      exact ⟨.refl _, hshort⟩
    | nothing hnot' =>
      obtain ⟨v, hv, hv0⟩ := hr.exists_depth_ne_zero hab
      rcases lt_or_gt_of_ne hv0 with hneg | hpos
      · exact absurd ⟨v, hv, by rw [hop]; linarith⟩ hnot'
      · exact absurd ⟨v, hv, hpos⟩ hnot

end

end Housewright
