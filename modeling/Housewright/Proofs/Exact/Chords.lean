import Housewright.Proofs.Exact.ConvexClip
import Housewright.Proofs.Exact.Cycles

/-!
# Lines through a ring that turns left

A ring that turns left has at most two vertices on a line.  If the line bounds a half-plane that
keeps the whole ring, the edge between them is the only edge on the line.

* `Ring.TurnsLeft.nodup`, `Ring.TurnsLeft.spanned_ne_zero`: no vertex is repeated, and no three are
  on one line;
* `Ring.TurnsLeft.mem_edges_of_left`: two vertices that have all others to their left are the ends
  of an edge;
* `HalfPlane.edgesOnLine` are the edges on the line of a half-plane, and `HalfPlane.IsChord` says
  that an edge runs along the line with the inside to its left;
* `Ring.TurnsLeft.line_cases`: there is one such edge, or none.
-/

namespace Housewright

noncomputable section

theorem Point.spanned_swap (p q v : Point ℝ) : q.spanned p v = -p.spanned q v := by
  rw [spanned, spanned]
  ring

namespace Ring

variable {s : Ring ℝ} {h : HalfPlane ℝ} {A B v : Point ℝ}

/-! ## Vertices of a ring that turns left -/

/-- No vertex is repeated. -/
theorem TurnsLeft.lap_ne (hs : s.TurnsLeft) (h3 : 3 ≤ s.length) {i j : ℕ} (hi : 0 < i)
    (hij : i < j) (hj : j ≤ s.length) : s.lap i ≠ s.lap j := by
  intro heq
  rcases hj.lt_or_eq with hlt | rfl
  · have hpos := hs.spanned_pos hij j.lt_succ_self hlt (by omega)
    rw [heq, Point.spanned_stay] at hpos
    exact lt_irrefl 0 hpos
  · by_cases hfirst : i = 1
    · have hpos := hs.spanned_pos (i := 1) (j := 2) (k := s.length) (by omega) (by omega) le_rfl
        (by omega)
      rw [← hfirst, heq, Point.spanned_return] at hpos
      exact lt_irrefl 0 hpos
    · have hpos := hs.spanned_pos (i := 1) (j := i) (k := s.length) (by omega) hij le_rfl (by omega)
      rw [heq, Point.spanned_self] at hpos
      exact lt_irrefl 0 hpos

theorem TurnsLeft.nodup (hs : s.TurnsLeft) (h3 : 3 ≤ s.length) : s.Nodup := by
  refine List.pairwise_iff_getElem.2 fun i j hi hj hij => ?_
  rw [← lap_succ hi, ← lap_succ hj]
  exact hs.lap_ne h3 i.succ_pos (Nat.succ_lt_succ hij) hj

/-- No edge leads from a vertex to itself. -/
theorem TurnsLeft.ends_ne (hs : s.TurnsLeft) (h3 : 3 ≤ s.length) {e : Point ℝ × Point ℝ}
    (he : e ∈ s.edges) : e.1 ≠ e.2 := by
  rw [← (edgesInto_perm_edges s).mem_iff, edgesInto_eq_map] at he
  obtain ⟨i, hi, rfl⟩ := List.mem_map.1 he
  have hi := List.mem_range.1 hi
  cases i with
  | zero =>
    rw [← lap_length (List.ne_nil_of_length_pos hi)]
    exact (hs.lap_ne h3 one_pos (by omega) le_rfl).symm
  | succ i => exact hs.lap_ne h3 i.succ_pos (Nat.lt_succ_self _) hi

/-- **Three different vertices** are not on one line. -/
theorem TurnsLeft.spanned_ne_zero (hs : s.TurnsLeft) (hA : A ∈ s) (hB : B ∈ s) (hv : v ∈ s)
    (hAB : A ≠ B) (hAv : A ≠ v) (hBv : B ≠ v) : A.spanned B v ≠ 0 := by
  obtain ⟨i, hi0, hi, rfl⟩ := exists_lap hA
  obtain ⟨j, hj0, hj, rfl⟩ := exists_lap hB
  obtain ⟨k, hk0, hk, rfl⟩ := exists_lap hv
  have hij : i ≠ j := fun heq => hAB (heq ▸ rfl)
  have hik : i ≠ k := fun heq => hAv (heq ▸ rfl)
  have hjk : j ≠ k := fun heq => hBv (heq ▸ rfl)
  -- the triangle is run around from the vertex that comes first
  have hfirst {a b c : ℕ} (ha : 0 < a) (hab : a < b) (hac : a < c) (hbc : b ≠ c)
      (hb : b ≤ s.length) (hc : c ≤ s.length) :
      (s.lap a).spanned (s.lap b) (s.lap c) ≠ 0 := by
    rcases lt_or_gt_of_ne hbc with hlt | hgt
    · exact (hs.spanned_pos hab hlt hc (by omega)).ne'
    · have hpos := hs.spanned_pos hac hgt hb (by omega)
      rw [Point.spanned_rotate, Point.spanned_swap, ← Point.spanned_rotate]
      exact neg_ne_zero.2 hpos.ne'
  rcases lt_or_gt_of_ne hij with h1 | h1
  · rcases lt_or_gt_of_ne hik with h2 | h2
    · exact hfirst hi0 h1 h2 hjk hj hk
    · rw [← Point.spanned_rotate]
      exact hfirst hk0 h2 (h2.trans h1) hij hi hj
  · rcases lt_or_gt_of_ne hjk with h2 | h2
    · rw [Point.spanned_rotate]
      exact hfirst hj0 h2 h1 hik.symm hk hi
    · rw [← Point.spanned_rotate]
      exact hfirst hk0 (h2.trans h1) h2 hij hi hj

/-- **An edge is told by its side**: two vertices that have all others to their left are the ends
of an edge. -/
theorem TurnsLeft.mem_edges_of_left (hs : s.TurnsLeft) (hA : A ∈ s) (hB : B ∈ s) (hne : A ≠ B)
    (hleft : ∀ v ∈ s, 0 ≤ A.spanned B v) : (A, B) ∈ s.edges := by
  obtain ⟨i, hi0, hi, rfl⟩ := exists_lap hA
  obtain ⟨j, hj0, hj, rfl⟩ := exists_lap hB
  have hij : i ≠ j := fun heq => hne (heq ▸ rfl)
  have hmem {k : ℕ} (hk0 : 0 < k) (hk : k ≤ s.length) : s.lap k ∈ s := by
    obtain ⟨k, rfl⟩ := Nat.exists_eq_add_one_of_ne_zero hk0.ne'
    rw [lap_succ hk]
    exact List.getElem_mem _
  -- a vertex on the way from the one to the other would lie to their right
  have hbetween {k : ℕ} (hk0 : 0 < k) (hk : k ≤ s.length) :
      ¬ 0 < (s.lap i).spanned (s.lap k) (s.lap j) := by
    intro hpos
    have hnonneg := hleft _ (hmem hk0 hk)
    rw [Point.spanned_rotate, Point.spanned_swap, ← Point.spanned_rotate] at hnonneg
    linarith
  rw [← (edgesInto_perm_edges s).mem_iff, edgesInto_eq_map, List.mem_map]
  rcases lt_or_gt_of_ne hij with hlt | hgt
  · by_cases hnext : j = i + 1
    · exact ⟨i, List.mem_range.2 (by omega), by rw [hnext]⟩
    · exact absurd (hs.spanned_pos i.lt_succ_self (by omega) hj (by omega))
        (hbetween i.succ_pos (by omega))
  · by_cases hend : i = s.length
    · by_cases hstart : j = 1
      · refine ⟨0, List.mem_range.2 (by omega), ?_⟩
        rw [hend, hstart, lap_length (List.ne_nil_of_length_pos (by omega))]
      · have hpos := hs.spanned_pos (i := 1) (j := j) (k := i) (by omega) hgt hi (by omega)
        rw [← Point.spanned_rotate] at hpos
        exact absurd hpos (hbetween one_pos (by omega))
    · have hpos := hs.spanned_pos (i := j) (j := i) (k := i + 1) hgt i.lt_succ_self (by omega)
        (by omega)
      rw [Point.spanned_rotate] at hpos
      exact absurd hpos (hbetween i.succ_pos (by omega))

end Ring

/-! ## Vertices on a line -/

namespace HalfPlane

variable {h : HalfPlane ℝ} {A B v : Point ℝ}

/-- Three points of the line of a half-plane span nothing. -/
theorem spanned_eq_zero_of_line (hab : h.a ≠ h.b) (hA : h.depth A = 0) (hB : h.depth B = 0)
    (hv : h.depth v = 0) : A.spanned B v = 0 := by
  have h1 := spanned_eq_zero hab hA hB
  have h2 := spanned_eq_zero hab hB hv
  have h3 := spanned_eq_zero hab hv hA
  simp only [Point.spanned] at h1 h2 h3 ⊢
  linarith

/-- Seen from two points of the line, a triangle is as large as its third corner is deep. -/
theorem exists_spanned_eq_mul (hA : h.depth A = 0) (hB : h.depth B = 0) (hv : h.depth v ≠ 0) :
    ∃ c, ∀ u, A.spanned B u = c * h.depth u := by
  obtain ⟨dx, dy, hdepth⟩ := h.exists_direction
  have hlength : dx ^ 2 + dy ^ 2 ≠ 0 := by
    intro hzero
    have hdx : dx = 0 := by nlinarith
    have hdy : dy = 0 := by nlinarith
    have hsame := hdepth v A
    rw [hdx, hdy, hA] at hsame
    exact hv (by linarith)
  have hparallel : (B.x - A.x) * dy - (B.y - A.y) * dx = 0 := by rw [← hdepth, hA, hB, sub_zero]
  obtain ⟨l, hx, hy⟩ := exists_multiple hlength hparallel
  refine ⟨-l, fun u => ?_⟩
  have hu := hdepth u A
  rw [hA, sub_zero] at hu
  rw [hu, Point.spanned, hx, hy]
  ring

/-- The edges of a ring that run along the line of a half-plane. -/
def edgesOnLine (h : HalfPlane ℝ) (r : Ring ℝ) : List (Point ℝ × Point ℝ) :=
  r.edges.filter fun e => h.depth e.1 = 0 ∧ h.depth e.2 = 0

theorem mem_edgesOnLine {r : Ring ℝ} {e : Point ℝ × Point ℝ} :
    e ∈ h.edgesOnLine r ↔ e ∈ r.edges ∧ h.depth e.1 = 0 ∧ h.depth e.2 = 0 := by
  rw [edgesOnLine, List.mem_filter, decide_eq_true_eq]

end HalfPlane

/-- A list without repetitions whose entries are all the same has one entry. -/
theorem eq_singleton_of_nodup {β : Type} {l : List β} {a : β} (hl : l.Nodup) (ha : a ∈ l)
    (hall : ∀ b ∈ l, b = a) : l = [a] := by
  rw [List.eq_replicate_of_mem hall] at hl ha ⊢
  have h1 := List.nodup_replicate.1 hl
  have h0 : l.length ≠ 0 := (List.mem_replicate.1 ha).1
  rw [show l.length = 1 by omega]
  rfl

/-- The edge from `A` to `B` runs along the line of a half-plane, with the inside to its left. -/
structure HalfPlane.IsChord (h : HalfPlane ℝ) (A B : Point ℝ) : Prop where
  start : h.depth A = 0
  finish : h.depth B = 0
  leftward : ∃ c, 0 < c ∧ ∀ u, A.spanned B u = c * h.depth u

namespace Ring

variable {s : Ring ℝ} {h : HalfPlane ℝ} {A B v : Point ℝ}

/-- A ring that turns left has at most two vertices on a line. -/
theorem TurnsLeft.eq_or_eq_of_line (hs : s.TurnsLeft) (hab : h.a ≠ h.b) (hA : A ∈ s) (hB : B ∈ s)
    (hv : v ∈ s) (hAB : A ≠ B) (hA0 : h.depth A = 0) (hB0 : h.depth B = 0) (hv0 : h.depth v = 0) :
    v = A ∨ v = B := by
  by_contra hne
  push Not at hne
  exact hs.spanned_ne_zero hA hB hv hAB hne.1.symm hne.2.symm
    (HalfPlane.spanned_eq_zero_of_line hab hA0 hB0 hv0)

/-- A ring that turns left has a vertex off any line. -/
theorem TurnsLeft.exists_depth_ne_zero (hs : s.TurnsLeft) (h3 : 3 ≤ s.length) (hab : h.a ≠ h.b) :
    ∃ v ∈ s, h.depth v ≠ 0 := by
  by_contra hnone
  push Not at hnone
  have hline {k : ℕ} (hk : k < s.length) : h.depth (s.lap (k + 1)) = 0 := by
    rw [lap_succ hk]
    exact hnone _ (List.getElem_mem _)
  have hpos := hs.spanned_pos (i := 1) (j := 2) (k := 3) (by omega) (by omega) h3 (by omega)
  rw [HalfPlane.spanned_eq_zero_of_line hab (hline (by omega)) (hline (by omega))
    (hline (by omega))] at hpos
  exact lt_irrefl 0 hpos

/-- Two vertices on the line of a half-plane that keeps a ring are the ends of the one edge along
it. -/
theorem TurnsLeft.edgesOnLine_eq_singleton (hs : s.TurnsLeft) (h3 : 3 ≤ s.length)
    (hab : h.a ≠ h.b) (hin : ∀ v ∈ s, 0 ≤ h.depth v) (hA : A ∈ s) (hB : B ∈ s) (hne : A ≠ B)
    (hchord : h.IsChord A B) : h.edgesOnLine s = [(A, B)] := by
  obtain ⟨c, hc, hspan⟩ := hchord.leftward
  have hnodup : s.edges.Nodup := by
    refine (edgesInto_perm_edges s).nodup_iff.1 (List.Nodup.of_map (·.2) ?_)
    rw [map_snd_edgesInto]
    exact hs.nodup h3
  refine eq_singleton_of_nodup (hnodup.filter _) ?_ ?_
  · refine HalfPlane.mem_edgesOnLine.2 ⟨hs.mem_edges_of_left hA hB hne fun v hv => ?_,
      hchord.start, hchord.finish⟩
    rw [hspan]
    exact mul_nonneg hc.le (hin v hv)
  · rintro ⟨p, q⟩ he
    obtain ⟨he, hp0, hq0⟩ := HalfPlane.mem_edgesOnLine.1 he
    have hpq := hs.ends_ne h3 he
    obtain ⟨hp, hq⟩ := mem_of_mem_edges he
    dsimp only at hp0 hq0 hpq hp hq
    have hother {v : Point ℝ} (hv : v ∈ s) (hv0 : h.depth v = 0) :=
      hs.eq_or_eq_of_line hab hA hB hv hne hchord.start hchord.finish hv0
    rcases hother hp hp0 with rfl | rfl
    · rcases hother hq hq0 with rfl | rfl
      · exact absurd rfl hpq
      · rfl
    · rcases hother hq hq0 with rfl | rfl
      · -- the edge the other way has the ring to its right
        obtain ⟨v, hv, hv0⟩ := hs.exists_depth_ne_zero h3 hab
        have hright := hs.left_of_edge ((edgesInto_perm_edges s).mem_iff.2 he) hv
        have hdeep := mul_pos hc ((hin v hv).lt_of_ne' hv0)
        rw [Point.spanned_swap, hspan] at hright
        linarith
      · exact absurd rfl hpq

/-- **A line along which a ring turns left** is met in at most one edge of the ring: either no two
vertices lie on it and no edge does, or two do and the edge leads from one to the other. -/
theorem TurnsLeft.line_cases (hs : s.TurnsLeft) (h3 : 3 ≤ s.length) (hab : h.a ≠ h.b)
    (hin : ∀ v ∈ s, 0 ≤ h.depth v) :
    ((∀ A ∈ s, ∀ B ∈ s, h.depth A = 0 → h.depth B = 0 → A = B) ∧ h.edgesOnLine s = []) ∨
      ∃ A ∈ s, ∃ B ∈ s, A ≠ B ∧ h.IsChord A B ∧ h.edgesOnLine s = [(A, B)] := by
  by_cases hsame : ∀ A ∈ s, ∀ B ∈ s, h.depth A = 0 → h.depth B = 0 → A = B
  · refine .inl ⟨hsame, List.eq_nil_iff_forall_not_mem.2 fun e he => ?_⟩
    obtain ⟨he, hp0, hq0⟩ := HalfPlane.mem_edgesOnLine.1 he
    obtain ⟨hp, hq⟩ := mem_of_mem_edges he
    exact hs.ends_ne h3 he (hsame _ hp _ hq hp0 hq0)
  · push Not at hsame
    obtain ⟨A, hA, B, hB, hA0, hB0, hne⟩ := hsame
    obtain ⟨v, hv, hv0⟩ := hs.exists_depth_ne_zero h3 hab
    obtain ⟨c, hspan⟩ := HalfPlane.exists_spanned_eq_mul hA0 hB0 hv0
    have hc : c ≠ 0 := by
      rintro rfl
      have hAv : A ≠ v := fun heq => hv0 (heq ▸ hA0)
      have hBv : B ≠ v := fun heq => hv0 (heq ▸ hB0)
      exact hs.spanned_ne_zero hA hB hv hne hAv hBv (by rw [hspan, zero_mul])
    right
    rcases lt_or_gt_of_ne hc with hneg | hpos
    · have hchord : h.IsChord B A := by
        refine ⟨hB0, hA0, -c, by linarith, fun u => ?_⟩
        rw [Point.spanned_swap, hspan]
        ring
      exact ⟨B, hB, A, hA, hne.symm, hchord,
        hs.edgesOnLine_eq_singleton h3 hab hin hB hA hne.symm hchord⟩
    · have hchord : h.IsChord A B := ⟨hA0, hB0, c, hpos, hspan⟩
      exact ⟨A, hA, B, hB, hne, hchord, hs.edgesOnLine_eq_singleton h3 hab hin hA hB hne hchord⟩

end Ring

end

end Housewright
