import Housewright.Proofs.Exact.ConvexRing

/-!
# The stops of a clipped ring

A clipped ring visits some stops of the way around the ring: points of the lap, which have even
numbers, and points where the line meets an edge, which have the odd numbers between them.

* `HalfPlane.cutRing_eq_map`: the cut edges are stops, with numbers that never fall, and a vertex
  on the line may be visited more than once;
* `Ring.TurnsLeft.spanned_stop_pos`: three different stops turn left, unless the edge between two
  kept vertices is crossed at the third, which cannot be;
* `Ring.TurnsLeft.pruned_cutRing`: without its repeated points a clipped ring turns left again.
-/

namespace Housewright

noncomputable section

/-! ## Stops -/

namespace HalfPlane

/-- The stop with a number on the way around a ring. -/
def stop (h : HalfPlane ℝ) (r : Ring ℝ) (c : ℕ) : Point ℝ :=
  h.hit (r.lap (c / 2)) (r.lap ((c + 1) / 2))

/-- The stops that the edge to a point of the lap adds to the clipped ring. -/
def stopsOn (h : HalfPlane ℝ) (r : Ring ℝ) (i : ℕ) : List ℕ :=
  if 0 ≤ h.depth (r.lap i) then
    if 0 ≤ h.depth (r.lap (i + 1)) then [2 * i + 2]
    else if h.depth (r.lap i) = 0 then [2 * i] else [2 * i + 1]
  else if 0 ≤ h.depth (r.lap (i + 1)) then
    if h.depth (r.lap (i + 1)) = 0 then [2 * i + 2, 2 * i + 2] else [2 * i + 1, 2 * i + 2]
  else []

/-- The stops of the clipped ring. -/
def stops (h : HalfPlane ℝ) (r : Ring ℝ) : List ℕ := (List.range r.length).flatMap (h.stopsOn r)

/-- A clipped ring stops only at points that are inside, and on edges from one side to the
other. -/
def StopsAt (h : HalfPlane ℝ) (r : Ring ℝ) (c : ℕ) : Prop :=
  (c % 2 = 0 ∧ 0 ≤ h.depth (r.lap (c / 2))) ∨
    (c % 2 = 1 ∧ h.depth (r.lap (c / 2)) * h.depth (r.lap (c / 2 + 1)) < 0)

variable {h : HalfPlane ℝ} {r : Ring ℝ} {c i : ℕ}

@[simp] theorem stop_even (h : HalfPlane ℝ) (r : Ring ℝ) (i : ℕ) : h.stop r (2 * i) = r.lap i := by
  have hdown : 2 * i / 2 = i := by omega
  have hup : (2 * i + 1) / 2 = i := by omega
  rw [stop, hdown, hup, hit, Point.along_self]

@[simp] theorem stop_odd (h : HalfPlane ℝ) (r : Ring ℝ) (i : ℕ) :
    h.stop r (2 * i + 1) = h.hit (r.lap i) (r.lap (i + 1)) := by
  have hdown : (2 * i + 1) / 2 = i := by omega
  have hup : (2 * i + 1 + 1) / 2 = i + 1 := by omega
  rw [stop, hdown, hup]

/-- An edge whose start is on the line is cut at its start. -/
theorem hit_of_start {p q : Point ℝ} (hp : h.depth p = 0) : h.hit p q = p := by
  rw [hit, hp, zero_div, Point.along_zero]

/-- An edge whose end is on the line is cut at its end. -/
theorem hit_of_end {p q : Point ℝ} (hp : h.depth p ≠ 0) (hq : h.depth q = 0) : h.hit p q = q := by
  rw [hit, hq, sub_zero, div_self hp, Point.along_one]

/-- What an edge adds are its stops. -/
theorem cut_eq_map (h : HalfPlane ℝ) (r : Ring ℝ) (i : ℕ) :
    h.cut (r.lap i) (r.lap (i + 1)) = (h.stopsOn r i).map (h.stop r) := by
  have hnext : h.stop r (2 * i + 2) = r.lap (i + 1) := h.stop_even r (i + 1)
  unfold cut stopsOn
  split_ifs with hp hq hzero hq hzero
  · simp [hnext]
  · simp [hit_of_start hzero]
  · simp
  · have hne : h.depth (r.lap i) ≠ 0 := fun heq => hp heq.ge
    simp [hnext, hit_of_end hne hzero]
  · simp [hnext]
  · rfl

/-- **A clipped ring** is a sequence of stops. -/
theorem cutRing_eq_map (h : HalfPlane ℝ) (r : Ring ℝ) :
    h.cutRing r = (h.stops r).map (h.stop r) := by
  rw [cutRing, Ring.edgesInto_eq_map, List.flatMap_map, stops, List.map_flatMap]
  exact List.flatMap_congr fun i _ => h.cut_eq_map r i

theorem stopsAt_even : h.StopsAt r (2 * i) ↔ 0 ≤ h.depth (r.lap i) := by
  have hhalf : 2 * i / 2 = i := by omega
  rw [StopsAt, hhalf]
  simp

theorem stopsAt_odd :
    h.StopsAt r (2 * i + 1) ↔ h.depth (r.lap i) * h.depth (r.lap (i + 1)) < 0 := by
  have hhalf : (2 * i + 1) / 2 = i := by omega
  rw [StopsAt, hhalf]
  simp [Nat.add_mod]

theorem mem_stopsOn (hc : c ∈ h.stopsOn r i) : 2 * i ≤ c ∧ c ≤ 2 * i + 2 ∧ h.StopsAt r c := by
  have hnext : h.StopsAt r (2 * (i + 1)) ↔ 0 ≤ h.depth (r.lap (i + 1)) := stopsAt_even
  unfold stopsOn at hc
  split_ifs at hc with hp hq hzero hq hzero
  · obtain rfl := List.mem_singleton.1 hc
    exact ⟨by omega, le_rfl, hnext.2 hq⟩
  · obtain rfl := List.mem_singleton.1 hc
    exact ⟨le_rfl, by omega, stopsAt_even.2 hp⟩
  · obtain rfl := List.mem_singleton.1 hc
    have hpos : 0 < h.depth (r.lap i) := hp.lt_of_ne' hzero
    exact ⟨by omega, by omega, stopsAt_odd.2 (mul_neg_of_pos_of_neg hpos (not_le.1 hq))⟩
  · obtain rfl : c = 2 * i + 2 := by simpa using hc
    exact ⟨by omega, le_rfl, hnext.2 hq⟩
  · obtain rfl | hc := List.mem_cons.1 hc
    · have hpos : 0 < h.depth (r.lap (i + 1)) := hq.lt_of_ne' hzero
      exact ⟨by omega, by omega, stopsAt_odd.2 (mul_neg_of_neg_of_pos (not_le.1 hp) hpos)⟩
    · obtain rfl := List.mem_singleton.1 hc
      exact ⟨by omega, le_rfl, hnext.2 hq⟩
  · cases hc

theorem mem_stops (hc : c ∈ h.stops r) : c ≤ 2 * r.length ∧ h.StopsAt r c := by
  obtain ⟨i, hi, hc⟩ := List.mem_flatMap.1 hc
  obtain ⟨-, hle, hstops⟩ := mem_stopsOn hc
  have hi := List.mem_range.1 hi
  exact ⟨by omega, hstops⟩

/-- The numbers of the stops never fall. -/
theorem pairwise_stops (h : HalfPlane ℝ) (r : Ring ℝ) : (h.stops r).Pairwise (· ≤ ·) := by
  refine List.pairwise_flatMap.2 ⟨fun i _ => ?_, ?_⟩
  · unfold stopsOn
    split_ifs <;> simp
  · refine List.pairwise_lt_range.imp fun {i j} hij c hc d hd => ?_
    obtain ⟨-, hc, -⟩ := mem_stopsOn hc
    obtain ⟨hd, -, -⟩ := mem_stopsOn hd
    omega

/-- No edge between two points that are inside is crossed. -/
theorem not_stopsAt_between (hp : 0 ≤ h.depth (r.lap i)) (hq : 0 ≤ h.depth (r.lap (i + 1))) :
    ¬ h.StopsAt r (2 * i + 1) := by
  rw [stopsAt_odd, not_lt]
  exact mul_nonneg hp hq

end HalfPlane

/-! ## Stops turn left -/

/-- A point inside the segment between two others. -/
def Point.Between (p q x : Point ℝ) : Prop := ∃ t, 0 < t ∧ t < 1 ∧ x = p.along q t

/-- Between two points a function that is affine there is positive if it is at one of them, and
not negative at the other. -/
theorem Point.Between.pos {p q x : Point ℝ} (hx : p.Between q x) {f : Point ℝ → ℝ}
    (hf : ∀ t, f (p.along q t) = (1 - t) * f p + t * f q) (hp : 0 ≤ f p) (hq : 0 ≤ f q) :
    0 ≤ f x ∧ (0 < f p ∨ 0 < f q → 0 < f x) := by
  obtain ⟨t, h0, h1, rfl⟩ := hx
  have hleft : 0 < 1 - t := sub_pos.2 h1
  rw [hf]
  refine ⟨add_nonneg (mul_nonneg hleft.le hp) (mul_nonneg h0.le hq), ?_⟩
  rintro (hpos | hpos)
  · exact add_pos_of_pos_of_nonneg (mul_pos hleft hpos) (mul_nonneg h0.le hq)
  · exact add_pos_of_nonneg_of_pos (mul_nonneg hleft.le hp) (mul_pos h0 hpos)

/-- A stop lies between two points of the lap, which may be the same. -/
theorem HalfPlane.StopsAt.between {h : HalfPlane ℝ} {r : Ring ℝ} {c : ℕ} (hc : h.StopsAt r c) :
    (r.lap (c / 2)).Between (r.lap ((c + 1) / 2)) (h.stop r c) := by
  obtain ⟨i, rfl | rfl⟩ := c.even_or_odd'
  · have hdown : 2 * i / 2 = i := by omega
    have hup : (2 * i + 1) / 2 = i := by omega
    rw [hdown, hup, stop_even]
    exact ⟨1 / 2, by norm_num, by norm_num, by rw [Point.along_self]⟩
  · have hdown : (2 * i + 1) / 2 = i := by omega
    have hup : (2 * i + 1 + 1) / 2 = i + 1 := by omega
    rw [hdown, hup, stop_odd]
    refine ⟨_, ?_, ?_, rfl⟩
    · obtain ⟨hp, hq⟩ | ⟨hp, hq⟩ := mul_neg_iff.1 (stopsAt_odd.1 hc)
      · exact div_pos hp (by linarith)
      · exact div_pos_of_neg_of_neg hp (by linarith)
    · obtain ⟨hp, hq⟩ | ⟨hp, hq⟩ := mul_neg_iff.1 (stopsAt_odd.1 hc)
      · exact (div_lt_one (by linarith)).2 (by linarith)
      · exact (div_lt_one_of_neg (by linarith)).2 (by linarith)

/-- Three stops of a way around lie between points of the lap of which some three are different,
unless one of them lies on the edge between the others. -/
theorem exists_increasing {n a b c : ℕ} (h3 : 3 ≤ n) (hab : a < b) (hbc : b < c)
    (hc : c ≤ 2 * n) (hlap : c < a + 2 * n) (hinner : ¬ (a % 2 = 0 ∧ b = a + 1 ∧ c = a + 2))
    (hfirst : ¬ (a = 1 ∧ b = 2 ∧ c = 2 * n)) (hlast : ¬ (a = 0 ∧ b + 2 = 2 * n ∧ c + 1 = 2 * n)) :
    ∃ i j k, (i = a / 2 ∨ i = (a + 1) / 2) ∧ (j = b / 2 ∨ j = (b + 1) / 2) ∧
      (k = c / 2 ∨ k = (c + 1) / 2) ∧ i < j ∧ j < k ∧ k ≤ n ∧ k < i + n := by
  by_contra hno
  have hfail (i j k : ℕ) (hi : i = a / 2 ∨ i = (a + 1) / 2) (hj : j = b / 2 ∨ j = (b + 1) / 2)
      (hk : k = c / 2 ∨ k = (c + 1) / 2) : ¬ (i < j ∧ j < k ∧ k ≤ n ∧ k < i + n) :=
    fun hall => hno ⟨i, j, k, hi, hj, hk, hall⟩
  have h000 := hfail _ _ _ (.inl rfl) (.inl rfl) (.inl rfl)
  have h001 := hfail _ _ _ (.inl rfl) (.inl rfl) (.inr rfl)
  have h010 := hfail _ _ _ (.inl rfl) (.inr rfl) (.inl rfl)
  have h011 := hfail _ _ _ (.inl rfl) (.inr rfl) (.inr rfl)
  have h100 := hfail _ _ _ (.inr rfl) (.inl rfl) (.inl rfl)
  have h101 := hfail _ _ _ (.inr rfl) (.inl rfl) (.inr rfl)
  have h110 := hfail _ _ _ (.inr rfl) (.inr rfl) (.inl rfl)
  have h111 := hfail _ _ _ (.inr rfl) (.inr rfl) (.inr rfl)
  omega

namespace Ring

variable {h : HalfPlane ℝ} {r : Ring ℝ} {a b c : ℕ}

/-- Three stops of a clipped ring lie between points of the lap of which some three are different:
none of them lies on the edge between the others. -/
theorem exists_increasing_laps (h3 : 3 ≤ r.length) (ha : h.StopsAt r a) (hb : h.StopsAt r b)
    (hc : h.StopsAt r c) (hab : a < b) (hbc : b < c) (hend : c ≤ 2 * r.length)
    (hlap : c < a + 2 * r.length) :
    ∃ i j k, (i = a / 2 ∨ i = (a + 1) / 2) ∧ (j = b / 2 ∨ j = (b + 1) / 2) ∧
      (k = c / 2 ∨ k = (c + 1) / 2) ∧ i < j ∧ j < k ∧ k ≤ r.length ∧ k < i + r.length := by
  have hclosed : r.lap r.length = r.lap 0 := lap_length (List.ne_nil_of_length_pos (by omega))
  refine exists_increasing h3 hab hbc hend hlap ?_ ?_ ?_
  · rintro ⟨heven, rfl, rfl⟩
    obtain ⟨i, rfl⟩ := Nat.dvd_of_mod_eq_zero heven
    have hnext : h.StopsAt r (2 * (i + 1)) := hc
    exact HalfPlane.not_stopsAt_between (HalfPlane.stopsAt_even.1 ha)
      (HalfPlane.stopsAt_even.1 hnext) hb
  · rintro ⟨rfl, rfl, rfl⟩
    have hnext : h.StopsAt r (2 * (0 + 1)) := hb
    have hfirst : 0 ≤ h.depth (r.lap 0) := hclosed ▸ HalfPlane.stopsAt_even.1 hc
    exact HalfPlane.not_stopsAt_between hfirst (HalfPlane.stopsAt_even.1 hnext) ha
  · rintro ⟨rfl, hb2, hc1⟩
    obtain ⟨m, hm⟩ := Nat.exists_eq_add_one_of_ne_zero (show r.length ≠ 0 by omega)
    obtain rfl : b = 2 * m := by omega
    obtain rfl : c = 2 * m + 1 := by omega
    have hfirst : h.StopsAt r (2 * 0) := ha
    have hlast : 0 ≤ h.depth (r.lap (m + 1)) := hm ▸ hclosed ▸ HalfPlane.stopsAt_even.1 hfirst
    exact HalfPlane.not_stopsAt_between (HalfPlane.stopsAt_even.1 hb) hlast hc

/-- **Three different stops turn left.** -/
theorem TurnsLeft.spanned_stop_pos (hr : r.TurnsLeft) (h3 : 3 ≤ r.length) (ha : h.StopsAt r a)
    (hb : h.StopsAt r b) (hc : h.StopsAt r c) (hab : a < b) (hbc : b < c)
    (hend : c ≤ 2 * r.length) (hlap : c < a + 2 * r.length) :
    0 < (h.stop r a).spanned (h.stop r b) (h.stop r c) := by
  obtain ⟨i, j, k, hi, hj, hk, hij, hjk, hkn, hin⟩ :=
    exists_increasing_laps h3 ha hb hc hab hbc hend hlap
  -- whichever points of the lap the stops lie between, they do not turn right
  have hnonneg {i j k : ℕ} (hi : i = a / 2 ∨ i = (a + 1) / 2) (hj : j = b / 2 ∨ j = (b + 1) / 2)
      (hk : k = c / 2 ∨ k = (c + 1) / 2) : 0 ≤ (r.lap i).spanned (r.lap j) (r.lap k) :=
    hr.spanned_nonneg (by omega) (by omega) (by omega)
  have hpos := hr.spanned_pos hij hjk hkn hin
  have hthird {i j : ℕ} (hi : i = a / 2 ∨ i = (a + 1) / 2) (hj : j = b / 2 ∨ j = (b + 1) / 2) :=
    hc.between.pos (f := fun x => (r.lap i).spanned (r.lap j) x)
      (fun t => Point.spanned_along_right _ _ _ _ t) (hnonneg hi hj (.inl rfl))
      (hnonneg hi hj (.inr rfl))
  have hsecond {i : ℕ} (hi : i = a / 2 ∨ i = (a + 1) / 2) :=
    hb.between.pos (f := fun x => (r.lap i).spanned x (h.stop r c))
      (fun t => Point.spanned_along_left _ _ _ _ t) (hthird hi (.inl rfl)).1
      (hthird hi (.inr rfl)).1
  have hfirst := ha.between.pos (f := fun x => x.spanned (h.stop r b) (h.stop r c))
    (fun t => Point.spanned_along _ _ _ _ t) (hsecond (.inl rfl)).1 (hsecond (.inr rfl)).1
  have hijc : 0 < (r.lap i).spanned (r.lap j) (h.stop r c) := by
    refine (hthird hi hj).2 ?_
    obtain rfl | rfl := hk
    · exact .inl hpos
    · exact .inr hpos
  have hibc : 0 < (r.lap i).spanned (h.stop r b) (h.stop r c) := by
    refine (hsecond hi).2 ?_
    obtain rfl | rfl := hj
    · exact .inl hijc
    · exact .inr hijc
  refine hfirst.2 ?_
  obtain rfl | rfl := hi
  · exact .inl hibc
  · exact .inr hibc

/-- **A clipped ring turns left again** when repeated points are dropped, whatever the
tolerance. -/
theorem TurnsLeft.pruned_cutRing (hr : r.TurnsLeft) (h3 : 3 ≤ r.length) {eps : ℝ}
    (heps : 0 ≤ eps) : ((h.cutRing r).pruned eps).TurnsLeft := by
  have hclosed : r.lap r.length = r.lap 0 := lap_length (List.ne_nil_of_length_pos (by omega))
  have hsub := pruned_sublist eps (h.cutRing r)
  have hchain := isChain_pruned eps (h.cutRing r)
  rw [HalfPlane.cutRing_eq_map] at hsub hchain ⊢
  obtain ⟨kept, hkept, heq⟩ := List.sublist_map_iff.1 hsub
  rw [heq, List.isChain_map] at hchain
  -- neighbours are different, so that the numbers grow
  have hle : kept.Pairwise (· ≤ ·) := (h.pairwise_stops r).sublist hkept
  have hgrow : kept.Pairwise (· < ·) := by
    refine List.isChain_iff_pairwise.1 (List.isChain_iff_getElem.2 fun i hi => ?_)
    refine (List.pairwise_iff_getElem.1 hle i (i + 1) (by omega) hi (by omega)).lt_of_ne ?_
    intro hsame
    have hfar := List.isChain_iff_getElem.1 hchain i hi
    rw [hsame, Point.gap_self] at hfar
    exact not_lt_of_ge heps hfar
  have hstops {c : ℕ} (hc : c ∈ kept) := HalfPlane.mem_stops (hkept.subset hc)
  rw [TurnsLeft, heq, List.triplewise_map, List.triplewise_iff_getElem]
  intro i j k hij hjk hk
  obtain ⟨-, ha⟩ := hstops (List.getElem_mem (hij.trans (hjk.trans hk)))
  obtain ⟨-, hb⟩ := hstops (List.getElem_mem (hjk.trans hk))
  obtain ⟨hend, hc⟩ := hstops (List.getElem_mem hk)
  refine hr.spanned_stop_pos h3 ha hb hc (List.pairwise_iff_getElem.1 hgrow i j _ _ hij)
    (List.pairwise_iff_getElem.1 hgrow j k _ _ hjk) hend (not_le.1 fun hwhole => ?_)
  -- a whole way around would begin and end at the same point
  have hfirst := hle.rel_head (List.getElem_mem (hij.trans (hjk.trans hk)))
  have hlast := hle.rel_getLast (List.getElem_mem hk)
  obtain ⟨hlastLe, -⟩ := hstops (List.getLast_mem (List.ne_nil_of_length_pos (by omega)))
  cases kept with
  | nil => simp at hk
  | cons c rest =>
    have hne : rest ≠ [] := by
      rintro rfl
      simp at hk
      omega
    rw [List.head_cons] at hfirst
    rw [List.getLast_cons hne] at hlast hlastLe
    have hzero : c = 2 * 0 := by omega
    have hfull : rest.getLast hne = 2 * r.length := by omega
    refine head_ne_last_of_pruned heps heq (q := h.stop r (2 * r.length)) ?_ ?_
    · rw [List.getLast?_map, List.getLast?_eq_some_getLast hne, hfull, Option.map_some]
    · rw [hzero, HalfPlane.stop_even, HalfPlane.stop_even, hclosed]

end Ring

end

end Housewright
