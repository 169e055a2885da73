import Housewright.Proofs.Exact.Real
import Housewright.Proofs.Geometry.CornerOrder
import Housewright.Proofs.Geometry.Passes

/-!
# Dropping points that are too close

With real coordinates distances exist, so that dropping the vertices of a ring that repeat the one
before them always gives a result.  This file says what it is.

* `Ring.withoutRepeats_eq_ok`: of the points of a ring `Ring.pruned` are kept, in order
  (`Ring.pruned_sublist`);
* `Ring.isChain_pruned`, `Ring.gap_closing_of_pruned`, `Ring.head_ne_last_of_pruned`: neighbours
  that are kept are farther apart than the tolerance, and the last one is not the first one again;
* `Ring.mem_pruned_of_apart`: a vertex that is apart from all others is kept;
* `Ring.mem_pruned_zero`: without a tolerance only repeated points are dropped; a tolerance drops
  no more than these if all other neighbours are farther apart (`Ring.pruned_eq_pruned_zero`).
-/

namespace Housewright

noncomputable section

/-! ## Distances -/

theorem Point.eq_of_coordinates {p q : Point ℝ} (hx : p.x = q.x) (hy : p.y = q.y) : p = q := by
  obtain ⟨px, py⟩ := p
  obtain ⟨qx, qy⟩ := q
  exact Point.mk.injEq _ _ _ _ ▸ ⟨hx, hy⟩

/-- The distance of two points. -/
def Point.gap (p q : Point ℝ) : ℝ :=
  Real.sqrt ((p.x - q.x) * (p.x - q.x) + (p.y - q.y) * (p.y - q.y))

theorem Point.distance_eq_ok (p q : Point ℝ) : p.distance q = .ok (p.gap q) := rfl

theorem Point.gap_self (p : Point ℝ) : p.gap p = 0 := by
  simp [gap]

theorem Point.gap_comm (p q : Point ℝ) : p.gap q = q.gap p := by
  rw [gap, gap]
  congr 1
  ring

/-- Points at a distance are different, and different points are at a distance. -/
theorem Point.gap_pos_iff {p q : Point ℝ} : 0 < p.gap q ↔ p ≠ q := by
  constructor
  · rintro h rfl
    rw [gap_self] at h
    exact lt_irrefl 0 h
  · intro h
    refine Real.sqrt_pos.2 (lt_of_le_of_ne ?_ fun hzero => h ?_)
    · exact add_nonneg (mul_self_nonneg _) (mul_self_nonneg _)
    · have hx : p.x - q.x = 0 := by nlinarith
      have hy : p.y - q.y = 0 := by nlinarith
      exact eq_of_coordinates (sub_eq_zero.1 hx) (sub_eq_zero.1 hy)

/-- A point with whole coordinates. -/
def Point.ofInts (c : ℤ × ℤ) : Point ℝ := ⟨c.1, c.2⟩

theorem Point.one_le_gap_ofInts {c d : ℤ × ℤ} (hne : c ≠ d) :
    1 ≤ (ofInts c).gap (ofInts d) := by
  have hsquares : 1 ≤ (c.1 - d.1) * (c.1 - d.1) + (c.2 - d.2) * (c.2 - d.2) := by
    by_contra hsmall
    have hx : c.1 - d.1 = 0 := by nlinarith
    have hy : c.2 - d.2 = 0 := by nlinarith
    exact hne (Prod.ext (sub_eq_zero.1 hx) (sub_eq_zero.1 hy))
  rw [gap, Real.one_le_sqrt]
  simp only [ofInts]
  exact_mod_cast hsquares

/-- Whether points with whole coordinates are apart can be decided. -/
theorem Point.gap_ofInts_pos_iff {c d : ℤ × ℤ} : 0 < (ofInts c).gap (ofInts d) ↔ c ≠ d := by
  constructor
  · rintro h rfl
    rw [gap_self] at h
    exact lt_irrefl 0 h
  · exact fun hne => one_pos.trans_le (one_le_gap_ofInts hne)

theorem Point.gap_ofInts_le_zero_iff {c d : ℤ × ℤ} : (ofInts c).gap (ofInts d) ≤ 0 ↔ c = d := by
  rw [← not_lt, gap_ofInts_pos_iff, not_not]

namespace Ring

/-! ## Points that are kept -/

/-- The points that are farther than `eps` from the point kept last, which is `last` at first. -/
def distant (eps : ℝ) (last : Point ℝ) : List (Point ℝ) → List (Point ℝ)
  | [] => []
  | p :: rest => if eps < last.gap p then p :: distant eps p rest else distant eps last rest

/-- The points without a last one that is within `eps` of `first`. -/
def unclosed (eps : ℝ) (first : Point ℝ) (points : List (Point ℝ)) : List (Point ℝ) :=
  match points.getLast? with
  | none => points
  | some last => if first.gap last ≤ eps then points.dropLast else points

/-- The vertices of a ring that `withoutRepeats` keeps. -/
def pruned (eps : ℝ) : Ring ℝ → Ring ℝ
  | [] => []
  | p :: rest => p :: unclosed eps p (distant eps p rest)

theorem keepDistant_eq_ok (eps : ℝ) (last : Point ℝ) (points : List (Point ℝ)) :
    keepDistant eps last points = .ok (distant eps last points) := by
  induction points generalizing last with
  | nil => rfl
  | cons p rest ih =>
    rw [keepDistant, distant, Point.distance_eq_ok]
    show (if eps < last.gap p then _ else _) = _
    split
    · rw [ih]
      rfl
    · exact ih last

theorem withoutRepeats_eq_ok (eps : ℝ) (r : Ring ℝ) :
    r.withoutRepeats eps = .ok (r.pruned eps) := by
  cases r with
  | nil => rfl
  | cons p rest =>
    rw [withoutRepeats, keepDistant_eq_ok, pruned, unclosed]
    simp only [Point.distance_eq_ok, bind, Except.bind]
    cases hlast : (distant eps p rest).getLast? with
    | none =>
      rw [List.getLast?_eq_none_iff.1 hlast]
      rfl
    | some last =>
      simp only
      split <;> rfl

theorem distant_sublist (eps : ℝ) (last : Point ℝ) (points : List (Point ℝ)) :
    (distant eps last points).Sublist points :=
  keepDistant_sublist (keepDistant_eq_ok eps last points)

/-- Vertices are only dropped. -/
theorem pruned_sublist (eps : ℝ) (r : Ring ℝ) : (r.pruned eps).Sublist r :=
  withoutRepeats_sublist (withoutRepeats_eq_ok eps r)

/-- Points are apart if their distance is above the tolerance. -/
theorem apart_iff {eps : ℝ} {p q : Point ℝ} : p.Apart eps q ↔ eps < p.gap q := by
  simp only [Point.Apart, Point.distance_eq_ok, Except.ok.injEq, exists_eq_left']

theorem isChain_distant (eps : ℝ) (last : Point ℝ) (points : List (Point ℝ)) :
    (last :: distant eps last points).IsChain fun p q => eps < p.gap q :=
  (isChain_keepDistant (keepDistant_eq_ok eps last points)).imp fun _ _ => apart_iff.1

/-- **Neighbours that are kept** are farther apart than the tolerance. -/
theorem isChain_pruned (eps : ℝ) (r : Ring ℝ) :
    (r.pruned eps).IsChain fun p q => eps < p.gap q :=
  (isChain_withoutRepeats (withoutRepeats_eq_ok eps r)).imp fun _ _ => apart_iff.1

/-- **The last vertex that is kept** is farther from the first one than the tolerance, or a vertex
was dropped because it closed the ring, and is farther from the last one. -/
theorem gap_closing_of_pruned {eps : ℝ} {r : Ring ℝ} {p q : Point ℝ} {kept : List (Point ℝ)}
    (hr : r.pruned eps = p :: kept) (hq : kept.getLast? = some q) :
    eps < p.gap q ∨ ∃ d ∈ r, eps < q.gap d ∧ p.gap d ≤ eps := by
  cases r with
  | nil => cases hr
  | cons first rest =>
    rw [pruned, List.cons.injEq] at hr
    obtain ⟨rfl, rfl⟩ := hr
    have hchain := isChain_distant eps first rest
    rw [unclosed] at hq
    split at hq
    · rename_i hnone
      rw [hnone] at hq
      cases hq
    · rename_i last hlast
      split at hq
      · rename_i hclosed
        obtain ⟨init, hinit⟩ := List.getLast?_eq_some_iff.1 hlast
        rw [hinit, List.dropLast_concat] at hq
        obtain ⟨init, rfl⟩ := List.getLast?_eq_some_iff.1 hq
        rw [hinit, ← List.cons_append, ← List.cons_append] at hchain
        have hpair : [q, last].IsChain fun p q => eps < p.gap q :=
          hchain.suffix ⟨first :: init, by simp⟩
        have hdropped := (distant_sublist eps first rest).subset (List.mem_of_getLast? hlast)
        exact .inr ⟨last, List.mem_cons_of_mem first hdropped,
          (List.isChain_cons_cons.1 hpair).1, hclosed⟩
      · rename_i hopen
        rw [hlast, Option.some_inj] at hq
        subst hq
        exact .inl (not_le.1 hopen)

/-- **The last vertex that is kept** is not the first one again. -/
theorem head_ne_last_of_pruned {eps : ℝ} (heps : 0 ≤ eps) {r : Ring ℝ} {p q : Point ℝ}
    {kept : List (Point ℝ)} (hr : r.pruned eps = p :: kept) (hq : kept.getLast? = some q) :
    p ≠ q := by
  rintro rfl
  rcases gap_closing_of_pruned hr hq with hfar | ⟨d, -, hfar, hnear⟩
  · rw [Point.gap_self] at hfar
    exact hfar.not_ge heps
  · exact hfar.not_ge hnear

/-- Without a tolerance a point that repeats the one kept last is dropped. -/
theorem distant_zero_repeat (p : Point ℝ) (rest : List (Point ℝ)) :
    distant 0 p (p :: rest) = distant 0 p rest := by
  rw [distant, if_neg (by rw [Point.gap_self]; exact lt_irrefl 0)]

/-- Without a tolerance any other point is kept. -/
theorem distant_zero_of_ne {last p : Point ℝ} (hne : last ≠ p) (rest : List (Point ℝ)) :
    distant 0 last (p :: rest) = p :: distant 0 p rest := by
  rw [distant, if_pos (Point.gap_pos_iff.2 hne)]

/-- Without a tolerance the last point is kept, or repeats the one kept last. -/
theorem getLastD_distant_zero (last : Point ℝ) (points : List (Point ℝ)) :
    (distant 0 last points).getLastD last = points.getLastD last := by
  induction points generalizing last with
  | nil => rfl
  | cons p rest ih =>
    rw [List.getLastD_cons]
    obtain rfl | hne := eq_or_ne last p
    · rw [distant_zero_repeat]
      exact ih last
    · rw [distant_zero_of_ne hne, List.getLastD_cons]
      exact ih p

/-- Without a tolerance a last point that repeats the first is dropped. -/
theorem unclosed_zero_repeat (p : Point ℝ) (init : List (Point ℝ)) :
    unclosed 0 p (init ++ [p]) = init := by
  rw [unclosed, List.getLast?_concat]
  simp [Point.gap_self]

/-- Without a tolerance any other last point is kept. -/
theorem unclosed_zero_of_ne {first last : Point ℝ} (hne : first ≠ last)
    (init : List (Point ℝ)) : unclosed 0 first (init ++ [last]) = init ++ [last] := by
  rw [unclosed, List.getLast?_concat]
  exact if_neg (not_le.2 (Point.gap_pos_iff.2 hne))

theorem mem_distant_zero {last v : Point ℝ} {points : List (Point ℝ)} (hv : v ∈ points) :
    v = last ∨ v ∈ distant 0 last points := by
  induction points generalizing last with
  | nil => cases hv
  | cons p rest ih =>
    obtain rfl | hne := eq_or_ne last p
    · rw [distant_zero_repeat]
      exact (List.mem_cons.1 hv).elim .inl ih
    · rw [distant_zero_of_ne hne]
      obtain rfl | hv := List.mem_cons.1 hv
      · exact .inr List.mem_cons_self
      · exact .inr ((ih hv).elim (fun h => h ▸ List.mem_cons_self) (List.mem_cons_of_mem p))

theorem mem_unclosed_zero {first v : Point ℝ} {points : List (Point ℝ)} (hv : v ∈ points) :
    v = first ∨ v ∈ unclosed 0 first points := by
  obtain rfl | ⟨init, last, rfl⟩ := points.eq_nil_or_concat'
  · cases hv
  · obtain rfl | hne := eq_or_ne first last
    · rw [unclosed_zero_repeat]
      exact (List.mem_append.1 hv).symm.imp_left List.mem_singleton.1
    · rw [unclosed_zero_of_ne hne]
      exact .inr hv

/-- Without a tolerance only repeated points are dropped. -/
theorem mem_pruned_zero {r : Ring ℝ} {v : Point ℝ} : v ∈ r.pruned 0 ↔ v ∈ r := by
  refine ⟨fun h => (pruned_sublist 0 r).subset h, fun h => ?_⟩
  cases r with
  | nil => cases h
  | cons p rest =>
    rw [pruned, List.mem_cons]
    obtain rfl | hv := List.mem_cons.1 h
    · exact .inl rfl
    · exact (mem_distant_zero hv).elim .inl mem_unclosed_zero

/-- A point that is apart from all others is not dropped, unless it repeats the one kept last. -/
theorem mem_distant_of_apart {eps : ℝ} {last v : Point ℝ} {points : List (Point ℝ)}
    (hv : v ∈ points) (hfar : ∀ u ∈ last :: points, u ≠ v → eps < u.gap v) :
    v = last ∨ v ∈ distant eps last points := by
  induction points generalizing last with
  | nil => cases hv
  | cons p rest ih =>
    rw [distant]
    by_cases hp : eps < last.gap p
    · rw [if_pos hp]
      rcases List.mem_cons.1 hv with rfl | hrest
      · exact .inr List.mem_cons_self
      · have hkept := ih hrest fun u hu => hfar u (List.mem_cons_of_mem last hu)
        exact .inr (List.mem_cons.2 hkept)
    · rw [if_neg hp]
      rcases List.mem_cons.1 hv with rfl | hrest
      · by_contra hnot
        exact hp (hfar last List.mem_cons_self fun heq => hnot (.inl heq.symm))
      · refine ih hrest fun u hu => hfar u ?_
        exact (List.mem_cons.1 hu).elim (fun heq => heq ▸ List.mem_cons_self) fun hu =>
          List.mem_cons_of_mem last (List.mem_cons_of_mem p hu)

/-- **A vertex that is apart from all others** is kept. -/
theorem mem_pruned_of_apart {eps : ℝ} {r : Ring ℝ} {v : Point ℝ} (hv : v ∈ r)
    (hfar : ∀ u ∈ r, u ≠ v → eps < u.gap v) : v ∈ r.pruned eps := by
  cases r with
  | nil => cases hv
  | cons p rest =>
    rw [pruned, List.mem_cons]
    rcases List.mem_cons.1 hv with heq | hrest
    · exact .inl heq
    · by_cases hp : v = p
      · exact .inl hp
      · have hkept := (mem_distant_of_apart hrest hfar).resolve_left hp
        right
        unfold unclosed
        split
        · exact hkept
        · rename_i last hlast
          split
          · rename_i hclosed
            obtain ⟨init, hinit⟩ := List.getLast?_eq_some_iff.1 hlast
            rw [hinit, List.dropLast_concat]
            rw [hinit, List.mem_append, List.mem_singleton] at hkept
            refine hkept.resolve_right ?_
            rintro rfl
            exact hclosed.not_gt (hfar p List.mem_cons_self (Ne.symm hp))
          · exact hkept

/-- A tolerance drops no more than repeated points if no others follow one another closely. -/
theorem distant_eq_distant_zero {eps : ℝ} (h0 : 0 ≤ eps) {last : Point ℝ}
    {points : List (Point ℝ)}
    (hspaced : ∀ e ∈ (last :: points).zip points, e.1 = e.2 ∨ eps < e.1.gap e.2) :
    distant eps last points = distant 0 last points := by
  induction points generalizing last with
  | nil => rfl
  | cons p rest ih =>
    rw [List.zip_cons_cons, List.forall_mem_cons] at hspaced
    obtain ⟨hp, hrest⟩ := hspaced
    rw [distant]
    obtain rfl | hne := eq_or_ne last p
    · rw [distant_zero_repeat, if_neg (by rw [Point.gap_self]; exact not_lt.2 h0), ih hrest]
    · rw [distant_zero_of_ne hne, if_pos (hp.resolve_left hne), ih hrest]

/-- **A tolerance drops no more than repeated points** from a ring in which neighbours are equal
or farther apart. -/
theorem pruned_eq_pruned_zero {eps : ℝ} (h0 : 0 ≤ eps) {r : Ring ℝ}
    (hspaced : ∀ e ∈ r.edgesInto, e.1 = e.2 ∨ eps < e.1.gap e.2) :
    r.pruned eps = r.pruned 0 := by
  cases r with
  | nil => rfl
  | cons p rest =>
    unfold edgesInto at hspaced
    rw [List.getLast?_cons, ← List.getLastD_eq_getLast?] at hspaced
    simp only [List.zip_cons_cons, List.forall_mem_cons] at hspaced
    obtain ⟨hclosing, hrest⟩ := hspaced
    rw [pruned, pruned, distant_eq_distant_zero h0 hrest]
    rw [← getLastD_distant_zero] at hclosing
    obtain hnil | ⟨init, last, hkept⟩ := (distant 0 p rest).eq_nil_or_concat'
    · rw [hnil]
      rfl
    · rw [hkept, List.getLastD_concat] at hclosing
      rw [hkept, unclosed, List.getLast?_concat]
      simp only [List.dropLast_concat]
      obtain rfl | hne := eq_or_ne p last
      · rw [unclosed_zero_repeat, if_pos (by rw [Point.gap_self]; exact h0)]
      · have hfar := hclosing.resolve_left hne.symm
        rw [Point.gap_comm] at hfar
        rw [unclosed_zero_of_ne hne, if_neg (not_le.2 hfar)]

/-- Points that are far enough from the one before them are all kept. -/
theorem distant_eq_self {eps : ℝ} {last : Point ℝ} {points : List (Point ℝ)}
    (hapart : ∀ e ∈ (last :: points).zip points, eps < e.1.gap e.2) :
    distant eps last points = points := by
  induction points generalizing last with
  | nil => rfl
  | cons p rest ih =>
    rw [List.zip_cons_cons, List.forall_mem_cons] at hapart
    rw [distant, if_pos hapart.1, ih hapart.2]

/-- **A ring whose neighbours are far enough apart** keeps all of its vertices. -/
theorem pruned_eq_self {eps : ℝ} {r : Ring ℝ}
    (hapart : 1 < r.length → ∀ e ∈ r.edgesInto, eps < e.1.gap e.2) : r.pruned eps = r := by
  match r with
  | [] => rfl
  | [p] => rfl
  | p :: q :: rest =>
    have hfar := hapart (by simp)
    unfold edgesInto at hfar
    rw [List.getLast?_cons, ← List.getLastD_eq_getLast?, List.getLastD_cons] at hfar
    obtain ⟨hclosing, hrest⟩ := List.forall_mem_cons.1 hfar
    rw [Point.gap_comm] at hclosing
    rw [pruned, distant_eq_self hrest, unclosed, List.getLast?_cons, ← List.getLastD_eq_getLast?]
    exact congrArg _ (if_neg (not_le.2 hclosing))

/-- Points with whole coordinates that are not equal are kept apart by any tolerance below one. -/
theorem pruned_map_ofInts {eps : ℝ} (h0 : 0 ≤ eps) (h1 : eps < 1) (cs : List (ℤ × ℤ)) :
    pruned eps (cs.map Point.ofInts) = pruned 0 (cs.map Point.ofInts) := by
  refine pruned_eq_pruned_zero h0 fun e he => ?_
  obtain ⟨hp, hq⟩ := mem_of_mem_edgesInto he
  obtain ⟨c, -, hc⟩ := List.mem_map.1 hp
  obtain ⟨d, -, hd⟩ := List.mem_map.1 hq
  rw [← hc, ← hd]
  obtain heq | hne := eq_or_ne c d
  · exact .inl (congrArg Point.ofInts heq)
  · exact .inr (h1.trans_le (Point.one_le_gap_ofInts hne))

end Ring

end

end Housewright
