import Housewright.Construction.Plates
import Housewright.Proofs.Decimal.Places
import Housewright.Proofs.Exact.Pruning
import Housewright.Proofs.Geometry.FinitePoints

/-!
# Corners named by their indices

A triangle between vertices is handed over by coordinates, and its corners are named by looking the
coordinates up again.  As long as no two vertices have the same rounded coordinates, every vertex is
found at its own index, so that no triangle gets a corner that it does not have.

* `Ring.indexOf_lt`: the index that a corner is given is that of a vertex;
* `Ring.KeysDistinct.named`: where rounded coordinates tell the vertices apart, they name them;
* `Ring.indexTriangle?_eq_some_iff`: when a triangle has a triple, and which one;
* `Ring.Named.indexTriangle?_eq_none_iff`: when a triangle between vertices has none;
* `Ring.apart_of_triangulate`, `Ring.inRange_of_triangulate`: triples have three different indices
  of vertices.
-/

namespace Housewright

variable {α : Type} [Scalar α] {r : Ring α} {t : Triangle α} {s : IndexTriple}

/-! ## Vertices by their rounded coordinates -/

theorem Point.exact_beq_iff {p q : Point ℝ} : (p == q) = true ↔ p = q := by
  obtain ⟨px, py⟩ := p
  obtain ⟨qx, qy⟩ := q
  show (px == qx && py == qy) = true ↔ _
  rw [Bool.and_eq_true, beq_iff_eq, beq_iff_eq, Point.mk.injEq]

/-- Whole coordinates are their own keys. -/
theorem Point.cornerKey_ofInts (c : ℤ × ℤ) : (ofInts c).cornerKey = ofInts c := by
  have hround (n : ℤ) : Scalar.roundTo 9 (n : ℝ) = (n : ℝ) := by
    show ((round ((n : ℝ) * 10 ^ 9) : ℤ) : ℝ) / 10 ^ 9 = n
    have hcast : (n : ℝ) * 10 ^ 9 = ((n * 10 ^ 9 : ℤ) : ℝ) := by push_cast; ring
    rw [hcast, round_intCast, ← hcast, mul_div_cancel_right₀ _ (by norm_num)]
  rw [cornerKey, ofInts, hround, hround]

theorem Point.ofInts_injective : Function.Injective Point.ofInts := by
  intro c d h
  rw [ofInts, ofInts, Point.mk.injEq, Int.cast_inj, Int.cast_inj] at h
  exact Prod.ext h.1 h.2

namespace Ring

theorem lastIndexOf?_lt {p : Point α} {i : ℕ} (hi : r.lastIndexOf? p = some i) : i < r.length := by
  obtain ⟨v, hv, rfl⟩ := Option.map_eq_some_iff.1 hi
  have hmem := List.mem_reverse.1 (List.mem_of_find?_eq_some hv)
  exact List.snd_lt_of_mem_zipIdx hmem

/-- A search for the best of several things finds one of them. -/
theorem foldl_best_mem {γ : Type} (better : γ → γ → Bool) (v : γ) (rest : List γ) :
    rest.foldl (fun best w => if better w best then w else best) v ∈ v :: rest := by
  induction rest generalizing v with
  | nil => exact List.mem_singleton_self v
  | cons w rest ih =>
    rw [List.foldl_cons]
    by_cases hw : better w v = true
    · rw [if_pos hw]
      exact List.mem_cons_of_mem v (ih w)
    · rw [if_neg hw]
      rcases List.mem_cons.1 (ih v) with hsame | hrest
      · exact List.mem_cons.2 (.inl hsame)
      · exact List.mem_cons_of_mem v (List.mem_cons_of_mem w hrest)

theorem nearestIndex_lt (hr : r ≠ []) (p : Point α) : r.nearestIndex p < r.length := by
  unfold nearestIndex
  split
  · rename_i hnone
    exact absurd (List.zipIdx_eq_nil_iff.1 hnone) hr
  · rename_i v rest hzip
    have hmem := foldl_best_mem (fun w best : Point α × ℕ =>
      decide ((Vec.between p w.1).length < (Vec.between p best.1).length)) v rest
    simp only [decide_eq_true_eq] at hmem
    rw [← hzip] at hmem
    exact List.snd_lt_of_mem_zipIdx hmem

/-- The index that a corner is given is that of a vertex. -/
theorem indexOf_lt (hr : r ≠ []) (p : Point α) : r.indexOf p < r.length := by
  unfold indexOf
  cases hi : r.lastIndexOf? p with
  | none => exact nearestIndex_lt hr p
  | some i => exact lastIndexOf?_lt hi

/-- No vertex has the rounded coordinates of an earlier one. -/
def KeysDistinct (r : Ring α) : Prop := r.Pairwise fun p q => (q.cornerKey == p.cornerKey) = false

instance (r : Ring α) : Decidable r.KeysDistinct := inferInstanceAs (Decidable (List.Pairwise _ _))

/-- Every vertex has the index that it is looked up at. -/
def Named (r : Ring α) : Prop := ∀ p ∈ r, r[r.indexOf p]? = some p

/-- **Rounded coordinates that are distinct** name the vertices. -/
theorem KeysDistinct.named (hkeys : r.KeysDistinct)
    (hown : ∀ p ∈ r, (p.cornerKey == p.cornerKey) = true) : r.Named := by
  intro p hp
  obtain ⟨i, hi, rfl⟩ := List.getElem_of_mem hp
  -- the search goes from the last vertex to the first, and stops at this one
  have hfound : r.zipIdx.reverse.find? (fun v => v.1.cornerKey == r[i].cornerKey) =
      some (r[i], i) := by
    rw [List.find?_eq_some_iff_getElem]
    have hplace : r.length - 1 - (r.length - 1 - i) = i := by omega
    refine ⟨hown _ hp, r.length - 1 - i, by simp; omega, ?_, ?_⟩
    · simp [List.getElem_reverse, hplace]
    · intro j hj
      have hlater : i < r.length - 1 - j := by omega
      have hapart := List.pairwise_iff_getElem.1 hkeys i (r.length - 1 - j) hi (by omega) hlater
      simp [List.getElem_reverse, hapart]
  have hindex : r.indexOf r[i] = i := by
    rw [indexOf, lastIndexOf?, hfound]
    rfl
  rw [hindex, List.getElem?_eq_getElem hi]

/-- Rounded finite coordinates are numbers, and so each is equal to itself. -/
theorem KeysDistinct.named_of_isFinite {r : Ring Float} (hkeys : r.KeysDistinct)
    (hfinite : ∀ p ∈ r, p.IsFinite) : r.Named := by
  refine hkeys.named fun p hp => ?_
  obtain ⟨hx, hy⟩ := hfinite p hp
  have hown {c : Float} (hc : c.isFinite = true) :
      (Decimal.roundPlaces 9 c == Decimal.roundPlaces 9 c) = true :=
    Binary64.beq_self_iff.2 (Decimal.units_roundPlaces hc 9).1
  exact Bool.and_eq_true_iff.2 ⟨hown hx, hown hy⟩

theorem KeysDistinct.named_exact {r : Ring ℝ} (hkeys : r.KeysDistinct) : r.Named :=
  hkeys.named fun _ _ => Point.exact_beq_iff.2 rfl

/-- Whole coordinates are told apart. -/
theorem keysDistinct_map_ofInts {cs : List (ℤ × ℤ)} (hcs : cs.Nodup) :
    KeysDistinct (cs.map Point.ofInts) := by
  rw [KeysDistinct, List.pairwise_map]
  refine hcs.imp fun {c d} hne => ?_
  rw [Point.cornerKey_ofInts, Point.cornerKey_ofInts, Bool.eq_false_iff, ne_eq, Point.exact_beq_iff]
  exact fun hsame => hne (Point.ofInts_injective hsame).symm

/-- Vertices with one name are one point. -/
theorem Named.indexOf_eq_iff (hnamed : r.Named) {p q : Point α} (hp : p ∈ r) (hq : q ∈ r) :
    r.indexOf p = r.indexOf q ↔ p = q := by
  refine ⟨fun h => ?_, congrArg r.indexOf⟩
  have hp := hnamed p hp
  rw [h, hnamed q hq] at hp
  exact (Option.some_inj.1 hp).symm

end Ring

/-! ## Triples -/

/-- The vertices that a triple names. -/
def IndexTriple.cornersIn (s : IndexTriple) (r : Ring α) : List (Point α) :=
  [s.i, s.j, s.k].filterMap (r[·]?)

omit [Scalar α] in
theorem IndexTriple.cornersIn_turned {p q v : Point α} :
    s.turned.cornersIn r = [p, q, v] ↔ s.cornersIn r = [p, v, q] := by
  simp only [cornersIn, turned, List.filterMap_cons, List.filterMap_nil]
  cases hi : r[s.i]? <;> cases hj : r[s.j]? <;> cases hk : r[s.k]? <;> simp [and_comm]

/-- The three indices are different. -/
def IndexTriple.Apart (s : IndexTriple) : Prop := s.i ≠ s.j ∧ s.i ≠ s.k ∧ s.j ≠ s.k

/-- All corners of the triangle are vertices of the ring. -/
def Triangle.Within (t : Triangle α) (r : Ring α) : Prop := t.a ∈ r ∧ t.b ∈ r ∧ t.c ∈ r

/-- Two corners of the triangle are one point. -/
def Triangle.HasRepeat (t : Triangle α) : Prop := t.a = t.b ∨ t.a = t.c ∨ t.b = t.c

/-- The triangle is too small to be kept. -/
def Triangle.IsTiny (t : Triangle α) : Prop := t.area ≤ Tolerance.geometry * Tolerance.geometry

instance : DecidablePred (Triangle.IsTiny (α := α)) := fun _ => Scalar.decidableLE _ _

/-- The triple names the corners of the triangle, in one order or in the other. -/
def IndexTriple.Names (s : IndexTriple) (r : Ring α) (t : Triangle α) : Prop :=
  s.cornersIn r = [t.a, t.b, t.c] ∨ s.cornersIn r = [t.a, t.c, t.b]

namespace Ring

/-- The indices that the corners of a triangle are looked up at. -/
def lookUp (r : Ring α) (t : Triangle α) : IndexTriple :=
  ⟨r.indexOf t.a, r.indexOf t.b, r.indexOf t.c⟩

/-- A triple with its last two corners exchanged if it runs clockwise by the shoelace sum. -/
def orient (r : Ring α) (s : IndexTriple) : IndexTriple :=
  if signedArea (s.cornersIn r) < 0.0 then s.turned else s

theorem indexTriangle?_eq_none (h : t.IsTiny) : r.indexTriangle? t = none := if_pos h

/-- **A triangle has a triple** unless it is tiny or two of its corners have one index. -/
theorem indexTriangle?_eq_some_iff : r.indexTriangle? t = some s ↔
    ¬ t.IsTiny ∧ (r.lookUp t).Apart ∧ s = r.orient (r.lookUp t) := by
  by_cases htiny : t.IsTiny
  · simp [indexTriangle?_eq_none htiny, htiny]
  by_cases hapart : (r.lookUp t).Apart
  · obtain ⟨hij, hik, hjk⟩ := hapart
    have hfound : r.indexTriangle? t = some (r.orient (r.lookUp t)) := by
      unfold indexTriangle? orient
      rw [Triangle.IsTiny] at htiny
      simp only [if_neg htiny]
      rw [if_neg (by tauto), apply_ite some]
      rfl
    rw [hfound, Option.some_inj, eq_comm]
    tauto
  · have hsame : r.indexOf t.a = r.indexOf t.b ∨ r.indexOf t.a = r.indexOf t.c ∨
        r.indexOf t.b = r.indexOf t.c := by
      simp only [IndexTriple.Apart, lookUp] at hapart
      tauto
    simp [indexTriangle?, hsame, hapart]

theorem orient_apart (h : s.Apart) : (r.orient s).Apart := by
  obtain ⟨hij, hik, hjk⟩ := h
  unfold orient
  split_ifs
  · exact ⟨hik, hij, hjk.symm⟩
  · exact ⟨hij, hik, hjk⟩

/-- Turning a triple the other way changes the order of its corners only. -/
theorem orient_names (h : s.cornersIn r = [t.a, t.b, t.c]) : (r.orient s).Names r t := by
  unfold orient
  split_ifs
  · exact .inr (IndexTriple.cornersIn_turned.2 h)
  · exact .inl h

/-- The shoelace sum of a triple is not negative, or that of the triple the other way round is. -/
theorem signedArea_orient {p q v : Point α} (h : (r.orient s).cornersIn r = [p, q, v]) :
    ¬ signedArea [p, q, v] < 0.0 ∨ signedArea [p, v, q] < 0.0 := by
  unfold orient at h
  split_ifs at h with hclockwise
  · rw [IndexTriple.cornersIn_turned.1 h] at hclockwise
    exact .inr hclockwise
  · exact .inl (h ▸ hclockwise)

/-- The corners of a triangle between vertices are found again. -/
theorem Named.cornersIn_lookUp (hnamed : r.Named) (hwithin : t.Within r) :
    (r.lookUp t).cornersIn r = [t.a, t.b, t.c] := by
  obtain ⟨ha, hb, hc⟩ := hwithin
  simp [IndexTriple.cornersIn, lookUp, hnamed t.a ha, hnamed t.b hb, hnamed t.c hc]

/-- **A triangle between vertices** has a triple unless it is tiny or has a corner twice. -/
theorem Named.indexTriangle?_eq_none_iff (hnamed : r.Named) (hwithin : t.Within r) :
    r.indexTriangle? t = none ↔ t.IsTiny ∨ t.HasRepeat := by
  obtain ⟨ha, hb, hc⟩ := hwithin
  have hsame : (r.lookUp t).Apart ↔ ¬ t.HasRepeat := by
    have hab := hnamed.indexOf_eq_iff ha hb
    have hac := hnamed.indexOf_eq_iff ha hc
    have hbc := hnamed.indexOf_eq_iff hb hc
    simp only [IndexTriple.Apart, lookUp, Triangle.HasRepeat, not_or, ne_eq, hab, hac, hbc]
  simp only [Option.eq_none_iff_forall_ne_some, ne_eq, indexTriangle?_eq_some_iff, hsame]
  constructor
  · intro h
    by_contra hkept
    rw [not_or] at hkept
    exact h _ ⟨hkept.1, hkept.2, rfl⟩
  · rintro h s ⟨htiny, hrepeat, -⟩
    exact h.elim htiny hrepeat

/-- **The triples of a ring** are those of its triangles. -/
theorem triangulate_eq_ok {kernel : AreaKernel α} {triangles : List (Triangle α)}
    (h3 : 3 ≤ r.length) (h : kernel.triangles r = .ok triangles) :
    r.triangulate kernel = .ok (triangles.filterMap r.indexTriangle?) := by
  unfold triangulate
  rw [if_neg (by omega), h]
  rfl

/-- Every triple is that of a triangle, turned the right way by the shoelace sum. -/
theorem exists_of_mem_triangulate {kernel : AreaKernel α} {triples : List IndexTriple}
    (h : r.triangulate kernel = .ok triples) (hs : s ∈ triples) :
    3 ≤ r.length ∧ ∃ t, (r.lookUp t).Apart ∧ s = r.orient (r.lookUp t) := by
  unfold triangulate at h
  split_ifs at h with h3
  · obtain rfl := Except.ok.inj h
    cases hs
  · obtain ⟨triangles, -, hmap⟩ := bind_eq_ok.1 h
    obtain rfl := pure_eq_ok.1 hmap
    obtain ⟨t, -, ht⟩ := List.mem_filterMap.1 hs
    obtain ⟨-, hapart, rfl⟩ := indexTriangle?_eq_some_iff.1 ht
    exact ⟨not_lt.1 h3, t, hapart, rfl⟩

/-- The three indices of a triple are different. -/
theorem apart_of_triangulate {kernel : AreaKernel α} {triples : List IndexTriple}
    (h : r.triangulate kernel = .ok triples) : ∀ s ∈ triples, s.Apart := by
  intro s hs
  obtain ⟨-, t, hapart, rfl⟩ := exists_of_mem_triangulate h hs
  exact orient_apart hapart

/-- **The triangles of a ring** lie between its vertices. -/
theorem inRange_of_triangulate {kernel : AreaKernel α} {triangles : List IndexTriple}
    (h : r.triangulate kernel = .ok triangles) :
    ∀ t ∈ triangles, t.i < r.length ∧ t.j < r.length ∧ t.k < r.length := by
  intro s hs
  obtain ⟨h3, t, -, rfl⟩ := exists_of_mem_triangulate h hs
  have hlt := indexOf_lt (show r ≠ [] by rintro rfl; simp at h3)
  unfold orient
  split_ifs
  · exact ⟨hlt _, hlt _, hlt _⟩
  · exact ⟨hlt _, hlt _, hlt _⟩

end Ring

end Housewright
