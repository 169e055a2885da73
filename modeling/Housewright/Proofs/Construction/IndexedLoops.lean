import Housewright.Construction.Roofs
import Housewright.Inspection.Structure
import Housewright.Proofs.Construction.Panels
import Housewright.Proofs.Construction.Placement
import Housewright.Proofs.Construction.PlateSides
import Housewright.Proofs.Inspection.StructureVerdict

/-!
# Loops that read by index

Most definitions go through rings, levels and triangles without indices.  Here the same loops read
every entry at its index, and stop at an index that is out of range and at the extent of nothing.
They give the same results, so that no index is ever out of range and no extent is one of nothing.

* `Ring.edgesByIndex_eq`, `Ring.edgesIntoByIndex_eq`, `Ring.cornersByIndex_eq`: loops over a ring,
  which wrap around at its ends;
* `Ring.withoutRepeatsByIndex_eq`: the vertices kept first and last;
* `structureReportByIndex_eq`, `House.placeOpeningByIndex_eq`: levels;
* `Ring.triangulateByIndex_eq`: the corners of triangles looked up in a ring;
* `MultiRidgeRoof.buildHalfByReach_eq`: the reach of half a roof, over at least three vertices.
-/

namespace Housewright

/-- The entry of a list at an index, an error if there is none. -/
def entryAt {β : Type} (xs : List β) (i : ℕ) : Computed β :=
  match xs[i]? with
  | some x => .ok x
  | none => .error .indexOutOfRange

section Entries

variable {β γ : Type} {xs : List β} {i : ℕ}

theorem entryAt_eq_ok {x : β} : entryAt xs i = .ok x ↔ xs[i]? = some x := by
  unfold entryAt
  cases xs[i]? with
  | none => simp
  | some y => simp

/-- A loop over indices gives a list if it gives every entry at its index. -/
theorem mapM_range_eq_ok {f : ℕ → Computed γ} {ys : List γ}
    (h : ∀ i y, ys[i]? = some y → f i = .ok y) : (List.range ys.length).mapM f = .ok ys := by
  refine mapM_eq_ok.2 (List.forall₂_iff_get.2 ⟨List.length_range, fun i hi hi' => ?_⟩)
  rw [List.get_eq_getElem, List.getElem_range]
  exact h i _ (List.getElem?_eq_getElem hi')

end Entries

/-! ## Rings -/

namespace Ring

variable {α : Type} {r : Ring α} {i : ℕ}

/-- The vertex at an index; indices below zero count from the end. -/
def vertexAt (r : Ring α) (i : Int) : Computed (Point α) := Footprint.vertex ⟨r, []⟩ i

theorem vertexAt_eq_ok {p : Point α} (hp : r[i]? = some p) : r.vertexAt i = .ok p :=
  Footprint.vertex_eq_ok.2 hp

/-- The last vertex has the index `-1`. -/
theorem vertexAt_last {last : Point α} (hlast : r.getLast? = some last) :
    r.vertexAt (-1) = .ok last := by
  have hr : 0 < r.length := List.length_pos_iff.2 fun hnil => by simp [hnil] at hlast
  rw [List.getLast?_eq_getElem?] at hlast
  have hpos : ¬ (-1 + (r.length : Int)) < 0 := by omega
  have hindex : (-1 + (r.length : Int)).toNat = r.length - 1 := by omega
  simp [vertexAt, Footprint.vertex, hpos, hindex, hlast]

/-- The vertex before another one, at the end of the ring for the first one. -/
theorem vertexAt_before {last : Point α} (hlast : r.getLast? = some last) {p : Point α}
    (hp : (last :: r)[i]? = some p) : r.vertexAt ((i : Int) - 1) = .ok p := by
  cases i with
  | zero =>
    obtain rfl := Option.some_inj.1 hp
    exact vertexAt_last hlast
  | succ i =>
    have hback : ((i + 1 : ℕ) : Int) - 1 = (i : ℕ) := by omega
    rw [hback]
    exact vertexAt_eq_ok (by simpa using hp)

/-- An index that wraps around once. -/
theorem vertexAt_emod {k : Int} (hlow : -r.length ≤ k) (hlt : k < r.length) :
    r.vertexAt (k % r.length) = r.vertexAt k := by
  by_cases hneg : k < 0
  · have hwrap : k % (r.length : Int) = k + r.length := by
      rw [← Int.add_emod_right, Int.emod_eq_of_lt (by omega) (by omega)]
    have hpos : ¬ k + (r.length : Int) < 0 := by omega
    simp only [vertexAt, Footprint.vertex, hwrap, if_pos hneg, if_neg hpos]
  · rw [Int.emod_eq_of_lt (by omega) hlt]

/-- The vertex after another one, at the start of the ring for the last one. -/
theorem vertexAt_after {p q : Point α} (h : r.edges[i]? = some (p, q)) :
    r.vertexAt (((i : Int) + 1) % r.length) = .ok q := by
  have hwrap : ((i : Int) + 1) % r.length = ((i + 1) % r.length : ℕ) := by push_cast; rfl
  rw [hwrap]
  exact vertexAt_eq_ok (getElem?_edges_iff.1 h).2

/-- An edge into a vertex comes from the vertex before it. -/
theorem vertexAt_of_edgesInto {p q : Point α} (h : r.edgesInto[i]? = some (p, q)) :
    r.vertexAt ((i : Int) - 1) = .ok p ∧ r.vertexAt i = .ok q := by
  unfold edgesInto at h
  split at h
  · cases h
  · rename_i last hlast
    obtain ⟨hp, hq⟩ := List.getElem?_zip_eq_some.1 h
    exact ⟨vertexAt_before hlast hp, vertexAt_eq_ok hq⟩

@[simp] theorem length_edgesInto (r : Ring α) : r.edgesInto.length = r.length := by
  unfold edgesInto
  split
  · rename_i hnone
    rw [List.getLast?_eq_none_iff.1 hnone]
    rfl
  · simp

/-- The edges from each vertex to the next, around to the first. -/
def edgesByIndex (r : Ring α) : Computed (List (Point α × Point α)) :=
  (List.range r.length).mapM fun (i : ℕ) => do
    return (← r.vertexAt i, ← r.vertexAt (((i : Int) + 1) % r.length))

theorem edgesByIndex_eq (r : Ring α) : r.edgesByIndex = .ok r.edges := by
  unfold edgesByIndex
  rw [← length_edges r]
  refine mapM_range_eq_ok fun i e he => ?_
  rw [length_edges, vertexAt_eq_ok (getElem?_edges_iff.1 he).1, vertexAt_after he]
  rfl

/-- The edges into each vertex, into the first one from the last one. -/
def edgesIntoByIndex (r : Ring α) : Computed (List (Point α × Point α)) :=
  (List.range r.length).mapM fun (i : ℕ) => do
    return (← r.vertexAt ((i : Int) - 1), ← r.vertexAt i)

theorem edgesIntoByIndex_eq (r : Ring α) : r.edgesIntoByIndex = .ok r.edgesInto := by
  unfold edgesIntoByIndex
  rw [← length_edgesInto r]
  refine mapM_range_eq_ok fun i e he => ?_
  rw [(vertexAt_of_edgesInto he).1, (vertexAt_of_edgesInto he).2]
  rfl

/-- The corners: each vertex with both of its neighbours. -/
def cornersByIndex (r : Ring α) : Computed (List (Corner α)) :=
  (List.range r.length).mapM fun (i : ℕ) => do
    return ⟨← r.vertexAt (((i : Int) - 1) % r.length), ← r.vertexAt i,
      ← r.vertexAt (((i : Int) + 1) % r.length)⟩

theorem cornersByIndex_eq (r : Ring α) : r.cornersByIndex = .ok r.corners := by
  have hlength : r.corners.length = r.length := by simp [corners]
  unfold cornersByIndex
  rw [← hlength]
  refine mapM_range_eq_ok fun i c hc => ?_
  obtain ⟨into, out, hinto, hout, rfl⟩ := List.getElem?_zipWith_eq_some.1 hc
  have hi : i < r.length := by
    have hlt := (List.getElem?_eq_some_iff.1 hout).1
    rwa [length_edges] at hlt
  rw [hlength, vertexAt_emod (by omega) (by omega), (vertexAt_of_edgesInto hinto).1,
    vertexAt_eq_ok (getElem?_edges_iff.1 hout).1, vertexAt_after hout]
  rfl

/-! ### Repeated vertices -/

variable [Scalar α]

/-- The points kept so far with one more, if it is farther than `eps` from the last of them. -/
def keepNext (eps : α) (kept : Ring α) (p : Point α) : Computed (Ring α) :=
  if kept.isEmpty then .ok [p]
  else do
    let last ← kept.vertexAt (-1)
    if eps < (← last.distance p) then return kept ++ [p] else return kept

/-- The ring without vertices that follow another one within `eps`, where the vertices kept last
and first are read by index. -/
def withoutRepeatsByIndex (eps : α) (r : Ring α) : Computed (Ring α) := do
  let kept ← r.foldlM (keepNext eps) []
  if 1 < kept.length then
    let first ← kept.vertexAt 0
    let last ← kept.vertexAt (-1)
    if (← first.distance last) ≤ eps then return kept.dropLast else return kept
  else return kept

theorem foldlM_keepNext (eps : α) (points before : Ring α) (last : Point α) :
    points.foldlM (keepNext eps) (before ++ [last]) =
      (keepDistant eps last points).map (before ++ last :: ·) := by
  induction points generalizing before last with
  | nil => rfl
  | cons p rest ih =>
    have hstep : keepNext eps (before ++ [last]) p = do
        if eps < (← last.distance p) then return before ++ [last] ++ [p]
        else return before ++ [last] := by
      have hempty : (before ++ [last]).isEmpty = false := by simp
      rw [keepNext, hempty, vertexAt_last List.getLast?_concat]
      rfl
    rw [List.foldlM_cons, hstep, keepDistant]
    cases last.distance p with
    | error e => rfl
    | ok d =>
      show (if eps < d then _ else _ : Computed _) >>= _ = Except.map _ (if eps < d then _ else _)
      split_ifs with hfar
      · refine (ih (before ++ [last]) p).trans ?_
        cases keepDistant eps p rest with
        | error e => rfl
        | ok kept => exact congrArg Except.ok (List.append_assoc before [last] (p :: kept))
      · exact ih before last

/-- **The vertices kept last and first** are there. -/
theorem withoutRepeatsByIndex_eq (eps : α) (r : Ring α) :
    r.withoutRepeatsByIndex eps = r.withoutRepeats eps := by
  cases r with
  | nil => rfl
  | cons p rest =>
    have hloop : (p :: rest).foldlM (keepNext eps) [] = (keepDistant eps p rest).map (p :: ·) :=
      foldlM_keepNext eps rest [] p
    rw [withoutRepeatsByIndex, hloop, withoutRepeats]
    cases keepDistant eps p rest with
    | error e => rfl
    | ok kept =>
      cases hlast : kept.getLast? with
      | none =>
        obtain rfl := List.getLast?_eq_none_iff.1 hlast
        rfl
      | some last =>
        have hne : kept ≠ [] := by
          rintro rfl
          cases hlast
        have hkept : 1 < (p :: kept).length := Nat.succ_lt_succ (List.length_pos_iff.2 hne)
        have hfirst : Ring.vertexAt (p :: kept) 0 = .ok p := vertexAt_eq_ok (i := 0) rfl
        have hend : (p :: kept).getLast? = some last := by
          rw [List.getLast?_cons, hlast, Option.getD_some]
        show (if 1 < (p :: kept).length then _ else _) = _
        rw [if_pos hkept, hfirst, vertexAt_last hend]
        dsimp only [bind, Except.bind]
        rw [hlast, List.dropLast_cons_of_ne_nil hne]

end Ring

/-! ## Levels -/

section Levels

variable {α : Type} [Scalar α]

/-- The level below the one at an index; the first one has none. -/
def belowAt (levels : List (LevelReading α)) : ℕ → Computed (Option (LevelReading α))
  | 0 => .ok none
  | i + 1 => do return some (← entryAt levels i)

/-- Every level with the one below it. -/
def withBelowByIndex (levels : List (LevelReading α)) :
    Computed (List (Option (LevelReading α) × LevelReading α)) :=
  (List.range levels.length).mapM fun i => do return (← belowAt levels i, ← entryAt levels i)

omit [Scalar α] in
/-- **Every level is found**, and so is the one below it. -/
theorem withBelowByIndex_eq (levels : List (LevelReading α)) :
    withBelowByIndex levels = .ok (withBelow levels) := by
  have hlength : (withBelow levels).length = levels.length := by simp [withBelow]
  unfold withBelowByIndex
  rw [← hlength]
  refine mapM_range_eq_ok fun i p hp => ?_
  obtain ⟨hlevel, hbelow⟩ := getElem?_withBelow.1 hp
  have hbelowAt : belowAt levels i = .ok p.1 := by
    cases i with
    | zero => exact congrArg Except.ok hbelow.symm
    | succ i =>
      have hi := (List.getElem?_eq_some_iff.1 hlevel).1
      have hentry := List.getElem?_eq_getElem (l := levels) (i := i) (by omega)
      have hsome : some levels[i] = p.1 := hentry.symm.trans hbelow.symm
      rw [belowAt, entryAt_eq_ok.2 hentry, ← hsome]
      rfl
  rw [hbelowAt, entryAt_eq_ok.2 hlevel]
  rfl

/-- The findings that a rule makes on every level. -/
def issuesByIndex
    (rule : Option (LevelReading α) → LevelReading α → List (StructureFinding α))
    (levels : List (LevelReading α)) : Computed (List (StructureIssue α)) := do
  return (← withBelowByIndex levels).zipIdx.flatMap fun ((below?, level), i) =>
    (rule below? level).map fun f => ⟨i, f⟩

omit [Scalar α] in
theorem issuesByIndex_eq
    (rule : Option (LevelReading α) → LevelReading α → List (StructureFinding α))
    (levels : List (LevelReading α)) : issuesByIndex rule levels = .ok (issuesBy rule levels) := by
  rw [issuesByIndex, withBelowByIndex_eq]
  rfl

/-- Everything that breaks a rule of support, with the levels read by index. -/
def structureReportByIndex (policy : SupportPolicy) (tolerance : α)
    (levels : List (LevelReading α)) : Computed (StructureReport α) := do
  let order (before? : Option (LevelReading α)) (level : LevelReading α) :=
    match before? with
    | some before => orderFindings tolerance before level
    | none => []
  let unsorted ← if policy.sortedLevels then issuesByIndex order levels else pure []
  return ⟨unsorted ++ (← issuesByIndex (levelFindings policy tolerance) levels)⟩

theorem structureReportByIndex_eq (policy : SupportPolicy) (tolerance : α)
    (levels : List (LevelReading α)) :
    structureReportByIndex policy tolerance levels =
      .ok (structureReport policy tolerance levels) := by
  unfold structureReportByIndex structureReport
  simp only [issuesByIndex_eq]
  split_ifs
  · rfl
  · rfl

/-- Places an opening of a house; its level is read at its index. -/
def House.placeOpeningByIndex (h : House α) (o : Opening α) :
    Computed (Option (PlacedOpening α)) :=
  match h.levelIndex? o.levelId with
  | none => .ok none
  | some i => do
    let level ← entryAt h.levels i
    match o.edgeIndex? level.footprint.outer with
    | some e => o.placeOn i level e
    | none => return none

/-- **The level of an opening** is found. -/
theorem House.placeOpeningByIndex_eq (h : House α) (o : Opening α) :
    h.placeOpeningByIndex o = h.placeOpening o := by
  unfold House.placeOpeningByIndex
  cases hi : h.levelIndex? o.levelId with
  | none => exact (House.placeOpening_of_noLevel hi).symm
  | some i =>
    obtain ⟨level, hlevel⟩ := House.exists_level_of_levelIndex? hi
    dsimp only
    rw [House.placeOpening_of_level hi hlevel, entryAt_eq_ok.2 hlevel]
    rfl

end Levels

/-! ## Triangles -/

namespace Ring

variable {α : Type} [Scalar α] {r : Ring α}

/-- The vertices with their indices. -/
def verticesByIndex (r : Ring α) : Computed (List (Point α × ℕ)) :=
  (List.range r.length).mapM fun (i : ℕ) => do return (← r.vertexAt i, i)

omit [Scalar α] in
theorem verticesByIndex_eq (r : Ring α) : r.verticesByIndex = .ok r.zipIdx := by
  have hlength : r.zipIdx.length = r.length := List.length_zipIdx
  unfold verticesByIndex
  rw [← hlength]
  refine mapM_range_eq_ok fun i v hv => ?_
  rw [List.getElem?_zipIdx] at hv
  obtain ⟨q, hq, rfl⟩ := Option.map_eq_some_iff.1 hv
  rw [vertexAt_eq_ok hq, Nat.zero_add]
  rfl

/-- The index of the vertex nearest to `p`, which is one of some vertices or an error. -/
def nearestByIndex (r : Ring α) (p : Point α) : Computed ℕ := do
  let away (q : Point α) : α := (Vec.between p q).length
  match ← r.verticesByIndex with
  | [] => .error .noPoints
  | v :: rest =>
    return (rest.foldl (fun best w => if away w.1 < away best.1 then w else best) v).2

theorem nearestByIndex_eq (hr : r ≠ []) (p : Point α) :
    r.nearestByIndex p = .ok (r.nearestIndex p) := by
  unfold nearestByIndex nearestIndex
  rw [verticesByIndex_eq]
  cases hzip : r.zipIdx with
  | nil => exact absurd (List.zipIdx_eq_nil_iff.1 hzip) hr
  | cons v rest => rfl

/-- The index of the vertex that a corner stands for. -/
def indexByKey (r : Ring α) (p : Point α) : Computed ℕ :=
  match r.lastIndexOf? p with
  | some i => .ok i
  | none => r.nearestByIndex p

theorem indexByKey_eq (hr : r ≠ []) (p : Point α) : r.indexByKey p = .ok (r.indexOf p) := by
  unfold indexByKey indexOf
  cases r.lastIndexOf? p with
  | some i => rfl
  | none => exact nearestByIndex_eq hr p

/-- The corners of a triangle by index, with the vertices read at these indices. -/
def indexTriangleByIndex (r : Ring α) (t : Triangle α) : Computed (Option IndexTriple) :=
  if t.area ≤ Tolerance.geometry * Tolerance.geometry then .ok none
  else do
    let i ← r.indexByKey t.a
    let j ← r.indexByKey t.b
    let k ← r.indexByKey t.c
    if i = j ∨ i = k ∨ j = k then return none
    else
      let area := signedArea [← r.vertexAt i, ← r.vertexAt j, ← r.vertexAt k]
      if area < 0.0 then return some ⟨i, k, j⟩ else return some ⟨i, j, k⟩

/-- **The corners of a triangle** are found in a ring with vertices. -/
theorem indexTriangleByIndex_eq (hr : r ≠ []) (t : Triangle α) :
    r.indexTriangleByIndex t = .ok (r.indexTriangle? t) := by
  unfold indexTriangleByIndex indexTriangle?
  split_ifs with hsmall
  · rfl
  · simp only [indexByKey_eq hr]
    have hvertex (p : Point α) : ∃ v, r[r.indexOf p]? = some v :=
      ⟨_, List.getElem?_eq_getElem (indexOf_lt hr p)⟩
    obtain ⟨a, ha⟩ := hvertex t.a
    obtain ⟨b, hb⟩ := hvertex t.b
    obtain ⟨c, hc⟩ := hvertex t.c
    have hcorners : [r.indexOf t.a, r.indexOf t.b, r.indexOf t.c].filterMap (r[·]?) =
        [a, b, c] := by simp [ha, hb, hc]
    simp only [hcorners]
    show (if _ then _ else _) = _
    split_ifs with hequal harea
    · rfl
    · rw [vertexAt_eq_ok ha, vertexAt_eq_ok hb, vertexAt_eq_ok hc]
      exact if_pos harea
    · rw [vertexAt_eq_ok ha, vertexAt_eq_ok hb, vertexAt_eq_ok hc]
      exact if_neg harea

/-- The triangles that a ring falls into, with its vertices read by index. -/
def triangulateByIndex (kernel : AreaKernel α) (r : Ring α) : Computed (List IndexTriple) :=
  if r.length < 3 then .ok []
  else do
    let corners ← kernel.triangles r
    return (← corners.mapM r.indexTriangleByIndex).filterMap id

theorem triangulateByIndex_eq (kernel : AreaKernel α) (r : Ring α) :
    r.triangulateByIndex kernel = r.triangulate kernel := by
  unfold triangulateByIndex triangulate
  split_ifs with hsmall
  · rfl
  · have hr : r ≠ [] := by
      rintro rfl
      exact hsmall (by simp)
    refine congrArg (kernel.triangles r >>= ·) (funext fun corners => ?_)
    rw [mapM_eq_ok_map fun t _ => indexTriangleByIndex_eq hr t]
    exact congrArg Except.ok List.filterMap_map

/-- How far a ring reaches from the vertical line at `splitX`, an error without vertices. -/
def greatestReach (r : Ring α) (splitX : α) : Computed α :=
  match r.map fun p => Scalar.abs (p.x - splitX) with
  | [] => .error .noPoints
  | d :: rest => .ok (rest.foldl Scalar.greatest d)

theorem greatestReach_eq (hr : r ≠ []) (splitX : α) :
    r.greatestReach splitX = .ok (r.reachFrom splitX) := by
  cases r with
  | nil => exact absurd rfl hr
  | cons p rest => rfl

end Ring

/-! ## Halves of roofs -/

section Halves

variable {α : Type} [Scalar α]

/-- The plate on one side of the split, whose reach is that of some vertices or an error. -/
def MultiRidgeRoof.buildHalfByReach (kernel : AreaKernel α) (r : MultiRidgeRoof α)
    (ridge : Ridge α) (base : α) (outline : Ring α) (keep : Side) :
    Computed (Option (Mesh α)) := do
  let splitX := ridge.start.x
  let half ← outline.clip (splitSide splitX keep) Tolerance.geometry
  if half.length < 3 ∨ Scalar.abs half.signedArea ≤ Tolerance.geometry then return none
  let slope : SplitSlope α :=
    ⟨splitX, ← half.greatestReach splitX, base + ridge.height, ridge.height - r.eaveHeight⟩
  return some (← buildPlate kernel half slope.heightAt r.thickness fun _ _ => false)

/-- **The reach of half a roof** is that of at least three vertices. -/
theorem MultiRidgeRoof.buildHalfByReach_eq (kernel : AreaKernel α) (r : MultiRidgeRoof α)
    (ridge : Ridge α) (base : α) (outline : Ring α) (keep : Side) :
    r.buildHalfByReach kernel ridge base outline keep =
      r.buildHalf kernel ridge base outline keep := by
  unfold buildHalfByReach buildHalf
  refine congrArg (_ >>= ·) (funext fun half => ?_)
  split_ifs with hsmall
  · rfl
  · have hhalf : half ≠ [] := by
      rintro rfl
      exact hsmall (.inl (by simp))
    rw [Ring.greatestReach_eq hhalf]
    rfl

end Halves

end Housewright
