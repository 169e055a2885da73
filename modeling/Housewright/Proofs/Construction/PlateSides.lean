import Housewright.Proofs.Construction.MeshSides
import Housewright.Proofs.Construction.NamedCorners
import Housewright.Proofs.Exact.Cycles

/-!
# The sides of a roof plate

The top of a plate and its bottom have the sides of a triangulated ring, once forwards and once
backwards, and the walls join them.  Where a wall is left out the plate has a hole; its rim is all
that is left when the sides of a plate are added up.

* `Triangulates` says that the triangles of a ring have each edge of it as a side once, and every
  other side once in each direction;
* `Borders` says that their sides amount to the edges of the ring, and
  `sum_around_plateFaces` gives the weights of a plate whose vertices are known by their indices;
* `buildPlate_eq_ok`: over a ring that falls into triangles a plate is built;
* `PlateShape.mesh_total`: its weights are those of the rims of its open edges, and
  `PlateShape.not_closed_of_rim`: one rim is enough to leave a mesh open;
* `Ring.fan_fills_quadrangle`: triangles between one vertex and the edges are such triangles.
-/

namespace Housewright

/-! ## Triangulated rings -/

/-- The edges of a ring of `n` vertices by the indices of their ends. -/
def ringSides (n : ℕ) : List (ℕ × ℕ) := (List.range n).map fun i => (i, (i + 1) % n)

/-- Triangles that make up a ring of `n` vertices: each edge of the ring is a side once, and all
the other sides come in both directions. -/
def Triangulates (n : ℕ) (triangles : List IndexTriple) : Prop :=
  ∃ inner : List (ℕ × ℕ), (triangles.flatMap IndexTriple.sides).Perm
    (ringSides n ++ (inner ++ inner.map Prod.swap))

/-- Triangles whose sides are the edges of a ring of `n` vertices, up to sides that cancel. -/
def Borders (n : ℕ) (triangles : List IndexTriple) : Prop :=
  ∀ w : ℕ → ℕ → ℤ, Alternates w → (triangles.map (IndexTriple.around w)).sum =
    ((List.range n).map fun i => w i ((i + 1) % n)).sum

section Weights

variable {w : ℕ → ℕ → ℤ} {n : ℕ} {triangles : List IndexTriple}

/-- **The weights of a triangulated ring** are those of its edges. -/
theorem Triangulates.borders (h : Triangulates n triangles) : Borders n triangles := by
  intro w hw
  obtain ⟨inner, hperm⟩ := h
  rw [IndexTriple.sum_around, (hperm.map _).sum_eq, List.map_append, List.sum_append,
    List.map_append, List.sum_append, hw.sum_map_swap, add_neg_cancel, add_zero, ringSides,
    List.map_map]
  rfl

/-- A triangle that is turned has the opposite weights. -/
theorem IndexTriple.around_turned_shift (hw : Alternates w) (n : ℕ) (t : IndexTriple) :
    (t.turned.shift n).around w = -t.around fun i j => w (i + n) (j + n) := by
  simp only [around, turned, shift]
  rw [hw (t.j + n) (t.k + n), hw (t.i + n) (t.j + n), hw (t.k + n) (t.i + n)]
  ring

/-- The rim of the hole where there is no wall below the edge from vertex `i` to vertex `j`. -/
def rimByIndex (w : ℕ → ℕ → ℤ) (n i j : ℕ) : ℤ :=
  w i j + w j (j + n) + w (j + n) (i + n) + w (i + n) i

/-- A sum over the vertices of a ring may begin at the second one. -/
theorem sum_range_next (f : ℕ → ℤ) (n : ℕ) :
    ((List.range n).map fun i => f ((i + 1) % n)).sum = ((List.range n).map f).sum := by
  cases n with
  | zero => rfl
  | succ n =>
    have hinner : (List.range n).map (fun i => f ((i + 1) % (n + 1))) =
        (List.range n).map fun i => f (i + 1) := by
      refine List.map_congr_left fun i hi => ?_
      rw [Nat.mod_eq_of_lt (by simpa using hi)]
    have hall : ((List.range (n + 1)).map f).sum =
        f 0 + ((List.range n).map fun i => f (i + 1)).sum := by
      rw [List.range_succ_eq_map, List.map_cons, List.sum_cons, List.map_map]
      rfl
    rw [hall, List.range_succ, List.map_append, List.sum_append, hinner]
    simp only [List.map_cons, List.map_nil, List.sum_cons, List.sum_nil, Nat.mod_self]
    ring

/-- **The weights of a plate** are those of the rims where there is no wall. -/
theorem sum_around_plateFaces (h : Borders n triangles) (hw : Alternates w)
    (hasWall : ℕ → Bool) :
    ((plateFaces n triangles hasWall).map (IndexTriple.around w)).sum =
      ((List.range n).map fun i =>
        if hasWall i then 0 else rimByIndex w n i ((i + 1) % n)).sum := by
  let wall (i : ℕ) : ℤ :=
    ((if hasWall i then wallFaces n i ((i + 1) % n) else []).map (IndexTriple.around w)).sum
  have hbottom : ((triangles.map fun t => t.turned.shift n).map (IndexTriple.around w)).sum =
      -((List.range n).map fun i => w (i + n) ((i + 1) % n + n)).sum := by
    have hshift : Alternates fun i j => w (i + n) (j + n) := fun i j => hw (i + n) (j + n)
    rw [← h _ hshift, List.sum_neg, List.map_map, List.map_map]
    exact congrArg List.sum (List.map_congr_left fun t _ => t.around_turned_shift hw n)
  -- a wall takes away the edges above and below it, and adds the posts at its ends
  have hwall (i : ℕ) : wall i + w i ((i + 1) % n) + w ((i + 1) % n) ((i + 1) % n + n) =
      (if hasWall i then 0 else rimByIndex w n i ((i + 1) % n)) + w (i + n) ((i + 1) % n + n) +
        w i (i + n) := by
    have hdiagonal := hw i ((i + 1) % n + n)
    have hpost := hw i (i + n)
    have hnext := hw ((i + 1) % n) ((i + 1) % n + n)
    have htop := hw i ((i + 1) % n)
    have hbelow := hw (i + n) ((i + 1) % n + n)
    by_cases hi : hasWall i = true
    · simp only [wall, hi, if_true, wallFaces, List.map_cons, List.map_nil, List.sum_cons,
        List.sum_nil, IndexTriple.around]
      omega
    · simp only [wall, hi, Bool.false_eq_true, if_false, List.map_nil, List.sum_nil, rimByIndex]
      omega
  have hsum := congrArg List.sum (List.map_congr_left (l := List.range n) fun i _ => hwall i)
  simp only [List.sum_map_add] at hsum
  rw [sum_range_next fun i => w i (i + n)] at hsum
  rw [plateFaces, List.map_append, List.sum_append, List.map_append, List.sum_append,
    h w hw, hbottom, List.map_flatMap, sum_flatMap]
  linarith

end Weights

noncomputable section

/-! ## Plates in exact arithmetic -/

/-- The surfaces of a plate: how high its top lies over a point, and how far below its bottom. -/
structure PlateShape where
  height : Point ℝ → ℝ
  thickness : ℝ

namespace PlateShape

variable (s : PlateShape)

/-- The point of the top over a point of the plan. -/
def top (p : Point ℝ) : Point3 ℝ := ⟨p.x, p.y, s.height p⟩

/-- The point of the bottom over a point of the plan. -/
def bottom (p : Point ℝ) : Point3 ℝ := ⟨p.x, p.y, s.height p - s.thickness⟩

/-- The rim of the hole where there is no wall below an edge. -/
def rim (w : Point3 ℝ → Point3 ℝ → ℤ) (p q : Point ℝ) : ℤ :=
  w (s.top p) (s.top q) + w (s.top q) (s.bottom q) + w (s.bottom q) (s.bottom p) +
    w (s.bottom p) (s.top p)

/-- The vertices of a plate over a ring by their indices. -/
def vertex (r : Ring ℝ) (i : ℕ) : Point3 ℝ :=
  if i < r.length then s.top (r.around i) else s.bottom (r.around i)

theorem vertex_of_lt {r : Ring ℝ} {i : ℕ} (hi : i < r.length) :
    s.vertex r i = s.top (r.around i) := if_pos hi

theorem vertex_add (r : Ring ℝ) (i : ℕ) : s.vertex r (i + r.length) = s.bottom (r.around i) := by
  rw [vertex, if_neg (by omega), Ring.around_add_length]

theorem getElem?_vertices {r : Ring ℝ} {i : ℕ} (hi : i < r.length + r.length) :
    (r.map s.top ++ r.map s.bottom)[i]? = some (s.vertex r i) := by
  by_cases hlt : i < r.length
  · rw [List.getElem?_append_left (by rwa [List.length_map]), List.getElem?_map,
      List.getElem?_eq_getElem hlt, vertex_of_lt s hlt, Ring.around_eq_getElem hlt]
    rfl
  · obtain ⟨k, rfl⟩ := Nat.exists_eq_add_of_le' (not_lt.1 hlt)
    rw [List.getElem?_append_right (by simp), List.length_map, Nat.add_sub_cancel,
      List.getElem?_map, List.getElem?_eq_getElem (by omega), vertex_add,
      Ring.around_eq_getElem (by omega)]
    rfl

variable {s}

/-- The rim of a hole is run around the other way when the edge is. -/
theorem rim_swap {w : Point3 ℝ → Point3 ℝ → ℤ} (hw : Alternates w) (p q : Point ℝ) :
    s.rim w q p = -s.rim w p q := by
  simp only [rim]
  rw [hw (s.top p) (s.top q), hw (s.bottom p) (s.top p), hw (s.bottom q) (s.bottom p),
    hw (s.top q) (s.bottom q)]
  ring

/-- A plate that is not thick has no holes. -/
theorem rim_eq_zero {w : Point3 ℝ → Point3 ℝ → ℤ} (hw : Alternates w) (hs : s.thickness = 0)
    (p q : Point ℝ) : s.rim w p q = 0 := by
  have hsame (p : Point ℝ) : s.bottom p = s.top p := by
    rw [bottom, top, hs, sub_zero]
  simp only [rim, hsame, hw.self_eq_zero]
  rw [hw (s.top p) (s.top q)]
  ring

/-- **The rim of a hole** is not made up for by any other side: a mesh that has it left is open. -/
theorem not_closed_of_rim (hs : s.thickness ≠ 0) {p q : Point ℝ} (hpq : p ≠ q) {m : Mesh ℝ}
    (htotal : ∀ w, Alternates w → m.total w = s.rim w p q) : ¬ m.Closed := by
  classical
  have htop : s.top p ≠ s.top q := by
    intro heq
    rw [top, top, Point3.mk.injEq] at heq
    exact hpq (Point.eq_of_coordinates heq.1 heq.2.1)
  have hbottom (a b : Point ℝ) : s.bottom a ≠ s.top b := by
    intro heq
    rw [bottom, top, Point3.mk.injEq] at heq
    obtain ⟨hx, hy, hz⟩ := heq
    obtain rfl : a = b := Point.eq_of_coordinates hx hy
    exact hs (by linarith)
  -- the weight that counts the upper side of the rim
  have hrim : s.rim (excess (s.top p, s.top q)) p q = 1 := by
    simp [rim, excess, htop, htop.symm, hbottom]
  intro hclosed
  have hzero := Mesh.closed_iff.1 hclosed _ (excess_alternates (s.top p, s.top q))
  rw [htotal _ (excess_alternates _), hrim] at hzero
  exact one_ne_zero hzero

end PlateShape

/-! ## Building a plate -/

namespace Ring

/-- The edges below which there is no wall. -/
def openEdges (r : Ring ℝ) (isOpen : Point ℝ → Point ℝ → Bool) : List (Point ℝ × Point ℝ) :=
  r.edges.filter fun e => isOpen e.1 e.2

theorem edgeIsOpen_of_lt {r : Ring ℝ} {i : ℕ} (hi : i < r.length)
    (isOpen : Point ℝ → Point ℝ → Bool) :
    r.edgeIsOpen isOpen i = isOpen (r.around i) (r.around (i + 1)) := by
  rw [edgeIsOpen, getElem?_edges_eq_some.2 ⟨hi, rfl⟩]

/-- The weights of the open edges, by their indices. -/
theorem sum_openEdges (r : Ring ℝ) (isOpen : Point ℝ → Point ℝ → Bool)
    (f : Point ℝ × Point ℝ → ℤ) :
    ((r.openEdges isOpen).map f).sum = ((List.range r.length).map fun i =>
      if r.edgeIsOpen isOpen i then f (r.around i, r.around (i + 1)) else 0).sum := by
  have hfilter := List.sum_map_ite (fun e : Point ℝ × Point ℝ => isOpen e.1 e.2 = true) f
    (fun _ => 0) r.edges
  simp only [Bool.decide_eq_true, List.map_const', List.sum_replicate, smul_zero, add_zero]
    at hfilter
  rw [openEdges, ← hfilter, edges_eq_map, List.map_map]
  refine congrArg List.sum (List.map_congr_left fun i hi => ?_)
  rw [edgeIsOpen_of_lt (List.mem_range.1 hi)]
  rfl

end Ring

namespace PlateShape

variable {s : PlateShape} {r : Ring ℝ} {triangles : List IndexTriple}
  {isOpen : Point ℝ → Point ℝ → Bool}

/-- The plate over a ring that falls into triangles. -/
def mesh (s : PlateShape) (r : Ring ℝ) (triangles : List IndexTriple)
    (isOpen : Point ℝ → Point ℝ → Bool) : Mesh ℝ :=
  ⟨r.map s.top ++ r.map s.bottom, plateFaces r.length triangles fun i => !r.edgeIsOpen isOpen i⟩

theorem length_vertices (s : PlateShape) (r : Ring ℝ) :
    (r.map s.top ++ r.map s.bottom).length = r.length + r.length := by
  simp

theorem mesh_inRange
    (htriangles : ∀ t ∈ triangles, t.i < r.length ∧ t.j < r.length ∧ t.k < r.length) :
    (s.mesh r triangles isOpen).InRange := by
  intro t ht
  simp only [mesh, length_vertices]
  rcases List.mem_append.1 ht with ht | ht
  · rcases List.mem_append.1 ht with ht | ht
    · have hin := htriangles t ht
      omega
    · obtain ⟨t', ht', rfl⟩ := List.mem_map.1 ht
      have hin := htriangles t' ht'
      simp only [IndexTriple.shift, IndexTriple.turned]
      omega
  · obtain ⟨i, hi, ht⟩ := List.mem_flatMap.1 ht
    have hi := List.mem_range.1 hi
    have hnext : (i + 1) % r.length < r.length := Nat.mod_lt _ (by omega)
    split at ht
    · simp only [wallFaces, List.mem_cons, List.not_mem_nil, or_false] at ht
      rcases ht with rfl | rfl
      · dsimp only
        omega
      · dsimp only
        omega
    · cases ht

/-- **The sides of a plate** are the rims of the holes at its open edges, up to sides that
cancel. -/
theorem mesh_total (hmesh : (s.mesh r triangles isOpen).InRange)
    (hring : Triangulates r.length triangles) {w : Point3 ℝ → Point3 ℝ → ℤ} (hw : Alternates w) :
    (s.mesh r triangles isOpen).total w =
      ((r.openEdges isOpen).map fun e => s.rim w e.1 e.2).sum := by
  have hvertices (i : ℕ) (hi : i < (s.mesh r triangles isOpen).vertices.length) :
      (s.mesh r triangles isOpen).vertices[i]? = some (s.vertex r i) :=
    s.getElem?_vertices (length_vertices s r ▸ hi)
  rw [Mesh.total_eq_sum_around w hmesh hvertices, mesh,
    sum_around_plateFaces hring.borders fun i j => hw _ _, Ring.sum_openEdges]
  refine congrArg List.sum (List.map_congr_left fun i hi => ?_)
  have hi := List.mem_range.1 hi
  have hnext : (i + 1) % r.length < r.length := Nat.mod_lt _ (by omega)
  by_cases hopen : r.edgeIsOpen isOpen i = true
  · simp only [hopen, Bool.not_true, Bool.false_eq_true, if_false, if_true, rimByIndex, vertex_add,
      s.vertex_of_lt hi, s.vertex_of_lt hnext, Ring.around_mod, rim]
  · simp [hopen]

end PlateShape

/-- **A plate is built** over a ring that falls into triangles. -/
theorem buildPlate_eq_ok {kernel : AreaKernel ℝ} {ring : Ring ℝ} {heightAt : Point ℝ → Computed ℝ}
    {s : PlateShape} (hheight : ∀ p, heightAt p = .ok (s.height p)) {triangles : List IndexTriple}
    (htriangles : ring.counterClockwise.triangulate kernel = .ok triangles)
    (isOpen : Point ℝ → Point ℝ → Bool) :
    buildPlate kernel ring heightAt s.thickness isOpen =
      .ok (s.mesh ring.counterClockwise triangles isOpen) := by
  have htop : (ring.counterClockwise.mapM fun p => do
      return (⟨p.x, p.y, ← heightAt p⟩ : Point3 ℝ)) = .ok (ring.counterClockwise.map s.top) := by
    refine mapM_eq_ok_map fun p _ => ?_
    rw [hheight]
    rfl
  have hbottom : ((ring.counterClockwise.map s.top).map fun p =>
      { p with z := p.z - s.thickness }) = ring.counterClockwise.map s.bottom := by
    rw [List.map_map]
    rfl
  unfold buildPlate
  simp only
  rw [htop]
  show (ring.counterClockwise.triangulate kernel >>= _) = _
  rw [htriangles, PlateShape.mesh, ← hbottom]
  rfl

/-! ## Fans -/

/-- The triangles between the first vertex of a ring and its edges. -/
def Ring.fan : Ring ℝ → List (Triangle ℝ)
  | [] => []
  | p :: rest => (rest.zip rest.tail).map fun e => ⟨p, e.1, e.2⟩

/-- A kernel for convex rings: it leaves them as they are and cuts them into fans. -/
def AreaKernel.fan : AreaKernel ℝ where
  repair r := .ok r
  difference a _ := .ok [⟨a, []⟩]
  triangles r := .ok r.fan

/-- The area of a triangle is half of what its corners span. -/
theorem Triangle.area_eq (t : Triangle ℝ) : t.area = |t.a.spanned t.b t.c / 2| := by
  have htwo : (2.0 : ℝ) = 2 := by norm_num
  rw [area, htwo, ← abs_neg, Point.spanned]
  show |_| = |_|
  congr 1
  ring

namespace Ring

/-- A vertex with whole coordinates is found at its index. -/
theorem indexOf_map_ofInts {cs : List (ℤ × ℤ)} (hcs : cs.Nodup) {c : ℤ × ℤ} {i : ℕ}
    (hc : cs[i]? = some c) : indexOf (cs.map Point.ofInts) (Point.ofInts c) = i := by
  have hmem : Point.ofInts c ∈ cs.map Point.ofInts :=
    List.mem_map_of_mem (List.mem_of_getElem? hc)
  have hfound := (keysDistinct_map_ofInts hcs).named_exact _ hmem
  rw [List.getElem?_map] at hfound
  obtain ⟨d, hd, hsame⟩ := Option.map_eq_some_iff.1 hfound
  obtain rfl := Point.ofInts_injective hsame
  obtain ⟨hk, hk'⟩ := List.getElem?_eq_some_iff.1 hd
  obtain ⟨hi, hi'⟩ := List.getElem?_eq_some_iff.1 hc
  exact hcs.getElem_inj_iff.1 (hk'.trans hi'.symm)

theorem signedArea_triangle (p q s : Point ℝ) : signedArea [p, q, s] = p.spanned q s / 2 := by
  rw [signedArea_cons p]
  simp [sweep]

/-- A triangle between vertices that turns left is named by their indices. -/
theorem indexTriangle?_eq_some {r : Ring ℝ} {t : Triangle ℝ} {i j k : ℕ} (hi : r.indexOf t.a = i)
    (hj : r.indexOf t.b = j) (hk : r.indexOf t.c = k) (ha : r[i]? = some t.a)
    (hb : r[j]? = some t.b) (hc : r[k]? = some t.c) (hij : i ≠ j) (hik : i ≠ k) (hjk : j ≠ k)
    (hlarge : 1 ≤ t.a.spanned t.b t.c) : r.indexTriangle? t = some ⟨i, j, k⟩ := by
  have hzero : (0.0 : ℝ) = 0 := by norm_num
  have htol : (Tolerance.geometry : ℝ) * Tolerance.geometry < 1 / 2 := by
    norm_num [Tolerance.geometry]
  have hcorners : IndexTriple.cornersIn ⟨i, j, k⟩ r = [t.a, t.b, t.c] := by
    simp [IndexTriple.cornersIn, ha, hb, hc]
  have hlookUp : r.lookUp t = ⟨i, j, k⟩ := by rw [lookUp, hi, hj, hk]
  refine indexTriangle?_eq_some_iff.2 ⟨?_, hlookUp ▸ ⟨hij, hik, hjk⟩, ?_⟩
  · rw [Triangle.IsTiny, t.area_eq, abs_of_pos (by linarith)]
    linarith
  · rw [hlookUp, orient, hcorners, signedArea_triangle, hzero, if_neg (by linarith)]

theorem signedArea_quadrangle (p q s t : Point ℝ) :
    signedArea [p, q, s, t] = (p.spanned q s + p.spanned s t) / 2 := by
  rw [signedArea_cons p]
  simp [sweep]

/-- **A fan fills a quadrangle** with whole coordinates that turns left. -/
theorem fan_fills_quadrangle {a b c d : ℤ × ℤ} {r : Ring ℝ}
    (hr : r = [a, b, c, d].map Point.ofInts) (hcs : [a, b, c, d].Nodup)
    (habc : 1 ≤ (Point.ofInts a).spanned (Point.ofInts b) (Point.ofInts c))
    (hacd : 1 ≤ (Point.ofInts a).spanned (Point.ofInts c) (Point.ofInts d)) :
    Tolerance.geometry < |r.signedArea| ∧
      ∃ triangles, r.counterClockwise.triangulate .fan = .ok triangles ∧
        Triangulates r.length triangles := by
  subst hr
  have hzero : (0.0 : ℝ) = 0 := by norm_num
  have htol : (Tolerance.geometry : ℝ) < 1 := by norm_num [Tolerance.geometry]
  have harea := signedArea_quadrangle (Point.ofInts a) (Point.ofInts b) (Point.ofInts c)
    (Point.ofInts d)
  have hindex {i : ℕ} {e : ℤ × ℤ} (he : [a, b, c, d][i]? = some e) := indexOf_map_ofInts hcs he
  have hfirst : indexTriangle? ([a, b, c, d].map Point.ofInts)
      ⟨Point.ofInts a, Point.ofInts b, Point.ofInts c⟩ = some ⟨0, 1, 2⟩ :=
    indexTriangle?_eq_some (hindex (i := 0) rfl) (hindex (i := 1) rfl) (hindex (i := 2) rfl) rfl rfl
      rfl (by decide) (by decide) (by decide) habc
  have hsecond : indexTriangle? ([a, b, c, d].map Point.ofInts)
      ⟨Point.ofInts a, Point.ofInts c, Point.ofInts d⟩ = some ⟨0, 2, 3⟩ :=
    indexTriangle?_eq_some (hindex (i := 0) rfl) (hindex (i := 2) rfl) (hindex (i := 3) rfl) rfl rfl
      rfl (by decide) (by decide) (by decide) hacd
  have hfan : Ring.fan ([a, b, c, d].map Point.ofInts) =
      [⟨Point.ofInts a, Point.ofInts b, Point.ofInts c⟩,
        ⟨Point.ofInts a, Point.ofInts c, Point.ofInts d⟩] := rfl
  have hrun : counterClockwise ([a, b, c, d].map Point.ofInts) = [a, b, c, d].map Point.ofInts := by
    rw [counterClockwise, hzero, if_neg]
    show ¬ signedArea [Point.ofInts a, Point.ofInts b, Point.ofInts c, Point.ofInts d] < 0
    rw [harea]
    linarith
  have hfill : Triangulates 4 [⟨0, 1, 2⟩, ⟨0, 2, 3⟩] := ⟨[(2, 0)], by decide⟩
  refine ⟨?_, [⟨0, 1, 2⟩, ⟨0, 2, 3⟩], ?_, hfill⟩
  · show _ < |signedArea [Point.ofInts a, Point.ofInts b, Point.ofInts c, Point.ofInts d]|
    rw [harea, abs_of_pos (by linarith)]
    linarith
  · unfold triangulate
    rw [hrun, if_neg (by simp)]
    show Except.ok (List.filterMap _ (Ring.fan _)) = _
    rw [hfan, List.filterMap_cons_some hfirst, List.filterMap_cons_some hsecond]
    rfl

end Ring

end

end Housewright
