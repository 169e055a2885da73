import Mathlib.Algebra.BigOperators.Group.List.Basic
import Mathlib.Data.List.Count
import Mathlib.Data.List.Perm.Basic
import Mathlib.Tactic.Ring
import Housewright.Construction.Plates

/-!
# The sides of the faces of a mesh

A mesh is closed if every side of its faces is passed in one direction as often as in the other.
Vertices count as the same if they have the same coordinates, so that faces of different plates
can share a side.

* `perm_map_swap_iff`: a list of pairs holds each pair as often as the swapped one if and only if
  every weight that changes its sign with the direction adds up to zero over it;
* `Mesh.closed_iff` says so of a mesh, by `Mesh.total`;
* `Mesh.total_merge`: the weights of meshes that are put side by side are added up, and by
  `Mesh.hasPart_merge` and `Mesh.exists_of_mem_merge` each of them keeps to its own vertices;
* `Mesh.total_eq_sum_around`: the weight of a mesh, when its vertices are known by their indices.
-/

namespace Housewright

/-! ## Weights of directed pairs -/

/-- A weight of directed pairs that changes its sign with the direction. -/
def Alternates {β : Type} (w : β → β → ℤ) : Prop := ∀ p q, w q p = -w p q

section Pairs

variable {β : Type} {w : β → β → ℤ}

theorem Alternates.self_eq_zero (hw : Alternates w) (p : β) : w p p = 0 := by
  have hself := hw p p
  omega

theorem Alternates.sum_map_swap (hw : Alternates w) (pairs : List (β × β)) :
    ((pairs.map Prod.swap).map fun e => w e.1 e.2).sum = -(pairs.map fun e => w e.1 e.2).sum := by
  rw [List.sum_neg, List.map_map, List.map_map]
  exact congrArg List.sum (List.map_congr_left fun e _ => hw e.1 e.2)

/-- The weight that counts how much more often a pair is passed forwards than backwards. -/
def excess [DecidableEq β] (e : β × β) (p q : β) : ℤ :=
  (if (p, q) = e then 1 else 0) - (if (p, q) = e.swap then 1 else 0)

theorem excess_alternates [DecidableEq β] (e : β × β) : Alternates (excess e) := by
  intro p q
  obtain ⟨a, b⟩ := e
  have hswap (a b : β) : (q, p) = (a, b) ↔ (p, q) = (b, a) := by
    rw [Prod.mk.injEq, Prod.mk.injEq, and_comm]
  simp only [excess, Prod.swap_prod_mk, hswap]
  ring

theorem sum_excess [DecidableEq β] (e : β × β) (pairs : List (β × β)) :
    (pairs.map fun d => excess e d.1 d.2).sum = pairs.count e - pairs.count e.swap := by
  induction pairs with
  | nil => rfl
  | cons d rest ih =>
    rw [List.map_cons, List.sum_cons, ih, List.count_cons, List.count_cons]
    simp only [excess, beq_iff_eq]
    push_cast
    ring

/-- **A list of pairs is the same when all of them are swapped** if and only if every alternating
weight adds up to zero over it. -/
theorem perm_map_swap_iff (pairs : List (β × β)) :
    pairs.Perm (pairs.map Prod.swap) ↔
      ∀ w : β → β → ℤ, Alternates w → (pairs.map fun e => w e.1 e.2).sum = 0 := by
  classical
  constructor
  · intro hperm w hw
    have hsum := (hperm.map fun e => w e.1 e.2).sum_eq
    rw [hw.sum_map_swap] at hsum
    omega
  · intro hzero
    refine List.perm_iff_count.2 fun e => ?_
    have hcount := hzero (excess e) (excess_alternates e)
    rw [sum_excess] at hcount
    have hswap := List.count_map_of_injective pairs Prod.swap Prod.swap_injective e.swap
    rw [Prod.swap_swap] at hswap
    omega

end Pairs

/-- A list that is put together from several is summed up part by part. -/
theorem sum_flatMap {β M : Type} [AddMonoid M] (f : β → List M) (l : List β) :
    (l.flatMap f).sum = (l.map fun a => (f a).sum).sum := by
  rw [List.flatMap_def, List.sum_flatten, List.map_map]
  rfl

namespace IndexTriple

/-- The sides of a triangle by the indices of their ends. -/
def sides (t : IndexTriple) : List (ℕ × ℕ) := [(t.i, t.j), (t.j, t.k), (t.k, t.i)]

/-- The weights of the sides of a triangle. -/
def around (w : ℕ → ℕ → ℤ) (t : IndexTriple) : ℤ := w t.i t.j + w t.j t.k + w t.k t.i

theorem sum_around (w : ℕ → ℕ → ℤ) (faces : List IndexTriple) :
    (faces.map (around w)).sum = ((faces.flatMap sides).map fun e => w e.1 e.2).sum := by
  rw [List.map_flatMap, sum_flatMap]
  refine congrArg List.sum (List.map_congr_left fun t _ => ?_)
  simp only [sides, around, List.map_cons, List.map_nil, List.sum_cons, List.sum_nil]
  ring

@[simp] theorem shift_zero (t : IndexTriple) : t.shift 0 = t := rfl

@[simp] theorem shift_shift (t : IndexTriple) (a b : ℕ) :
    (t.shift a).shift b = t.shift (a + b) := by
  simp only [shift, Nat.add_assoc]

end IndexTriple

namespace Mesh

variable {α : Type} {m m' : Mesh α} {w : Point3 α → Point3 α → ℤ}

/-! ## Closed meshes -/

/-- The sides of the faces, in the direction in which the faces are run around. -/
def sides (m : Mesh α) : List (Point3 α × Point3 α) :=
  m.triangles.flatMap fun (a, b, c) => [(a, b), (b, c), (c, a)]

/-- A mesh without holes: every side is passed in both directions equally often. -/
def Closed (m : Mesh α) : Prop := m.sides.Perm (m.sides.map Prod.swap)

/-- The faces lie between vertices that there are. -/
def InRange (m : Mesh α) : Prop :=
  ∀ t ∈ m.faces, t.i < m.vertices.length ∧ t.j < m.vertices.length ∧ t.k < m.vertices.length

/-- The weights of all sides. -/
def total (w : Point3 α → Point3 α → ℤ) (m : Mesh α) : ℤ := (m.sides.map fun e => w e.1 e.2).sum

/-- **A mesh is closed** if and only if all alternating weights of its sides cancel. -/
theorem closed_iff : m.Closed ↔ ∀ w, Alternates w → m.total w = 0 := perm_map_swap_iff m.sides

/-! ## Weights by indices -/

/-- The corners of the faces, when the vertices are known by their indices. -/
theorem triangles_eq_map (hm : m.InRange) {v : ℕ → Point3 α}
    (hv : ∀ i < m.vertices.length, m.vertices[i]? = some (v i)) :
    m.triangles = m.faces.map fun t => (v t.i, v t.j, v t.k) := by
  rw [triangles, ← List.filterMap_eq_map']
  refine List.filterMap_congr fun t ht => ?_
  obtain ⟨hi, hj, hk⟩ := hm t ht
  rw [hv t.i hi, hv t.j hj, hv t.k hk]
  rfl

/-- **The weights of a mesh** are those around its faces. -/
theorem total_eq_sum_around (w : Point3 α → Point3 α → ℤ) (hm : m.InRange) {v : ℕ → Point3 α}
    (hv : ∀ i < m.vertices.length, m.vertices[i]? = some (v i)) :
    m.total w = (m.faces.map (IndexTriple.around fun i j => w (v i) (v j))).sum := by
  rw [IndexTriple.sum_around, total, sides, triangles_eq_map hm hv, List.flatMap_map,
    List.map_flatMap, List.map_flatMap]
  rfl

/-! ## Meshes side by side -/

theorem empty_inRange : (empty : Mesh α).InRange := fun _ ht => nomatch ht

theorem InRange.append (hm : m.InRange) (hm' : m'.InRange) : (m.append m').InRange := by
  intro t ht
  simp only [Mesh.append, List.length_append]
  obtain ht | ht := List.mem_append.1 ht
  · have hin := hm t ht
    omega
  · obtain ⟨t', ht', rfl⟩ := List.mem_map.1 ht
    have hin := hm' t' ht'
    simp only [IndexTriple.shift]
    omega

/-- Two meshes side by side have the faces of both. -/
theorem triangles_append (hm : m.InRange) :
    (m.append m').triangles = m.triangles ++ m'.triangles := by
  unfold triangles append
  rw [List.filterMap_append, List.filterMap_map]
  congr 1
  · refine List.filterMap_congr fun t ht => ?_
    obtain ⟨hi, hj, hk⟩ := hm t ht
    rw [List.getElem?_append_left hi, List.getElem?_append_left hj, List.getElem?_append_left hk]
  · refine List.filterMap_congr fun t _ => ?_
    simp only [Function.comp_apply, IndexTriple.shift]
    rw [Nat.add_comm t.i, Nat.add_comm t.j, Nat.add_comm t.k]
    simp only [List.getElem?_append_right (Nat.le_add_right _ _), Nat.add_sub_cancel_left]

theorem total_append (w : Point3 α → Point3 α → ℤ) (hm : m.InRange) :
    (m.append m').total w = m.total w + m'.total w := by
  rw [total, sides, triangles_append hm, List.flatMap_append, List.map_append, List.sum_append]
  rfl

@[simp] theorem empty_append (m : Mesh α) : empty.append m = m := by
  have hshift : m.faces.map (IndexTriple.shift 0) = m.faces := List.map_id m.faces
  simp only [append, empty, List.nil_append, List.length_nil, hshift]

@[simp] theorem append_empty (m : Mesh α) : m.append empty = m := by
  simp [append, empty]

theorem append_assoc (a b c : Mesh α) : (a.append b).append c = a.append (b.append c) := by
  simp only [append, List.append_assoc, List.map_append, List.map_map, List.length_append]
  have hshift : IndexTriple.shift a.vertices.length ∘ IndexTriple.shift b.vertices.length =
      IndexTriple.shift (a.vertices.length + b.vertices.length) := by
    funext t
    rw [Function.comp_apply, IndexTriple.shift_shift, Nat.add_comm]
  rw [hshift]

theorem foldl_append (start : Mesh α) (meshes : List (Mesh α)) :
    meshes.foldl append start = start.append (merge meshes) := by
  induction meshes generalizing start with
  | nil => exact start.append_empty.symm
  | cons m rest ih =>
    have hmerge : merge (m :: rest) = m.append (merge rest) := by
      rw [merge, List.foldl_cons, empty_append, ih]
    rw [List.foldl_cons, ih, hmerge, append_assoc]

/-- Meshes are put side by side in any grouping. -/
theorem merge_append (before after : List (Mesh α)) :
    merge (before ++ after) = (merge before).append (merge after) := by
  rw [merge, List.foldl_append, foldl_append]
  rfl

theorem merge_cons (m : Mesh α) (rest : List (Mesh α)) :
    merge (m :: rest) = m.append (merge rest) := by
  rw [merge, List.foldl_cons, foldl_append, empty_append]

theorem length_merge (meshes : List (Mesh α)) :
    (merge meshes).vertices.length = (meshes.map fun m => m.vertices.length).sum := by
  induction meshes with
  | nil => rfl
  | cons m rest ih => rw [merge_cons, append, List.length_append, ih, List.map_cons, List.sum_cons]

theorem inRange_merge {meshes : List (Mesh α)} (hmeshes : ∀ m ∈ meshes, m.InRange) :
    (merge meshes).InRange := by
  induction meshes with
  | nil => exact empty_inRange
  | cons m rest ih =>
    rw [merge_cons]
    exact (hmeshes m List.mem_cons_self).append
      (ih fun m' hm' => hmeshes m' (List.mem_cons_of_mem m hm'))

/-- **Meshes side by side** add up their weights. -/
theorem total_merge (w : Point3 α → Point3 α → ℤ) {meshes : List (Mesh α)}
    (hmeshes : ∀ m ∈ meshes, m.InRange) :
    (merge meshes).total w = (meshes.map (total w)).sum := by
  induction meshes with
  | nil => rfl
  | cons m rest ih =>
    rw [merge_cons, total_append w (hmeshes m List.mem_cons_self),
      ih fun m' hm' => hmeshes m' (List.mem_cons_of_mem m hm'), List.map_cons, List.sum_cons]

/-- A mesh that has another one in it, whose vertices are counted from `offset` on. -/
structure HasPart (whole part : Mesh α) (offset : ℕ) : Prop where
  vertices : ∀ i < part.vertices.length, whole.vertices[i + offset]? = part.vertices[i]?
  faces : ∀ t ∈ part.faces, t.shift offset ∈ whole.faces

/-- **Every one of the meshes** that are put side by side is found in the whole, after the vertices
of those before it. -/
theorem hasPart_merge (before : List (Mesh α)) (m : Mesh α) (after : List (Mesh α)) :
    (merge (before ++ m :: after)).HasPart m (before.map fun m => m.vertices.length).sum := by
  rw [← length_merge, merge_append, merge_cons]
  refine ⟨fun i hi => ?_, fun t ht => ?_⟩
  · simp only [append]
    rw [List.getElem?_append_right (Nat.le_add_left _ _), Nat.add_sub_cancel,
      List.getElem?_append_left hi]
  · refine List.mem_append_right _ (List.mem_map_of_mem ?_)
    exact List.mem_append_left _ ht

/-- **Every face of the whole** is one of the meshes' faces. -/
theorem exists_of_mem_merge {meshes : List (Mesh α)} {t : IndexTriple}
    (ht : t ∈ (merge meshes).faces) : ∃ before m after, meshes = before ++ m :: after ∧
      ∃ t' ∈ m.faces, t = t'.shift (before.map fun m => m.vertices.length).sum := by
  induction meshes generalizing t with
  | nil => cases ht
  | cons m rest ih =>
    rw [merge_cons] at ht
    rcases List.mem_append.1 ht with ht | ht
    · exact ⟨[], m, rest, rfl, t, ht, rfl⟩
    · obtain ⟨s, hs, rfl⟩ := List.mem_map.1 ht
      obtain ⟨before, m', after, rfl, t', ht', rfl⟩ := ih hs
      refine ⟨m :: before, m', after, rfl, t', ht', ?_⟩
      rw [IndexTriple.shift_shift, List.map_cons, List.sum_cons, Nat.add_comm]

end Mesh

end Housewright
