import Housewright.Planar.Binary64
import Housewright.Proofs.Construction.PlateSides
import Housewright.Proofs.Exact.Halves

/-!
# Plates without open edges

Over a ring that falls into triangles a plate is a closed surface: its top, its bottom seen from
below and two triangles for every wall fit together side by side.  Here sides are compared by the
indices of their ends, so that nothing is said about coordinates.

* `FillsRing` says what is asked of the triangles of a ring, and `FillsRing.borders` that the sides
  which it leaves without a counterpart are the edges of the ring;
* `Mesh.IsPlate` is what a plate is by its vertices and the range of its indices, and
  `buildPlate_isPlate` says that plates are built like that;
* `buildPlate_balanced`: with a wall below every edge each side is passed in both directions
  equally often;
* `House.buildMultiRidgeRoof_eq_ok`: the halves of a multi-ridge roof are such plates;
* `plates_closed` puts these together.
-/

namespace Housewright

/-! ## Triangles that fill a ring -/

/-- Triangles that fill a ring of `n` vertices: every edge of the ring is a side of one of them, in
the direction of the ring, and all other sides are passed in both directions equally often. -/
structure FillsRing (n : ℕ) (triangles : List IndexTriple) : Prop where
  forwards : ∀ e ∈ ringSides n, (triangles.flatMap IndexTriple.sides).count e = 1
  backwards : ∀ e ∈ ringSides n, (triangles.flatMap IndexTriple.sides).count e.swap = 0
  inside : ∀ e ∈ triangles.flatMap IndexTriple.sides, e ∉ ringSides n → e.swap ∉ ringSides n →
    (triangles.flatMap IndexTriple.sides).count e =
      (triangles.flatMap IndexTriple.sides).count e.swap

theorem nodup_ringSides (n : ℕ) : (ringSides n).Nodup :=
  List.nodup_range.map fun _ _ h => congrArg Prod.fst h

namespace FillsRing

variable {n : ℕ} {triangles : List IndexTriple}

/-- What holds of the sides that there are holds of all pairs of indices. -/
theorem count_swap (h : FillsRing n triangles) {e : ℕ × ℕ} (he : e ∉ ringSides n)
    (hswap : e.swap ∉ ringSides n) : (triangles.flatMap IndexTriple.sides).count e =
      (triangles.flatMap IndexTriple.sides).count e.swap := by
  by_cases hmem : e ∈ triangles.flatMap IndexTriple.sides
  · exact h.inside e hmem he hswap
  · by_cases hback : e.swap ∈ triangles.flatMap IndexTriple.sides
    · have hcount := h.inside e.swap hback hswap
      rw [Prod.swap_swap] at hcount
      exact (hcount he).symm
    · rw [List.count_eq_zero_of_not_mem hmem, List.count_eq_zero_of_not_mem hback]

/-- An edge of the ring is not run through backwards. -/
theorem swap_notMem (h : FillsRing n triangles) {e : ℕ × ℕ} (he : e ∈ ringSides n) :
    e.swap ∉ ringSides n := by
  intro hswap
  have hforwards := h.forwards e.swap hswap
  rw [h.backwards e he] at hforwards
  exact zero_ne_one hforwards

/-- With the edges of the ring taken backwards, every side has its counterpart. -/
theorem perm_swap (h : FillsRing n triangles) :
    (triangles.flatMap IndexTriple.sides ++ (ringSides n).map Prod.swap).Perm
      ((triangles.flatMap IndexTriple.sides ++ (ringSides n).map Prod.swap).map Prod.swap) := by
  have hcount (l : List (ℕ × ℕ)) (e : ℕ × ℕ) : (l.map Prod.swap).count e = l.count e.swap := by
    have hmap := List.count_map_of_injective l Prod.swap Prod.swap_injective e.swap
    rwa [Prod.swap_swap] at hmap
  have hone {e : ℕ × ℕ} (he : e ∈ ringSides n) : (ringSides n).count e = 1 :=
    List.count_eq_one_of_mem (nodup_ringSides n) he
  refine List.perm_iff_count.2 fun e => ?_
  rw [hcount, List.count_append, List.count_append, hcount, hcount, Prod.swap_swap]
  by_cases he : e ∈ ringSides n
  · rw [h.forwards e he, h.backwards e he, hone he,
      List.count_eq_zero_of_not_mem (h.swap_notMem he)]
  · by_cases hswap : e.swap ∈ ringSides n
    · have hback := h.backwards e.swap hswap
      rw [Prod.swap_swap] at hback
      rw [h.forwards _ hswap, hback, hone hswap, List.count_eq_zero_of_not_mem he]
    · rw [h.count_swap he hswap, List.count_eq_zero_of_not_mem he,
        List.count_eq_zero_of_not_mem hswap]

/-- **What is left of the sides** of triangles that fill a ring are the edges of the ring. -/
theorem borders (h : FillsRing n triangles) : Borders n triangles := by
  intro w hw
  have hzero := (perm_map_swap_iff _).1 h.perm_swap w hw
  rw [List.map_append, List.sum_append, hw.sum_map_swap, ← IndexTriple.sum_around, ringSides,
    List.map_map] at hzero
  exact add_neg_eq_zero.1 hzero

end FillsRing

/-! ## The surface of a plate -/

/-- The sides of the faces by the indices of their ends. -/
def Mesh.indexSides {α : Type} (m : Mesh α) : List (ℕ × ℕ) := m.faces.flatMap IndexTriple.sides

/-- A mesh whose faces are joined side by side: from `u` to `v` run as many sides as from `v` to
`u`. -/
def Mesh.Balanced {α : Type} (m : Mesh α) : Prop :=
  ∀ u v, m.indexSides.count (u, v) = m.indexSides.count (v, u)

/-- **The faces of a plate** with all its walls are joined side by side. -/
theorem count_sides_plateFaces {n : ℕ} {triangles : List IndexTriple} (h : Borders n triangles)
    {hasWall : ℕ → Bool} (hwalls : ∀ i < n, hasWall i = true) (e : ℕ × ℕ) :
    ((plateFaces n triangles hasWall).flatMap IndexTriple.sides).count e =
      ((plateFaces n triangles hasWall).flatMap IndexTriple.sides).count e.swap := by
  have hzero (w : ℕ → ℕ → ℤ) (hw : Alternates w) :
      (((plateFaces n triangles hasWall).flatMap IndexTriple.sides).map fun e => w e.1 e.2).sum =
        0 := by
    rw [← IndexTriple.sum_around, sum_around_plateFaces h hw]
    refine List.sum_eq_zero fun x hx => ?_
    obtain ⟨i, hi, rfl⟩ := List.mem_map.1 hx
    rw [if_pos (hwalls i (List.mem_range.1 hi))]
  have hexcess := hzero (excess e) (excess_alternates e)
  rw [sum_excess] at hexcess
  omega

/-! ## Plates over rings -/

section Plates

variable {α : Type}

/-- A mesh over a ring: one vertex over each vertex of the ring at the height there, then the same
vertices moved down by the thickness, and faces between them. -/
structure Mesh.IsPlate [Scalar α] (m : Mesh α) (ring : Ring α) (heightAt : Point α → Computed α)
    (thickness : α) : Prop where
  length : m.vertices.length = ring.length + ring.length
  top : ∀ (i : ℕ) (p : Point α), ring[i]? = some p → ∃ z,
    heightAt p = .ok z ∧ m.vertices[i]? = some ⟨p.x, p.y, z⟩
  bottom : ∀ i < ring.length, ∃ v, m.vertices[i]? = some v ∧
    m.vertices[i + ring.length]? = some ⟨v.x, v.y, v.z - thickness⟩
  inRange : m.InRange

/-- The faces of a plate lie between its vertices. -/
theorem plateFaces_lt {n : ℕ} {triangles : List IndexTriple}
    (htriangles : ∀ t ∈ triangles, t.i < n ∧ t.j < n ∧ t.k < n) (hasWall : ℕ → Bool) :
    ∀ t ∈ plateFaces n triangles hasWall, t.i < n + n ∧ t.j < n + n ∧ t.k < n + n := by
  intro t ht
  rcases List.mem_append.1 ht with ht | ht
  · rcases List.mem_append.1 ht with ht | ht
    · have hin := htriangles t ht
      omega
    · obtain ⟨t', ht', rfl⟩ := List.mem_map.1 ht
      have hin := htriangles t' ht'
      simp only [IndexTriple.shift, IndexTriple.turned]
      omega
  · obtain ⟨i, hi, ht⟩ := List.mem_flatMap.1 ht
    have hi := List.mem_range.1 hi
    have hnext : (i + 1) % n < n := Nat.mod_lt _ (by omega)
    split at ht
    · simp only [wallFaces, List.mem_cons, List.not_mem_nil, or_false] at ht
      rcases ht with rfl | rfl
      · dsimp only
        omega
      · dsimp only
        omega
    · cases ht

variable [Scalar α] {kernel : AreaKernel α} {ring : Ring α} {heightAt : Point α → Computed α}
  {thickness : α} {isOpen : Point α → Point α → Bool} {m : Mesh α}

/-- What a plate is built of. -/
theorem buildPlate_parts (h : buildPlate kernel ring heightAt thickness isOpen = .ok m) :
    ∃ top triangles,
      List.Forall₂ (fun p v => ∃ z, heightAt p = .ok z ∧ v = (⟨p.x, p.y, z⟩ : Point3 α))
        ring.counterClockwise top ∧
      ring.counterClockwise.triangulate kernel = .ok triangles ∧
      m = ⟨top ++ top.map fun v => { v with z := v.z - thickness },
        plateFaces ring.length triangles fun i => !ring.counterClockwise.edgeIsOpen isOpen i⟩ := by
  obtain ⟨top, htop, h⟩ := bind_eq_ok.1 h
  obtain ⟨triangles, htriangles, h⟩ := bind_eq_ok.1 h
  refine ⟨top, triangles, (mapM_eq_ok.1 htop).imp fun p v hv => ?_, htriangles, ?_⟩
  · obtain ⟨z, hz, hv⟩ := bind_eq_ok.1 hv
    exact ⟨z, hz, (pure_eq_ok.1 hv).symm⟩
  · rw [← ring.length_counterClockwise]
    exact (pure_eq_ok.1 h).symm

/-- **A plate that is built** lies over the ring run counter-clockwise. -/
theorem buildPlate_isPlate (h : buildPlate kernel ring heightAt thickness isOpen = .ok m) :
    m.IsPlate ring.counterClockwise heightAt thickness := by
  obtain ⟨top, triangles, htop, htriangles, rfl⟩ := buildPlate_parts h
  have hlength : ring.counterClockwise.length = top.length := htop.length_eq
  refine ⟨?_, ?_, ?_, ?_⟩
  · simp [hlength]
  · intro i p hp
    obtain ⟨v, hv, z, hz, rfl⟩ := exists_of_forall₂ htop hp
    refine ⟨z, hz, ?_⟩
    rw [List.getElem?_append_left (List.getElem?_eq_some_iff.1 hv).1, hv]
  · intro i hi
    have hi : i < top.length := hlength ▸ hi
    refine ⟨top[i], ?_, ?_⟩
    · rw [List.getElem?_append_left hi, List.getElem?_eq_getElem hi]
    · rw [hlength, List.getElem?_append_right (Nat.le_add_left _ _), Nat.add_sub_cancel,
        List.getElem?_map, List.getElem?_eq_getElem hi]
      rfl
  · have hin := plateFaces_lt (Ring.inRange_of_triangulate htriangles)
      fun i => !ring.counterClockwise.edgeIsOpen isOpen i
    intro t ht
    rw [ring.length_counterClockwise] at hin hlength
    simpa [← hlength] using hin t ht

/-- **A plate without open edges** over a ring that is filled is joined side by side. -/
theorem buildPlate_balanced (h : buildPlate kernel ring heightAt thickness isOpen = .ok m)
    (hclosed : ∀ e ∈ ring.counterClockwise.edges, isOpen e.1 e.2 = false)
    {triangles : List IndexTriple}
    (htriangles : ring.counterClockwise.triangulate kernel = .ok triangles)
    (hfill : FillsRing ring.length triangles) : m.Balanced := by
  obtain ⟨top, triangles', -, htriangles', rfl⟩ := buildPlate_parts h
  obtain rfl : triangles' = triangles := Except.ok.inj (htriangles'.symm.trans htriangles)
  intro u v
  refine count_sides_plateFaces hfill.borders (fun i _ => ?_) (u, v)
  unfold Ring.edgeIsOpen
  split
  case h_1 p q he => rw [hclosed _ (List.mem_of_getElem? he), Bool.not_false]
  case h_2 => rfl

/-- A plate is built wherever its heights are found and its ring falls into triangles. -/
theorem exists_buildPlate (hheight : ∀ p ∈ ring, ∃ z, heightAt p = .ok z)
    {triangles : List IndexTriple}
    (htriangles : ring.counterClockwise.triangulate kernel = .ok triangles) (thickness : α)
    (isOpen : Point α → Point α → Bool) :
    ∃ m, buildPlate kernel ring heightAt thickness isOpen = .ok m := by
  have htop : ∃ top, (ring.counterClockwise.mapM fun p => do
      return (⟨p.x, p.y, ← heightAt p⟩ : Point3 α)) = .ok top := by
    refine exists_mapM_eq_ok fun p hp => ?_
    exact exists_bind_eq_ok (hheight p (Ring.mem_counterClockwise.1 hp)) fun z => ⟨_, rfl⟩
  exact exists_bind_eq_ok htop fun top => exists_bind_eq_ok ⟨_, htriangles⟩ fun _ => ⟨_, rfl⟩

/-! ## The halves of a multi-ridge roof -/

/-- A half of a roof that is split at a ridge: a plate over what is left of the outline on one side
of the split, and joined side by side if that ring is filled. -/
def MultiRidgeRoof.IsHalf (kernel : AreaKernel α) (r : MultiRidgeRoof α) (ridge : Ridge α)
    (base : α) (outline : Ring α) (keep : Side) (m : Mesh α) : Prop :=
  ∃ half : Ring α, outline.clip (splitSide ridge.start.x keep) Tolerance.geometry = .ok half ∧
    3 ≤ half.length ∧
    m.IsPlate half.counterClockwise
      (SplitSlope.heightAt ⟨ridge.start.x, half.reachFrom ridge.start.x, base + ridge.height,
        ridge.height - r.eaveHeight⟩) r.thickness ∧
    ∀ triangles, half.counterClockwise.triangulate kernel = .ok triangles →
      FillsRing half.length triangles → m.Balanced

theorem MultiRidgeRoof.isHalf_of_buildHalf {r : MultiRidgeRoof α} {ridge : Ridge α} {base : α}
    {outline : Ring α} {keep : Side}
    (h : r.buildHalf kernel ridge base outline keep = .ok (some m)) :
    r.IsHalf kernel ridge base outline keep m := by
  obtain ⟨half, hhalf, h⟩ := bind_eq_ok.1 h
  split_ifs at h with hsmall
  · cases pure_eq_ok.1 h
  · obtain ⟨plate, hplate, h⟩ := bind_eq_ok.1 h
    obtain rfl := Option.some_inj.1 (pure_eq_ok.1 h)
    have hlength : 3 ≤ half.length := not_lt.1 fun hlt => hsmall (.inl hlt)
    exact ⟨half, hhalf, hlength, buildPlate_isPlate hplate, fun triangles htriangles hfill =>
      buildPlate_balanced hplate (fun _ _ => rfl) htriangles hfill⟩

/-- A multi-ridge roof is built from its two halves. -/
theorem House.buildMultiRidgeRoof_eq_ok_iff {h : House α} {r : MultiRidgeRoof α}
    {built : BuiltRoof α} :
    h.buildMultiRidgeRoof kernel r = .ok built ↔
      ∃ (level : Level α) (ridge : Ridge α) (rest : List (Ridge α)) (outline : Ring α)
        (west east : Option (Mesh α)), h.baseLevel (.multiRidge r) = .ok level ∧
        r.ridges = ridge :: rest ∧
        level.roofOutline kernel r.overhang = .ok outline ∧
        r.buildHalf kernel ridge level.elevation outline .right = .ok west ∧
        r.buildHalf kernel ridge level.elevation outline .left = .ok east ∧
        built = .multiRidge r.id ridge.start.x west east := by
  constructor
  · intro hbuilt
    obtain ⟨level, hlevel, hbuilt⟩ := bind_eq_ok.1 hbuilt
    cases hridges : r.ridges with
    | nil =>
      rw [hridges] at hbuilt
      cases hbuilt
    | cons ridge rest =>
      rw [hridges] at hbuilt
      obtain ⟨outline, houtline, hbuilt⟩ := bind_eq_ok.1 hbuilt
      obtain ⟨west, hwest, hbuilt⟩ := bind_eq_ok.1 hbuilt
      obtain ⟨east, heast, hbuilt⟩ := bind_eq_ok.1 hbuilt
      exact ⟨level, ridge, rest, outline, west, east, hlevel, rfl, houtline,
        mapError_eq_ok.1 hwest, mapError_eq_ok.1 heast, (pure_eq_ok.1 hbuilt).symm⟩
  · rintro ⟨level, ridge, rest, outline, west, east, hlevel, hridges, houtline, hwest, heast, rfl⟩
    refine bind_eq_ok.2 ⟨level, hlevel, ?_⟩
    rw [hridges]
    refine bind_eq_ok.2 ⟨outline, houtline, bind_eq_ok.2 ⟨west, mapError_eq_ok.2 hwest, ?_⟩⟩
    exact bind_eq_ok.2 ⟨east, mapError_eq_ok.2 heast, rfl⟩

/-- **The two halves** of a multi-ridge roof are plates on either side of its first ridge. -/
theorem House.buildMultiRidgeRoof_eq_ok {h : House α} {r : MultiRidgeRoof α} {built : BuiltRoof α}
    (hbuilt : h.buildMultiRidgeRoof kernel r = .ok built) :
    ∃ (level : Level α) (ridge : Ridge α) (rest : List (Ridge α)) (outline : Ring α)
      (west east : Option (Mesh α)), h.baseLevel (.multiRidge r) = .ok level ∧
      r.ridges = ridge :: rest ∧
      level.roofOutline kernel r.overhang = .ok outline ∧
      built = .multiRidge r.id ridge.start.x west east ∧
      (∀ m ∈ west, r.IsHalf kernel ridge level.elevation outline .right m) ∧
      ∀ m ∈ east, r.IsHalf kernel ridge level.elevation outline .left m := by
  obtain ⟨level, ridge, rest, outline, west, east, hlevel, hridges, houtline, hwest, heast,
    hbuilt⟩ := House.buildMultiRidgeRoof_eq_ok_iff.1 hbuilt
  refine ⟨level, ridge, rest, outline, west, east, hlevel, hridges, houtline, hbuilt, ?_, ?_⟩
  · rintro m rfl
    exact r.isHalf_of_buildHalf hwest
  · rintro m rfl
    exact r.isHalf_of_buildHalf heast

end Plates

/-! ## All plates -/

/-- **Plates without open edges are closed surfaces**, in one piece or put side by side.  Over a
ring whose triangles fill it, in either direction and at any heights, a plate is built, and from
vertex to vertex as many sides run in one direction as in the other; so it is for both halves of a
multi-ridge roof.  Meshes that are put side by side keep to their own vertices. -/
theorem plates_closed {α : Type} [Scalar α] (kernel : AreaKernel α) :
    (∀ (ring : Ring α) (heightAt : Point α → Computed α) (thickness : α)
      (isOpen : Point α → Point α → Bool) (triangles : List IndexTriple),
      (∀ p ∈ ring, ∃ z, heightAt p = .ok z) →
      (∀ e ∈ ring.counterClockwise.edges, isOpen e.1 e.2 = false) →
      ring.counterClockwise.triangulate kernel = .ok triangles → FillsRing ring.length triangles →
      ∃ m, buildPlate kernel ring heightAt thickness isOpen = .ok m ∧
        m.IsPlate ring.counterClockwise heightAt thickness ∧ m.Balanced) ∧
    (∀ (h : House α) (r : MultiRidgeRoof α) (built : BuiltRoof α),
      h.buildMultiRidgeRoof kernel r = .ok built →
      ∃ (level : Level α) (ridge : Ridge α) (rest : List (Ridge α)) (outline : Ring α)
        (west east : Option (Mesh α)), h.baseLevel (.multiRidge r) = .ok level ∧
        r.ridges = ridge :: rest ∧
        level.roofOutline kernel r.overhang = .ok outline ∧
        built = .multiRidge r.id ridge.start.x west east ∧
        (∀ m ∈ west, r.IsHalf kernel ridge level.elevation outline .right m) ∧
        ∀ m ∈ east, r.IsHalf kernel ridge level.elevation outline .left m) ∧
    ∀ meshes : List (Mesh α), (∀ m ∈ meshes, m.InRange) →
      (Mesh.merge meshes).InRange ∧
      (∀ before m after, meshes = before ++ m :: after →
        (Mesh.merge meshes).HasPart m (before.map fun m => m.vertices.length).sum) ∧
      ∀ t ∈ (Mesh.merge meshes).faces, ∃ before m after, meshes = before ++ m :: after ∧
        ∃ t' ∈ m.faces, t = t'.shift (before.map fun m => m.vertices.length).sum := by
  refine ⟨?_, fun h r built => House.buildMultiRidgeRoof_eq_ok, ?_⟩
  · intro ring heightAt thickness isOpen triangles hheight hclosed htriangles hfill
    obtain ⟨m, hm⟩ := exists_buildPlate hheight htriangles thickness isOpen
    exact ⟨m, hm, buildPlate_isPlate hm, buildPlate_balanced hm hclosed htriangles hfill⟩
  · intro meshes hmeshes
    refine ⟨Mesh.inRange_merge hmeshes, ?_, fun t => Mesh.exists_of_mem_merge⟩
    rintro before m after rfl
    exact Mesh.hasPart_merge before m after

/-- A kernel for convex rings: it leaves them as they are and joins their first vertex to all the
others. -/
def AreaKernel.spokes : AreaKernel Float where
  repair r := .ok r
  difference a _ := .ok [⟨a, []⟩]
  triangles r := .ok ((r.tail.zip r.tail.tail).map fun e => ⟨r.headD ⟨0.0, 0.0⟩, e.1, e.2⟩)

/-- A ridge over the middle of a rectangle of eight by six. -/
def Ridge.middle : Ridge Float := ⟨"ridge", ⟨4.0, 0.0⟩, ⟨4.0, 6.0⟩, 5.0, false, false⟩

/-- A roof that is split at it. -/
def MultiRidgeRoof.halved : MultiRidgeRoof Float := ⟨"roof", "ground", 3.0, 0.25, 0.5, [.middle]⟩

/-- The level below it. -/
def Level.rectangle : Level Float :=
  ⟨"ground", 0.0, 2.8, ⟨[⟨0.0, 0.0⟩, ⟨8.0, 0.0⟩, ⟨8.0, 6.0⟩, ⟨0.0, 6.0⟩], []⟩, some ⟨0.3, 0.0⟩⟩

/-- Its footprint, run the other way round. -/
def Ring.clockwiseRectangle : Ring Float := Level.rectangle.footprint.outer.reverse

/-- The house below it. -/
def House.halved : House Float where
  name := "House"
  wallThickness := 0.3
  elevationConvention := .topOfSlab
  allowGroundSupport := true
  supportGapLevelIds := []
  levels := [.rectangle]
  roofs := [.multiRidge .halved]
  openings := []

/-- Whether a roof that is split has a plate on both sides. -/
def BuiltRoof.hasBothHalves : BuiltRoof Float → Bool
  | .multiRidge _ _ west east => west.isSome && east.isSome
  | _ => false

theorem FillsRing.quadrangle : FillsRing 4 [⟨0, 1, 2⟩, ⟨0, 2, 3⟩] :=
  ⟨by decide, by decide, by decide⟩

/-- What a half of the roof is over. -/
theorem halved_fills (keep : Side) {outline half : Ring Float}
    (houtline : Level.rectangle.roofOutline .spokes MultiRidgeRoof.halved.overhang = .ok outline)
    (hhalf : outline.clip (splitSide Ridge.middle.start.x keep) Tolerance.geometry = .ok half) :
    half.length = 4 ∧
      half.counterClockwise.triangulate .spokes = .ok [⟨0, 1, 2⟩, ⟨0, 2, 3⟩] := by
  have hrun : ((do
      let outline ← Level.rectangle.roofOutline .spokes MultiRidgeRoof.halved.overhang
      let half ← (outline.clip (splitSide Ridge.middle.start.x keep) Tolerance.geometry).forRoof
      let triangles ← (half.counterClockwise.triangulate .spokes).forRoof
      return (half.length, triangles) : RoofResult (ℕ × List IndexTriple)).toOption.any
        fun p => p.1 = 4 && decide (p.2 = [⟨0, 1, 2⟩, ⟨0, 2, 3⟩])) = true := by
    cases keep <;> decide +kernel
  obtain ⟨p, hp, hcheck⟩ := exists_eq_ok_of_any hrun
  obtain ⟨outline', houtline', hp⟩ := bind_eq_ok.1 hp
  obtain rfl := Except.ok.inj (houtline.symm.trans houtline')
  obtain ⟨half', hhalf', hp⟩ := bind_eq_ok.1 hp
  obtain rfl := Except.ok.inj (hhalf.symm.trans (mapError_eq_ok.1 hhalf'))
  obtain ⟨triangles, htriangles, hp⟩ := bind_eq_ok.1 hp
  obtain rfl := pure_eq_ok.1 hp
  simp only [Bool.and_eq_true, decide_eq_true_eq] at hcheck
  obtain ⟨hlength, rfl⟩ := hcheck
  exact ⟨hlength, mapError_eq_ok.1 htriangles⟩

/-- A rectangle that is run clockwise, and the two halves of a roof over one. -/
theorem rectangle_plates_closed :
    (∃ m, buildPlate .spokes .clockwiseRectangle (fun p => .ok p.x) 0.25 (fun _ _ => false) =
        .ok m ∧ m.Balanced) ∧
    ∃ west east : Mesh Float,
      House.halved.buildMultiRidgeRoof .spokes .halved =
        .ok (.multiRidge "roof" 4.0 (some west) (some east)) ∧
      west.Balanced ∧ east.Balanced ∧ (Mesh.merge [west, east]).InRange ∧
      (Mesh.merge [west, east]).HasPart east west.vertices.length := by
  obtain ⟨hplate, hroof, hmerge⟩ := plates_closed AreaKernel.spokes
  refine ⟨?_, ?_⟩
  · obtain ⟨triangles, htriangles, hcheck⟩ := exists_eq_ok_of_any
      (x := Ring.clockwiseRectangle.counterClockwise.triangulate .spokes)
      (p := fun triangles => decide (triangles = [⟨0, 1, 2⟩, ⟨0, 2, 3⟩])) (by decide +kernel)
    obtain rfl := of_decide_eq_true hcheck
    obtain ⟨m, hm, -, hbalanced⟩ := hplate _ (fun p => .ok p.x) 0.25 (fun _ _ => false) _
      (fun p _ => ⟨_, rfl⟩) (fun _ _ => rfl) htriangles .quadrangle
    exact ⟨m, hm, hbalanced⟩
  · obtain ⟨built, hbuilt, hboth⟩ := exists_eq_ok_of_any
      (x := House.halved.buildMultiRidgeRoof .spokes .halved)
      (p := BuiltRoof.hasBothHalves) (by decide +kernel)
    obtain ⟨level, ridge, rest, outline, west, east, hlevel, hridges, houtline, rfl, hwest,
      heast⟩ := hroof _ _ _ hbuilt
    obtain rfl : Level.rectangle = level := Except.ok.inj hlevel
    obtain rfl : Ridge.middle = ridge := (List.cons.inj hridges).1
    have hhalf {keep : Side} {m : Mesh Float}
        (hm : MultiRidgeRoof.halved.IsHalf .spokes .middle Level.rectangle.elevation outline keep
          m) : m.Balanced ∧ m.InRange := by
      obtain ⟨half, hhalf, -, hplate, hbalanced⟩ := hm
      obtain ⟨hlength, htriangles⟩ := halved_fills keep houtline hhalf
      exact ⟨hbalanced _ htriangles (hlength ▸ .quadrangle), hplate.inRange⟩
    obtain ⟨hsome, hsome'⟩ := Bool.and_eq_true_iff.1 hboth
    obtain ⟨west, rfl⟩ := Option.isSome_iff_exists.1 hsome
    obtain ⟨east, rfl⟩ := Option.isSome_iff_exists.1 hsome'
    have hwest := hhalf (hwest west rfl)
    have heast := hhalf (heast east rfl)
    obtain ⟨hin, hpart, -⟩ := hmerge [west, east] (by
      intro m hm
      rcases List.mem_pair.1 hm with rfl | rfl
      · exact hwest.2
      · exact heast.2)
    exact ⟨west, east, hbuilt, hwest.1, heast.1, hin, hpart [west] east [] rfl⟩

end Housewright
