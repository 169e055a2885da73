import Housewright.Construction.Facade
import Housewright.Proofs.Steps
import Mathlib.Data.List.Nodup

/-!
# Which panels a house gets

A panel stands on an edge of a level and has the openings placed on that edge.

* `FacadePanel.IsPanelOf` is what a panel has to do with its level and with the openings.
* `Level.buildPanels_eq_ok`, `House.buildPanels_eq_ok`: every panel that is built is one of
  its level and edge, no edge has two, and every edge that is long enough has one.
-/

namespace Housewright

variable {α : Type}

/-! ## Edges by their indices -/

theorem Footprint.vertex_eq_ok {f : Footprint α} {i : ℕ} {p : Point α} :
    f.vertex i = .ok p ↔ f.outer[i]? = some p := by
  have h0 : ¬ (i : Int) < 0 := by omega
  simp only [vertex, if_neg h0, Int.toNat_natCast]
  cases f.outer[i]? with
  | none => simp
  | some q => simp

/-- An edge leads from a vertex to the next one, around to the first. -/
theorem Ring.getElem?_edges_iff {r : Ring α} {i : ℕ} {p q : Point α} :
    r.edges[i]? = some (p, q) ↔ r[i]? = some p ∧ r[(i + 1) % r.length]? = some q := by
  cases r with
  | nil => simp [Ring.edges]
  | cons v rest =>
    rw [Ring.edges, List.getElem?_zip_eq_some]
    refine and_congr_right fun hp => ?_
    have hi : i < rest.length + 1 := (List.getElem?_eq_some_iff.1 hp).1
    by_cases hlast : i < rest.length
    · rw [List.getElem?_append_left hlast, List.length_cons, Nat.mod_eq_of_lt (by omega),
        List.getElem?_cons_succ]
    · obtain rfl : i = rest.length := by omega
      rw [List.length_cons, Nat.mod_self]
      simp

/-- The edge that starts at an index is the entry of `edges` there. -/
theorem Footprint.edge_eq_ok_iff {f : Footprint α} {i : ℕ} {a b : Point α} :
    f.edge i = .ok (a, b) ↔ (Ring.edges f.outer)[i]? = some (a, b) := by
  have hnext : ((i : Int) + 1) % f.outer.length = ((i + 1) % f.outer.length : ℕ) := by
    push_cast
    rfl
  simp only [edge, bind_eq_ok, pure_eq_ok, hnext, vertex_eq_ok, Prod.mk.injEq,
    Ring.getElem?_edges_iff]
  constructor
  · rintro ⟨a, ha, b, hb, rfl, rfl⟩
    exact ⟨ha, hb⟩
  · rintro ⟨ha, hb⟩
    exact ⟨a, ha, b, hb, rfl, rfl⟩

/-! ## The panels of a level -/

variable [Scalar α]

/-- The openings that are placed on an edge of a level. -/
def openingsOn (placed : List (PlacedOpening α)) (levelIndex edgeIndex : ℕ) :
    List (PlacedOpening α) :=
  placed.filter fun o => o.levelIndex = levelIndex && o.edgeIndex = edgeIndex

/-- What a panel has to do with its level and with the openings placed on its edge. -/
structure FacadePanel.IsPanelOf (p : FacadePanel α) (l : Level α) (levelIndex : ℕ)
    (placed : List (PlacedOpening α)) : Prop where
  index : p.levelIndex = levelIndex
  edge : ∃ a b, (Ring.edges l.footprint.outer)[p.edgeIndex]? = some (a, b) ∧
    p.width = (Vec.between a b).length
  height : p.height = l.height
  outline : p.outline =
    ⟨-(p.width / 2.0), -(p.height / 2.0), p.width / 2.0, p.height / 2.0⟩
  holes : p.holes =
    (openingsOn placed levelIndex p.edgeIndex).filterMap (·.hole? p.width p.height)
  openingIds : p.openingIds = (openingsOn placed levelIndex p.edgeIndex).map (·.id)

/-- A panel is as wide as its edge is long. -/
theorem FacadePanel.IsPanelOf.width_eq {p : FacadePanel α} {l : Level α} {levelIndex : ℕ}
    {placed : List (PlacedOpening α)} {a b : Point α} (hp : p.IsPanelOf l levelIndex placed)
    (he : (Ring.edges l.footprint.outer)[p.edgeIndex]? = some (a, b)) :
    p.width = (Vec.between a b).length := by
  obtain ⟨a', b', he', hwidth⟩ := hp.edge
  obtain ⟨rfl, rfl⟩ := Prod.mk.inj (Option.some_inj.1 (he.symm.trans he'))
  exact hwidth

/-- A panel is built on an edge that is long enough. -/
theorem Level.buildPanel_eq_ok {thickness : α} {levelIndex edgeIndex : ℕ} {l : Level α}
    {a b : Point α} {placed : List (PlacedOpening α)} {r : Option (FacadePanel α)}
    (he : (Ring.edges l.footprint.outer)[edgeIndex]? = some (a, b))
    (h : l.buildPanel thickness levelIndex edgeIndex a b
      (openingsOn placed levelIndex edgeIndex) = .ok r) :
    (Vec.between a b).length < Tolerance.holeSize ∧ r = none ∨
      ∃ p, r = some p ∧ p.edgeIndex = edgeIndex ∧ p.IsPanelOf l levelIndex placed := by
  unfold Level.buildPanel at h
  simp only at h
  split_ifs at h with hshort
  · exact .inl ⟨hshort, (pure_eq_ok.1 h).symm⟩
  · obtain ⟨tangent, -, h⟩ := bind_eq_ok.1 h
    right
    split at h
    all_goals
      simp only [bind_eq_ok, pure_eq_ok] at h
      obtain ⟨outward, -, rfl⟩ := h
      exact ⟨_, rfl, rfl, rfl, ⟨a, b, he, rfl⟩, rfl, rfl, rfl, rfl⟩

/-- **The panels of a level**: each is one of its edge, no edge has two, and every edge that is
long enough has one. -/
theorem Level.buildPanels_eq_ok {thickness : α} {levelIndex : ℕ} {l : Level α}
    {placed : List (PlacedOpening α)} {panels : List (FacadePanel α)}
    (h : l.buildPanels thickness placed levelIndex = .ok panels) :
    (panels.map (·.edgeIndex)).Nodup ∧ (∀ p ∈ panels, p.IsPanelOf l levelIndex placed) ∧
      (2 ≤ l.footprint.outer.length → ∀ (e : ℕ) (a b : Point α),
        (Ring.edges l.footprint.outer)[e]? = some (a, b) →
        ¬ (Vec.between a b).length < Tolerance.holeSize → ∃ p ∈ panels, p.edgeIndex = e) := by
  unfold Level.buildPanels at h
  split_ifs at h with hfew
  · obtain rfl := pure_eq_ok.1 h
    exact ⟨List.nodup_nil, by simp, fun hlen => absurd hfew (by omega)⟩
  · simp only [bind_eq_ok, pure_eq_ok] at h
    obtain ⟨found, hfound, rfl⟩ := h
    have hspec := ((List.forall₂_and_left _ _).2
      ⟨fun x hx => List.mem_zipIdx_iff_getElem?.1 hx, mapM_eq_ok.1 hfound⟩).imp
        fun x r hr => Level.buildPanel_eq_ok hr.1 hr.2
    refine ⟨?_, fun p hp => ?_, fun _ e a b he hlong => ?_⟩
    · have hsub := sublist_of_forall₂ (f := Prod.snd) (g := fun p : FacadePanel α => p.edgeIndex)
        (hspec.imp fun x r hr => ?_)
      · refine hsub.nodup ?_
        rw [List.zipIdx_map_snd]
        exact List.nodup_range' _
      · rintro p rfl
        obtain ⟨-, hnone⟩ | ⟨p', hp', hindex, -⟩ := hr
        · cases hnone
        · obtain rfl := Option.some_inj.1 hp'
          exact hindex
    · obtain ⟨r, hr, hrp⟩ := List.mem_filterMap.1 hp
      obtain rfl : r = some p := hrp
      obtain ⟨x, -, ⟨-, hnone⟩ | ⟨p', hp', -, hpanel⟩⟩ := exists_of_forall₂_right hspec hr
      · cases hnone
      · obtain rfl := Option.some_inj.1 hp'
        exact hpanel
    · obtain ⟨r, hr, ⟨hshort, -⟩ | ⟨p, rfl, hindex, -⟩⟩ := exists_of_forall₂ hspec (i := e)
        (x := ((a, b), e)) (by simp [List.getElem?_zipIdx, he])
      · exact absurd hshort hlong
      · exact ⟨p, List.mem_filterMap.2 ⟨some p, List.mem_of_getElem? hr, rfl⟩, hindex⟩

/-! ## The panels of a house -/

/-- The level and the edge that a panel stands on. -/
def FacadePanel.key (p : FacadePanel α) : ℕ × ℕ := (p.levelIndex, p.edgeIndex)

omit [Scalar α] in
/-- Panels of different levels, none of which has two on one edge, are on different edges. -/
theorem nodup_key_flatten {xs : List (Level α × ℕ)} {found : List (List (FacadePanel α))}
    (h : List.Forall₂ (fun x panels => (∀ p ∈ panels, p.levelIndex = x.2) ∧
      (panels.map (·.edgeIndex)).Nodup) xs found) (hxs : (xs.map (·.2)).Nodup) :
    (found.flatten.map FacadePanel.key).Nodup := by
  induction h with
  | nil => exact List.nodup_nil
  | @cons x panels xs found hx hrest ih =>
    rw [List.map_cons, List.nodup_cons] at hxs
    rw [List.flatten_cons, List.map_append, List.nodup_append]
    refine ⟨?_, ih hxs.2, ?_⟩
    · refine List.Nodup.of_map Prod.snd ?_
      rw [List.map_map]
      exact hx.2
    · rintro k hk k' hk' rfl
      obtain ⟨p, hp, rfl⟩ := List.mem_map.1 hk
      obtain ⟨q, hq, hkey⟩ := List.mem_map.1 hk'
      obtain ⟨ps, hps, hqps⟩ := List.mem_flatten.1 hq
      obtain ⟨y, hy, hspec, -⟩ := exists_of_forall₂_right hrest hps
      refine hxs.1 (List.mem_map.2 ⟨y, hy, ?_⟩)
      rw [← hspec q hqps, ← hx.1 p hp]
      exact congrArg Prod.fst hkey

/-- **The panels of a house**: each is one of its level and edge, no edge has two, and every
edge that is long enough has one. -/
theorem House.buildPanels_eq_ok {h : House α} {thickness : α} {placed : List (PlacedOpening α)}
    {panels : List (FacadePanel α)} (hb : h.buildPanels placed thickness = .ok panels) :
    (panels.map FacadePanel.key).Nodup ∧
      (∀ p ∈ panels, ∃ l, h.levels[p.levelIndex]? = some l ∧
        p.IsPanelOf l p.levelIndex placed) ∧
      ∀ (i e : ℕ) (l : Level α) (a b : Point α), h.levels[i]? = some l →
        2 ≤ l.footprint.outer.length → (Ring.edges l.footprint.outer)[e]? = some (a, b) →
        ¬ (Vec.between a b).length < Tolerance.holeSize → ∃ p ∈ panels, p.key = (i, e) := by
  simp only [House.buildPanels, bind_eq_ok, pure_eq_ok] at hb
  obtain ⟨found, hfound, rfl⟩ := hb
  have hspec := ((List.forall₂_and_left _ _).2
    ⟨fun x hx => List.mem_zipIdx_iff_getElem?.1 hx, mapM_eq_ok.1 hfound⟩).imp
      fun x panels hr => And.intro hr.1 (Level.buildPanels_eq_ok hr.2)
  refine ⟨?_, fun p hp => ?_, fun i e l a b hl hlen he hlong => ?_⟩
  · refine nodup_key_flatten (hspec.imp fun x panels hr =>
      ⟨fun p hp => (hr.2.2.1 p hp).index, hr.2.1⟩) ?_
    rw [List.zipIdx_map_snd]
    exact List.nodup_range' _
  · obtain ⟨ps, hps, hp⟩ := List.mem_flatten.1 hp
    obtain ⟨x, -, hx, -, hpanels, -⟩ := exists_of_forall₂_right hspec hps
    have hpanel := hpanels p hp
    refine ⟨x.1, ?_, ?_⟩ <;> rw [hpanel.index]
    · exact hx
    · exact hpanel
  · obtain ⟨ps, hps, -, -, hpanels, hexists⟩ := exists_of_forall₂ hspec (i := i) (x := (l, i))
      (by simp [List.getElem?_zipIdx, hl])
    obtain ⟨p, hp, hedge⟩ := hexists hlen e a b he hlong
    refine ⟨p, List.mem_flatten.2 ⟨ps, List.mem_of_getElem? hps, hp⟩, ?_⟩
    rw [FacadePanel.key, (hpanels p hp).index, hedge]

end Housewright
