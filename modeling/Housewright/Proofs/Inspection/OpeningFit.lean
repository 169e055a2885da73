import Housewright.Inspection.Openings
import Housewright.Proofs.Steps

/-!
# What an accepted opening promises

An opening is accepted on a level if it `Fits` there: its edge exists, and every rule on
its size and its place holds.  `refusedOpening?_eq_none_iff` says that a house without a
refused opening is one whose openings all fit the last level of their id, and
`firstRefused?_eq_some_iff` which opening is refused otherwise.
-/

namespace Housewright

variable {α : Type} [Scalar α]

/-- What an opening keeps that is accepted on the edge from `a` to `b` of a level. -/
structure Opening.Fits (tolerance : α) (level : Level α) (o : Opening α) (a b : Point α) : Prop where
  edge_nonneg : 0 ≤ o.edge.edgeIndex
  edge_lt : o.edge.edgeIndex < level.footprint.outer.length
  edge : level.footprint.edge o.edge.edgeIndex = .ok (a, b)
  width_pos : 0.0 < o.width
  height_pos : 0.0 < o.height
  width : ¬ o.width < Tolerance.openingSize
  height : ¬ o.height < Tolerance.openingSize
  sill : ¬ o.sillHeight < -tolerance
  top : ¬ level.height + tolerance < o.sillHeight + o.height
  length : ¬ (Vec.between a b).length < tolerance
  offset : ¬ o.offset < -tolerance
  finish : ¬ (Vec.between a b).length + tolerance < o.offset + o.width

theorem Opening.sizeFault?_eq_none_iff {tolerance levelHeight : α} {o : Opening α} :
    o.sizeFault? tolerance levelHeight = none ↔
      (0.0 < o.width ∧ 0.0 < o.height) ∧
        (¬ o.width < Tolerance.openingSize ∧ ¬ o.height < Tolerance.openingSize) ∧
        ¬ o.sillHeight < -tolerance ∧ ¬ levelHeight + tolerance < o.sillHeight + o.height := by
  unfold Opening.sizeFault?
  rw [← not_or]
  split_ifs with hpos hsmall hsill htop <;> simp only [*] <;> tauto

theorem Opening.placeFault?_eq_none_iff {tolerance length : α} {o : Opening α} :
    o.placeFault? tolerance length = none ↔
      ¬ length < tolerance ∧ ¬ o.offset < -tolerance ∧
        ¬ length + tolerance < o.offset + o.width := by
  unfold Opening.placeFault?
  split_ifs with hlength hoffset hend <;> simp [*]

/-- **An opening is accepted if it fits** the level that was found for it. -/
theorem Opening.fault?_eq_ok_none_iff {tolerance : α} {level? : Option (Level α)} {o : Opening α} :
    o.fault? tolerance level? = .ok none ↔
      ∃ level a b, level? = some level ∧ o.Fits tolerance level a b := by
  unfold Opening.fault?
  cases level? with
  | none => simp
  | some level =>
    simp only [Option.some_inj]
    constructor
    · intro h
      split_ifs at h with hempty hedge
      · cases h
      · cases h
      cases hsize : o.sizeFault? tolerance level.height with
      | some fault =>
        rw [hsize] at h
        cases h
      | none =>
        simp only [hsize, bind_eq_ok, pure_eq_ok] at h
        obtain ⟨⟨a, b⟩, hab, hplace⟩ := h
        obtain ⟨hpos, hsmall, hheight⟩ := Opening.sizeFault?_eq_none_iff.1 hsize
        obtain ⟨hlength, hoffset, hend⟩ := Opening.placeFault?_eq_none_iff.1 hplace
        exact ⟨level, a, b, rfl, by omega, by omega, hab, hpos.1, hpos.2, hsmall.1, hsmall.2,
          hheight.1, hheight.2, hlength, hoffset, hend⟩
    · rintro ⟨_, a, b, rfl, f⟩
      have hsize : o.sizeFault? tolerance level.height = none :=
        Opening.sizeFault?_eq_none_iff.2
          ⟨⟨f.width_pos, f.height_pos⟩, ⟨f.width, f.height⟩, f.sill, f.top⟩
      have hplace : o.placeFault? tolerance (Vec.between a b).length = none :=
        Opening.placeFault?_eq_none_iff.2 ⟨f.length, f.offset, f.finish⟩
      have h0 := f.edge_nonneg
      have h1 := f.edge_lt
      rw [if_neg (by omega), if_neg (by omega), hsize]
      simp only [bind_eq_ok, pure_eq_ok]
      exact ⟨(a, b), f.edge, hplace⟩

theorem firstRefused?_eq_none_iff {tolerance : α} {levelOf : String → Option (Level α)}
    {openings : List (Opening α)} :
    firstRefused? tolerance levelOf openings = .ok none ↔
      ∀ o ∈ openings, o.fault? tolerance (levelOf o.levelId) = .ok none := by
  induction openings with
  | nil => simp [firstRefused?]
  | cons o rest ih =>
    rw [firstRefused?, List.forall_mem_cons, ← ih, bind_eq_ok]
    constructor
    · rintro ⟨fault, hfault, hrest⟩
      cases fault with
      | none => exact ⟨hfault, hrest⟩
      | some f => cases hrest
    · rintro ⟨hfault, hrest⟩
      exact ⟨none, hfault, hrest⟩

/-- **The first opening with a fault is refused**, after openings without one. -/
theorem firstRefused?_eq_some_iff {tolerance : α} {levelOf : String → Option (Level α)}
    {openings : List (Opening α)} {r : RefusedOpening α} :
    firstRefused? tolerance levelOf openings = .ok (some r) ↔
      ∃ before o after fault, openings = before ++ o :: after ∧
        (∀ p ∈ before, p.fault? tolerance (levelOf p.levelId) = .ok none) ∧
        o.fault? tolerance (levelOf o.levelId) = .ok (some fault) ∧ r = ⟨o.id, fault⟩ := by
  induction openings with
  | nil => simp [firstRefused?]
  | cons o rest ih =>
    rw [firstRefused?, bind_eq_ok]
    constructor
    · rintro ⟨found, hfound, hrest⟩
      cases found with
      | some fault =>
        refine ⟨[], o, rest, fault, rfl, by simp, hfound, ?_⟩
        exact (Option.some_inj.1 (pure_eq_ok.1 hrest)).symm
      | none =>
        obtain ⟨before, o', after, fault, rfl, hbefore, ho', rfl⟩ := ih.1 hrest
        exact ⟨o :: before, o', after, fault, rfl, List.forall_mem_cons.2 ⟨hfound, hbefore⟩, ho',
          rfl⟩
    · rintro ⟨before, o', after, fault, hsplit, hbefore, ho', rfl⟩
      cases before with
      | nil =>
        obtain ⟨rfl, rfl⟩ := List.cons_eq_cons.1 hsplit
        exact ⟨some fault, ho', rfl⟩
      | cons first before =>
        obtain ⟨rfl, rfl⟩ := List.cons_eq_cons.1 hsplit
        obtain ⟨hfirst, hbefore⟩ := List.forall_mem_cons.1 hbefore
        exact ⟨none, hfirst, ih.2 ⟨before, o', after, fault, rfl, hbefore, ho', rfl⟩⟩

/-- **A house has no refused opening** if each fits the last level of the id it names. -/
theorem House.refusedOpening?_eq_none_iff {h : House α} {tolerance : α} :
    h.refusedOpening? tolerance = .ok none ↔ ∀ o ∈ h.openings, ∃ level a b,
      h.lastLevel? o.levelId = some level ∧ o.Fits tolerance level a b := by
  simp only [House.refusedOpening?, firstRefused?_eq_none_iff, Opening.fault?_eq_ok_none_iff]

end Housewright
