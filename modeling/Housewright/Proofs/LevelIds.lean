import Housewright.Drawing.Plan
import Housewright.Proofs.Binary64.Sums
import Housewright.Proofs.Construction.Placement
import Housewright.Scalar.Binary64

/-!
# One id, one level?

Openings are checked against the last level of the id they name and placed on the first,
and a plan shows a level with the shell of the last level of its id.  This file says when
all of these are one level.

* `House.placed_where_checked_iff`: in an accepted house every opening is placed on the
  level it was checked against if and only if the ids that openings name are not repeated
  and the edges of the openings are not too short to be kept.
* `House.host_longEnough`: an edge that is too short is accepted only for an opening whose
  offset is not a number.
* `own_shell_iff`: a plan shows every level with its own shell if and only if levels of
  one id have equal shells.
-/

namespace Housewright

section Scalars

variable {α : Type} [Scalar α]

/-! ## Openings -/

/-- The opening was placed on the level that it is checked against, and on its own edge. -/
def House.PlacedWhereChecked (h : House α) (o : Opening α) (p : PlacedOpening α) : Prop :=
  p.id = o.id ∧ h.lastLevelIndex? o.levelId = some p.levelIndex ∧
    o.edge.edgeIndex = p.edgeIndex

/-- The edge that an opening is checked against is long enough to be kept. -/
def House.HostLongEnough (h : House α) (o : Opening α) : Prop :=
  ∀ level a b, h.lastLevel? o.levelId = some level →
    level.footprint.edge o.edge.edgeIndex = .ok (a, b) →
    ¬ (Vec.between a b).length ≤ Tolerance.geometry

/-- A placed opening that fits is where it was checked if its id names one level and its
edge is long enough. -/
theorem House.exists_placedWhereChecked_iff {h : House α} {o : Opening α} {tolerance : α}
    {level : Level α} {a b : Point α} {r : Option (PlacedOpening α)}
    (hl : h.lastLevel? o.levelId = some level) (f : o.Fits tolerance level a b)
    (hr : h.placeOpening o = .ok r) :
    (∃ p, r = some p ∧ h.PlacedWhereChecked o p) ↔
      h.NamesOneLevel o.levelId ∧ h.HostLongEnough o := by
  constructor
  · rintro ⟨p, rfl, hp⟩
    obtain ⟨-, hfirst, -⟩ := House.placeOpening_eq_ok_some hr
    have hone : h.NamesOneLevel o.levelId :=
      House.levelIndex?_eq_lastLevelIndex?_iff.1 (hfirst.trans hp.2.1.symm)
    refine ⟨hone, fun level' a' b' hl' he' => ?_⟩
    obtain rfl : level = level' := Option.some_inj.1 (hl.symm.trans hl')
    obtain ⟨rfl, rfl⟩ : a = a' ∧ b = b' := by
      simpa using Except.ok.inj (f.edge.symm.trans he')
    obtain ⟨i, -, -, ⟨-, hnone⟩ | ⟨hlong, -⟩⟩ :=
      House.placeOpening_of_namesOneLevel hl f hone hr
    · cases hnone
    · exact hlong
  · rintro ⟨hone, hlong⟩
    obtain ⟨i, hi, -, ⟨hshort, -⟩ | ⟨-, p, rfl, hp⟩⟩ :=
      House.placeOpening_of_namesOneLevel hl f hone hr
    · exact absurd hshort (hlong level a b hl f.edge)
    · refine ⟨p, rfl, hp.id, hi.trans (congrArg some hp.levelIndex.symm), ?_⟩
      rw [hp.edgeIndex, Int.toNat_of_nonneg f.edge_nonneg]

/-- **In an accepted house every opening is placed where it was checked** if and only if no id
of its openings is repeated and all edges of its openings are long enough. -/
theorem House.placed_where_checked_iff {h : House α} {tolerance : α}
    (hok : h.refusedOpening? tolerance = .ok none) :
    (∃ placed, h.placeOpenings = .ok placed ∧
        List.Forall₂ h.PlacedWhereChecked h.openings placed) ↔
      (∃ placed, h.placeOpenings = .ok placed) ∧
        ∀ o ∈ h.openings, h.NamesOneLevel o.levelId ∧ h.HostLongEnough o := by
  have hfits := House.refusedOpening?_eq_none_iff.1 hok
  constructor
  · rintro ⟨placed, hplaced, hall⟩
    refine ⟨⟨placed, hplaced⟩, fun o ho => ?_⟩
    obtain ⟨found, hfound, rfl⟩ := House.placeOpenings_eq_ok_iff.1 hplaced
    obtain ⟨i, hi⟩ := List.mem_iff_getElem?.1 ho
    obtain ⟨level, a, b, hl, f⟩ := hfits o ho
    obtain ⟨r, hri, hr⟩ := exists_of_forall₂ hfound hi
    obtain ⟨r', hri', hp⟩ :=
      exists_of_forall₂ ((forall₂_filterMap_id_iff hfound.length_eq).1 hall) hi
    obtain rfl : r = r' := Option.some_inj.1 (hri.symm.trans hri')
    exact (House.exists_placedWhereChecked_iff hl f hr).1 hp
  · rintro ⟨⟨placed, hplaced⟩, hcond⟩
    obtain ⟨found, hfound, rfl⟩ := House.placeOpenings_eq_ok_iff.1 hplaced
    refine ⟨_, hplaced, (forall₂_filterMap_id_iff hfound.length_eq).2 ?_⟩
    have hboth := (List.forall₂_and_left _ _).2
      ⟨fun o ho => And.intro (hfits o ho) (hcond o ho), hfound⟩
    refine hboth.imp fun o r => ?_
    rintro ⟨⟨⟨level, a, b, hl, f⟩, hc⟩, hr⟩
    exact (House.exists_placedWhereChecked_iff hl f hr).2 hc

/-! ## Shells -/

/-- A shell carries the id of its level. -/
theorem Level.levelId_of_buildShell {thickness : α} {l : Level α} {w : WallShell α}
    (h : l.buildShell thickness = .ok w) : w.levelId = l.id := by
  simp only [Level.buildShell, bind_eq_ok, pure_eq_ok] at h
  obtain ⟨outer, -, inner, -, rfl⟩ := h
  rfl

/-- **The shell that is drawn** with a level is that of the last level of its id. -/
theorem shellOf?_eq {h : House α} {shells : List (WallShell α)} (hs : h.buildShells = .ok shells)
    (id : String) :
    shellOf? shells id = (h.lastLevelIndex? id).bind fun i => shells[i]? := by
  have hids : shells.map (·.levelId) = h.levels.map (·.id) := by
    have hall := (mapM_eq_ok.1 hs).imp fun l w hw => (Level.levelId_of_buildShell hw).symm
    rw [eq_comm, ← List.forall₂_eq_eq_eq, List.forall₂_map_left_iff, List.forall₂_map_right_iff]
    exact hall
  rw [shellOf?, find?_reverse_eq, ← lastIdx?_map (p := (· == id)), hids, lastIdx?_map]
  rfl

/-- **Every level is drawn with its own shell** if and only if levels of one id have equal
shells. -/
theorem own_shell_iff {h : House α} {shells : List (WallShell α)}
    (hs : h.buildShells = .ok shells) :
    (∀ (i : ℕ) (l : Level α), h.levels[i]? = some l → shellOf? shells l.id = shells[i]?) ↔
      ∀ (i j : ℕ) (l m : Level α), h.levels[i]? = some l → h.levels[j]? = some m → l.id = m.id →
        shells[i]? = shells[j]? := by
  constructor
  · intro hown i j l m hl hm hid
    rw [← hown i l hl, ← hown j m hm, hid]
  · intro hequal i l hl
    obtain ⟨k, hk⟩ : ∃ k, h.lastLevelIndex? l.id = some k := by
      refine Option.ne_none_iff_exists'.1 fun hnone => ?_
      have := lastIdx?_eq_none.1 hnone l (List.mem_of_getElem? hl)
      simp at this
    obtain ⟨⟨m, hm, hid⟩, -⟩ := lastIdx?_eq_some.1 hk
    rw [shellOf?_eq hs, hk, Option.bind_some]
    exact hequal k i m l hm hl (by simpa using hid)

theorem forPlan_eq_ok {β : Type} {c : Computed β} {x : β} : c.forPlan = .ok x ↔ c = .ok x := by
  cases c <;> simp [Computed.forPlan, Except.mapError]

/-- The marks of a plan start with those of the levels, each with the shell found for it. -/
theorem House.plan_eq_ok {h : House α} {options : PlanOptions} {drawing : Drawing α}
    (hp : h.plan options = .ok drawing) :
    ∃ shown shells, h.shownLevels options.levelId = .ok shown ∧ h.buildShells = .ok shells ∧
      (shown.zipIdx.flatMap fun (l, i) => l.marks (.ofLevel i) (shellOf? shells l.id)) <+:
        drawing.marks := by
  simp only [House.plan, bind_eq_ok, pure_eq_ok] at hp
  obtain ⟨shown, hshown, shells, hshells, openings, -, roofs, -, extent, -, rfl⟩ := hp
  refine ⟨shown, shells, hshown, forPlan_eq_ok.1 hshells, ?_⟩
  rw [List.append_assoc]
  exact List.prefix_append _ _

end Scalars

/-! ## Floating-point houses -/

open Binary64

/-- **An edge that is too short to be kept** is accepted only for an opening whose offset is
not a number: every other opening of accepted size ends beyond such an edge. -/
theorem House.host_longEnough {h : House Float} {o : Opening Float}
    (hok : h.refusedOpening? Tolerance.openingFit = .ok none) (ho : o ∈ h.openings)
    (hoffset : o.offset.isNaN = false) : h.HostLongEnough o := by
  intro level a b hl he hshort
  obtain ⟨level', a', b', hl', f⟩ := House.refusedOpening?_eq_none_iff.1 hok o ho
  obtain rfl : level' = level := Option.some_inj.1 (hl'.symm.trans hl)
  obtain ⟨rfl, rfl⟩ : a' = a ∧ b' = b := by
    simpa using Except.ok.inj (f.edge.symm.trans he)
  set length : Float := (Vec.between a' b').length
  have hlow : ∀ {x y : Float}, x ≤ y → -(infinityUnits : ℤ) < units x →
      -(infinityUnits : ℤ) < units y := fun hxy hx =>
    hx.trans_le ((le_iff (isNaN_of_le hxy).1 (isNaN_of_le hxy).2).1 hxy)
  have hfin : ∀ {x : Float}, x.isFinite = true → -(infinityUnits : ℤ) < units x := fun hx =>
    ((isFinite_iff (isNaN_of_isFinite hx)).1 hx).1
  -- the edge ends before the opening does
  have hedge : (1e-6 : Float) ≤ length :=
    (not_lt_iff (isNaN_of_le hshort).1 (by decide +kernel)).1 f.length
  have hwidth : (0.05 : Float) ≤ o.width :=
    (not_lt_iff (isNaN_of_lt f.width_pos).2 (by decide +kernel)).1 f.width
  have hstart : (-1e-6 : Float) ≤ o.offset :=
    (not_lt_iff hoffset (by decide +kernel)).1 f.offset
  have hend : length + 1e-6 ≤ (1e-6 : Float) + 1e-6 :=
    add_le_add hshort (by decide +kernel) (hlow hedge (hfin (by decide +kernel)))
      (hfin (by decide +kernel))
  have hbegin : (-1e-6 : Float) + 0.05 ≤ o.offset + o.width :=
    add_le_add hstart hwidth (hfin (by decide +kernel)) (hfin (by decide +kernel))
  have hfits : o.offset + o.width ≤ length + 1e-6 :=
    (not_lt_iff (isNaN_of_le hend).1 (isNaN_of_le hbegin).2).1 f.finish
  exact absurd (le_trans (le_trans hbegin hfits) hend) (by decide +kernel)

/-- **When an id means one level everywhere.**  In an accepted house whose openings can be
placed, every opening is placed on the level it was checked against if and only if no id
that an opening names is repeated and all host edges are long enough to be kept; they are,
but for openings whose offset is not a number.  A plan shows every level with its own shell
if and only if levels of one id have equal shells. -/
theorem House.ids_agree_iff (h : House Float) :
    (∀ tolerance, h.refusedOpening? tolerance = .ok none →
      ((∃ placed, h.placeOpenings = .ok placed ∧
          List.Forall₂ h.PlacedWhereChecked h.openings placed) ↔
        (∃ placed, h.placeOpenings = .ok placed) ∧
          ∀ o ∈ h.openings, h.NamesOneLevel o.levelId ∧ h.HostLongEnough o)) ∧
    (h.refusedOpening? Tolerance.openingFit = .ok none →
      ∀ o ∈ h.openings, o.offset.isNaN = false → h.HostLongEnough o) ∧
    ∀ options drawing, h.plan options = .ok drawing →
      ∃ shown shells, h.shownLevels options.levelId = .ok shown ∧ h.buildShells = .ok shells ∧
        (shown.zipIdx.flatMap fun (l, i) => l.marks (.ofLevel i) (shellOf? shells l.id)) <+:
          drawing.marks ∧
        ((∀ (i : ℕ) (l : Level Float), h.levels[i]? = some l →
            shellOf? shells l.id = shells[i]?) ↔
          ∀ (i j : ℕ) (l m : Level Float), h.levels[i]? = some l → h.levels[j]? = some m →
            l.id = m.id → shells[i]? = shells[j]?) := by
  refine ⟨fun tolerance hok => House.placed_where_checked_iff hok,
    fun hok o ho hoffset => House.host_longEnough hok ho hoffset, fun options drawing hp => ?_⟩
  obtain ⟨shown, shells, hshown, hshells, hmarks⟩ := House.plan_eq_ok hp
  exact ⟨shown, shells, hshown, hshells, hmarks, own_shell_iff hshells⟩

/-- A house with a door on the fourth edge of the second of two levels with one id; the first
has only three edges. -/
def House.doorOnSecondOfOneId : House Float where
  name := "House"
  wallThickness := 0.3
  elevationConvention := .topOfSlab
  allowGroundSupport := true
  supportGapLevelIds := []
  levels :=
    [⟨"L", 0.0, 3.0, ⟨[⟨0.0, 0.0⟩, ⟨4.0, 0.0⟩, ⟨0.0, 4.0⟩], []⟩, none⟩,
      ⟨"L", 3.0, 3.0, ⟨[⟨0.0, 0.0⟩, ⟨6.0, 0.0⟩, ⟨6.0, 6.0⟩, ⟨0.0, 6.0⟩], []⟩, none⟩]
  roofs := []
  openings := [⟨"door", .door, "L", ⟨3, false, none⟩, 1.0, 1.0, 2.0, 0.0, none⟩]

/-- The door is accepted. -/
theorem House.accepts_doorOnSecondOfOneId :
    House.doorOnSecondOfOneId.refusedOpening? Tolerance.openingFit = .ok none :=
  eq_ok_none (by decide +kernel)

/-- The door is not placed where it was checked, because two levels have the id that it
names. -/
theorem House.door_not_placedWhereChecked :
    ¬ ∃ placed, House.doorOnSecondOfOneId.placeOpenings = .ok placed ∧
      List.Forall₂ House.doorOnSecondOfOneId.PlacedWhereChecked
        House.doorOnSecondOfOneId.openings placed := by
  intro hplaced
  obtain ⟨-, hall⟩ := ((House.ids_agree_iff House.doorOnSecondOfOneId).1 _
    House.accepts_doorOnSecondOfOneId).1 hplaced
  have hone := (hall _ List.mem_cons_self).1
  exact absurd (hone 0 1 _ _ rfl rfl rfl rfl) (by decide)

/-- **An accepted door is lost**: nothing at all is placed. -/
theorem House.doorOnSecondOfOneId_lost :
    House.doorOnSecondOfOneId.refusedOpening? Tolerance.openingFit = .ok none ∧
      House.doorOnSecondOfOneId.openings ≠ [] ∧
      House.doorOnSecondOfOneId.placeOpenings = .ok [] :=
  ⟨House.accepts_doorOnSecondOfOneId, List.cons_ne_nil _ _, rfl⟩

end Housewright
