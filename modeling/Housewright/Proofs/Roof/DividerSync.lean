import Mathlib.Logic.Relation
import Housewright.Proofs.Binary64.Equality
import Housewright.Proofs.Roof.PlanEffect
import Housewright.Scalar.Binary64

/-!
# Dividers that stay on their ridges

A roof is in sync if every written-out divider of a ridge-side face that names a ridge of the
roof lies on that ridge (`MultiPlaneRoof.InSync`).  Ridges are moved, and a plan is made and
carried out: is the roof in sync again?

* `RoofFace.recorded_followAll`: what a plan does to the dividers that name their ridge;
* `MultiPlaneRoof.SoundEdit.liesOn_iff`: afterwards a divider lies on its ridge unless the ridge
  was moved and the face that holds the divider belongs to another ridge;
* `MultiPlaneRoof.sync_after_edits`: so the roof is in sync again if and only if no moved ridge
  is named in a face of another ridge, and this carries over to any number of edits.

Points are compared as numbers: both zeros are one number, and not-a-number is none.
-/

namespace Housewright

variable {α : Type}

/-! ## Dividers that name their ridge -/

/-- A divider that was written out and names its ridge. -/
structure RecordedDivider (α : Type) where
  ridgeId : String
  plane : HalfPlane α

/-- The divider put on a ridge, if it names the ridge. -/
def RecordedDivider.follow (r : Ridge α) (d : RecordedDivider α) : RecordedDivider α :=
  if d.ridgeId = r.id then { d with plane := ⟨r.start, r.finish, d.plane.keep⟩ } else d

@[simp] theorem RecordedDivider.ridgeId_follow (r : Ridge α) (d : RecordedDivider α) :
    (d.follow r).ridgeId = d.ridgeId := by
  unfold follow
  split <;> rfl

/-- The divider that an item is, if it names its ridge. -/
def RegionItem.recorded? : RegionItem α → Option (RecordedDivider α)
  | .materialized plane (some ridgeId) => some ⟨ridgeId, plane⟩
  | _ => none

/-- The dividers of a ridge-side face that name their ridge. -/
def RoofFace.recorded (f : RoofFace α) : List (RecordedDivider α) :=
  match f.kind, f.region with
  | .ridgeSide, .compound items => items.filterMap RegionItem.recorded?
  | _, _ => []

/-- An item and the divider that it is follow a ridge together. -/
theorem RegionItem.recorded?_follow (r : Ridge α) (item : RegionItem α) :
    (item.follow r).recorded? = item.recorded?.map (·.follow r) := by
  cases item with
  | explicit plane => rfl
  | divider ridgeId keep => rfl
  | perpCut ridgeId t keep => rfl
  | materialized plane ridgeId =>
    cases ridgeId with
    | none => rfl
    | some id =>
      by_cases h : id = r.id
      · simp [RegionItem.follow, RegionItem.follows, RegionItem.onLine, RegionItem.recorded?,
          RecordedDivider.follow, h]
      · simp [RegionItem.follow, RegionItem.follows, RegionItem.recorded?,
          RecordedDivider.follow, h]

/-- The dividers of a face follow the ridge that the face belongs to. -/
theorem RoofFace.recorded_follow (r : Ridge α) (f : RoofFace α) :
    (f.follow r).recorded =
      if f.ridgeId = some r.id then f.recorded.map (·.follow r) else f.recorded := by
  unfold RoofFace.follow RoofFace.recorded
  cases hkind : f.kind with
  | hipCap => simp [hkind]
  | ridgeSide =>
    cases hregion : f.region with
    | halfPlanes planes => simp [hregion]
    | ridgeCap ridgeId cap => simp [hregion]
    | compound items =>
      by_cases hridge : f.ridgeId = some r.id
      · have hitems : (items.map (·.follow r)).filterMap RegionItem.recorded? =
            (items.filterMap RegionItem.recorded?).map (·.follow r) := by
          rw [List.filterMap_map, List.map_filterMap]
          exact List.filterMap_congr fun item _ => item.recorded?_follow r
        simp [hridge, hitems]
      · simp [hridge, hkind, hregion]

@[simp] theorem RoofFace.ridgeId_follow (r : Ridge α) (f : RoofFace α) :
    (f.follow r).ridgeId = f.ridgeId := by
  obtain ⟨-, h⟩ | ⟨items, -, -, -, -, h⟩ := f.follow_cases r <;> rw [h]

@[simp] theorem RoofFace.ridgeId_followAll (ridges : List (Ridge α)) (f : RoofFace α) :
    (f.followAll ridges).ridgeId = f.ridgeId := by
  induction ridges generalizing f with
  | nil => rfl
  | cons r rest ih => exact (ih (f.follow r)).trans (f.ridgeId_follow r)

/-- The divider after its face, which belongs to the ridge `own`, followed some ridges. -/
def RecordedDivider.followOwn (own : Option String) (ridges : List (Ridge α))
    (d : RecordedDivider α) : RecordedDivider α :=
  (ridges.filter fun r => own = some r.id).foldl (fun d r => d.follow r) d

@[simp] theorem RecordedDivider.ridgeId_followOwn (own : Option String) (ridges : List (Ridge α))
    (d : RecordedDivider α) : (d.followOwn own ridges).ridgeId = d.ridgeId := by
  rw [followOwn]
  induction ridges.filter fun r => own = some r.id generalizing d with
  | nil => rfl
  | cons r rest ih => exact (ih (d.follow r)).trans (d.ridgeId_follow r)

/-- **The dividers of a face follow** those of some ridges that the face belongs to. -/
theorem RoofFace.recorded_followAll (ridges : List (Ridge α)) (f : RoofFace α) :
    (f.followAll ridges).recorded = f.recorded.map (·.followOwn f.ridgeId ridges) := by
  induction ridges generalizing f with
  | nil => exact f.recorded.map_id.symm
  | cons r rest ih =>
    have ih := ih (f.follow r)
    rw [f.recorded_follow, f.ridgeId_follow] at ih
    rw [RoofFace.followAll, List.foldl_cons]
    refine ih.trans ?_
    unfold RecordedDivider.followOwn
    by_cases h : f.ridgeId = some r.id
    · rw [if_pos h, List.filter_cons_of_pos (by simp [h]), List.map_map]
      rfl
    · rw [if_neg h, List.filter_cons_of_neg (by simp [h])]

/-- Ridges that a divider does not name leave it alone. -/
theorem RecordedDivider.foldl_follow_of_ne {ridges : List (Ridge α)} {d : RecordedDivider α}
    (h : ∀ r ∈ ridges, r.id ≠ d.ridgeId) : ridges.foldl (fun d r => d.follow r) d = d := by
  induction ridges with
  | nil => rfl
  | cons r rest ih =>
    have hr : d.follow r = d := if_neg (h r List.mem_cons_self).symm
    rw [List.foldl_cons, hr]
    exact ih fun s hs => h s (List.mem_cons_of_mem r hs)

/-- Of ridges with distinct ids, a divider follows the one that it names. -/
theorem RecordedDivider.foldl_follow_of_mem {ridges : List (Ridge α)} {d : RecordedDivider α}
    {r : Ridge α} (hids : (ridges.map (·.id)).Nodup) (hr : r ∈ ridges) (hid : r.id = d.ridgeId) :
    ridges.foldl (fun d r => d.follow r) d = d.follow r := by
  obtain ⟨before, later, rfl⟩ := List.append_of_mem hr
  rw [List.map_append, List.map_cons, List.nodup_middle, List.nodup_cons, List.mem_append,
    not_or] at hids
  have hother {others : List (Ridge α)} (h : r.id ∉ others.map (·.id)) :
      ∀ s ∈ others, s.id ≠ d.ridgeId := by
    intro s hs hsd
    exact h (List.mem_map.2 ⟨s, hs, hsd.trans hid.symm⟩)
  rw [List.foldl_append, List.foldl_cons, foldl_follow_of_ne (hother hids.1.1),
    foldl_follow_of_ne]
  intro s hs
  rw [ridgeId_follow]
  exact hother hids.1.2 s hs

/-! ## Edits -/

/-- A ridge with other end points. -/
def Ridge.SameButEnds (before after : Ridge α) : Prop :=
  after = { before with start := after.start, finish := after.finish }

/-- The roof with other end points of its ridges. -/
structure MultiPlaneRoof.RidgesMoved (before after : MultiPlaneRoof α) : Prop where
  rest : after = { before with ridges := after.ridges }
  ridges : List.Forall₂ Ridge.SameButEnds before.ridges after.ridges

namespace MultiPlaneRoof

theorem RidgesMoved.faces {before after : MultiPlaneRoof α} (h : before.RidgesMoved after) :
    after.faces = before.faces := by
  rw [h.rest]

theorem RidgesMoved.ids {before after : MultiPlaneRoof α} (h : before.RidgesMoved after) :
    after.ridges.map (·.id) = before.ridges.map (·.id) := by
  refine map_eq_map_of_forall₂ (h.ridges.imp fun r s hrs => ?_)
  rw [hrs]

theorem id_of_ridge? {roof : MultiPlaneRoof α} {id : String} {r : Ridge α}
    (h : roof.ridge? id = some r) : r.id = id :=
  (of_find?_key_eq_some h).2

/-- A ridge of a roof is found by its id, or another one with that id is. -/
theorem exists_ridge?_of_mem {roof : MultiPlaneRoof α} {r : Ridge α} (hr : r ∈ roof.ridges) :
    ∃ first, roof.ridge? r.id = some first :=
  exists_find?_key_of_mem _ hr

/-- Among distinct ids, the ridge with an id is the one that is found. -/
theorem ridge?_eq_some_iff {roof : MultiPlaneRoof α} (hids : (roof.ridges.map (·.id)).Nodup)
    {id : String} {r : Ridge α} : roof.ridge? id = some r ↔ r ∈ roof.ridges ∧ r.id = id :=
  find?_key_eq_some_iff hids

/-- A ridge that is there after an edit was there before. -/
theorem RidgesMoved.exists_ridge? {before after : MultiPlaneRoof α} (h : before.RidgesMoved after)
    (hids : (before.ridges.map (·.id)).Nodup) {r : Ridge α} (hr : r ∈ after.ridges) :
    ∃ s, before.ridge? r.id = some s := by
  obtain ⟨s, hs, hsr⟩ := exists_of_forall₂_right h.ridges hr
  have hid : s.id = r.id := by rw [hsr]
  exact ⟨s, (ridge?_eq_some_iff hids).2 ⟨hs, hid⟩⟩

/-- A divider of the ridge stands in a ridge-side face that does not belong to the ridge. -/
def NamedElsewhere (roof : MultiPlaneRoof α) (r : Ridge α) : Prop :=
  ∃ f ∈ roof.faces, f.ridgeId ≠ some r.id ∧ ∃ d ∈ f.recorded, d.ridgeId = r.id

instance (roof : MultiPlaneRoof α) (r : Ridge α) : Decidable (roof.NamedElsewhere r) :=
  inferInstanceAs (Decidable (∃ f ∈ roof.faces, _ ∧ ∃ d ∈ f.recorded, _))

end MultiPlaneRoof

/-! ## In sync -/

section Scalars

variable [Scalar α]

/-- Whether the line of a divider is that of a ridge. -/
def RecordedDivider.liesOn (d : RecordedDivider α) (r : Ridge α) : Bool :=
  d.plane.a == r.start && d.plane.b == r.finish

/-- Every written-out divider of a ridge-side face that names a ridge of the roof lies on it. -/
def MultiPlaneRoof.InSync (roof : MultiPlaneRoof α) : Prop :=
  ∀ f ∈ roof.faces, ∀ d ∈ f.recorded, (roof.ridge? d.ridgeId).all d.liesOn = true

instance (roof : MultiPlaneRoof α) : Decidable roof.InSync :=
  inferInstanceAs (Decidable (∀ f ∈ roof.faces, ∀ d ∈ f.recorded, _))

/-- Points are equal if their coordinates are. -/
theorem Point.beq_iff {p q : Point α} :
    (p == q) = true ↔ (p.x == q.x) = true ∧ (p.y == q.y) = true := by
  show (p.x == q.x && p.y == q.y) = true ↔ _
  exact Bool.and_eq_true_iff

instance [PartialEquivBEq α] : PartialEquivBEq (Point α) where
  symm h := by
    obtain ⟨hx, hy⟩ := Point.beq_iff.1 h
    exact Point.beq_iff.2 ⟨PartialEquivBEq.symm hx, PartialEquivBEq.symm hy⟩
  trans h h' := by
    obtain ⟨hx, hy⟩ := Point.beq_iff.1 h
    obtain ⟨hx', hy'⟩ := Point.beq_iff.1 h'
    exact Point.beq_iff.2 ⟨PartialEquivBEq.trans hx hx', PartialEquivBEq.trans hy hy'⟩

/-- A ridge was not moved if its ends are where they were. -/
theorem Ridge.movedFrom_eq_false_iff {before after : Ridge α} :
    before.movedFrom after = false ↔
      (before.start == after.start) = true ∧ (before.finish == after.finish) = true := by
  rw [Ridge.movedFrom, Bool.not_eq_false', Bool.and_eq_true_iff]

/-- A divider that lay on a ridge before lies on it afterwards if the ridge was not moved. -/
theorem RecordedDivider.liesOn_iff_of_liesOn [PartialEquivBEq α] {d : RecordedDivider α}
    {before after : Ridge α} (h : d.liesOn before = true) :
    d.liesOn after = true ↔ before.movedFrom after = false := by
  rw [RecordedDivider.liesOn, Bool.and_eq_true_iff] at h
  rw [RecordedDivider.liesOn, Bool.and_eq_true_iff, Ridge.movedFrom_eq_false_iff]
  obtain ⟨ha, hb⟩ := h
  constructor
  · rintro ⟨ha', hb'⟩
    exact ⟨PartialEquivBEq.trans (PartialEquivBEq.symm ha) ha',
      PartialEquivBEq.trans (PartialEquivBEq.symm hb) hb'⟩
  · rintro ⟨hs, hf⟩
    exact ⟨PartialEquivBEq.trans ha hs, PartialEquivBEq.trans hb hf⟩

/-- An edit of a roof in sync, after which all moved ridges can carry their dividers. -/
structure MultiPlaneRoof.SoundEdit (before after : MultiPlaneRoof α) : Prop where
  ridgeIds : (before.ridges.map (·.id)).Nodup
  faceIds : (before.faces.map (·.id)).Nodup
  inSync : before.InSync
  moved : before.RidgesMoved after
  carries : ∀ r ∈ after.ridges, r.movedSince before = true → r.carriesDividers before = true
  /-- The ends of moved ridges are numbers. -/
  ends : ∀ r ∈ after.ridges, r.movedSince before = true →
    (r.start == r.start) = true ∧ (r.finish == r.finish) = true

namespace MultiPlaneRoof

variable [PartialEquivBEq α] {before after : MultiPlaneRoof α} {plan : SyncPlan α}

/-- What becomes of a divider that names a ridge: it lies on the ridge unless the ridge was
moved and the face of the divider belongs to another one. -/
theorem SoundEdit.liesOn_iff (h : before.SoundEdit after) {f : RoofFace α}
    (hf : f ∈ after.faces) {d : RecordedDivider α} (hd : d ∈ f.recorded) {r : Ridge α}
    (hr : after.ridge? d.ridgeId = some r) :
    (d.followOwn f.ridgeId (after.ridges.filter (·.carriesDividers before))).liesOn r = true ↔
      (r.movedSince before = true → f.ridgeId = some r.id) := by
  have hridges : (after.ridges.map (·.id)).Nodup := by
    rw [h.moved.ids]
    exact h.ridgeIds
  obtain ⟨hmem, hid⟩ := (ridge?_eq_some_iff hridges).1 hr
  obtain ⟨s, hs⟩ := h.moved.exists_ridge? h.ridgeIds hmem
  have hbefore : d.liesOn s = true := by
    have hall := h.inSync f (h.moved.faces ▸ hf) d hd
    rw [← hid, hs] at hall
    exact hall
  have hsince : r.movedSince before = s.movedFrom r := by
    rw [Ridge.movedSince, hs]
    rfl
  by_cases hcarried : r.movedSince before = true ∧ f.ridgeId = some r.id
  · -- the divider was put on the ridge
    obtain ⟨hmoved, hown⟩ := hcarried
    have hfollow : d.followOwn f.ridgeId (after.ridges.filter (·.carriesDividers before)) =
        d.follow r := by
      refine RecordedDivider.foldl_follow_of_mem ?_ ?_ hid
      · exact hridges.sublist ((List.filter_sublist.trans List.filter_sublist).map _)
      · have hcarries := List.mem_filter.2 ⟨hmem, h.carries r hmem hmoved⟩
        exact List.mem_filter.2 ⟨hcarries, by simpa using hown⟩
    obtain ⟨hstart, hfinish⟩ := h.ends r hmem hmoved
    have hlies : (d.follow r).liesOn r = true := by
      rw [RecordedDivider.follow, if_pos hid.symm, RecordedDivider.liesOn, Bool.and_eq_true_iff]
      exact ⟨hstart, hfinish⟩
    rw [hfollow]
    exact ⟨fun _ _ => hown, fun _ => hlies⟩
  · -- the divider stayed where it was
    have hstay : d.followOwn f.ridgeId (after.ridges.filter (·.carriesDividers before)) = d := by
      refine RecordedDivider.foldl_follow_of_ne fun t ht htd => hcarried ?_
      obtain ⟨ht, hown⟩ := List.mem_filter.1 ht
      obtain ⟨ht, hcarries⟩ := List.mem_filter.1 ht
      obtain rfl := List.inj_on_of_nodup_map hridges ht hmem (htd.trans hid.symm)
      rw [Ridge.carriesDividers, Bool.and_eq_true_iff] at hcarries
      exact ⟨hcarries.1, by simpa using hown⟩
    rw [hstay, RecordedDivider.liesOn_iff_of_liesOn hbefore, ← hsince, ← Bool.not_eq_true]
    exact ⟨fun hn hm => absurd hm hn, fun himp hm => hcarried ⟨hm, himp hm⟩⟩

omit [PartialEquivBEq α] in
/-- The dividers of a roof after a plan was carried out. -/
theorem forall_recorded_applyTo (hplan : before.planSync after = .ok plan)
    (hids : (after.faces.map (·.id)).Nodup) {P : Option String → RecordedDivider α → Prop} :
    (∀ f ∈ (plan.applyTo after).faces, ∀ d ∈ f.recorded, P f.ridgeId d) ↔
      ∀ f ∈ after.faces, ∀ d ∈ f.recorded,
        P f.ridgeId (d.followOwn f.ridgeId (after.ridges.filter (·.carriesDividers before))) := by
  rw [applyTo_planSync hplan hids]
  simp only [List.forall_mem_map, RoofFace.recorded_followAll, RoofFace.ridgeId_followAll]

/-- **Every divider that names the ridge its face belongs to** lies on that ridge after a plan
was carried out. -/
theorem SoundEdit.own_liesOn (h : before.SoundEdit after)
    (hplan : before.planSync after = .ok plan) :
    ∀ f ∈ (plan.applyTo after).faces, ∀ d ∈ f.recorded, f.ridgeId = some d.ridgeId →
      (after.ridge? d.ridgeId).all d.liesOn = true := by
  rw [forall_recorded_applyTo (P := fun own d => own = some d.ridgeId →
    (after.ridge? d.ridgeId).all d.liesOn = true) hplan (h.moved.faces ▸ h.faceIds)]
  intro f hf d hd hown
  rw [RecordedDivider.ridgeId_followOwn] at hown ⊢
  cases hr : after.ridge? d.ridgeId with
  | none => rfl
  | some r =>
    have hid := id_of_ridge? hr
    exact (h.liesOn_iff hf hd hr).2 fun _ => hown.trans (congrArg some hid.symm)

/-- **A roof is in sync again after an edit** if and only if no moved ridge is named in a face
that belongs to another one. -/
theorem SoundEdit.inSync_applyTo_iff (h : before.SoundEdit after)
    (hplan : before.planSync after = .ok plan) :
    (plan.applyTo after).InSync ↔
      ∀ r ∈ after.ridges, r.movedSince before = true → ¬ after.NamedElsewhere r := by
  have hridges : (after.ridges.map (·.id)).Nodup := by
    rw [h.moved.ids]
    exact h.ridgeIds
  have hfaces := forall_recorded_applyTo (P := fun _ d =>
    (after.ridge? d.ridgeId).all d.liesOn = true) hplan (h.moved.faces ▸ h.faceIds)
  refine hfaces.trans ⟨?_, ?_⟩
  · rintro hlies r hr hmoved ⟨f, hf, hown, d, hd, hid⟩
    have hfound : after.ridge? d.ridgeId = some r := (ridge?_eq_some_iff hridges).2 ⟨hr, hid.symm⟩
    have hd' := hlies f hf d hd
    rw [RecordedDivider.ridgeId_followOwn, hfound] at hd'
    exact hown ((h.liesOn_iff hf hd hfound).1 hd' hmoved)
  · intro hnamed f hf d hd
    rw [RecordedDivider.ridgeId_followOwn]
    cases hfound : after.ridge? d.ridgeId with
    | none => rfl
    | some r =>
      obtain ⟨hr, hid⟩ := (ridge?_eq_some_iff hridges).1 hfound
      refine (h.liesOn_iff hf hd hfound).2 fun hmoved => ?_
      by_contra hown
      exact hnamed r hr hmoved ⟨f, hf, hown, d, hd, hid.symm⟩

end MultiPlaneRoof

theorem square_eq_ok {x s : α} (h : Scalar.square x = .ok s) : s = x * x := by
  unfold Scalar.square at h
  simp only at h
  split at h
  · cases h
  · exact (Except.ok.inj h).symm

end Scalars

/-! ## Floating-point roofs -/

open Binary64

/-- A distance that is a number is one between points whose coordinates are numbers. -/
theorem Point.isNaN_of_distance {p q : Point Float} {d : Float} (h : p.distance q = .ok d)
    (hd : d.isNaN = false) :
    (p.x.isNaN = false ∧ q.x.isNaN = false) ∧ p.y.isNaN = false ∧ q.y.isNaN = false := by
  simp only [Point.distance, bind_eq_ok, pure_eq_ok] at h
  obtain ⟨sx, hx, sy, hy, rfl⟩ := h
  obtain rfl := square_eq_ok hx
  obtain rfl := square_eq_ok hy
  obtain ⟨hsx, hsy⟩ := isNaN_of_add (isNaN_of_sqrt hd)
  exact ⟨isNaN_of_sub (isNaN_of_mul_self hsx), isNaN_of_sub (isNaN_of_mul_self hsy)⟩

theorem Point.beq_self {p : Point Float} (hx : p.x.isNaN = false) (hy : p.y.isNaN = false) :
    (p == p) = true :=
  Point.beq_iff.2 ⟨beq_self_iff.2 hx, beq_self_iff.2 hy⟩

namespace MultiPlaneRoof

/-- All ridges that were moved have a length, and a length above zero. -/
def LongWhereMoved (before after : MultiPlaneRoof Float) : Prop :=
  ∀ r ∈ after.ridges, r.movedSince before = true →
    ∃ length, r.length = .ok length ∧ Tolerance.geometry < length

/-- Ridges with a length can carry their dividers. -/
theorem soundEdit_of_longWhereMoved {before after : MultiPlaneRoof Float} (hsync : before.InSync)
    (hridges : (before.ridges.map (·.id)).Nodup) (hfaces : (before.faces.map (·.id)).Nodup)
    (hmoved : before.RidgesMoved after) (hlong : before.LongWhereMoved after) :
    before.SoundEdit after where
  ridgeIds := hridges
  faceIds := hfaces
  inSync := hsync
  moved := hmoved
  carries r hr hm := by
    obtain ⟨length, hlength, hlt⟩ := hlong r hr hm
    have hnot : ¬ length ≤ Tolerance.geometry := fun hle => not_lt_of_le hle hlt
    rw [Ridge.carriesDividers, hm, hlength]
    show (!decide (length ≤ Tolerance.geometry)) = true
    simpa using hnot
  ends r hr hm := by
    obtain ⟨length, hlength, hlt⟩ := hlong r hr hm
    obtain ⟨⟨hsx, hfx⟩, hsy, hfy⟩ := Point.isNaN_of_distance hlength (isNaN_of_lt hlt).2
    exact ⟨Point.beq_self hsx hsy, Point.beq_self hfx hfy⟩

/-- There is a plan for ridges that have a length. -/
theorem exists_planSync {before after : MultiPlaneRoof Float}
    (hlong : before.LongWhereMoved after) : ∃ plan, before.planSync after = .ok plan := by
  refine exists_syncRidges fun r hr hm => ?_
  obtain ⟨length, hlength, -⟩ := hlong r hr hm
  exact ⟨length, hlength⟩

/-- What is left of a roof when an edit moved ridges that are named only in their own faces,
and the plan for the edit was carried out. -/
def SyncedEdit (before later : MultiPlaneRoof Float) : Prop :=
  ∃ after plan, before.RidgesMoved after ∧ before.LongWhereMoved after ∧
    (∀ r ∈ after.ridges, r.movedSince before = true → ¬ after.NamedElsewhere r) ∧
    before.planSync after = .ok plan ∧ later = plan.applyTo after

/-- In sync, with distinct ids of ridges and of faces. -/
structure CleanSync (roof : MultiPlaneRoof Float) : Prop where
  inSync : roof.InSync
  ridgeIds : (roof.ridges.map (·.id)).Nodup
  faceIds : (roof.faces.map (·.id)).Nodup

/-- One edit with its plan keeps a roof in sync and ids distinct. -/
theorem CleanSync.step {before later : MultiPlaneRoof Float} (h : before.CleanSync)
    (hedit : before.SyncedEdit later) : later.CleanSync := by
  obtain ⟨after, plan, hmoved, hlong, hnamed, hplan, rfl⟩ := hedit
  have hsound := soundEdit_of_longWhereMoved h.inSync h.ridgeIds h.faceIds hmoved hlong
  refine ⟨(hsound.inSync_applyTo_iff hplan).2 hnamed, ?_, ?_⟩
  · show (after.ridges.map (·.id)).Nodup
    rw [hmoved.ids]
    exact h.ridgeIds
  · have hids : (after.faces.map (·.id)).Nodup := hmoved.faces ▸ h.faceIds
    rw [applyTo_planSync hplan hids, List.map_map]
    simpa only [Function.comp_def, RoofFace.id_followAll] using hids

/-- Any number of edits, each followed by its plan, keep a roof in sync and ids distinct. -/
theorem CleanSync.run {before later : MultiPlaneRoof Float} (h : before.CleanSync)
    (hedits : Relation.ReflTransGen SyncedEdit before later) : later.CleanSync := by
  induction hedits with
  | refl => exact h
  | tail _ hedit ih => exact ih.step hedit

/-- **Edits and dividers.**  In a roof in sync, with distinct ids of ridges and of faces, let
ridges be moved to lines with a length.  Then there is a plan; once it is carried out, every
divider that names the ridge its face belongs to lies on that ridge, and the roof is in sync
again if and only if no moved ridge is named in a face of another ridge.  So any number of
edits that move only ridges named in their own faces, each followed by its plan, keep the roof
in sync. -/
theorem sync_after_edits :
    (∀ before after : MultiPlaneRoof Float, before.InSync →
      (before.ridges.map (·.id)).Nodup → (before.faces.map (·.id)).Nodup →
      before.RidgesMoved after → before.LongWhereMoved after →
      ∃ plan, before.planSync after = .ok plan ∧
        (∀ f ∈ (plan.applyTo after).faces, ∀ d ∈ f.recorded, f.ridgeId = some d.ridgeId →
          (after.ridge? d.ridgeId).all d.liesOn = true) ∧
        ((plan.applyTo after).InSync ↔
          ∀ r ∈ after.ridges, r.movedSince before = true → ¬ after.NamedElsewhere r)) ∧
    ∀ before later : MultiPlaneRoof Float, before.InSync →
      (before.ridges.map (·.id)).Nodup → (before.faces.map (·.id)).Nodup →
      Relation.ReflTransGen SyncedEdit before later → later.InSync := by
  constructor
  · intro before after hsync hridges hfaces hmoved hlong
    obtain ⟨plan, hplan⟩ := exists_planSync hlong
    have hsound := soundEdit_of_longWhereMoved hsync hridges hfaces hmoved hlong
    exact ⟨plan, hplan, hsound.own_liesOn hplan, hsound.inSync_applyTo_iff hplan⟩
  · intro before later hsync hridges hfaces hedits
    exact (CleanSync.run ⟨hsync, hridges, hfaces⟩ hedits).inSync

/-- A roof with two ridges.  Its only face belongs to the main ridge and is bounded by the
dividers of both. -/
def valley (mainFinish sideFinish : Point Float) : MultiPlaneRoof Float where
  id := "roof"
  baseLevelId := "ground"
  eaveHeight := 0.0
  thickness := 0.2
  overhang := 0.0
  ridges :=
    [⟨"main", ⟨0.0, 0.0⟩, mainFinish, 3.0, false, false⟩,
      ⟨"side", ⟨4.0, 0.0⟩, sideFinish, 3.0, false, false⟩]
  faces :=
    [⟨"north", .ridgeSide, some "main", some 0.1, some 0.9, none, none, none, none, none, .compound
      [.materialized ⟨⟨0.0, 0.0⟩, ⟨4.0, 0.0⟩, .left⟩ (some "main"),
        .materialized ⟨⟨4.0, 0.0⟩, ⟨4.0, 4.0⟩, .right⟩ (some "side")]⟩]

/-- The roof as it is drawn at first, with both dividers on their ridges. -/
def valleyDrawn : MultiPlaneRoof Float := valley ⟨4.0, 0.0⟩ ⟨4.0, 4.0⟩

/-- The roof with its main ridge moved. -/
def valleyMainMoved : MultiPlaneRoof Float := valley ⟨5.0, 0.0⟩ ⟨4.0, 4.0⟩

/-- The roof with its side ridge moved. -/
def valleySideMoved : MultiPlaneRoof Float := valley ⟨4.0, 0.0⟩ ⟨4.0, 5.0⟩

/-- The ends of both ridges can be moved. -/
theorem valley_ridgesMoved (p q p' q' : Point Float) : (valley p q).RidgesMoved (valley p' q') :=
  ⟨rfl, .cons rfl (.cons rfl .nil)⟩

/-- All ridges have a length above zero, as a check that can be evaluated. -/
theorem longWhereMoved_of_all {before after : MultiPlaneRoof Float}
    (h : after.ridges.all (fun r => r.length.toOption.any fun length =>
      decide (Tolerance.geometry < length)) = true) : before.LongWhereMoved after := by
  intro r hr _
  obtain ⟨length, hlength, hlt⟩ := exists_eq_ok_of_any (List.all_eq_true.1 h r hr)
  exact ⟨length, hlength, of_decide_eq_true hlt⟩

/-- The main ridge is moved, and its divider follows. -/
theorem valley_synced : ∃ later, valleyDrawn.SyncedEdit later ∧ later.InSync := by
  have hsync : valleyDrawn.InSync := by decide +kernel
  have hridges : (valleyDrawn.ridges.map (·.id)).Nodup := by decide +kernel
  have hfaces : (valleyDrawn.faces.map (·.id)).Nodup := by decide +kernel
  have hmoved : valleyDrawn.RidgesMoved valleyMainMoved := valley_ridgesMoved _ _ _ _
  have hlong : valleyDrawn.LongWhereMoved valleyMainMoved :=
    longWhereMoved_of_all (by decide +kernel)
  have hnamed : ∀ r ∈ valleyMainMoved.ridges, r.movedSince valleyDrawn = true →
      ¬ valleyMainMoved.NamedElsewhere r := by
    decide +kernel
  obtain ⟨plan, hplan, -, -⟩ := sync_after_edits.1 _ _ hsync hridges hfaces hmoved hlong
  have hedit : valleyDrawn.SyncedEdit (plan.applyTo valleyMainMoved) :=
    ⟨_, plan, hmoved, hlong, hnamed, hplan, rfl⟩
  exact ⟨_, hedit, sync_after_edits.2 _ _ hsync hridges hfaces (.single hedit)⟩

/-- **A divider in the face of another ridge is left behind** when its ridge is moved: the roof
was in sync, and it is not in sync after the plan for the edit was carried out. -/
theorem valley_leftBehind :
    valleyDrawn.InSync ∧ (valleyDrawn.ridges.map (·.id)).Nodup ∧
      (valleyDrawn.faces.map (·.id)).Nodup ∧ valleyDrawn.RidgesMoved valleySideMoved ∧
      valleyDrawn.LongWhereMoved valleySideMoved ∧
      ∃ plan, valleyDrawn.planSync valleySideMoved = .ok plan ∧
        ¬ (plan.applyTo valleySideMoved).InSync := by
  refine ⟨by decide +kernel, by decide +kernel, by decide +kernel, valley_ridgesMoved _ _ _ _,
    longWhereMoved_of_all (by decide +kernel), ?_⟩
  have hplan : (valleyDrawn.planSync valleySideMoved).toOption.any
      (fun plan => !decide (plan.applyTo valleySideMoved).InSync) = true := by
    decide +kernel
  obtain ⟨plan, hplan, hstale⟩ := exists_eq_ok_of_any hplan
  exact ⟨plan, hplan, by simpa using hstale⟩

end MultiPlaneRoof

end Housewright
