import Housewright.Proofs.Roof.DividerSync
import Housewright.Proofs.Roof.Normalization

/-!
# Patched dividers are those that are written out afresh

There are two ways to follow an edit of ridges.  A roof whose dividers still refer to their
ridges can be edited and then have its dividers written out.  Or the dividers are written out
first, the ridges are moved under them, and a plan puts the dividers back on their ridges.

* `RegionItem.followOwn_writeOut`: an item that was written out before the edit and follows the
  ridges is the item written out from the ridges that the plan carries along;
* `MultiPlaneRoof.applyTo_planSync_normalize`: so the second way gives the roof written out
  afresh from these ridges, `MultiPlaneRoof.carried`;
* `MultiPlaneRoof.patched_eq_fresh`: there is a plan if and only if all moved ridges have a
  length that can be computed, and if none of them is too short, both ways give the same roof.

A ridge that is only given other signs of zero was not moved, and its dividers keep the signs
they had: `MultiPlaneRoof.SameNumbers` is equality of everything but that.
-/

namespace Housewright

variable {α : Type}

/-! ## Items that follow their ridges -/

/-- The item that a divider with the name of its ridge is. -/
def RecordedDivider.toItem (d : RecordedDivider α) : RegionItem α :=
  .materialized d.plane (some d.ridgeId)

/-- A divider follows a ridge as an item as it does by itself. -/
theorem RecordedDivider.follow_toItem (r : Ridge α) (d : RecordedDivider α) :
    d.toItem.follow r = (d.follow r).toItem := by
  by_cases h : d.ridgeId = r.id
  · simp [toItem, RegionItem.follow, RegionItem.follows, RegionItem.onLine, follow, h]
  · simp [toItem, RegionItem.follow, RegionItem.follows, follow, h]

/-- An item after the face that holds it, which belongs to the ridge `own`, followed some
ridges. -/
def RegionItem.followOwn (own : Option String) (ridges : List (Ridge α)) (item : RegionItem α) :
    RegionItem α :=
  (ridges.filter fun r => own = some r.id).foldl (fun item r => item.follow r) item

/-- **The items of a face follow** those of some ridges that the face belongs to. -/
theorem RoofFace.followAll_compound (ridges : List (Ridge α)) {f : RoofFace α}
    {items : List (RegionItem α)} (hkind : f.kind = .ridgeSide)
    (hregion : f.region = .compound items) :
    f.followAll ridges =
      { f with region := .compound (items.map (·.followOwn f.ridgeId ridges)) } := by
  induction ridges generalizing f items with
  | nil =>
    have hitems : items.map (·.followOwn f.ridgeId []) = items := items.map_id
    rw [hitems, ← hregion]
    rfl
  | cons r rest ih =>
    rw [RoofFace.followAll, List.foldl_cons]
    by_cases h : f.ridgeId = some r.id
    · have hfollow : f.follow r = { f with region := .compound (items.map (·.follow r)) } := by
        rw [RoofFace.follow]
        simp [hkind, hregion, h]
      have hitems : (items.map (·.follow r)).map (·.followOwn f.ridgeId rest) =
          items.map (·.followOwn f.ridgeId (r :: rest)) := by
        rw [List.map_map]
        refine List.map_congr_left fun item _ => ?_
        rw [RegionItem.followOwn, List.filter_cons_of_pos (by simp [h]), List.foldl_cons]
        rfl
      rw [hfollow, ← hitems]
      exact ih hkind rfl
    · have hfollow : f.follow r = f := by
        rw [RoofFace.follow]
        simp [hkind, hregion, h]
      have hitems : items.map (·.followOwn f.ridgeId rest) =
          items.map (·.followOwn f.ridgeId (r :: rest)) := by
        refine List.map_congr_left fun item _ => ?_
        rw [RegionItem.followOwn, RegionItem.followOwn, List.filter_cons_of_neg (by simp [h])]
      rw [hfollow, ← hitems]
      exact ih hkind hregion

/-- An item that follows no ridge stays. -/
theorem RegionItem.followOwn_of_not_follows {item : RegionItem α}
    (h : ∀ id, item.follows id = false) (own : Option String) (ridges : List (Ridge α)) :
    item.followOwn own ridges = item := by
  rw [followOwn]
  induction ridges.filter fun r => own = some r.id with
  | nil => rfl
  | cons r rest ih =>
    have hr : item.follow r = item := by
      rw [follow, h]
      rfl
    rw [List.foldl_cons, hr]
    exact ih

/-- A divider that names its ridge follows as an item as it does by itself. -/
theorem RecordedDivider.followOwn_toItem (own : Option String) (ridges : List (Ridge α))
    (d : RecordedDivider α) :
    d.toItem.followOwn own ridges = (d.followOwn own ridges).toItem :=
  List.foldl_hom toItem fun d r => follow_toItem r d

/-! ## The ridges that a plan carries along -/

namespace MultiPlaneRoof

/-- An edit of the ends of ridges keeps who is found by an id. -/
theorem RidgesMoved.ridge?_cases {before after : MultiPlaneRoof α} (h : before.RidgesMoved after)
    (id : String) : (before.ridge? id = none ∧ after.ridge? id = none) ∨
      ∃ r s, before.ridge? id = some r ∧ after.ridge? id = some s ∧ r.SameButEnds s := by
  have key (rs ss : List (Ridge α)) (hrs : List.Forall₂ Ridge.SameButEnds rs ss) :
      (rs.find? (·.id == id) = none ∧ ss.find? (·.id == id) = none) ∨
        ∃ r s, rs.find? (·.id == id) = some r ∧ ss.find? (·.id == id) = some s ∧
          r.SameButEnds s := by
    induction hrs with
    | nil => exact .inl ⟨rfl, rfl⟩
    | @cons r s rs ss hrs _ ih =>
      have hid : s.id = r.id := by rw [hrs]
      by_cases hfound : (r.id == id) = true
      · refine .inr ⟨r, s, ?_, ?_, hrs⟩
        · exact List.find?_cons_of_pos hfound
        · exact List.find?_cons_of_pos (by rwa [hid])
      · have hr : (r :: rs).find? (·.id == id) = rs.find? (·.id == id) :=
          List.find?_cons_of_neg hfound
        have hs : (s :: ss).find? (·.id == id) = ss.find? (·.id == id) :=
          List.find?_cons_of_neg (by rwa [hid])
        rw [hr, hs]
        exact ih
  exact key _ _ h.ridges

variable [Scalar α]

/-- A ridge where a plan takes the dividers: where it is, or where it was if it carries no
dividers along. -/
def carriedRidge (before : MultiPlaneRoof α) (r : Ridge α) : Ridge α :=
  if r.carriesDividers before then r else (before.ridge? r.id).getD r

@[simp] theorem id_carriedRidge (before : MultiPlaneRoof α) (r : Ridge α) :
    (before.carriedRidge r).id = r.id := by
  unfold carriedRidge
  split
  · rfl
  · cases h : before.ridge? r.id with
    | none => rfl
    | some s => exact id_of_ridge? h

/-- The roof with the ridges where a plan takes the dividers. -/
def carried (before after : MultiPlaneRoof α) : MultiPlaneRoof α :=
  { after with ridges := after.ridges.map before.carriedRidge }

theorem ridge?_carried (before after : MultiPlaneRoof α) (id : String) :
    (before.carried after).ridge? id = (after.ridge? id).map before.carriedRidge := by
  rw [ridge?, ridge?, carried, List.find?_map]
  simp only [Function.comp_def, id_carriedRidge]

/-- A divider of the ridge `r` that belongs to its face follows the ridge to where the plan
takes it. -/
theorem RidgesMoved.followOwn_divider {before after : MultiPlaneRoof α}
    (h : before.RidgesMoved after) (hids : (before.ridges.map (·.id)).Nodup) {r s : Ridge α}
    (hr : before.ridge? r.id = some r) (hs : after.ridge? r.id = some s) (keep : Side) :
    (⟨r.id, r.divider keep⟩ : RecordedDivider α).followOwn (some r.id)
        (after.ridges.filter (·.carriesDividers before)) =
      ⟨r.id, (before.carriedRidge s).divider keep⟩ := by
  have hafter : (after.ridges.map (·.id)).Nodup := by rwa [h.ids]
  obtain ⟨hmem, hid⟩ := (ridge?_eq_some_iff hafter).1 hs
  rw [RecordedDivider.followOwn]
  by_cases hcarries : s.carriesDividers before = true
  · have hfollow : ((after.ridges.filter (·.carriesDividers before)).filter
        fun t => some r.id = some t.id).foldl (fun d t => d.follow t)
          (⟨r.id, r.divider keep⟩ : RecordedDivider α) =
        (⟨r.id, r.divider keep⟩ : RecordedDivider α).follow s := by
      refine RecordedDivider.foldl_follow_of_mem ?_ ?_ hid
      · exact hafter.sublist ((List.filter_sublist.trans List.filter_sublist).map _)
      · exact List.mem_filter.2 ⟨List.mem_filter.2 ⟨hmem, hcarries⟩, by simp [hid]⟩
    rw [hfollow, RecordedDivider.follow, if_pos hid.symm, carriedRidge, if_pos hcarries]
    rfl
  · rw [RecordedDivider.foldl_follow_of_ne, carriedRidge, if_neg hcarries, hid, hr]
    · rfl
    · intro t ht htd
      obtain ⟨ht, -⟩ := List.mem_filter.1 ht
      obtain ⟨ht, htc⟩ := List.mem_filter.1 ht
      obtain rfl := List.inj_on_of_nodup_map hafter ht hmem (htd.trans hid.symm)
      exact hcarries htc

end MultiPlaneRoof

/-! ## Dividers that refer to the ridge of their face -/

/-- An item as an author writes it in a face of the ridge `own`: no divider is written out, and
a divider refers to that ridge. -/
def RegionItem.SymbolicIn (own : Option String) : RegionItem α → Prop
  | .explicit _ => True
  | .materialized _ _ => False
  | .divider ridgeId _ => own = some ridgeId
  | .perpCut _ _ _ => True

instance (own : Option String) : (item : RegionItem α) → Decidable (item.SymbolicIn own)
  | .explicit _ => .isTrue trivial
  | .materialized _ _ => .isFalse id
  | .divider ridgeId _ => inferInstanceAs (Decidable (own = some ridgeId))
  | .perpCut _ _ _ => .isTrue trivial

/-- The items of a compound region. -/
def FaceRegion.items : FaceRegion α → List (RegionItem α)
  | .compound items => items
  | _ => []

/-- No divider of a ridge-side face is written out, and all refer to the ridge of the face. -/
def RoofFace.Symbolic (f : RoofFace α) : Prop :=
  f.kind = .ridgeSide → ∀ item ∈ f.region.items, item.SymbolicIn f.ridgeId

instance (f : RoofFace α) : Decidable f.Symbolic :=
  inferInstanceAs (Decidable (f.kind = .ridgeSide → ∀ item ∈ f.region.items, _))

section Scalars

variable [Scalar α] {before after : MultiPlaneRoof α}

/-- **An item follows its ridge** to where it is written out from the ridges that the plan
carries along. -/
theorem RegionItem.followOwn_writeOut (h : before.RidgesMoved after)
    (hids : (before.ridges.map (·.id)).Nodup) {own : Option String} {item : RegionItem α}
    (hitem : item.SymbolicIn own) :
    (item.writeOut before).followOwn own (after.ridges.filter (·.carriesDividers before)) =
      item.writeOut (before.carried after) := by
  cases item with
  | explicit plane => exact followOwn_of_not_follows (fun _ => rfl) _ _
  | materialized plane ridgeId => exact hitem.elim
  | perpCut ridgeId t keep => exact followOwn_of_not_follows (fun _ => rfl) _ _
  | divider ridgeId keep =>
    obtain rfl : own = some ridgeId := hitem
    obtain ⟨hr, hs⟩ | ⟨r, s, hr, hs, -⟩ := h.ridge?_cases ridgeId
    · simp only [writeOut, hr, MultiPlaneRoof.ridge?_carried, hs, Option.map_none]
      exact followOwn_of_not_follows (fun _ => rfl) _ _
    · have hidr := MultiPlaneRoof.id_of_ridge? hr
      have hids' := MultiPlaneRoof.id_of_ridge? hs
      subst hidr
      have hout : (RegionItem.divider r.id keep).writeOut before =
          (⟨r.id, r.divider keep⟩ : RecordedDivider α).toItem := by
        simp only [writeOut, hr, RecordedDivider.toItem]
      rw [hout, RecordedDivider.followOwn_toItem, h.followOwn_divider hids hr hs]
      simp only [writeOut, MultiPlaneRoof.ridge?_carried, hs, Option.map_some,
        MultiPlaneRoof.id_carriedRidge, hids', RecordedDivider.toItem]

/-- A face that was written out follows the ridges to where it is written out afresh. -/
theorem RoofFace.followAll_writeOut (h : before.RidgesMoved after)
    (hids : (before.ridges.map (·.id)).Nodup) {f : RoofFace α} (hf : f.Symbolic) :
    (f.writeOut before).followAll (after.ridges.filter (·.carriesDividers before)) =
      f.writeOut (before.carried after) := by
  -- faces without a compound region are not touched by either way
  have hother (hout : f.writeOut before = f) (hfresh : f.writeOut (before.carried after) = f)
      (hstay : ∀ r : Ridge α, f.follow r = f) :
      (f.writeOut before).followAll (after.ridges.filter (·.carriesDividers before)) =
        f.writeOut (before.carried after) := by
    rw [hout, hfresh, RoofFace.followAll]
    induction after.ridges.filter (·.carriesDividers before) with
    | nil => rfl
    | cons r rest ih => rw [List.foldl_cons, hstay, ih]
  cases hkind : f.kind with
  | hipCap =>
    exact hother (by simp only [writeOut, hkind]) (by simp only [writeOut, hkind])
      fun r => by simp only [follow, hkind]
  | ridgeSide =>
    cases hregion : f.region with
    | halfPlanes planes =>
      exact hother (by simp only [writeOut, hkind, hregion])
        (by simp only [writeOut, hkind, hregion]) fun r => by simp only [follow, hkind, hregion]
    | ridgeCap ridgeId cap =>
      exact hother (by simp only [writeOut, hkind, hregion])
        (by simp only [writeOut, hkind, hregion]) fun r => by simp only [follow, hkind, hregion]
    | compound items =>
      have hitems : ∀ item ∈ items, item.SymbolicIn f.ridgeId := by
        have hall := hf hkind
        rwa [hregion] at hall
      have hout (roof : MultiPlaneRoof α) : f.writeOut roof =
          { f with region := .compound (items.map (·.writeOut roof)) } := by
        simp only [writeOut, hkind, hregion]
      rw [hout before, hout (before.carried after),
        followAll_compound _ (f := { f with region := .compound (items.map (·.writeOut before)) })
          hkind rfl, List.map_map]
      have hall : items.map (RegionItem.followOwn f.ridgeId
          (after.ridges.filter (·.carriesDividers before)) ∘ (·.writeOut before)) =
          items.map (·.writeOut (before.carried after)) :=
        List.map_congr_left fun item hi => RegionItem.followOwn_writeOut h hids (hitems item hi)
      rw [hall]

namespace MultiPlaneRoof

/-- The dividers of all ridge-side faces refer to the ridges of their faces. -/
def Symbolic (roof : MultiPlaneRoof α) : Prop := ∀ f ∈ roof.faces, f.Symbolic

instance (roof : MultiPlaneRoof α) : Decidable roof.Symbolic :=
  inferInstanceAs (Decidable (∀ f ∈ roof.faces, _))

omit [Scalar α] in
/-- Nothing but the ridges is edited. -/
theorem RidgesMoved.with_faces (h : before.RidgesMoved after) (faces : List (RoofFace α)) :
    ({ before with ridges := after.ridges, faces } : MultiPlaneRoof α) = { after with faces } := by
  conv_rhs => rw [h.rest]

/-- **A plan that is carried out** on a roof whose dividers were written out before the edit
gives the roof whose dividers are written out from the ridges that it carries along. -/
theorem applyTo_planSync_normalize {plan : SyncPlan α} (h : before.RidgesMoved after)
    (hridges : (before.ridges.map (·.id)).Nodup) (hfaces : (before.faces.map (·.id)).Nodup)
    (hsymbolic : before.Symbolic)
    (hplan : before.normalize.planSync { before.normalize with ridges := after.ridges } =
      .ok plan) :
    plan.applyTo { before.normalize with ridges := after.ridges } =
      { (before.carried after).normalize with ridges := after.ridges } := by
  have hids : ((before.faces.map (·.writeOut before)).map (·.id)).Nodup := by
    rw [List.map_map]
    simpa only [Function.comp_def, RoofFace.id_writeOut] using hfaces
  have hfollow : (before.faces.map (·.writeOut before)).map
        (fun f => f.followAll (after.ridges.filter (·.carriesDividers before))) =
      before.faces.map (·.writeOut (before.carried after)) := by
    rw [List.map_map]
    exact List.map_congr_left fun f hf => RoofFace.followAll_writeOut h hridges (hsymbolic f hf)
  have hfresh : ({ (before.carried after).normalize with ridges := after.ridges } :
      MultiPlaneRoof α) =
      { after with faces := before.faces.map (·.writeOut (before.carried after)) } := by
    rw [← h.faces]
    rfl
  rw [applyTo_planSync hplan hids, hfresh, ← h.with_faces, ← hfollow]
  rfl

end MultiPlaneRoof

/-! ## When there is a plan -/

theorem Ridge.exists_sync_iff {before : MultiPlaneRoof α} {faces : List (RoofFace α)}
    {r : Ridge α} : (∃ plan, r.sync (before.ridge? r.id) faces = .ok plan) ↔
      (r.movedSince before = true → ∃ length, r.length = .ok length) := by
  rw [Ridge.sync, Ridge.movedSince]
  by_cases hmoved : (before.ridge? r.id).any (·.movedFrom r) = true
  · rw [if_pos hmoved]
    constructor
    · rintro ⟨plan, hplan⟩ -
      obtain ⟨length, hlength, -⟩ := bind_eq_ok.1 hplan
      exact ⟨length, hlength⟩
    · intro h
      refine exists_bind_eq_ok (h hmoved) fun length => ?_
      split <;> exact ⟨_, rfl⟩
  · rw [if_neg hmoved]
    exact ⟨fun _ hm => absurd hm hmoved, fun _ => ⟨_, rfl⟩⟩

/-- **There is a plan** if and only if the lengths of all moved ridges can be computed. -/
theorem exists_syncRidges_iff {before after : MultiPlaneRoof α} {ridges : List (Ridge α)} :
    (∃ plan, syncRidges before after ridges = .ok plan) ↔
      ∀ r ∈ ridges, r.movedSince before = true → ∃ length, r.length = .ok length := by
  refine ⟨fun h => ?_, exists_syncRidges⟩
  induction ridges with
  | nil =>
    intro r hr
    cases hr
  | cons r rest ih =>
    obtain ⟨plan, hplan⟩ := h
    simp only [syncRidges, bind_eq_ok] at hplan
    obtain ⟨first, hfirst, others, hothers, -⟩ := hplan
    exact List.forall_mem_cons.2 ⟨Ridge.exists_sync_iff.1 ⟨first, hfirst⟩, ih ⟨others, hothers⟩⟩

/-! ## Equality but for the signs of zeros -/

/-- Equal items, or dividers through points with equal numbers as coordinates. -/
inductive RegionItem.SameNumbers : RegionItem α → RegionItem α → Prop
  | same (item : RegionItem α) : SameNumbers item item
  | divider {p q : HalfPlane α} (ridgeId : Option String) (ha : (p.a == q.a) = true)
      (hb : (p.b == q.b) = true) (hkeep : p.keep = q.keep) :
      SameNumbers (.materialized p ridgeId) (.materialized q ridgeId)

/-- Faces that are equal but for the signs of zeros in dividers. -/
structure RoofFace.SameNumbers (f g : RoofFace α) : Prop where
  rest : g = { f with region := g.region }
  region : f.region = g.region ∨ ∃ items items', f.region = .compound items ∧
    g.region = .compound items' ∧ List.Forall₂ RegionItem.SameNumbers items items'

/-- Roofs that are equal but for the signs of zeros in dividers. -/
structure MultiPlaneRoof.SameNumbers (roof other : MultiPlaneRoof α) : Prop where
  rest : other = { roof with faces := other.faces }
  faces : List.Forall₂ RoofFace.SameNumbers roof.faces other.faces

/-- A ridge is carried along if it was moved and its length is known and not too short. -/
theorem Ridge.carriesDividers_eq {before : MultiPlaneRoof α} {r : Ridge α}
    (hlength : r.movedSince before = true → ∃ length, r.length = .ok length)
    (hlong : r.movedSince before = true → ∀ length, r.length = .ok length →
      ¬ length ≤ Tolerance.geometry) : r.carriesDividers before = r.movedSince before := by
  rw [Ridge.carriesDividers]
  cases hmoved : r.movedSince before with
  | false => rfl
  | true =>
    obtain ⟨length, h⟩ := hlength hmoved
    have hnot := hlong hmoved length h
    rw [h, Bool.true_and]
    show (!decide (length ≤ Tolerance.geometry)) = true
    simpa using hnot

/-- A plan takes dividers to a ridge as it is, or to one with the same numbers that was not
moved. -/
theorem MultiPlaneRoof.carriedRidge_cases {s : Ridge α}
    (hcarries : s.carriesDividers before = s.movedSince before) :
    before.carriedRidge s = s ∨ ∃ r, before.ridge? s.id = some r ∧ before.carriedRidge s = r ∧
      r.movedFrom s = false := by
  rw [carriedRidge, hcarries]
  by_cases hmoved : s.movedSince before = true
  · exact .inl (if_pos hmoved)
  · rw [if_neg hmoved]
    cases hr : before.ridge? s.id with
    | none => exact .inl rfl
    | some r =>
      refine .inr ⟨r, rfl, rfl, ?_⟩
      rw [Ridge.movedSince, hr] at hmoved
      exact Bool.eq_false_iff.2 hmoved

/-- An item is written out with the same numbers. -/
theorem RegionItem.sameNumbers_writeOut
    (hcarries : ∀ r ∈ after.ridges, r.carriesDividers before = r.movedSince before)
    (item : RegionItem α) :
    (item.writeOut (before.carried after)).SameNumbers (item.writeOut after) := by
  cases item with
  | explicit plane => exact .same _
  | materialized plane ridgeId => exact .same _
  | perpCut ridgeId t keep => exact .same _
  | divider ridgeId keep =>
    cases hs : after.ridge? ridgeId with
    | none =>
      simp only [writeOut, MultiPlaneRoof.ridge?_carried, hs, Option.map_none]
      exact .same _
    | some s =>
      simp only [writeOut, MultiPlaneRoof.ridge?_carried, hs, Option.map_some,
        MultiPlaneRoof.id_carriedRidge]
      obtain h | ⟨r, -, h, hmoved⟩ :=
        MultiPlaneRoof.carriedRidge_cases (hcarries s (List.mem_of_find?_eq_some hs))
      · rw [h]
        exact .same _
      · obtain ⟨hstart, hfinish⟩ := Ridge.movedFrom_eq_false_iff.1 hmoved
        rw [h]
        exact .divider _ hstart hfinish rfl

theorem RoofFace.sameNumbers_writeOut
    (hcarries : ∀ r ∈ after.ridges, r.carriesDividers before = r.movedSince before)
    (f : RoofFace α) : (f.writeOut (before.carried after)).SameNumbers (f.writeOut after) := by
  have hrest : f.writeOut after =
      { f.writeOut (before.carried after) with region := (f.writeOut after).region } := by
    conv_lhs => rw [f.writeOut_eq_with_region after]
    rw [f.writeOut_eq_with_region (before.carried after)]
  refine ⟨hrest, ?_⟩
  unfold RoofFace.writeOut
  cases hkind : f.kind with
  | hipCap => exact .inl rfl
  | ridgeSide =>
    cases hregion : f.region with
    | halfPlanes planes => exact .inl rfl
    | ridgeCap ridgeId cap => exact .inl rfl
    | compound items =>
      refine .inr ⟨_, _, rfl, rfl, ?_⟩
      rw [List.forall₂_map_left_iff, List.forall₂_map_right_iff]
      exact List.forall₂_same.2 fun item _ => RegionItem.sameNumbers_writeOut hcarries item

namespace MultiPlaneRoof

/-- If all moved ridges are carried along, dividers are written out with the same numbers. -/
theorem sameNumbers_carried
    (hcarries : ∀ r ∈ after.ridges, r.carriesDividers before = r.movedSince before) :
    SameNumbers { (before.carried after).normalize with ridges := after.ridges }
      after.normalize := by
  refine ⟨rfl, ?_⟩
  show List.Forall₂ RoofFace.SameNumbers (after.faces.map (·.writeOut (before.carried after)))
    (after.faces.map (·.writeOut after))
  rw [List.forall₂_map_left_iff, List.forall₂_map_right_iff]
  exact List.forall₂_same.2 fun f _ => RoofFace.sameNumbers_writeOut hcarries f

/-- If every ridge was moved or left as it is, a plan takes dividers to the ridges as they
are. -/
theorem carried_eq
    (hcarries : ∀ r ∈ after.ridges, r.carriesDividers before = r.movedSince before)
    (hedit : ∀ r ∈ before.ridges, ∀ s ∈ after.ridges, s.id = r.id →
      s = r ∨ r.movedFrom s = true) : before.carried after = after := by
  have hridges : after.ridges.map before.carriedRidge = after.ridges := by
    refine (List.map_congr_left fun s hs => ?_).trans after.ridges.map_id
    obtain h | ⟨r, hr, h, hstill⟩ := carriedRidge_cases (hcarries s hs)
    · exact h
    · obtain rfl | hmoved :=
        hedit r (List.mem_of_find?_eq_some hr) s hs (id_of_ridge? hr).symm
      · exact h
      · rw [hstill] at hmoved
        cases hmoved
  rw [carried, hridges]

/-- **Patched dividers and fresh ones.**  In a roof with distinct ids of ridges and of faces,
let all dividers of ridge-side faces refer to the ridge of their face, and let ridges be moved.
The edited roof can have its dividers written out; or they are written out before the edit,
and a plan is made and carried out after it.  There is a plan if and only if the lengths of all
moved ridges can be computed.  If then no moved ridge is too short, both ways give the same
roof, up to the signs of zeros; and exactly the same one if all ridges were moved or left as
they are. -/
theorem patched_eq_fresh (before after : MultiPlaneRoof α)
    (hridges : (before.ridges.map (·.id)).Nodup) (hfaces : (before.faces.map (·.id)).Nodup)
    (hsymbolic : before.Symbolic) (hmoved : before.RidgesMoved after) :
    ((∃ plan, before.normalize.planSync { before.normalize with ridges := after.ridges } =
        .ok plan) ↔
      ∀ r ∈ after.ridges, r.movedSince before = true → ∃ length, r.length = .ok length) ∧
    ∀ plan, before.normalize.planSync { before.normalize with ridges := after.ridges } =
        .ok plan →
      (∀ r ∈ after.ridges, r.movedSince before = true → ∀ length, r.length = .ok length →
        ¬ length ≤ Tolerance.geometry) →
      (plan.applyTo { before.normalize with ridges := after.ridges }).SameNumbers
          after.normalize ∧
        ((∀ r ∈ before.ridges, ∀ s ∈ after.ridges, s.id = r.id →
            s = r ∨ r.movedFrom s = true) →
          plan.applyTo { before.normalize with ridges := after.ridges } = after.normalize) := by
  have hexists : (∃ plan, before.normalize.planSync
        { before.normalize with ridges := after.ridges } = .ok plan) ↔
      ∀ r ∈ after.ridges, r.movedSince before = true → ∃ length, r.length = .ok length :=
    exists_syncRidges_iff
  refine ⟨hexists, fun plan hplan hlong => ?_⟩
  have hcarries : ∀ r ∈ after.ridges, r.carriesDividers before = r.movedSince before :=
    fun r hr => r.carriesDividers_eq (hexists.1 ⟨plan, hplan⟩ r hr) (hlong r hr)
  rw [applyTo_planSync_normalize hmoved hridges hfaces hsymbolic hplan]
  refine ⟨sameNumbers_carried hcarries, fun hedit => ?_⟩
  rw [carried_eq hcarries hedit]
  rfl

end MultiPlaneRoof

end Scalars

/-! ## Two roofs -/

namespace MultiPlaneRoof

/-- A roof with two ridges and a face on either.  The face of the main ridge is also cut across
that ridge and along the side ridge's line, where an author drew it. -/
def ell (mainStart mainFinish sideFinish : Point Float) : MultiPlaneRoof Float where
  id := "roof"
  baseLevelId := "ground"
  eaveHeight := 0.0
  thickness := 0.2
  overhang := 0.0
  ridges :=
    [⟨"main", mainStart, mainFinish, 3.0, false, false⟩,
      ⟨"side", ⟨4.0, 0.0⟩, sideFinish, 3.0, false, false⟩]
  faces :=
    [⟨"north", .ridgeSide, some "main", some 0.1, some 0.9, none, none, none, none, none, .compound
      [.divider "main" .left, .perpCut "main" 0.9 .behind,
        .explicit ⟨⟨4.0, 0.0⟩, ⟨4.0, 4.0⟩, .left⟩]⟩,
      ⟨"east", .ridgeSide, some "side", some 0.1, some 0.9, none, none, none, none, none, .compound
        [.divider "side" .right]⟩]

/-- The roof as it is drawn at first. -/
def ellDrawn : MultiPlaneRoof Float := ell ⟨0.0, 0.0⟩ ⟨4.0, 0.0⟩ ⟨4.0, 4.0⟩

/-- The roof with both ridges moved. -/
def ellMoved : MultiPlaneRoof Float := ell ⟨-1.0, 0.5⟩ ⟨4.0, 0.5⟩ ⟨5.0, 6.0⟩

/-- The roof with a main ridge that runs very far. -/
def ellFar : MultiPlaneRoof Float := ell ⟨-1e200, 0.0⟩ ⟨1e200, 0.0⟩ ⟨4.0, 4.0⟩

/-- The ends of both ridges can be moved. -/
theorem ell_ridgesMoved (p q s p' q' s' : Point Float) :
    (ell p q s).RidgesMoved (ell p' q' s') :=
  ⟨rfl, .cons rfl (.cons rfl .nil)⟩

/-- Both ridges are moved, and the dividers of both faces are patched to what they are when
they are written out afresh. -/
theorem ell_patched : ∃ plan,
    ellDrawn.normalize.planSync { ellDrawn.normalize with ridges := ellMoved.ridges } = .ok plan ∧
      plan.patches.length = 2 ∧
      plan.applyTo { ellDrawn.normalize with ridges := ellMoved.ridges } = ellMoved.normalize := by
  have hridges : (ellDrawn.ridges.map (·.id)).Nodup := by decide +kernel
  have hfaces : (ellDrawn.faces.map (·.id)).Nodup := by decide +kernel
  have hsymbolic : ellDrawn.Symbolic := by decide +kernel
  have hlong : ellDrawn.LongWhereMoved ellMoved := longWhereMoved_of_all (by decide +kernel)
  have hcount : (ellDrawn.normalize.planSync
      { ellDrawn.normalize with ridges := ellMoved.ridges }).toOption.any
        (fun plan => plan.patches.length == 2) = true := by
    decide +kernel
  have hmoved : ∀ r ∈ ellDrawn.ridges, ∀ s ∈ ellMoved.ridges, s.id = r.id →
      r.movedFrom s = true := by
    decide +kernel
  obtain ⟨plan, hplan, htwo⟩ := exists_eq_ok_of_any hcount
  have hboth := patched_eq_fresh ellDrawn ellMoved hridges hfaces hsymbolic
    (ell_ridgesMoved _ _ _ _ _ _)
  have hnotShort : ∀ r ∈ ellMoved.ridges, r.movedSince ellDrawn = true → ∀ length,
      r.length = .ok length → ¬ length ≤ Tolerance.geometry := by
    intro r hr hm length hlength hle
    obtain ⟨length', hlength', hlt⟩ := hlong r hr hm
    obtain rfl := Except.ok.inj (hlength.symm.trans hlength')
    exact Binary64.not_lt_of_le hle hlt
  exact ⟨plan, hplan, beq_iff_eq.1 htwo,
    (hboth.2 plan hplan hnotShort).2 fun r hr s hs hid => .inr (hmoved r hr s hs hid)⟩

/-- **A ridge that is moved very far has no plan**: it is far longer than the tolerance, but
the square of its length leaves the finite range. -/
theorem ellFar_noPlan :
    (ellDrawn.ridges.map (·.id)).Nodup ∧ (ellDrawn.faces.map (·.id)).Nodup ∧
      ellDrawn.Symbolic ∧ ellDrawn.RidgesMoved ellFar ∧
      (∀ r ∈ ellFar.ridges, r.movedSince ellDrawn = true →
        Tolerance.geometry < r.direction.length) ∧
      ¬ ∃ plan, ellDrawn.normalize.planSync
          { ellDrawn.normalize with ridges := ellFar.ridges } = .ok plan := by
  refine ⟨by decide +kernel, by decide +kernel, by decide +kernel, ell_ridgesMoved _ _ _ _ _ _,
    by decide +kernel, ?_⟩
  rintro ⟨plan, hplan⟩
  have hstopped : (ellDrawn.normalize.planSync
      { ellDrawn.normalize with ridges := ellFar.ridges }).toOption.isNone = true := by
    decide +kernel
  rw [hplan] at hstopped
  cases hstopped

end MultiPlaneRoof

end Housewright
