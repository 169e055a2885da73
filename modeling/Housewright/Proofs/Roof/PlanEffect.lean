import Mathlib.Data.List.Nodup
import Housewright.Proofs.Steps
import Housewright.Roof.RidgeSync

/-!
# What a plan does to a roof

A plan is a list of patches, and a patch names a face and the index of an item.  This file
takes the indices away: it says what becomes of every face of a roof whose faces have
distinct ids.

* `DividerPatch.applyTo_eq_map`, `SyncPlan.applyTo_eq_map`: every face undergoes the patches
  that name it, and no other;
* `RoofFace.follow` puts the items of a face that follow a ridge on that ridge, and
  `RoofFace.foldl_patches` says that this is what the patches of one ridge do;
* `syncRidges_eq_ok`: the patches are those of the ridges that moved to a line
  with a length;
* `MultiPlaneRoof.applyTo_planSync`: a plan that is carried out makes every face follow these
  ridges, one after the other.
-/

namespace Housewright

variable {α : Type}

/-! ## Patches without indices -/

/-- A face with the patch applied to it, if the patch names it. -/
def DividerPatch.applyToFace (p : DividerPatch α) (f : RoofFace α) : RoofFace α :=
  if f.id = p.faceId then f.patched p else f

@[simp] theorem RoofFace.id_patched (p : DividerPatch α) (f : RoofFace α) :
    (f.patched p).id = f.id := by
  unfold RoofFace.patched
  split <;> rfl

@[simp] theorem DividerPatch.id_applyToFace (p : DividerPatch α) (f : RoofFace α) :
    (p.applyToFace f).id = f.id := by
  unfold applyToFace
  split
  · exact f.id_patched p
  · rfl

/-- A patch leaves faces with other ids alone. -/
theorem DividerPatch.applyToFace_of_ne {p : DividerPatch α} {f : RoofFace α}
    (h : p.faceId ≠ f.id) : p.applyToFace f = f :=
  if_neg h.symm

/-- Among faces with distinct ids, a patch changes the one that it names. -/
theorem DividerPatch.applyTo_eq_map (p : DividerPatch α) {faces : List (RoofFace α)}
    (hids : (faces.map (·.id)).Nodup) : p.applyTo faces = faces.map p.applyToFace := by
  induction faces with
  | nil => rfl
  | cons f rest ih =>
    rw [List.map_cons, List.nodup_cons] at hids
    obtain ⟨hfresh, hrest⟩ := hids
    have ih := ih hrest
    rw [applyTo, List.map_cons]
    by_cases hlater : rest.any (·.id == p.faceId) = true
    · obtain ⟨g, hg, hid⟩ := List.any_eq_true.1 hlater
      have hne : p.faceId ≠ f.id := by
        intro h
        exact hfresh (List.mem_map.2 ⟨g, hg, (beq_iff_eq.1 hid).trans h⟩)
      rw [if_pos hlater, applyToFace_of_ne hne, ih]
    · have hsame : rest.map p.applyToFace = rest := by
        refine (List.map_congr_left fun g hg => ?_).trans rest.map_id
        refine applyToFace_of_ne fun h => hlater (List.any_eq_true.2 ⟨g, hg, ?_⟩)
        exact beq_iff_eq.2 h.symm
      rw [if_neg hlater, hsame, applyToFace]
      by_cases hnamed : f.id = p.faceId
      · rw [if_pos hnamed, if_pos (beq_iff_eq.2 hnamed)]
      · rw [if_neg hnamed, if_neg (mt beq_iff_eq.1 hnamed)]

/-- **Every face undergoes the patches of a plan**, in order, as far as they name it. -/
theorem SyncPlan.applyTo_eq_map (plan : SyncPlan α) {roof : MultiPlaneRoof α}
    (hids : (roof.faces.map (·.id)).Nodup) :
    plan.applyTo roof = { roof with
      faces := roof.faces.map fun f => plan.patches.foldl (fun f p => p.applyToFace f) f } := by
  have key (patches : List (DividerPatch α)) (faces : List (RoofFace α))
      (h : (faces.map (·.id)).Nodup) :
      patches.foldl (fun faces p => p.applyTo faces) faces =
        faces.map fun f => patches.foldl (fun f p => p.applyToFace f) f := by
    induction patches generalizing faces with
    | nil => exact faces.map_id.symm
    | cons p rest ih =>
      have hkept : (faces.map p.applyToFace).map (·.id) = faces.map (·.id) := by
        rw [List.map_map]
        exact List.map_congr_left fun f _ => p.id_applyToFace f
      rw [List.foldl_cons, p.applyTo_eq_map h, ih _ (hkept ▸ h), List.map_map]
      rfl
  rw [SyncPlan.applyTo, key _ _ hids]

/-- Patches that name other faces leave a face alone. -/
theorem foldl_applyToFace_of_ne {patches : List (DividerPatch α)} {f : RoofFace α}
    (h : ∀ p ∈ patches, p.faceId ≠ f.id) :
    patches.foldl (fun f p => p.applyToFace f) f = f := by
  induction patches with
  | nil => rfl
  | cons p rest ih =>
    rw [List.foldl_cons, DividerPatch.applyToFace_of_ne (h p List.mem_cons_self)]
    exact ih fun q hq => h q (List.mem_cons_of_mem p hq)

/-! ## Following a ridge -/

/-- An item put on a ridge, if it follows it. -/
def RegionItem.follow (r : Ridge α) (item : RegionItem α) : RegionItem α :=
  if item.follows r.id then item.onLine r.start r.finish else item

/-- A ridge-side face of a ridge with all items that follow the ridge put on it. -/
def RoofFace.follow (r : Ridge α) (f : RoofFace α) : RoofFace α :=
  match f.kind, f.region with
  | .ridgeSide, .compound items =>
    if f.ridgeId == some r.id then { f with region := .compound (items.map (·.follow r)) } else f
  | _, _ => f

/-- Putting an item on a line does not change which ridges it follows. -/
theorem RegionItem.follows_follow (r : Ridge α) (id : String) (item : RegionItem α) :
    (item.follow r).follows id = item.follows id := by
  rw [RegionItem.follow]
  split
  · cases item with
    | materialized plane ridgeId => cases ridgeId <;> rfl
    | _ => rfl
  · rfl

/-- Only the items of a ridge-side face of the ridge can follow it, and nothing else of the face
is changed. -/
theorem RoofFace.follow_cases (r : Ridge α) (f : RoofFace α) :
    (f.followers r.id = [] ∧ f.follow r = f) ∨
      ∃ items, f.kind = .ridgeSide ∧ f.region = .compound items ∧ f.ridgeId = some r.id ∧
        f.followers r.id = (items.zipIdx.filterMap fun (item, i) =>
          if item.follows r.id then some i else none) ∧
        f.follow r = { f with region := .compound (items.map (·.follow r)) } := by
  unfold RoofFace.followers RoofFace.follow
  cases hkind : f.kind with
  | hipCap => exact .inl ⟨rfl, rfl⟩
  | ridgeSide =>
    cases hregion : f.region with
    | halfPlanes planes => exact .inl ⟨rfl, rfl⟩
    | ridgeCap ridgeId cap => exact .inl ⟨rfl, rfl⟩
    | compound items =>
      by_cases hridge : (f.ridgeId == some r.id) = true
      · exact .inr ⟨items, rfl, rfl, beq_iff_eq.1 hridge, if_pos hridge, if_pos hridge⟩
      · exact .inl ⟨if_neg hridge, if_neg hridge⟩

@[simp] theorem RoofFace.id_follow (r : Ridge α) (f : RoofFace α) : (f.follow r).id = f.id := by
  obtain ⟨-, h⟩ | ⟨items, -, -, -, -, h⟩ := f.follow_cases r <;> rw [h]

/-- The items that follow a ridge stay where they are in their face. -/
theorem RoofFace.followers_follow (r : Ridge α) (id : String) (f : RoofFace α) :
    (f.follow r).followers id = f.followers id := by
  obtain ⟨-, h⟩ | ⟨items, hkind, hregion, -, -, h⟩ := f.follow_cases r
  · rw [h]
  · rw [h, RoofFace.followers, RoofFace.followers]
    simp only [hkind, hregion]
    rw [List.zipIdx_map, List.filterMap_map]
    simp only [Function.comp_def, Prod.map_fst, Prod.map_snd, id_eq, RegionItem.follows_follow]

/-- The entry after some others is changed at their number. -/
theorem changeAt_length_append {β : Type} (g : β → β) (before : List β) (x : β) (rest : List β) :
    changeAt g (Int.ofNat before.length) (before ++ x :: rest) = before ++ g x :: rest := by
  have hmodify : (before ++ x :: rest).modify before.length g = before ++ g x :: rest := by
    induction before with
    | nil => rfl
    | cons y before ih => exact congrArg (y :: ·) ih
  have hnonneg : ¬ Int.ofNat before.length < 0 := by simp
  rw [changeAt, if_neg hnonneg]
  exact hmodify

/-- Changing a list at the indices of some entries changes these entries. -/
theorem foldl_changeAt_zipIdx {β : Type} (p : β → Bool) (g : β → β) (before xs : List β) :
    ((xs.zipIdx before.length).filterMap fun (x, i) => if p x then some i else none).foldl
        (fun ys i => changeAt g (Int.ofNat i) ys) (before ++ xs) =
      before ++ xs.map fun x => if p x then g x else x := by
  induction xs generalizing before with
  | nil => rfl
  | cons x rest ih =>
    -- the entries gone through become part of those before
    have hnext (y : β) := ih (before ++ [y])
    simp only [List.length_append, List.length_singleton, List.append_assoc,
      List.singleton_append] at hnext
    rw [List.zipIdx_cons, List.map_cons]
    by_cases hx : p x = true
    · rw [List.filterMap_cons_some (b := before.length) (by simp [hx]), List.foldl_cons,
        changeAt_length_append, hnext, if_pos hx]
    · rw [List.filterMap_cons_none (by simp [hx]), hnext, if_neg hx]

/-- Patches that name a ridge-side face change the items of its compound region. -/
theorem RoofFace.foldl_applyToFace {f : RoofFace α} {items : List (RegionItem α)}
    {patches : List (DividerPatch α)} (hkind : f.kind = .ridgeSide)
    (hregion : f.region = .compound items) (hnamed : ∀ p ∈ patches, p.faceId = f.id) :
    patches.foldl (fun f p => p.applyToFace f) f =
      { f with region := .compound (patches.foldl
          (fun items p => changeAt (.onLine p.a p.b) p.itemIndex items) items) } := by
  induction patches generalizing f items with
  | nil => exact hregion ▸ rfl
  | cons p rest ih =>
    have hp : p.applyToFace f =
        { f with region := .compound (changeAt (.onLine p.a p.b) p.itemIndex items) } := by
      rw [DividerPatch.applyToFace, if_pos (hnamed p List.mem_cons_self).symm, RoofFace.patched]
      simp only [hkind, hregion]
    rw [List.foldl_cons, hp, List.foldl_cons]
    exact ih hkind rfl fun q hq => hnamed q (List.mem_cons_of_mem p hq)

/-- The patches that put the dividers of one face on a ridge. -/
def RoofFace.patches (r : Ridge α) (f : RoofFace α) : List (DividerPatch α) :=
  (f.followers r.id).map fun i => ⟨f.id, r.id, Int.ofNat i, r.start, r.finish⟩

theorem RoofFace.faceId_of_mem_patches {r : Ridge α} {f : RoofFace α} {p : DividerPatch α}
    (h : p ∈ f.patches r) : p.faceId = f.id := by
  obtain ⟨i, -, rfl⟩ := List.mem_map.1 h
  rfl

/-- **The patches of a face for a ridge** make the face follow the ridge. -/
theorem RoofFace.foldl_patches (r : Ridge α) (f : RoofFace α) :
    (f.patches r).foldl (fun f p => p.applyToFace f) f = f.follow r := by
  obtain ⟨hnone, hfollow⟩ | ⟨items, hkind, hregion, -, hsome, hfollow⟩ := f.follow_cases r
  · rw [RoofFace.patches, hnone, hfollow]
    rfl
  · have hnamed : ∀ p ∈ f.patches r, p.faceId = f.id :=
      fun p hp => RoofFace.faceId_of_mem_patches hp
    have hitems := foldl_changeAt_zipIdx (RegionItem.follows r.id)
      (RegionItem.onLine r.start r.finish) [] items
    rw [List.nil_append, List.length_nil, ← hsome, List.nil_append] at hitems
    rw [RoofFace.foldl_applyToFace hkind hregion hnamed, hfollow, RoofFace.patches,
      List.foldl_map, hitems]
    rfl

/-- A face that has followed a ridge takes the patches that were planned for it before. -/
theorem RoofFace.patches_follow (r s : Ridge α) (f : RoofFace α) :
    (f.follow r).patches s = f.patches s := by
  rw [RoofFace.patches, RoofFace.patches, f.followers_follow, f.id_follow]

/-! ## What is planned -/

/-- Of the patches of a ridge, a face undergoes its own. -/
theorem Ridge.foldl_patches (r : Ridge α) {faces : List (RoofFace α)}
    (hids : (faces.map (·.id)).Nodup) {f g : RoofFace α} (hf : f ∈ faces) (hid : g.id = f.id)
    (hpatches : f.patches r = g.patches r) :
    (r.patches faces).foldl (fun f p => p.applyToFace f) g = g.follow r := by
  obtain ⟨before, later, rfl⟩ := List.append_of_mem hf
  rw [List.map_append, List.map_cons, List.nodup_middle, List.nodup_cons] at hids
  have hother : ∀ h ∈ before ++ later, ∀ p ∈ h.patches r, p.faceId ≠ g.id := by
    intro h hh p hp heq
    refine hids.1 ?_
    rw [← List.map_append]
    exact List.mem_map.2 ⟨h, hh, (RoofFace.faceId_of_mem_patches hp).symm.trans (heq.trans hid)⟩
  have hall : r.patches (before ++ f :: later) = before.flatMap (·.patches r) ++
      (g.patches r ++ later.flatMap (·.patches r)) := by
    rw [← hpatches, ← List.flatMap_cons, ← List.flatMap_append]
    rfl
  have hbefore : (before.flatMap (·.patches r)).foldl (fun f p => p.applyToFace f) g = g := by
    refine foldl_applyToFace_of_ne fun p hp => ?_
    obtain ⟨h, hh, hp⟩ := List.mem_flatMap.1 hp
    exact hother h (List.mem_append_left later hh) p hp
  have hlater : (later.flatMap (·.patches r)).foldl (fun f p => p.applyToFace f) (g.follow r) =
      g.follow r := by
    refine foldl_applyToFace_of_ne fun p hp => ?_
    obtain ⟨h, hh, hp⟩ := List.mem_flatMap.1 hp
    rw [RoofFace.id_follow]
    exact hother h (List.mem_append_right before hh) p hp
  rw [hall, List.foldl_append, List.foldl_append, hbefore, g.foldl_patches, hlater]

/-- The face with the items that follow some ridges put on them, one ridge after the other. -/
def RoofFace.followAll (ridges : List (Ridge α)) (f : RoofFace α) : RoofFace α :=
  ridges.foldl (fun f r => f.follow r) f

@[simp] theorem RoofFace.id_followAll (ridges : List (Ridge α)) (f : RoofFace α) :
    (f.followAll ridges).id = f.id := by
  induction ridges generalizing f with
  | nil => rfl
  | cons r rest ih => exact (ih (f.follow r)).trans (f.id_follow r)

/-- The patches of several ridges make a face follow all of them. -/
theorem foldl_flatMap_patches (ridges : List (Ridge α)) {faces : List (RoofFace α)}
    (hids : (faces.map (·.id)).Nodup) {f : RoofFace α} (hf : f ∈ faces) :
    (ridges.flatMap (·.patches faces)).foldl (fun f p => p.applyToFace f) f =
      f.followAll ridges := by
  -- the patches were planned for the face as it was
  have key (g : RoofFace α) (hid : g.id = f.id) (hpatches : ∀ r, f.patches r = g.patches r) :
      ridges.foldl (fun g r => (r.patches faces).foldl (fun f p => p.applyToFace f) g) g =
        g.followAll ridges := by
    induction ridges generalizing g with
    | nil => rfl
    | cons r rest ih =>
      rw [RoofFace.followAll, List.foldl_cons, List.foldl_cons,
        r.foldl_patches hids hf hid (hpatches r)]
      exact ih (g.follow r) ((g.id_follow r).trans hid)
        fun s => (hpatches s).trans (g.patches_follow r s).symm
  rw [List.foldl_flatMap]
  exact key f rfl fun _ => rfl

section Planning

variable [Scalar α]

/-- Whether a ridge was moved since `before`. -/
def Ridge.movedSince (before : MultiPlaneRoof α) (r : Ridge α) : Bool :=
  (before.ridge? r.id).any (·.movedFrom r)

/-- Whether a ridge was moved since `before` to a line that has a length. -/
def Ridge.carriesDividers (before : MultiPlaneRoof α) (r : Ridge α) : Bool :=
  r.movedSince before && r.length.toOption.any fun length => !decide (length ≤ Tolerance.geometry)

/-- What is planned for one ridge. -/
theorem Ridge.sync_eq_ok {before : MultiPlaneRoof α} {faces : List (RoofFace α)} {r : Ridge α}
    {plan : SyncPlan α} (h : r.sync (before.ridge? r.id) faces = .ok plan) :
    plan.patches = if r.carriesDividers before then r.patches faces else [] := by
  rw [Ridge.sync] at h
  split at h
  · rename_i hmoved
    obtain ⟨length, hlength, h⟩ := bind_eq_ok.1 h
    have hcarries : r.carriesDividers before = !decide (length ≤ Tolerance.geometry) := by
      rw [Ridge.carriesDividers, Ridge.movedSince, hmoved, hlength]
      rfl
    split at h
    · rename_i hshort
      obtain rfl := pure_eq_ok.1 h
      rw [hcarries, if_neg (by simp [hshort])]
    · rename_i hlong
      obtain rfl := pure_eq_ok.1 h
      rw [hcarries, if_pos (by simp [hlong])]
  · rename_i hmoved
    obtain rfl := pure_eq_ok.1 h
    have hcarries : r.carriesDividers before = false := by
      rw [Ridge.carriesDividers, Ridge.movedSince, Bool.eq_false_iff.2 hmoved, Bool.false_and]
    rw [hcarries]
    rfl

/-- **The patches of a plan** are those of the ridges that were moved to a line with a length,
in order. -/
theorem syncRidges_eq_ok {before after : MultiPlaneRoof α} {ridges : List (Ridge α)}
    {plan : SyncPlan α} (h : syncRidges before after ridges = .ok plan) :
    plan.patches =
      (ridges.filter (·.carriesDividers before)).flatMap (·.patches after.faces) := by
  induction ridges generalizing plan with
  | nil =>
    obtain rfl := Except.ok.inj h
    rfl
  | cons r rest ih =>
    simp only [syncRidges, bind_eq_ok, pure_eq_ok] at h
    obtain ⟨first, hfirst, others, hothers, rfl⟩ := h
    rw [SyncPlan.append, Ridge.sync_eq_ok hfirst, ih hothers, List.filter_cons]
    split
    · rw [List.flatMap_cons]
    · rfl

/-- There is a plan if the moved ridges have lengths. -/
theorem exists_syncRidges {before after : MultiPlaneRoof α} {ridges : List (Ridge α)}
    (h : ∀ r ∈ ridges, r.movedSince before = true → ∃ length, r.length = .ok length) :
    ∃ plan, syncRidges before after ridges = .ok plan := by
  induction ridges with
  | nil => exact ⟨.empty, rfl⟩
  | cons r rest ih =>
    have hfirst : ∃ plan, r.sync (before.ridge? r.id) after.faces = .ok plan := by
      rw [Ridge.sync]
      split
      · rename_i hmoved
        refine exists_bind_eq_ok (h r List.mem_cons_self hmoved) fun length => ?_
        split <;> exact ⟨_, rfl⟩
      · exact ⟨_, rfl⟩
    obtain ⟨first, hfirst⟩ := hfirst
    obtain ⟨others, hothers⟩ := ih fun s hs => h s (List.mem_cons_of_mem r hs)
    refine ⟨first.append others, ?_⟩
    simp only [syncRidges, bind_eq_ok, pure_eq_ok]
    exact ⟨first, hfirst, others, hothers, rfl⟩

/-- **A plan that is carried out** makes every face follow the ridges that were moved to a line
with a length. -/
theorem MultiPlaneRoof.applyTo_planSync {before after : MultiPlaneRoof α} {plan : SyncPlan α}
    (hplan : before.planSync after = .ok plan) (hids : (after.faces.map (·.id)).Nodup) :
    plan.applyTo after = { after with
      faces := after.faces.map
        fun f => f.followAll (after.ridges.filter (·.carriesDividers before)) } := by
  have hfaces : (after.faces.map fun f => plan.patches.foldl (fun f p => p.applyToFace f) f) =
      after.faces.map
        fun f => f.followAll (after.ridges.filter (·.carriesDividers before)) := by
    refine List.map_congr_left fun f hf => ?_
    rw [syncRidges_eq_ok hplan]
    exact foldl_flatMap_patches _ hids hf
  rw [plan.applyTo_eq_map hids, hfaces]

end Planning

end Housewright
