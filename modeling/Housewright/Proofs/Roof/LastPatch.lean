import Housewright.Proofs.Roof.PlanEffect

/-!
# The last patch counts

A plan can say anything: its patches may name faces and items that there are not, or one item
several times.  This file says what is left of a roof when any plan is carried out.

* `lastPatch?` is the last patch that names an item, and `RoofFace.overlaid` puts the divider at
  every index of a face on the line of the last patch that names it;
* `SyncPlan.applyTo_eq`: of several faces with one id the last one is overlaid, and all other
  faces stay as they are;
* `SyncPlan.applyTo_applyTo`: a plan that is carried out twice does what it does once;
* `MultiPlaneRoof.SameButLines` is equality but for the lines of written-out dividers, and
  `SyncPlan.sameButLines_applyTo` says that no plan changes anything else.
-/

namespace Housewright

variable {α : Type}

/-! ## Patches on the last face of an id -/

/-- Faces with a change made to the last face of every id. -/
def onLastOfId (g : RoofFace α → RoofFace α) : List (RoofFace α) → List (RoofFace α)
  | [] => []
  | f :: rest => (if f.id ∈ rest.map (·.id) then f else g f) :: onLastOfId g rest

theorem onLastOfId_eq_self {g : RoofFace α → RoofFace α} {faces : List (RoofFace α)}
    (h : ∀ f ∈ faces, g f = f) : onLastOfId g faces = faces := by
  induction faces with
  | nil => rfl
  | cons f rest ih =>
    rw [onLastOfId, h f List.mem_cons_self, ite_self,
      ih fun f' hf' => h f' (List.mem_cons_of_mem f hf')]

@[simp] theorem map_id_onLastOfId {g : RoofFace α → RoofFace α} (hg : ∀ f, (g f).id = f.id)
    (faces : List (RoofFace α)) : (onLastOfId g faces).map (·.id) = faces.map (·.id) := by
  induction faces with
  | nil => rfl
  | cons f rest ih =>
    rw [onLastOfId, List.map_cons, List.map_cons, ih]
    split
    · rfl
    · rw [hg]

/-- Two changes that keep the ids, one after the other. -/
theorem onLastOfId_onLastOfId {g g' : RoofFace α → RoofFace α} (hg : ∀ f, (g f).id = f.id)
    (faces : List (RoofFace α)) :
    onLastOfId g' (onLastOfId g faces) = onLastOfId (fun f => g' (g f)) faces := by
  induction faces with
  | nil => rfl
  | cons f rest ih =>
    rw [onLastOfId, onLastOfId, onLastOfId, map_id_onLastOfId hg, ih]
    by_cases hlater : f.id ∈ rest.map (·.id)
    · rw [if_pos hlater, if_pos hlater, if_pos hlater]
    · rw [if_neg hlater, if_neg hlater, hg, if_neg hlater]

theorem getElem?_onLastOfId (g : RoofFace α → RoofFace α) (faces : List (RoofFace α)) (k : ℕ) :
    (onLastOfId g faces)[k]? = faces[k]?.map fun f =>
      if f.id ∈ (faces.drop (k + 1)).map (·.id) then f else g f := by
  induction faces generalizing k with
  | nil => rfl
  | cons f rest ih =>
    cases k with
    | zero => rfl
    | succ k => exact ih k

theorem forall₂_onLastOfId {R : RoofFace α → RoofFace α → Prop} {g : RoofFace α → RoofFace α}
    (hrefl : ∀ f, R f f) (hg : ∀ f, R f (g f)) (faces : List (RoofFace α)) :
    List.Forall₂ R faces (onLastOfId g faces) := by
  induction faces with
  | nil => exact .nil
  | cons f rest ih =>
    refine .cons ?_ ih
    split
    · exact hrefl f
    · exact hg f

/-- **A patch goes to the last face** with the id that it names. -/
theorem DividerPatch.applyTo_eq_onLastOfId (p : DividerPatch α) (faces : List (RoofFace α)) :
    p.applyTo faces = onLastOfId p.applyToFace faces := by
  induction faces with
  | nil => rfl
  | cons f rest ih =>
    rw [applyTo, onLastOfId]
    by_cases hlater : rest.any (·.id == p.faceId) = true
    · have hhead : (if f.id ∈ rest.map (·.id) then f else p.applyToFace f) = f := by
        obtain ⟨g, hg, hid⟩ := List.any_eq_true.1 hlater
        split
        · rfl
        next hnone =>
          refine applyToFace_of_ne fun hf => hnone ?_
          exact hf ▸ beq_iff_eq.1 hid ▸ List.mem_map_of_mem hg
      rw [if_pos hlater, hhead, ih]
    · have hnamed : ∀ g ∈ rest, p.faceId ≠ g.id := fun g hg h =>
        hlater (List.any_eq_true.2 ⟨g, hg, beq_iff_eq.2 h.symm⟩)
      rw [if_neg hlater, onLastOfId_eq_self fun g hg => applyToFace_of_ne (hnamed g hg)]
      by_cases hf : f.id = p.faceId
      · have hlast : f.id ∉ rest.map (·.id) := by
          intro hmem
          obtain ⟨g, hg, hid⟩ := List.mem_map.1 hmem
          exact hnamed g hg (hf.symm.trans hid.symm)
        rw [if_pos (beq_iff_eq.2 hf), if_neg hlast, applyToFace, if_pos hf]
      · rw [if_neg (mt beq_iff_eq.1 hf), applyToFace, if_neg hf, ite_self]

theorem foldl_applyTo_eq_onLastOfId (patches : List (DividerPatch α))
    (faces : List (RoofFace α)) :
    patches.foldl (fun faces p => p.applyTo faces) faces =
      onLastOfId (fun f => patches.foldl (fun f p => p.applyToFace f) f) faces := by
  induction patches generalizing faces with
  | nil => exact (onLastOfId_eq_self fun _ _ => rfl).symm
  | cons p rest ih =>
    rw [List.foldl_cons, ih, p.applyTo_eq_onLastOfId, onLastOfId_onLastOfId p.id_applyToFace]
    rfl

/-! ## The last patch of an item -/

/-- Whether a patch names the item at an index of a face. -/
def DividerPatch.names (faceId : String) (i : ℕ) (p : DividerPatch α) : Bool :=
  p.faceId == faceId && p.itemIndex == Int.ofNat i

/-- The last of some patches that names the item at an index of a face. -/
def lastPatch? (patches : List (DividerPatch α)) (faceId : String) (i : ℕ) :
    Option (DividerPatch α) :=
  patches.reverse.find? (·.names faceId i)

theorem lastPatch?_concat (patches : List (DividerPatch α)) (p : DividerPatch α)
    (faceId : String) (i : ℕ) : lastPatch? (patches ++ [p]) faceId i =
      if p.names faceId i then some p else lastPatch? patches faceId i := by
  rw [lastPatch?, List.reverse_append, List.reverse_singleton, List.singleton_append,
    List.find?_cons]
  split
  next h => rw [if_pos h]
  next h => rw [h, if_neg Bool.false_ne_true]; rfl

/-- The item at an index of a face on the line of the last patch that names it. -/
def RegionItem.overlaid (patches : List (DividerPatch α)) (faceId : String) (i : ℕ)
    (item : RegionItem α) : RegionItem α :=
  match lastPatch? patches faceId i with
  | some p => item.onLine p.a p.b
  | none => item

/-- A ridge-side face with the dividers of its compound region on the lines of the last patches
that name them. -/
def RoofFace.overlaid (patches : List (DividerPatch α)) (f : RoofFace α) : RoofFace α :=
  match f.kind, f.region with
  | .ridgeSide, .compound items =>
    { f with region := .compound (items.mapIdx fun i item => item.overlaid patches f.id i) }
  | _, _ => f

/-- The line of a divider is replaced, and nothing is left of the one before. -/
theorem RegionItem.onLine_onLine (a b a' b' : Point α) (item : RegionItem α) :
    (item.onLine a b).onLine a' b' = item.onLine a' b' := by
  cases item <;> rfl

theorem RegionItem.overlaid_concat (patches : List (DividerPatch α)) (p : DividerPatch α)
    (faceId : String) (i : ℕ) (item : RegionItem α) :
    item.overlaid (patches ++ [p]) faceId i =
      if p.names faceId i then (item.overlaid patches faceId i).onLine p.a p.b
      else item.overlaid patches faceId i := by
  unfold overlaid
  rw [lastPatch?_concat]
  by_cases hp : p.names faceId i = true
  · rw [if_pos hp, if_pos hp]
    cases lastPatch? patches faceId i with
    | none => rfl
    | some q => exact (item.onLine_onLine q.a q.b p.a p.b).symm
  · rw [if_neg hp, if_neg hp]

/-- The entries after one of them was changed. -/
theorem getElem?_changeAt {β : Type} (g : β → β) (index : Int) (xs : List β) (i : ℕ) :
    (changeAt g index xs)[i]? = if index = Int.ofNat i then xs[i]?.map g else xs[i]? := by
  rw [changeAt]
  by_cases hneg : index < 0
  · have hne : ¬ index = Int.ofNat i := by
      simp only [Int.ofNat_eq_natCast]
      omega
    rw [if_pos hneg, if_neg hne]
  · obtain ⟨n, rfl⟩ := Int.eq_ofNat_of_zero_le (Int.not_lt.1 hneg)
    rw [if_neg hneg, Int.toNat_natCast, List.getElem?_modify, Int.ofNat_eq_natCast]
    simp only [Int.natCast_inj]
    by_cases hn : n = i
    · simp only [if_pos hn]
      rfl
    · simp only [if_neg hn]
      exact Option.map_id'

/-- One more patch on a face. -/
theorem RoofFace.applyToFace_overlaid (patches : List (DividerPatch α)) (p : DividerPatch α)
    (f : RoofFace α) : p.applyToFace (f.overlaid patches) = f.overlaid (patches ++ [p]) := by
  unfold RoofFace.overlaid DividerPatch.applyToFace RoofFace.patched
  cases hkind : f.kind with
  | hipCap => simp only [hkind, ite_self]
  | ridgeSide =>
    cases hregion : f.region with
    | halfPlanes planes => simp only [hkind, hregion, ite_self]
    | ridgeCap ridgeId cap => simp only [hkind, hregion, ite_self]
    | compound items =>
      by_cases hid : f.id = p.faceId
      · have hnames (i : ℕ) : p.names f.id i = (p.itemIndex == Int.ofNat i) := by
          rw [DividerPatch.names, hid, beq_self_eq_true, Bool.true_and]
        have hitems : changeAt (.onLine p.a p.b) p.itemIndex
              (items.mapIdx fun i item => item.overlaid patches f.id i) =
            items.mapIdx fun i item => item.overlaid (patches ++ [p]) f.id i := by
          refine List.ext_getElem? fun i => ?_
          rw [getElem?_changeAt, List.getElem?_mapIdx, List.getElem?_mapIdx]
          simp only [RegionItem.overlaid_concat, hnames, beq_iff_eq]
          split
          · rw [Option.map_map]
            rfl
          · rfl
        simp only [if_pos hid, hitems]
      · have hnames (i : ℕ) : p.names f.id i = false := by
          rw [DividerPatch.names, beq_eq_false_iff_ne.2 (Ne.symm hid), Bool.false_and]
        simp only [if_neg hid, RegionItem.overlaid_concat, hnames, Bool.false_eq_true, if_false]

@[simp] theorem RoofFace.overlaid_nil (f : RoofFace α) : f.overlaid [] = f := by
  unfold RoofFace.overlaid
  split
  next items hkind hregion =>
    have hitems : (items.mapIdx fun i item => item.overlaid [] f.id i) = items :=
      List.ext_getElem? fun i => by
        rw [List.getElem?_mapIdx]
        exact Option.map_id'
    rw [hitems, ← hregion]
  · rfl

/-- **Patches on one face**: the last one that names an item counts. -/
theorem RoofFace.foldl_applyToFace_eq_overlaid (patches : List (DividerPatch α))
    (f : RoofFace α) : patches.foldl (fun f p => p.applyToFace f) f = f.overlaid patches := by
  -- the patches that were already carried out are generalized in the induction
  suffices h : ∀ earlier, patches.foldl (fun f p => p.applyToFace f) (f.overlaid earlier) =
      f.overlaid (earlier ++ patches) by simpa using h []
  induction patches with
  | nil => simp
  | cons p rest ih =>
    intro earlier
    rw [List.foldl_cons, RoofFace.applyToFace_overlaid, ih, List.append_assoc,
      List.singleton_append]

/-- What patches may make of the item at an index of a face: it stays, or it is a divider that
gets the ends of the last patch that names it. -/
inductive RegionItem.Becomes (patches : List (DividerPatch α)) (faceId : String) (i : ℕ) :
    RegionItem α → RegionItem α → Prop
  | kept (item : RegionItem α) : Becomes patches faceId i item item
  | moved {p : DividerPatch α} {plane : HalfPlane α} {ridgeId : Option String}
    (hlast : lastPatch? patches faceId i = some p) :
    Becomes patches faceId i (.materialized plane ridgeId)
      (.materialized ⟨p.a, p.b, plane.keep⟩ ridgeId)

/-- What patches may make of a face: it stays, or it is a ridge-side face with a compound region,
and its items become others. -/
inductive RoofFace.Becomes (patches : List (DividerPatch α)) : RoofFace α → RoofFace α → Prop
  | kept (f : RoofFace α) : Becomes patches f f
  | items {f : RoofFace α} {items items' : List (RegionItem α)} (hkind : f.kind = .ridgeSide)
    (hregion : f.region = .compound items) (hlength : items.length = items'.length)
    (hitems : ∀ i item item', items[i]? = some item → items'[i]? = some item' →
      RegionItem.Becomes patches f.id i item item') :
    Becomes patches f { f with region := .compound items' }

theorem RegionItem.becomes_overlaid (patches : List (DividerPatch α)) (faceId : String) (i : ℕ)
    (item : RegionItem α) : item.Becomes patches faceId i (item.overlaid patches faceId i) := by
  unfold RegionItem.overlaid
  cases hlast : lastPatch? patches faceId i with
  | none => exact .kept item
  | some p =>
    cases item with
    | materialized plane ridgeId => exact .moved hlast
    | explicit | divider | perpCut => exact .kept _

/-- A face is overlaid in its compound region, if it is a ridge-side face, or not at all. -/
theorem RoofFace.overlaid_cases (patches : List (DividerPatch α)) (f : RoofFace α) :
    f.overlaid patches = f ∨ ∃ items, f.kind = .ridgeSide ∧ f.region = .compound items ∧
      f.overlaid patches = { f with
        region := .compound (items.mapIdx fun i item => item.overlaid patches f.id i) } := by
  unfold RoofFace.overlaid
  split
  next items hkind hregion => exact .inr ⟨items, hkind, hregion, rfl⟩
  · exact .inl rfl

theorem RoofFace.becomes_overlaid (patches : List (DividerPatch α)) (f : RoofFace α) :
    f.Becomes patches (f.overlaid patches) := by
  obtain h | ⟨items, hkind, hregion, h⟩ := f.overlaid_cases patches
  · rw [h]
    exact .kept f
  · rw [h]
    refine .items hkind hregion List.length_mapIdx.symm fun i item item' hitem hitem' => ?_
    rw [List.getElem?_mapIdx, hitem] at hitem'
    exact Option.some.inj hitem' ▸ item.becomes_overlaid patches f.id i

/-- **What any plan leaves of a roof**: of several faces with one id the last is overlaid with
the patches, and everything else stays. -/
theorem SyncPlan.applyTo_eq (plan : SyncPlan α) (roof : MultiPlaneRoof α) :
    plan.applyTo roof =
      { roof with faces := onLastOfId (·.overlaid plan.patches) roof.faces } := by
  rw [SyncPlan.applyTo, foldl_applyTo_eq_onLastOfId]
  simp only [RoofFace.foldl_applyToFace_eq_overlaid]

/-! ## Carrying a plan out again -/

theorem RegionItem.overlaid_overlaid (patches : List (DividerPatch α)) (faceId : String) (i : ℕ)
    (item : RegionItem α) :
    (item.overlaid patches faceId i).overlaid patches faceId i =
      item.overlaid patches faceId i := by
  unfold overlaid
  cases lastPatch? patches faceId i with
  | none => rfl
  | some p => exact item.onLine_onLine p.a p.b p.a p.b

@[simp] theorem RoofFace.id_overlaid (patches : List (DividerPatch α)) (f : RoofFace α) :
    (f.overlaid patches).id = f.id := by
  obtain h | ⟨items, -, -, h⟩ := f.overlaid_cases patches <;> rw [h]

theorem RoofFace.overlaid_overlaid (patches : List (DividerPatch α)) (f : RoofFace α) :
    (f.overlaid patches).overlaid patches = f.overlaid patches := by
  obtain h | ⟨items, hkind, -, h⟩ := f.overlaid_cases patches
  · rw [h, h]
  · have hitems : ((items.mapIdx fun i item => item.overlaid patches f.id i).mapIdx
          fun i item => item.overlaid patches f.id i) =
        items.mapIdx fun i item => item.overlaid patches f.id i := by
      rw [List.mapIdx_mapIdx]
      simp only [Function.comp_def, RegionItem.overlaid_overlaid]
    rw [h, RoofFace.overlaid]
    simp only [hkind, hitems]

/-- **A plan that is carried out twice** does what it does once. -/
theorem SyncPlan.applyTo_applyTo (plan : SyncPlan α) (roof : MultiPlaneRoof α) :
    plan.applyTo (plan.applyTo roof) = plan.applyTo roof := by
  have hagain : onLastOfId (·.overlaid plan.patches)
        (onLastOfId (·.overlaid plan.patches) roof.faces) =
      onLastOfId (·.overlaid plan.patches) roof.faces := by
    rw [onLastOfId_onLastOfId fun f => f.id_overlaid plan.patches]
    simp only [RoofFace.overlaid_overlaid]
  rw [plan.applyTo_eq roof, plan.applyTo_eq, hagain]

/-! ## Equality but for lines -/

theorem forall₂_trans {β : Type} {R : β → β → Prop}
    (hR : ∀ x y z, R x y → R y z → R x z)
    {xs ys zs : List β} (h : List.Forall₂ R xs ys) (h' : List.Forall₂ R ys zs) :
    List.Forall₂ R xs zs := by
  induction h generalizing zs with
  | nil => exact h'
  | cons hxy _ ih =>
    cases h' with
    | cons hyz hrest => exact .cons (hR _ _ _ hxy hyz) (ih hrest)

/-- Equal items, or dividers that keep the same side of different lines. -/
inductive RegionItem.SameButLine : RegionItem α → RegionItem α → Prop
  | same (item : RegionItem α) : SameButLine item item
  | divider (p q : HalfPlane α) (ridgeId : Option String) (hkeep : p.keep = q.keep) :
    SameButLine (.materialized p ridgeId) (.materialized q ridgeId)

/-- Faces that are equal but for the lines of written-out dividers. -/
structure RoofFace.SameButLines (f g : RoofFace α) : Prop where
  rest : g = { f with region := g.region }
  region : f.region = g.region ∨ ∃ items items', f.region = .compound items ∧
    g.region = .compound items' ∧ List.Forall₂ RegionItem.SameButLine items items'

/-- Roofs that are equal but for the lines of written-out dividers. -/
structure MultiPlaneRoof.SameButLines (roof other : MultiPlaneRoof α) : Prop where
  rest : other = { roof with faces := other.faces }
  faces : List.Forall₂ RoofFace.SameButLines roof.faces other.faces

theorem RegionItem.SameButLine.symm {item other : RegionItem α} (h : item.SameButLine other) :
    other.SameButLine item := by
  cases h with
  | same => exact .same _
  | divider p q ridgeId hkeep => exact .divider q p ridgeId hkeep.symm

theorem RegionItem.SameButLine.trans {item other third : RegionItem α}
    (h : item.SameButLine other) (h' : other.SameButLine third) : item.SameButLine third := by
  cases h with
  | same => exact h'
  | divider p q ridgeId hkeep =>
    cases h' with
    | same => exact .divider p q ridgeId hkeep
    | divider _ s _ hkeep' => exact .divider p s ridgeId (hkeep.trans hkeep')

namespace RoofFace.SameButLines

variable {f g h : RoofFace α}

theorem refl (f : RoofFace α) : f.SameButLines f := ⟨rfl, .inl rfl⟩

theorem symm (hfg : f.SameButLines g) : g.SameButLines f := by
  refine ⟨?_, ?_⟩
  · rw [hfg.rest]
  · obtain heq | ⟨items, items', hf, hg, hitems⟩ := hfg.region
    · exact .inl heq.symm
    · exact .inr ⟨items', items, hg, hf,
      hitems.flip.imp fun _ _ => RegionItem.SameButLine.symm⟩

theorem trans (hfg : f.SameButLines g) (hgh : g.SameButLines h) : f.SameButLines h := by
  refine ⟨?_, ?_⟩
  · rw [hgh.rest, hfg.rest]
  · obtain heq | ⟨items, items', hf, hg, hitems⟩ := hfg.region
    · rw [heq]
      exact hgh.region
    · obtain heq | ⟨others, others', hg', hh, hothers⟩ := hgh.region
      · exact .inr ⟨items, items', hf, heq ▸ hg, hitems⟩
      · obtain rfl := FaceRegion.compound.inj (hg.symm.trans hg')
        exact .inr ⟨items, others', hf, hh,
          forall₂_trans (fun _ _ _ hxy hyz => hxy.trans hyz) hitems hothers⟩

end RoofFace.SameButLines

namespace MultiPlaneRoof.SameButLines

variable {roof other third : MultiPlaneRoof α}

theorem symm (h : roof.SameButLines other) : other.SameButLines roof :=
  ⟨by rw [h.rest], h.faces.flip.imp fun _ _ => RoofFace.SameButLines.symm⟩

theorem trans (h : roof.SameButLines other) (h' : other.SameButLines third) :
    roof.SameButLines third :=
  ⟨by rw [h'.rest, h.rest], forall₂_trans (fun _ _ _ hxy hyz => hxy.trans hyz) h.faces h'.faces⟩

end MultiPlaneRoof.SameButLines

theorem RegionItem.Becomes.sameButLine {patches : List (DividerPatch α)} {faceId : String} {i : ℕ}
    {item item' : RegionItem α} (h : item.Becomes patches faceId i item') :
    item.SameButLine item' := by
  cases h with
  | kept => exact .same item
  | @moved p plane ridgeId _ => exact .divider plane ⟨p.a, p.b, plane.keep⟩ ridgeId rfl

theorem RoofFace.Becomes.sameButLines {patches : List (DividerPatch α)} {f f' : RoofFace α}
    (h : f.Becomes patches f') : f.SameButLines f' := by
  cases h with
  | kept => exact .refl f
  | @items items items' _ hregion hlength hitems =>
    refine ⟨rfl, .inr ⟨items, items', hregion, rfl, List.forall₂_iff_get.2 ⟨hlength, ?_⟩⟩⟩
    exact fun i hi hi' => (hitems i _ _ (List.getElem?_eq_getElem hi)
      (List.getElem?_eq_getElem hi')).sameButLine

/-- **No plan changes anything but lines of dividers.** -/
theorem SyncPlan.sameButLines_applyTo (plan : SyncPlan α) (roof : MultiPlaneRoof α) :
    roof.SameButLines (plan.applyTo roof) := by
  rw [plan.applyTo_eq]
  exact ⟨rfl, forall₂_onLastOfId .refl (fun f => (f.becomes_overlaid _).sameButLines) roof.faces⟩

end Housewright
