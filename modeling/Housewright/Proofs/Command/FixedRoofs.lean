import Housewright.Proofs.Command.SavedFiles
import Housewright.Proofs.Roof.DividerSync
import Housewright.Proofs.Roof.LastPatch

/-!
# What `roof-fix` does to the roofs of a house

`roof-fix` fixes the multi-plane roofs that it is asked for and then puts them into the house by
their ids: every roof of the house makes way for the last fixed roof with its id, of whatever kind
it is itself.

* `standIn?` is the roof that takes the place of all roofs with an id, and `fixed_by_roofFix` says
  that it is what is found among the fixed ones;
* `saved_by_roofFix` : what is loaded from the file that `roof-fix` writes, and when it is the
  house but for lines of dividers;
* `sharedId_replaces` : a flat roof that shares its id with a multi-plane roof is replaced by it.
-/

namespace Housewright

/-! ## Equality but for lines -/

/-- Equal roofs, or multi-plane roofs that are equal but for the lines of dividers. -/
inductive Roof.SameButLines {α : Type} : Roof α → Roof α → Prop
  | same (roof : Roof α) : SameButLines roof roof
  | lines {roof other : MultiPlaneRoof α} (h : roof.SameButLines other) :
    SameButLines (.multiPlane roof) (.multiPlane other)

/-- Lines of dividers make no difference to what is equal but for them. -/
theorem Roof.sameButLines_congr {α : Type} {roof : Roof α} {m m' : MultiPlaneRoof α}
    (h : m.SameButLines m') :
    roof.SameButLines (.multiPlane m') ↔ roof.SameButLines (.multiPlane m) := by
  constructor
  · rintro (_ | h')
    · exact .lines h.symm
    · exact .lines (h'.trans h.symm)
  · rintro (_ | h')
    · exact .lines h
    · exact .lines (h'.trans h)

namespace Command

/-! ## Fixed roofs -/

/-- The roof that `roof-fix` puts in the place of every roof with an id: the last multi-plane roof
with it, if the id is asked for, and if the first roof with it was a multi-plane roof before. -/
def standIn? (before after : House Float) (chosen : Option String) (id : String) :
    Option (MultiPlaneRoof Float) :=
  if chosen.all (id == ·) && (roofBefore? before id).isSome then
    after.multiPlaneRoofs.reverse.find? (·.id == id)
  else none

/-- The second roof is the first with the plan for its edit carried out. -/
def FixedTo (before : House Float) (m m' : MultiPlaneRoof Float) : Prop :=
  ∃ roof plan, roofBefore? before m.id = some roof ∧ roof.planSync m = .ok plan ∧
    m' = plan.applyTo m

theorem FixedTo.sameButLines {before : House Float} {m m' : MultiPlaneRoof Float}
    (h : FixedTo before m m') : m.SameButLines m' := by
  obtain ⟨_, plan, -, -, rfl⟩ := h
  exact plan.sameButLines_applyTo m

theorem FixedTo.id_eq {before : House Float} {m m' : MultiPlaneRoof Float}
    (h : FixedTo before m m') : m'.id = m.id := by
  obtain ⟨_, plan, -, -, rfl⟩ := h
  rfl

/-- A roof is left alone if there was no multi-plane roof with its id, and else it is fixed. -/
theorem fixRoof_eq_ok {before : House Float} {m : MultiPlaneRoof Float}
    {o : Option (RoofFix × MultiPlaneRoof Float)} (h : fixRoof before m = .ok o) :
    (roofBefore? before m.id = none ∧ o = none) ∨
      ((roofBefore? before m.id).isSome = true ∧
        ∃ fix m', o = some (fix, m') ∧ FixedTo before m m') := by
  rw [fixRoof] at h
  split at h
  next hnone => exact .inl ⟨hnone, (pure_eq_ok.1 h).symm⟩
  next roof hroof =>
    obtain ⟨plan, hplan, ho⟩ := bind_eq_ok.1 h
    obtain rfl := pure_eq_ok.1 ho
    exact .inr ⟨by rw [hroof]; rfl, _, _, rfl, roof, plan, hroof, hplan, rfl⟩

/-- The first fixed roof with an id belongs to the first roof with it. -/
theorem rel_find?_fixed {before : House Float} {roofs : List (MultiPlaneRoof Float)}
    {found : List (Option (RoofFix × MultiPlaneRoof Float))}
    (hfound : List.Forall₂ (fun m o => fixRoof before m = .ok o) roofs found) (key : String) :
    Option.Rel (FixedTo before)
      (if (roofBefore? before key).isSome then roofs.find? (·.id == key) else none)
      (((found.filterMap id).map (·.2)).find? (·.id == key)) := by
  induction hfound with
  | nil => split <;> exact .none
  | @cons m o rest found hm _ ih =>
    obtain ⟨hnone, rfl⟩ | ⟨hsome, fix, m', rfl, hfixed⟩ := fixRoof_eq_ok hm
    · -- a roof that is left alone has no id that fixed roofs are looked for by
      have hrest : (if (roofBefore? before key).isSome then
          (m :: rest).find? (·.id == key) else none) =
            if (roofBefore? before key).isSome then rest.find? (·.id == key) else none := by
        split
        next hkey =>
          refine List.find?_cons_of_neg fun h => ?_
          rw [← beq_iff_eq.1 h, hnone] at hkey
          cases hkey
        · rfl
      rw [hrest]
      exact ih
    · have hfixes : ((some (fix, m') :: found).filterMap id).map (·.2) =
          m' :: (found.filterMap id).map (·.2) := rfl
      rw [hfixes, List.find?_cons, List.find?_cons, hfixed.id_eq]
      cases hkey : m.id == key with
      | true =>
        rw [if_pos (beq_iff_eq.1 hkey ▸ hsome)]
        exact .some hfixed
      | false => exact ih

/-- The roofs that are asked for. -/
theorem selectRoofs_eq_ok {h : House Float} {chosen : Option String}
    {roofs : List (MultiPlaneRoof Float)} (hselect : selectRoofs h chosen = .ok roofs) :
    roofs = h.multiPlaneRoofs.filter fun m => chosen.all (m.id == ·) := by
  cases chosen with
  | none =>
    obtain rfl := Except.ok.inj hselect
    simp
  | some key =>
    simp only [selectRoofs] at hselect
    split at hselect
    · cases hselect
    · exact (Except.ok.inj hselect).symm

theorem find?_selected (chosen : Option String) (roofs : List (MultiPlaneRoof Float))
    (key : String) : (roofs.filter fun m => chosen.all (m.id == ·)).find? (·.id == key) =
      if chosen.all (key == ·) then roofs.find? (·.id == key) else none := by
  rw [List.find?_filter]
  cases hchosen : chosen.all (key == ·) with
  | true =>
    refine congrArg (List.find? · roofs) (funext fun m => ?_)
    by_cases hkey : m.id = key
    · simp [hkey, hchosen]
    · simp [hkey]
  | false =>
    refine List.find?_eq_none.2 fun m _ h => ?_
    obtain ⟨hm, hkey⟩ := of_decide_eq_true h
    rw [beq_iff_eq.1 hkey, hchosen] at hm
    cases hm

/-- The stand-in is looked for among the roofs that are asked for. -/
theorem standIn?_eq (before after : House Float) (chosen : Option String) (key : String) :
    standIn? before after chosen key =
      if (roofBefore? before key).isSome then
        (after.multiPlaneRoofs.filter fun m => chosen.all (m.id == ·)).reverse.find? (·.id == key)
      else none := by
  rw [standIn?, ← List.filter_reverse, find?_selected]
  cases chosen.all (key == ·) <;> simp

/-- **The fixed roofs in a file that `roof-fix` writes**: for every id, the last one with it is the
roof that stands in for it, fixed. -/
theorem fixed_by_roofFix {look : Path → Entry} {before after : Path} {chosen : Option String}
    {output : Option Path} {d : Done} {w : Written} {b a : House Float}
    (hbefore : loadHouse look before = .ok b) (hafter : loadHouse look after = .ok a)
    (hrun : (Request.roofFix before after chosen output).run look = .answered d)
    (hw : d.written = some w) : ∃ fixed, w.text = (a.withFixedRoofs fixed).save ∧
      ∀ key, Option.Rel (FixedTo b) (standIn? b a chosen key)
        (fixed.reverse.find? (·.id == key)) := by
  rcases eq_ok_or_failed hrun with hok | ⟨why, rfl⟩
  · simp only [runRoofFix, bind_eq_ok, pure_eq_ok, compute_eq_ok, mapM_eq_ok] at hok
    obtain ⟨b', hb, a', ha, roofs, hselect, found, hfound, written, hwritten, rfl⟩ := hok
    obtain rfl := Except.ok.inj (hbefore.symm.trans hb)
    obtain rfl := Except.ok.inj (hafter.symm.trans ha)
    obtain rfl : written = some w := hw
    obtain rfl := selectRoofs_eq_ok hselect
    refine ⟨(found.filterMap id).map (·.2), ?_, fun key => ?_⟩
    · cases output with
      | none => cases hwritten
      | some path =>
        obtain ⟨w', hw', hsome⟩ := bind_eq_ok.1 hwritten
        obtain rfl := Option.some.inj (pure_eq_ok.1 hsome)
        rw [(saveHouse_eq_ok.1 hw').2]
    · rw [standIn?_eq, ← List.map_reverse, ← List.filterMap_reverse]
      exact rel_find?_fixed (List.forall₂_reverse_iff.2 hfound) key
  · cases hw

/-! ## The house with its roofs fixed -/

theorem of_standIn?_eq_some {before after : House Float} {chosen : Option String} {key : String}
    {m : MultiPlaneRoof Float} (h : standIn? before after chosen key = some m) :
    m.id = key ∧ .multiPlane m ∈ after.roofs := by
  rw [standIn?] at h
  split at h
  · obtain ⟨hmem, hid⟩ := of_find?_key_eq_some h
    exact ⟨hid, House.mem_multiPlaneRoofs_iff.1 (List.mem_reverse.1 hmem)⟩
  · cases h

/-- What `roof-fix` puts in the place of a roof: the roof itself, or the roof that stands in for
its id, fixed. -/
inductive Replaced (before after : House Float) (chosen : Option String) :
    Roof Float → Roof Float → Prop
  | kept {r : Roof Float} (hnone : standIn? before after chosen r.id = none) :
    Replaced before after chosen r r
  | fixed {r : Roof Float} {m m' : MultiPlaneRoof Float}
    (hsome : standIn? before after chosen r.id = some m) (hfixed : FixedTo before m m') :
    Replaced before after chosen r (.multiPlane m')

section Replaced

variable {before after : House Float} {chosen : Option String}

theorem replaced_withFixedRoofs {fixed : List (MultiPlaneRoof Float)}
    (hfixed : ∀ key, Option.Rel (FixedTo before) (standIn? before after chosen key)
      (fixed.reverse.find? (·.id == key))) :
    List.Forall₂ (Replaced before after chosen) after.roofs
      (after.withFixedRoofs fixed).roofs := by
  refine List.forall₂_map_right_iff.2 (List.forall₂_same.2 fun r _ => ?_)
  have hrel := hfixed r.id
  cases hstand : standIn? before after chosen r.id with
  | none =>
    rw [hstand] at hrel
    cases hfind : fixed.reverse.find? (·.id == r.id) with
    | none => exact .kept hstand
    | some m' =>
      rw [hfind] at hrel
      cases hrel
  | some m =>
    rw [hstand] at hrel
    cases hfind : fixed.reverse.find? (·.id == r.id) with
    | none =>
      rw [hfind] at hrel
      cases hrel
    | some m' =>
      rw [hfind] at hrel
      cases hrel with
      | some hm => exact .fixed hstand hm

/-- A roof keeps its id. -/
theorem Replaced.id_eq {r r' : Roof Float} (h : Replaced before after chosen r r') :
    r'.id = r.id := by
  cases h with
  | kept => rfl
  | fixed hsome hfixed => exact hfixed.id_eq.trans (of_standIn?_eq_some hsome).1

/-- A roof stays but for lines if it is the stand-in for its id, but for lines, or has none. -/
theorem Replaced.sameButLines_iff {r r' : Roof Float} (h : Replaced before after chosen r r') :
    r.SameButLines r' ↔
      ∀ m, standIn? before after chosen r.id = some m → r.SameButLines (.multiPlane m) := by
  cases h with
  | kept hnone =>
    refine iff_of_true (.same r) fun m hm => ?_
    rw [hnone] at hm
    cases hm
  | fixed hsome hfixed =>
    rw [Roof.sameButLines_congr hfixed.sameButLines, hsome]
    simp

theorem forall₂_iff_of_forall₂ {β γ : Type} {R S : β → γ → Prop} {Q : β → Prop} {xs : List β}
    {ys : List γ} (h : List.Forall₂ R xs ys) (hQ : ∀ x y, R x y → (S x y ↔ Q x)) :
    List.Forall₂ S xs ys ↔ ∀ x ∈ xs, Q x := by
  induction h with
  | nil => simp
  | cons hxy _ ih => simp [hQ _ _ hxy, ih]

/-- Among roofs with distinct ids only the roof itself stands in for its id. -/
theorem eq_standIn?_of_nodup (hids : (after.roofs.map Roof.id).Nodup) {r : Roof Float}
    (hr : r ∈ after.roofs) {m : MultiPlaneRoof Float}
    (hm : standIn? before after chosen r.id = some m) : r = .multiPlane m := by
  obtain ⟨hid, hmem⟩ := of_standIn?_eq_some hm
  exact List.inj_on_of_nodup_map hids hr hmem hid.symm

end Replaced

/-! ## Numbers of fixed roofs -/

/-- A planned patch puts a divider on a ridge of the roof. -/
theorem exists_ridge_of_mem_patches {before after : MultiPlaneRoof Float} {plan : SyncPlan Float}
    (hplan : before.planSync after = .ok plan) {p : DividerPatch Float} (hp : p ∈ plan.patches) :
    ∃ r ∈ after.ridges, p.a = r.start ∧ p.b = r.finish := by
  rw [syncRidges_eq_ok hplan] at hp
  obtain ⟨r, hr, hp⟩ := List.mem_flatMap.1 hp
  obtain ⟨f, -, hp⟩ := List.mem_flatMap.1 hp
  obtain ⟨i, -, rfl⟩ := List.mem_map.1 hp
  exact ⟨r, (List.mem_filter.1 hr).1, rfl, rfl⟩

open Json

theorem mem_numbers_of_item {patches : List (DividerPatch Float)} {faceId : String} {i : ℕ}
    {item item' : RegionItem Float} (h : item.Becomes patches faceId i item') {x : Float}
    (hx : x ∈ item'.encode.numbers) : x ∈ item.encode.numbers ∨
      ∃ p ∈ patches, x ∈ p.a.encode.numbers ∨ x ∈ p.b.encode.numbers := by
  cases h with
  | kept => exact .inl hx
  | @moved p plane ridgeId hlast =>
    have hp : p ∈ patches := List.mem_reverse.1 (List.mem_of_find?_eq_some hlast)
    refine .inr ⟨p, hp, ?_⟩
    cases ridgeId <;>
      simpa [RegionItem.encode, RegionItem.members, HalfPlane.members, ofOption, numbers,
        memberNumbers] using hx

theorem mem_numbers_compound {items : List (RegionItem Float)} {x : Float} :
    x ∈ (FaceRegion.compound items).encode.numbers ↔ ∃ item ∈ items, x ∈ item.encode.numbers := by
  simp [FaceRegion.encode, FaceRegion.members, ofList, numbers, memberNumbers, mem_elementNumbers]

/-- The numbers of a face are those of its region, and others. -/
theorem mem_numbers_face {f : RoofFace Float} {x : Float} : x ∈ f.encode.numbers ↔
    x ∈ ({ f with region := .compound [] } : RoofFace Float).encode.numbers ∨
      x ∈ f.region.encode.numbers := by
  simp [RoofFace.encode, numbers, memberNumbers, mem_numbers_compound, or_assoc]

theorem mem_numbers_of_face {patches : List (DividerPatch Float)} {f f' : RoofFace Float}
    (h : f.Becomes patches f') {x : Float} (hx : x ∈ f'.encode.numbers) :
    x ∈ f.encode.numbers ∨ ∃ p ∈ patches, x ∈ p.a.encode.numbers ∨ x ∈ p.b.encode.numbers := by
  cases h with
  | kept => exact .inl hx
  | @items items items' hkind hregion hlength hitems =>
    obtain hx | hx := mem_numbers_face.1 hx
    · exact .inl (mem_numbers_face.2 (.inl hx))
    · obtain ⟨item', hitem', hx⟩ := mem_numbers_compound.1 hx
      obtain ⟨i, hi, rfl⟩ := List.getElem_of_mem hitem'
      have hitem := List.getElem?_eq_getElem (hlength.symm ▸ hi)
      refine (mem_numbers_of_item (hitems i _ _ hitem (List.getElem?_eq_getElem hi)) hx).imp_left
        fun hx => mem_numbers_face.2 (.inr ?_)
      rw [hregion]
      exact mem_numbers_compound.2 ⟨_, List.getElem_mem _, hx⟩

/-- The numbers of a multi-plane roof are those of its ridges and faces, and others. -/
theorem mem_numbers_multiPlane {m : MultiPlaneRoof Float} {x : Float} :
    x ∈ (Roof.multiPlane m).encode.numbers ↔
      x ∈ (Roof.multiPlane { m with ridges := [], faces := [] }).encode.numbers ∨
        (∃ r ∈ m.ridges, x ∈ r.encode.numbers) ∨ ∃ f ∈ m.faces, x ∈ f.encode.numbers := by
  simp [Roof.encode, Roof.members, ofList, numbers, memberNumbers, mem_elementNumbers, or_assoc]

/-- **A fixed roof has no number that it did not have before.** -/
theorem FixedTo.mem_numbers {before : House Float} {m m' : MultiPlaneRoof Float}
    (h : FixedTo before m m') {x : Float} (hx : x ∈ (Roof.multiPlane m').encode.numbers) :
    x ∈ (Roof.multiPlane m).encode.numbers := by
  obtain ⟨roof, plan, -, hplan, rfl⟩ := h
  obtain hx | hx | ⟨f', hf', hx⟩ := mem_numbers_multiPlane.1 hx
  · exact mem_numbers_multiPlane.2 (.inl hx)
  · exact mem_numbers_multiPlane.2 (.inr (.inl hx))
  · rw [plan.applyTo_eq] at hf'
    obtain ⟨f, hf, hbecomes⟩ := exists_of_forall₂_right
      (forall₂_onLastOfId .kept (RoofFace.becomes_overlaid plan.patches) m.faces) hf'
    obtain hx | ⟨p, hp, hx⟩ := mem_numbers_of_face hbecomes hx
    · exact mem_numbers_multiPlane.2 (.inr (.inr ⟨f, hf, hx⟩))
    · obtain ⟨r, hr, ha, hb⟩ := exists_ridge_of_mem_patches hplan hp
      rw [ha, hb] at hx
      have hridge : x ∈ r.encode.numbers := by
        simp only [Ridge.encode, numbers, memberNumbers, List.mem_append]
        tauto
      exact mem_numbers_multiPlane.2 (.inr (.inl ⟨r, hr, hridge⟩))

/-- The numbers of a house are those of its roofs, and others. -/
theorem mem_numbers_house {h : House Float} {x : Float} : x ∈ h.encode.numbers ↔
    x ∈ ({ h with roofs := [] } : House Float).encode.numbers ∨
      ∃ r ∈ h.roofs, x ∈ r.encode.numbers := by
  simp only [House.encode, ofList, numbers, memberNumbers, List.mem_append, mem_elementNumbers,
    List.mem_map, exists_exists_and_eq_and, List.not_mem_nil, false_and, exists_false, false_or,
    or_false]
  grind

/-- A house in which roofs were fixed has no number that it did not have before. -/
theorem mem_numbers_withFixedRoofs {before after : House Float} {chosen : Option String}
    {fixed : List (MultiPlaneRoof Float)}
    (hroofs : List.Forall₂ (Replaced before after chosen) after.roofs
      (after.withFixedRoofs fixed).roofs) {x : Float}
    (hx : x ∈ (after.withFixedRoofs fixed).encode.numbers) : x ∈ after.encode.numbers := by
  obtain hx | ⟨r', hr', hx⟩ := mem_numbers_house.1 hx
  · exact mem_numbers_house.2 (.inl hx)
  · obtain ⟨r, hr, hreplaced⟩ := exists_of_forall₂_right hroofs hr'
    refine mem_numbers_house.2 (.inr ?_)
    cases hreplaced with
    | kept => exact ⟨_, hr, hx⟩
    | fixed hsome hfixed => exact ⟨_, (of_standIn?_eq_some hsome).2, hfixed.mem_numbers hx⟩

/-! ## What is saved -/

section Saved

variable {look : Path → Entry} {before after : Path} {chosen : Option String}
  {output : Option Path} {d : Done} {w : Written} {b a : House Float}

/-- The house that is loaded from what `roof-fix` writes is the house with roofs replaced. -/
theorem load_written (hbefore : loadHouse look before = .ok b)
    (hafter : loadHouse look after = .ok a) (hfinite : ∀ x ∈ a.encode.numbers, x.isFinite = true)
    (hrun : (Request.roofFix before after chosen output).run look = .answered d)
    (hw : d.written = some w) : ∃ saved, House.load w.text = .ok saved ∧
      saved = { a with roofs := saved.roofs } ∧
      List.Forall₂ (Replaced b a chosen) a.roofs saved.roofs := by
  obtain ⟨fixed, htext, hfixed⟩ := fixed_by_roofFix hbefore hafter hrun hw
  obtain ⟨text, -, hload⟩ := load_of_loadHouse hafter
  have hopenings : ∀ o ∈ a.openings, o.PassedOnReadable := House.passedOnReadable_of_load hload
  have hroofs := replaced_withFixedRoofs hfixed
  refine ⟨a.withFixedRoofs fixed, ?_, rfl, hroofs⟩
  rw [htext]
  exact (House.leftIn_save (h := a.withFixedRoofs fixed) hopenings).intact.2 fun x hx =>
    hfinite x (mem_numbers_withFixedRoofs hroofs hx)

/-- **What `roof-fix` saves.**  From the file that it writes the house is loaded that it loaded
last, with other roofs, as many and with the same ids.  Every roof stays, or the last multi-plane
roof with its id takes its place, with the plan for its edit carried out.  So nothing but lines of
dividers changes if and only if every roof is, but for such lines, the one that takes the place of
its id; and that is so if the ids of all roofs are distinct. -/
theorem saved_by_roofFix (hbefore : loadHouse look before = .ok b)
    (hafter : loadHouse look after = .ok a) (hfinite : ∀ x ∈ a.encode.numbers, x.isFinite = true)
    (hrun : (Request.roofFix before after chosen output).run look = .answered d)
    (hw : d.written = some w) : ∃ saved, House.load w.text = .ok saved ∧
      saved = { a with roofs := saved.roofs } ∧
      saved.roofs.map Roof.id = a.roofs.map Roof.id ∧
      List.Forall₂ (Replaced b a chosen) a.roofs saved.roofs ∧
      (List.Forall₂ Roof.SameButLines a.roofs saved.roofs ↔ ∀ r ∈ a.roofs, ∀ m,
        standIn? b a chosen r.id = some m → r.SameButLines (.multiPlane m)) ∧
      ((a.roofs.map Roof.id).Nodup → List.Forall₂ Roof.SameButLines a.roofs saved.roofs) := by
  obtain ⟨saved, hload, hrest, hroofs⟩ := load_written hbefore hafter hfinite hrun hw
  have hids : saved.roofs.map Roof.id = a.roofs.map Roof.id :=
    map_eq_map_of_forall₂ (hroofs.imp fun _ _ h => h.id_eq)
  have hframe : List.Forall₂ Roof.SameButLines a.roofs saved.roofs ↔ ∀ r ∈ a.roofs, ∀ m,
      standIn? b a chosen r.id = some m → r.SameButLines (.multiPlane m) :=
    forall₂_iff_of_forall₂ hroofs fun _ _ h => h.sameButLines_iff
  refine ⟨saved, hload, hrest, hids, hroofs, hframe, fun hnodup => hframe.2 fun r hr m hm => ?_⟩
  obtain rfl := eq_standIn?_of_nodup hnodup hr hm
  exact .same _

end Saved

/-! ## Runs -/

/-- What `roof-fix` leads to once both versions of the house are loaded. -/
theorem run_roofFix {look : Path → Entry} {before after : Path} {b a : House Float}
    (hbefore : loadHouse look before = .ok b) (hafter : loadHouse look after = .ok a)
    (chosen : Option String) (output : Option Path) :
    (Request.roofFix before after chosen output).run look = .ofStep (do
      let roofs ← selectRoofs a chosen
      let fixes := (← compute (roofs.mapM (fixRoof b))).filterMap id
      let written ← output.mapM fun path =>
        saveHouse look path (a.withFixedRoofs (fixes.map (·.2)))
      return ⟨.roofsFixed (fixes.map (·.1)) output, written⟩) := by
  simp only [Request.run, runRoofFix, hbefore, hafter]
  rfl

/-- The files of an edit are loaded. -/
theorem load_edited {b a : House Float} (hb : House.load b.save = .ok b)
    (ha : House.load a.save = .ok a) :
    loadHouse (edited b.save a.save) (.ofText "before.json") = .ok b ∧
      loadHouse (edited b.save a.save) (.ofText "after.json") = .ok a := by
  obtain ⟨hbefore, hafter, -⟩ := edited_files b.save a.save
  rw [loadHouse, loadHouse, hbefore, hafter]
  exact ⟨mapError_eq_ok.2 hb, mapError_eq_ok.2 ha⟩

/-- A third file is written. -/
theorem saveHouse_edited (before after : String) (h : House Float) :
    saveHouse (edited before after) (.ofText "fixed.json") h =
      .ok ⟨.ofText "fixed.json", h.save⟩ :=
  saveHouse_eq_ok.2 ⟨(edited_files before after).2.2, rfl⟩

/-- A file is written if the roofs can be fixed. -/
theorem exists_written {b a : House Float} (hb : House.load b.save = .ok b)
    (ha : House.load a.save = .ok a)
    (hfixed : ∃ found, a.multiPlaneRoofs.mapM (fixRoof b) = .ok found) :
    ∃ d w, fixRequest.run (edited b.save a.save) = .answered d ∧ d.written = some w := by
  obtain ⟨hbefore, hafter⟩ := load_edited hb ha
  obtain ⟨found, hfound⟩ := hfixed
  let fixes := found.filterMap id
  refine ⟨⟨.roofsFixed (fixes.map (·.1)) (some (.ofText "fixed.json")), some ⟨.ofText "fixed.json",
    (a.withFixedRoofs (fixes.map (·.2))).save⟩⟩, _, ?_, rfl⟩
  rw [fixRequest, run_roofFix hbefore hafter, selectRoofs]
  simp only [bind, Except.bind, pure, Except.pure, compute_eq_ok.2 hfound, Option.mapM,
    saveHouse_edited]
  rfl

/-- A house before its main ridge was moved. -/
def valleyHouse : House Float :=
  .underRoofs [.multiPlane MultiPlaneRoof.valleyDrawn, .flat ⟨"flat", "ground", none, 0.2, 0.0⟩]

/-- The house after that. -/
def valleyHouseMoved : House Float :=
  .underRoofs [.multiPlane MultiPlaneRoof.valleyMainMoved, .flat ⟨"flat", "ground", none, 0.2, 0.0⟩]

/-- The ridge is moved, its divider follows, and nothing else changes in the house. -/
theorem valleyHouse_saved : ∃ d w saved,
    fixRequest.run (edited valleyHouse.save valleyHouseMoved.save) = .answered d ∧
      d.written = some w ∧ House.load w.text = .ok saved ∧
      List.Forall₂ Roof.SameButLines valleyHouseMoved.roofs saved.roofs := by
  have hb : House.load valleyHouse.save = .ok valleyHouse :=
    House.load_save_of_numbersReadBack nofun (by decide +kernel)
  have ha : House.load valleyHouseMoved.save = .ok valleyHouseMoved :=
    House.load_save_of_numbersReadBack nofun (by decide +kernel)
  have hfixed : ∃ found, valleyHouseMoved.multiPlaneRoofs.mapM (fixRoof valleyHouse) =
      .ok found := exists_eq_ok_of_isSome (by decide +kernel)
  obtain ⟨d, w, hrun, hw⟩ := exists_written hb ha hfixed
  obtain ⟨hbefore, hafter⟩ := load_edited hb ha
  obtain ⟨saved, hload, -, -, -, -, hsame⟩ :=
    saved_by_roofFix hbefore hafter (by decide +kernel) hrun hw
  exact ⟨d, w, saved, hrun, hw, hload, hsame (by decide)⟩

/-- A house under a multi-plane roof and a flat one, both of one id. -/
def sharedId : House Float :=
  .underRoofs [.multiPlane (.bare "roof" []), .flat ⟨"roof", "ground", none, 0.2, 0.0⟩]

/-- **A flat roof is replaced** by the multi-plane roof with its id, although nothing was edited. -/
theorem sharedId_replaces : (∀ x ∈ sharedId.encode.numbers, x.isFinite = true) ∧
    ∃ d w saved, fixRequest.run (edited sharedId.save sharedId.save) = .answered d ∧
      d.written = some w ∧ House.load w.text = .ok saved ∧
      ¬ List.Forall₂ Roof.SameButLines sharedId.roofs saved.roofs := by
  have hfinite : ∀ x ∈ sharedId.encode.numbers, x.isFinite = true := by decide +kernel
  have h : House.load sharedId.save = .ok sharedId :=
    House.load_save_of_numbersReadBack nofun (by decide +kernel)
  have hfixed : ∃ found, sharedId.multiPlaneRoofs.mapM (fixRoof sharedId) = .ok found :=
    exists_eq_ok_of_isSome (by decide +kernel)
  obtain ⟨d, w, hrun, hw⟩ := exists_written h h hfixed
  obtain ⟨hbefore, hafter⟩ := load_edited h h
  obtain ⟨saved, hload, -, hroofs⟩ := load_written hbefore hafter hfinite hrun hw
  refine ⟨hfinite, d, w, saved, hrun, hw, hload, fun hsame => ?_⟩
  have hstand : standIn? sharedId sharedId none "roof" = some (.bare "roof" []) := by rfl
  have hframe := (forall₂_iff_of_forall₂ hroofs fun _ _ h => h.sameButLines_iff).1 hsame
  cases hframe (.flat ⟨"roof", "ground", none, 0.2, 0.0⟩)
    (by simp [sharedId, House.underRoofs]) _ hstand

end Command

end Housewright
