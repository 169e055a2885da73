import Housewright.Proofs.Command.FixedRoofs
import Housewright.Proofs.Roof.NoEdit

/-!
# `roof-fix` on a house that was not edited

If every roof that is asked for plans nothing when it is compared with itself, and no two roofs
share an id, then `roof-fix` finds nothing to do, and the house that it writes is the house.

* `run_roofFix_unedited` : what `roof-fix` leads to on such a house;
* `unedited_stays` : when a roof plans nothing, and when there is nothing to do on a house.
-/

namespace Housewright.Command

section Unedited

variable {h : House Float} {chosen : Option String}

/-- The roofs that are asked for are roofs of the house. -/
theorem mem_of_selected {roofs : List (MultiPlaneRoof Float)}
    (hselect : selectRoofs h chosen = .ok roofs) {m : MultiPlaneRoof Float} (hm : m ∈ roofs) :
    .multiPlane m ∈ h.roofs ∧ chosen.all (m.id == ·) = true := by
  rw [selectRoofs_eq_ok hselect] at hm
  obtain ⟨hm, hchosen⟩ := List.mem_filter.1 hm
  exact ⟨House.mem_multiPlaneRoofs_iff.1 hm, hchosen⟩

/-- Among distinct ids a multi-plane roof is found by its own. -/
theorem roofBefore?_of_mem (hids : (h.roofs.map Roof.id).Nodup) {m : MultiPlaneRoof Float}
    (hm : .multiPlane m ∈ h.roofs) : roofBefore? h m.id = some m := by
  have hroof : h.roof? m.id = some (.multiPlane m) := (find?_key_eq_some_iff hids).2 ⟨hm, rfl⟩
  rw [roofBefore?, hroof]
  rfl

/-- Nothing is done about a roof that plans nothing. -/
theorem fixRoof_of_plansNothing (hids : (h.roofs.map Roof.id).Nodup) {m : MultiPlaneRoof Float}
    (hm : .multiPlane m ∈ h.roofs) (hplan : m.PlansNothing) :
    fixRoof h m = .ok (some (⟨m.id, .empty⟩, m)) := by
  rw [fixRoof, roofBefore?_of_mem hids hm]
  show (m.planSync m >>= _) = _
  rw [MultiPlaneRoof.planSync_self_iff.2 hplan]
  rfl

/-- A house does not change if its own roofs are put into it. -/
theorem withFixedRoofs_of_mem (hids : (h.roofs.map Roof.id).Nodup)
    {fixed : List (MultiPlaneRoof Float)} (hfixed : ∀ m ∈ fixed, .multiPlane m ∈ h.roofs) :
    h.withFixedRoofs fixed = h := by
  have hroofs : (h.roofs.map fun r =>
      ((fixed.reverse.find? (·.id == r.id)).map Roof.multiPlane).getD r) = h.roofs := by
    refine (List.map_congr_left fun r hr => ?_).trans (List.map_id _)
    cases hfind : fixed.reverse.find? (·.id == r.id) with
    | none => rfl
    | some m =>
      obtain ⟨hm, hid⟩ := of_find?_key_eq_some hfind
      exact List.inj_on_of_nodup_map hids (hfixed m (List.mem_reverse.1 hm)) hr hid
  rw [House.withFixedRoofs, hroofs]

/-- **`roof-fix` on a house that was not edited** plans nothing, and writes the house as it is. -/
theorem run_roofFix_unedited {look : Path → Entry} {before after : Path} (output : Option Path)
    (hbefore : loadHouse look before = .ok h) (hafter : loadHouse look after = .ok h)
    (hids : (h.roofs.map Roof.id).Nodup)
    (hplans : ∀ m, .multiPlane m ∈ h.roofs → chosen.all (m.id == ·) = true → m.PlansNothing) :
    (Request.roofFix before after chosen output).run look = .ofStep (do
      let roofs ← selectRoofs h chosen
      let written ← output.mapM fun path => saveHouse look path h
      return ⟨.roofsFixed (roofs.map fun m => ⟨m.id, .empty⟩) output, written⟩) := by
  rw [run_roofFix hbefore hafter]
  cases hselect : selectRoofs h chosen with
  | error stop => rfl
  | ok roofs =>
    have hmem := fun m (hm : m ∈ roofs) => mem_of_selected hselect hm
    have hfound : roofs.mapM (fixRoof h) = .ok (roofs.map fun m => some (⟨m.id, .empty⟩, m)) :=
      mapM_eq_ok_map fun m hm => fixRoof_of_plansNothing hids (hmem m hm).1
        (hplans m (hmem m hm).1 (hmem m hm).2)
    have hfixes : (roofs.map fun m => some (RoofFix.mk m.id .empty, m)).filterMap id =
        roofs.map fun m => (⟨m.id, .empty⟩, m) := by
      simp [List.filterMap_map]
    have hself : h.withFixedRoofs roofs = h := withFixedRoofs_of_mem hids fun m hm => (hmem m hm).1
    simp only [bind, Except.bind, compute_eq_ok.2 hfound, hfixes, List.map_map,
      Function.comp_def, List.map_id', hself]

end Unedited

/-- **No edit, no patch.**  A plan for a roof that is compared with itself has nothing to do if
and only if every ridge stands where the first ridge with its id does, or is longer than the
tolerance and followed by no divider.  Distinct ids of ridges and ends that are numbers suffice.
On a house with distinct ids of roofs, all of which that are asked for plan nothing, `roof-fix`
finds nothing to do and writes the house as it is. -/
theorem unedited_stays (roof : MultiPlaneRoof Float) (h : House Float) :
    (roof.planSync roof = .ok .empty ↔ roof.PlansNothing) ∧
    ((roof.ridges.map (·.id)).Nodup → roof.EndsAreNumbers → roof.PlansNothing) ∧
    ∀ (look : Path → Entry) before after chosen output, loadHouse look before = .ok h →
      loadHouse look after = .ok h → (h.roofs.map Roof.id).Nodup →
      (∀ m, .multiPlane m ∈ h.roofs → chosen.all (m.id == ·) = true → m.PlansNothing) →
      (Request.roofFix before after chosen output).run look = .ofStep (do
        let roofs ← selectRoofs h chosen
        let written ← output.mapM fun path => saveHouse look path h
        return ⟨.roofsFixed (roofs.map fun m => ⟨m.id, .empty⟩) output, written⟩) :=
  ⟨MultiPlaneRoof.planSync_self_iff, MultiPlaneRoof.plansNothing_of_nodup,
    fun _ _ _ _ output hbefore hafter => run_roofFix_unedited output hbefore hafter⟩

/-- A house that was not edited is written as it is. -/
theorem valleyHouse_stays : fixRequest.run (edited valleyHouse.save valleyHouse.save) =
    .answered ⟨.roofsFixed [⟨"roof", .empty⟩] (some (.ofText "fixed.json")),
      some ⟨.ofText "fixed.json", valleyHouse.save⟩⟩ := by
  have h : House.load valleyHouse.save = .ok valleyHouse :=
    House.load_save_of_numbersReadBack nofun (by decide +kernel)
  obtain ⟨hbefore, hafter⟩ := load_edited h h
  obtain ⟨-, hnothing, hrun⟩ := unedited_stays .valleyDrawn valleyHouse
  have hplans := hnothing (by decide +kernel) (by decide +kernel)
  have hall : ∀ m, .multiPlane m ∈ valleyHouse.roofs → m.PlansNothing := by
    simpa [valleyHouse, House.underRoofs] using hplans
  have hselect : selectRoofs valleyHouse none = .ok [MultiPlaneRoof.valleyDrawn] := rfl
  rw [fixRequest, hrun _ _ _ _ _ hbefore hafter (by decide) fun m hm _ => hall m hm, hselect]
  simp only [bind, Except.bind, Option.mapM, saveHouse_edited]
  rfl

end Housewright.Command
