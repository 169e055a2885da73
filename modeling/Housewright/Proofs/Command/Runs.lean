import Housewright.Command.Run
import Housewright.Proofs.Construction.RoofReports
import Housewright.Proofs.SaveLoad

/-!
# What commands find out

A command loads a house and works on it, step by step.  For each command this file says what the
whole run leads to in terms of what its steps give.

* `eq_ok_of_answered_ok`: an answer that says that all is well was not made of a failure;
* `reportRoofs_eq_ok_iff`, `checkHouse_eq_ok_iff`, `buildHouse_eq_ok_iff`: what was found out, part
  by part;
* `run_validate`, `run_derive`, `run_roofCheck`: the runs on a house that is loaded.
-/

namespace Housewright

theorem House.mem_multiPlaneRoofs_iff {h : House Float} {r : MultiPlaneRoof Float} :
    r ∈ h.multiPlaneRoofs ↔ .multiPlane r ∈ h.roofs := by
  rw [House.multiPlaneRoofs, List.mem_filterMap]
  constructor
  · rintro ⟨roof, hroof, hr⟩
    cases roof with
    | multiPlane r' =>
      obtain rfl := Option.some_inj.1 hr
      exact hroof
    | _ => cases hr
  · intro hr
    exact ⟨_, hr, rfl⟩

namespace Command

/-! ## Outcomes -/

/-- An answer is the result of the command, or it tells of a failure. -/
theorem eq_ok_or_failed {s : Step Done} {d : Done} (h : Outcome.ofStep s = .answered d) :
    s = .ok d ∨ ∃ why, d = (Answer.failed why).done := by
  cases s with
  | ok done => exact .inl (congrArg Except.ok (Outcome.answered.inj h))
  | error stop =>
    cases stop with
    | failure why => exact .inr ⟨why, (Outcome.answered.inj h).symm⟩
    | breakdown cause => cases h

/-- An answer that says that all is well is the result of the command. -/
theorem eq_ok_of_answered_ok {s : Step Done} {d : Done} (h : Outcome.ofStep s = .answered d)
    (hok : d.answer.ok = true) : s = .ok d := by
  rcases eq_ok_or_failed h with hs | ⟨why, rfl⟩
  · exact hs
  · cases hok

/-- A computation as a step gives what it gives by itself. -/
theorem compute_eq_ok {β : Type} {c : Computed β} {b : β} : compute c = .ok b ↔ c = .ok b :=
  mapError_eq_ok

/-- A computation that fails breaks the command down. -/
theorem compute_eq_error {β : Type} {c : Computed β} {cause : GeometryError} :
    compute c = .error (.breakdown (.geometry cause)) ↔ c = .error cause := by
  cases c with
  | ok b => simp [compute, Except.mapError]
  | error e => simp [compute, Except.mapError]

/-! ## Reports on roofs -/

/-- **The reports on some roofs** are what is found on each of them, filed under its id. -/
theorem reportRoofs_eq_ok_iff {roofs : List (MultiPlaneRoof Float)}
    {reports : List (String × RoofReport Float)} :
    reportRoofs roofs = .ok reports ↔ ∃ found : List (String × RoofReport Float),
      List.Forall₂ (fun roof r => r.1 = MultiPlaneRoof.id roof ∧ roof.Finds r.2) roofs found ∧
        filed (·.1) (·.2) [] found = reports := by
  simp only [reportRoofs, bind_eq_ok, pure_eq_ok, mapM_eq_ok]
  refine exists_congr fun found => and_congr_left fun _ => ?_
  constructor
  · refine fun h => h.imp fun roof r => ?_
    rintro ⟨report, hreport, rfl⟩
    exact ⟨rfl, hreport⟩
  · refine fun h => h.imp fun roof r => ?_
    rintro ⟨hid, hreport⟩
    exact ⟨r.2, hreport, Prod.ext hid.symm rfl⟩

/-! ## A house that was checked or built -/

theorem checkHouse_eq_ok_iff {h : House Float} {tolerance : Float} {c : HouseCheck} :
    checkHouse h tolerance = .ok c ↔ c.name = h.name ∧
      c.structureReport = h.structureReport tolerance ∧
      h.refusedOpening? Tolerance.openingFit = .ok c.refusedOpening ∧
      reportRoofs h.multiPlaneRoofs = .ok c.roofs := by
  simp only [checkHouse, bind_eq_ok, pure_eq_ok]
  constructor
  · rintro ⟨refused, hrefused, roofs, hroofs, rfl⟩
    exact ⟨rfl, rfl, hrefused, hroofs⟩
  · obtain ⟨name, report, refused, roofs⟩ := c
    rintro ⟨rfl, rfl, hrefused, hroofs⟩
    exact ⟨refused, hrefused, roofs, hroofs, rfl⟩

theorem buildHouse_eq_ok_iff {h : House Float} {mode : ReportMode} {tolerance : Float}
    {r : HouseReport} :
    buildHouse h mode tolerance = .ok r ↔ r.name = h.name ∧
      h.build .binary64 mode tolerance = .ok r.built ∧
      r.built.shells.mapM WallShell.area = .ok r.shellAreas := by
  simp only [buildHouse, bind_eq_ok, pure_eq_ok, mapError_eq_ok, compute_eq_ok]
  constructor
  · rintro ⟨built, hbuilt, areas, hareas, rfl⟩
    exact ⟨rfl, hbuilt, hareas⟩
  · obtain ⟨name, built, areas⟩ := r
    rintro ⟨rfl, hbuilt, hareas⟩
    exact ⟨built, hbuilt, areas, hareas, rfl⟩

/-! ## Runs -/

/-- **A house that was checked.** -/
theorem runValidate_eq_ok_iff {look : Path → Entry} {path : Path} {tolerance : Float} {d : Done} :
    runValidate look path tolerance = .ok d ↔ ∃ h c, loadHouse look path = .ok h ∧
      checkHouse h tolerance = .ok c ∧ (Answer.checked c).done = d := by
  simp only [runValidate, bind_eq_ok, pure_eq_ok, compute_eq_ok]
  constructor
  · rintro ⟨h, hload, c, hc, hd⟩
    exact ⟨h, c, hload, hc, hd⟩
  · rintro ⟨h, c, hload, hc, hd⟩
    exact ⟨h, hload, c, hc, hd⟩

/-- **A house that was built.** -/
theorem runDerive_eq_ok_iff {look : Path → Entry} {path : Path} {mode : String} {tolerance : Float}
    {d : Done} : runDerive look path mode tolerance = .ok d ↔
      ∃ reportMode h r, Json.lookupWord? ReportMode.words (.str mode) = some reportMode ∧
        loadHouse look path = .ok h ∧ buildHouse h reportMode tolerance = .ok r ∧
        (Answer.built r).done = d := by
  unfold runDerive
  cases hmode : Json.lookupWord? ReportMode.words (.str mode) with
  | none => simp
  | some reportMode =>
    simp only [bind_eq_ok, pure_eq_ok, Option.some_inj]
    constructor
    · rintro ⟨h, hload, r, hr, hd⟩
      exact ⟨reportMode, h, r, rfl, hload, hr, hd⟩
    · rintro ⟨_, h, r, rfl, hload, hr, hd⟩
      exact ⟨h, hload, r, hr, hd⟩

section Runs

variable {look : Path → Entry} {path : Path} {h : House Float}
  (hload : loadHouse look path = .ok h)

include hload

/-- A house is checked, or the command breaks down. -/
theorem run_validate (tolerance : Float) : (Request.validate path tolerance).run look =
    .ofStep ((compute (checkHouse h tolerance)).map fun c => (Answer.checked c).done) := by
  simp only [Request.run, runValidate, hload]
  rfl

theorem run_validate_eq_answered_iff {tolerance : Float} {d : Done} :
    (Request.validate path tolerance).run look = .answered d ↔
      ∃ c, checkHouse h tolerance = .ok c ∧ (Answer.checked c).done = d := by
  rw [run_validate hload]
  cases hc : checkHouse h tolerance with
  | ok c => simp [compute, Except.mapError, Except.map, Outcome.ofStep]
  | error e => simp [compute, Except.mapError, Except.map, Outcome.ofStep]

/-- A house is built, or what stops the building stops the command. -/
theorem run_derive {mode : String} {reportMode : ReportMode}
    (hmode : Json.lookupWord? ReportMode.words (.str mode) = some reportMode) (tolerance : Float) :
    (Request.derive path mode tolerance).run look =
      .ofStep ((buildHouse h reportMode tolerance).map fun r => (Answer.built r).done) := by
  simp only [Request.run, runDerive, hmode, hload]
  rfl

theorem run_derive_throw (tolerance : Float) : (Request.derive path "throw" tolerance).run look =
    .ofStep ((buildHouse h .throw tolerance).map fun r => (Answer.built r).done) :=
  run_derive hload rfl tolerance

/-- The roofs that are asked for are reported on, or the command breaks down. -/
theorem run_roofCheck {roofId : Option String} {roofs : List (MultiPlaneRoof Float)}
    (hselect : selectRoofs h roofId = .ok roofs) : (Request.roofCheck path roofId).run look =
      .ofStep ((compute (reportRoofs roofs)).map fun reports =>
        (Answer.roofsChecked reports).done) := by
  have hsteps : runRoofCheck look path roofId =
      (compute (reportRoofs roofs)).map fun reports => (Answer.roofsChecked reports).done := by
    unfold runRoofCheck
    rw [hload]
    show (selectRoofs h roofId >>= _) = _
    rw [hselect]
    rfl
  exact congrArg Outcome.ofStep hsteps

/-- All multi-plane roofs are reported on, or the command breaks down. -/
theorem run_roofCheck_all : (Request.roofCheck path none).run look =
    .ofStep ((compute (reportRoofs h.multiPlaneRoofs)).map fun reports =>
      (Answer.roofsChecked reports).done) :=
  run_roofCheck hload rfl

theorem run_roofCheck_all_eq_answered_iff {reports : List (String × RoofReport Float)} :
    (Request.roofCheck path none).run look = .answered (Answer.roofsChecked reports).done ↔
      reportRoofs h.multiPlaneRoofs = .ok reports := by
  rw [run_roofCheck_all hload]
  cases reportRoofs h.multiPlaneRoofs with
  | ok found => simp [compute, Except.mapError, Except.map, Outcome.ofStep, Answer.done]
  | error e => simp [compute, Except.mapError, Except.map, Outcome.ofStep]

end Runs

/-! ## A house file -/

/-- The path of a house file. -/
def housePath : Path := .ofText "house.json"

/-- A directory with one file, and nothing else in it. -/
def onlyFile (text : String) : Path → Entry := (FileTree.ofFiles [("house.json", text)]).look

theorem onlyFile_housePath (text : String) : onlyFile text housePath = .file text := by
  have hpath : Path.ofText "house.json" = ⟨"", ["house.json"]⟩ := by decide +kernel
  simp [onlyFile, housePath, hpath, FileTree.ofFiles, FileTree.write, FileTree.destination,
    FileTree.look, FileTree.follow, FileTree.entry]

/-- A directory with the file of a house. -/
def houseFile (h : House Float) : Path → Entry := onlyFile h.save

/-- The house is found in its file. -/
theorem loadHouse_houseFile {h : House Float} (hopenings : ∀ o ∈ h.openings, o.PassedOnReadable)
    (hnumbers : h.encode.numbersReadBack = true) :
    loadHouse (houseFile h) housePath = .ok h := by
  simp only [loadHouse, houseFile, onlyFile_housePath,
    House.load_save_of_numbersReadBack hopenings hnumbers]
  rfl

end Command

end Housewright
