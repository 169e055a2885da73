import Housewright.Proofs.Command.Runs
import Housewright.Proofs.LostNumbers

/-!
# House files that are written

Every house that was loaded can be saved, and `roof-fix` saves the house that it loaded last,
with its roofs fixed.  What such a file leads to when it is loaded is said by `House.LeftIn`.

## Main results

* `written_by_roofFix` : what `roof-fix` writes is a house with the openings that it loaded.
* `saved_files_read` : what is loaded from the files that are saved.
* `groundless_unreadable` : a file that `roof-fix` writes and that cannot be loaded again.
-/

namespace Housewright.Command

/-- A house that was loaded stood in a file. -/
theorem load_of_loadHouse {look : Path → Entry} {path : Path} {h : House Float}
    (hload : loadHouse look path = .ok h) : ∃ text, look path = .file text ∧
      House.load text = .ok h := by
  rw [loadHouse] at hload
  split at hload
  · cases hload
  · cases hload
  next text htext => exact ⟨text, htext, mapError_eq_ok.1 hload⟩

/-- What is written was asked for, and is the text that is saved for the house. -/
theorem saveHouse_eq_ok {look : Path → Entry} {path : Path} {h : House Float} {w : Written} :
    saveHouse look path h = .ok w ↔ writeFault? look path = none ∧ w = ⟨path, h.save⟩ := by
  rw [saveHouse]
  split
  next fault hfault => simp [hfault]
  next hnone => simp [hnone, eq_comm]

/-- **What `roof-fix` writes** is the house that it loaded last, with fixed roofs in it. -/
theorem written_by_roofFix {look : Path → Entry} {before after : Path} {roofId : Option String}
    {output : Option Path} {d : Done} {w : Written}
    (hrun : (Request.roofFix before after roofId output).run look = .answered d)
    (hw : d.written = some w) : ∃ h fixed, loadHouse look after = .ok h ∧
      output = some w.path ∧ w.text = (h.withFixedRoofs fixed).save := by
  rcases eq_ok_or_failed hrun with hok | ⟨why, rfl⟩
  · simp only [runRoofFix, bind_eq_ok, pure_eq_ok] at hok
    obtain ⟨_, -, h, hload, _, -, fixes, -, written, hwritten, rfl⟩ := hok
    obtain rfl : written = some w := hw
    cases output with
    | none => cases hwritten
    | some path =>
      obtain ⟨w', hw', hsome⟩ := bind_eq_ok.1 hwritten
      obtain ⟨-, rfl⟩ := saveHouse_eq_ok.1 hw'
      obtain rfl := Option.some.inj (pure_eq_ok.1 hsome)
      exact ⟨h, _, hload, rfl, rfl⟩
  · cases hw

/-- **What comes back from the files that are saved** for a house that was loaded: from the house
itself, and from the house with fixed roofs that `roof-fix` writes. -/
theorem saved_files_read (text : String) (h : House Float) (hload : House.load text = .ok h) :
    h.LeftIn h.save ∧
    ∀ look before after roofId output d w, look after = .file text →
      (Request.roofFix before after roofId output).run look = .answered d → d.written = some w →
      ∃ fixed, w.text = (h.withFixedRoofs fixed).save ∧ (h.withFixedRoofs fixed).LeftIn w.text := by
  have hopenings : ∀ o ∈ h.openings, o.PassedOnReadable := House.passedOnReadable_of_load hload
  refine ⟨House.leftIn_save hopenings, fun look before after roofId output d w hfile hrun hw => ?_⟩
  obtain ⟨h', fixed, hload', -, htext⟩ := written_by_roofFix hrun hw
  obtain ⟨text', hfile', htext'⟩ := load_of_loadHouse hload'
  obtain rfl : text = text' := by simpa [hfile] using hfile'
  obtain rfl : h = h' := Except.ok.inj (hload.symm.trans htext')
  refine ⟨fixed, htext, ?_⟩
  rw [htext]
  exact House.leftIn_save (h := h.withFixedRoofs fixed) hopenings

/-! ## Numbers that were there -/

theorem withFixedRoofs_nil (h : House Float) : h.withFixedRoofs [] = h := by
  simp [House.withFixedRoofs]

/-- The files of an edit: a house before it and after it. -/
def edited (before after : String) : Path → Entry :=
  (FileTree.ofFiles [("before.json", before), ("after.json", after)]).look

/-- Both versions of the house can be read, and a third file can be written. -/
theorem edited_files (before after : String) :
    edited before after (.ofText "before.json") = .file before ∧
      edited before after (.ofText "after.json") = .file after ∧
      writeFault? (edited before after) (.ofText "fixed.json") = none := by
  have hbefore : Path.ofText "before.json" = ⟨"", ["before.json"]⟩ := by decide +kernel
  have hafter : Path.ofText "after.json" = ⟨"", ["after.json"]⟩ := by decide +kernel
  have hfixed : Path.ofText "fixed.json" = ⟨"", ["fixed.json"]⟩ := by decide +kernel
  refine ⟨?_, ?_, ?_⟩ <;>
    simp [edited, hbefore, hafter, hfixed, FileTree.ofFiles, FileTree.write,
      FileTree.destination, FileTree.look, FileTree.follow, FileTree.entry, writeFault?,
      Path.parent, Path.ancestors, Entry.isFile]

/-- The files of an edit that left a house as it was. -/
def unedited (text : String) : Path → Entry :=
  (FileTree.ofFiles [("before.json", text), ("after.json", text)]).look

/-- Both versions of the house can be read, and a third file can be written. -/
theorem unedited_files (text : String) :
    unedited text (.ofText "before.json") = .file text ∧
      unedited text (.ofText "after.json") = .file text ∧
      writeFault? (unedited text) (.ofText "fixed.json") = none :=
  edited_files text text

/-- The request to fix the roofs after that edit. -/
def fixRequest : Request :=
  .roofFix (.ofText "before.json") (.ofText "after.json") none (some (.ofText "fixed.json"))

/-- What the request leads to if there are no roofs to fix. -/
def fixDone (h : House Float) : Done :=
  ⟨.roofsFixed [] (some (.ofText "fixed.json")), some ⟨.ofText "fixed.json", h.save⟩⟩

/-- `roof-fix` writes a house without roofs as it is. -/
theorem run_fixRequest {text : String} {h : House Float} (hload : House.load text = .ok h)
    (hroofs : h.roofs = []) : fixRequest.run (unedited text) = .answered (fixDone h) := by
  obtain ⟨hbefore, hafter, hfault⟩ := unedited_files text
  have hselect : h.multiPlaneRoofs = [] := by simp [House.multiPlaneRoofs, hroofs]
  have hsteps : runRoofFix (unedited text) (.ofText "before.json") (.ofText "after.json") none
      (some (.ofText "fixed.json")) = .ok (fixDone h) := by
    simp only [runRoofFix, bind_eq_ok, pure_eq_ok]
    refine ⟨h, ?_, h, ?_, [], congrArg Except.ok hselect, [], rfl, some ⟨_, h.save⟩,
      bind_eq_ok.2 ⟨_, saveHouse_eq_ok.2 ⟨hfault, ?_⟩, rfl⟩, rfl⟩
    · rw [loadHouse, hbefore]
      exact mapError_eq_ok.2 hload
    · rw [loadHouse, hafter]
      exact mapError_eq_ok.2 hload
    · exact congrArg (Written.mk _ ·.save) (withFixedRoofs_nil h).symm
  exact congrArg Outcome.ofStep hsteps

/-- The text of a house with a window whose style gives no width for the frame. -/
def framelessText : String :=
  "\x7b\"openings\": [\x7b\"id\": \"window\", \"levelId\": \"ground\", " ++
    "\"edge\": \x7b\"edgeIndex\": 0\x7d, \"offset\": 1, \"width\": 1.5, \"height\": 1, " ++
    "\"style\": \x7b\"frame\": NaN\x7d\x7d]\x7d"

/-- A number that is not finite is lost in a style, and the rest comes back. -/
theorem frameless_read : ∃ h, House.load framelessText = .ok h ∧
    fixRequest.run (unedited framelessText) = .answered (fixDone h) ∧
    House.load h.save = .ok h.asWritten ∧ House.load h.save ≠ .ok h := by
  obtain ⟨h, hload, hcheck⟩ := exists_eq_ok_of_any (x := House.load framelessText)
    (p := fun h => h.roofs.isEmpty && h.asWritten.encode.numbers.all Float.isFinite &&
      !h.encode.numbers.all Float.isFinite) (by decide +kernel)
  simp only [Bool.and_eq_true, List.isEmpty_iff, List.all_eq_true, Bool.not_eq_true',
    ← Bool.not_eq_true, not_forall] at hcheck
  obtain ⟨⟨hroofs, hfinite⟩, hlost⟩ := hcheck
  have hrun := run_fixRequest hload hroofs
  have hleft := (saved_files_read _ h hload).1
  refine ⟨h, hload, hrun, (hleft.accepted _).2 ⟨hfinite, rfl⟩, fun hsame => ?_⟩
  obtain ⟨x, hx, hnot⟩ := hlost
  exact hnot (hleft.intact.1 hsame x hx)

/-- The text of a house with a level at no height. -/
def groundlessText : String :=
  "\x7b\"levels\": [\x7b\"id\": \"ground\", \"elevation\": NaN, \"height\": 3, " ++
    "\"footprint\": \x7b\"outer\": []\x7d\x7d]\x7d"

/-- Where the one number is missing that a text was refused for. -/
def numberMissing? : Except LoadError (House Float) → Option (List Json.Place)
  | .error (.complaints [⟨place, .expectedNumber⟩]) => some place
  | _ => none

theorem eq_error_of_numberMissing? {x : Except LoadError (House Float)} {place : List Json.Place}
    (h : numberMissing? x = some place) : x = .error (.complaints [⟨place, .expectedNumber⟩]) := by
  rw [numberMissing?.eq_def] at h
  split at h
  · rw [Option.some.inj h]
  · cases h

/-- **A house file that cannot be read again**: the elevation of its level was not a number, and
is `null` in the file that `roof-fix` writes. -/
theorem groundless_unreadable : ∃ h, House.load groundlessText = .ok h ∧
    fixRequest.run (unedited groundlessText) = .answered (fixDone h) ∧
    House.load h.save = .error (.complaints
      [⟨[.key "levels", .index 0, .key "elevation"], .expectedNumber⟩]) := by
  obtain ⟨h, hload, hcheck⟩ := exists_eq_ok_of_any (x := House.load groundlessText)
    (p := fun h => h.roofs.isEmpty && decide (numberMissing? (House.load h.save) =
      some [.key "levels", .index 0, .key "elevation"])) (by decide +kernel)
  obtain ⟨hroofs, hmissing⟩ := Bool.and_eq_true_iff.1 hcheck
  exact ⟨h, hload, run_fixRequest hload (List.isEmpty_iff.1 hroofs),
    eq_error_of_numberMissing? (of_decide_eq_true hmissing)⟩

end Housewright.Command
