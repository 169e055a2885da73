import Housewright.Proofs.Command.Derivable

/-!
# What exit codes tell

Who runs the program sees its exit code before its answer.  A failure, and a check that found
something, end with one.  A house that is built ends with zero, whatever was found on it: `derive`
prints that all is not well and succeeds.

* `derive_of_built`: no other command builds;
* `House.build_throw_ok_iff`: what can be wrong with a house that was built in spite of a check that
  stops the work;
* `exitCode_tells_iff`: when the exit code tells whether all is well;
* `lengthless_exits_zero`: a roof that `validate` complains about, and `derive` lets pass.
-/

namespace Housewright

/-- **What can be wrong with a house that was built** although its structure had to be accepted is
what the reports on its roofs say. -/
theorem House.build_throw_ok_iff {kernel : AreaKernel Float} {h : House Float} {tolerance : Float}
    {b : BuiltHouse Float} (hb : h.build kernel .throw tolerance = .ok b) :
    b.ok = false ↔ ∃ p ∈ b.roofReports, p.2.ok = false := by
  obtain ⟨hsettle, -⟩ := House.build_eq_ok.1 hb
  obtain ⟨hok, hsame⟩ := StructureReport.settle_throw_eq_ok_iff.1 hsettle
  rw [BuiltHouse.ok, hsame, hok, Bool.true_and, List.all_eq_false]
  simp only [Bool.not_eq_true]

namespace Command

section Answers

variable {look : Path → Entry} {d : Done}

/-! ## Who builds -/

/-- Only the request to build a house is answered with a house that was built. -/
theorem derive_of_built {request : Request} {r : HouseReport}
    (hrun : request.run look = .answered d) (hr : d.answer = .built r) :
    ∃ house mode tolerance, request = .derive house mode tolerance ∧
      runDerive look house mode tolerance = .ok d := by
  -- a failure is no house, so that the command came to its end
  have hend {s : Step Done} (hs : Outcome.ofStep s = .answered d) : s = .ok d := by
    rcases eq_ok_or_failed hs with hok | ⟨why, rfl⟩
    · exact hok
    · cases hr
  cases request with
  | help => cases hrun
  | validate house tolerance =>
    obtain ⟨h, c, -, -, rfl⟩ := runValidate_eq_ok_iff.1 (hend hrun)
    cases hr
  | derive house mode tolerance => exact ⟨house, mode, tolerance, rfl, hend hrun⟩
  | roofCheck house roofId =>
    obtain ⟨h, -, hd⟩ := bind_eq_ok.1 (hend hrun)
    obtain ⟨roofs, -, hd⟩ := bind_eq_ok.1 hd
    obtain ⟨reports, -, hd⟩ := bind_eq_ok.1 hd
    obtain rfl := pure_eq_ok.1 hd
    cases hr
  | roofFix before after roofId output =>
    obtain ⟨h, -, hd⟩ := bind_eq_ok.1 (hend hrun)
    obtain ⟨h', -, hd⟩ := bind_eq_ok.1 hd
    obtain ⟨roofs, -, hd⟩ := bind_eq_ok.1 hd
    obtain ⟨fixes, -, hd⟩ := bind_eq_ok.1 hd
    obtain ⟨written, -, hd⟩ := bind_eq_ok.1 hd
    obtain rfl := pure_eq_ok.1 hd
    cases hr
  | render house output levelId =>
    obtain ⟨h, -, hd⟩ := bind_eq_ok.1 (hend hrun)
    obtain ⟨plan, -, hd⟩ := bind_eq_ok.1 hd
    obtain rfl := pure_eq_ok.1 hd
    cases hr
  | sample output generator =>
    obtain ⟨h, -, hd⟩ := bind_eq_ok.1 (hend hrun)
    obtain ⟨written, -, hd⟩ := bind_eq_ok.1 hd
    obtain rfl := pure_eq_ok.1 hd
    cases hr
  | version =>
    obtain rfl := Outcome.answered.inj hrun
    cases hr

/-! ## Exit codes of answers -/

theorem Answer.exitCode_cases (answer : Answer) : answer.exitCode = 0 ∨ answer.exitCode = 1 := by
  unfold exitCode
  split
  · exact .inl rfl
  · split_ifs
    · exact .inl rfl
    · exact .inr rfl

theorem Answer.exitCode_eq_one_iff (answer : Answer) :
    answer.exitCode = 1 ↔ answer.ok = false ∧ ∀ r, answer ≠ .built r := by
  have hnot : answer.exitCode = 1 ↔ ¬ answer.exitCode = 0 := by
    rcases answer.exitCode_cases with h | h <;> simp [h]
  rw [hnot, exitCode_eq_zero_iff, not_or, Bool.not_eq_true, not_exists]

/-- Besides its first member, an answer has none that could say whether all is well. -/
theorem Answer.ne_ok_of_mem_members {answer : Answer} {m : String × Json}
    (hm : m ∈ answer.members) : m.1 ≠ "ok" := by
  rintro hok
  cases answer with
  | failed why => cases why <;> simp [members, Failure.members] at hm <;> grind
  | built r => simp [members, HouseReport.members] at hm; grind
  | roofsFixed fixes saved => cases saved <;> simp [members] at hm <;> grind
  | _ => simp [members] at hm; grind

/-! ## When the exit code tells whether all is well -/

/-- A house is built on request although something is wrong with it. -/
def BuildsUnsound (look : Path → Entry) (arguments : List String) : Prop :=
  ∃ house mode tolerance reportMode h r,
    Request.ofArguments? arguments = some (.derive house mode tolerance) ∧
      Json.lookupWord? ReportMode.words (.str mode) = some reportMode ∧
      loadHouse look house = .ok h ∧ buildHouse h reportMode tolerance = .ok r ∧
      r.built.ok = false

/-- Arguments that are answered make a request. -/
theorem exists_request_of_run {arguments : List String} (hrun : run look arguments = .answered d) :
    ∃ request, Request.ofArguments? arguments = some request ∧ request.run look = .answered d := by
  unfold run at hrun
  cases hrequest : Request.ofArguments? arguments with
  | none =>
    rw [hrequest] at hrun
    cases hrun
  | some request =>
    rw [hrequest] at hrun
    exact ⟨request, rfl, hrun⟩

/-- A house was built with something wrong if the answer says so. -/
theorem buildsUnsound_iff {arguments : List String} (hrun : run look arguments = .answered d) :
    BuildsUnsound look arguments ↔ ∃ r, d.answer = .built r ∧ r.built.ok = false := by
  obtain ⟨request, hrequest, hrun⟩ := exists_request_of_run hrun
  constructor
  · rintro ⟨house, mode, tolerance, reportMode, h, r, hderive, hmode, hload, hr, hbad⟩
    obtain rfl := Option.some_inj.1 (hrequest.symm.trans hderive)
    rw [run_derive hload hmode, hr] at hrun
    exact ⟨r, congrArg Done.answer (Outcome.answered.inj hrun).symm, hbad⟩
  · rintro ⟨r, hr, hbad⟩
    obtain ⟨house, mode, tolerance, rfl, hstep⟩ := derive_of_built hrun hr
    obtain ⟨reportMode, h, r', hmode, hload, hr', rfl⟩ := runDerive_eq_ok_iff.1 hstep
    obtain rfl := Answer.built.inj hr
    exact ⟨house, mode, tolerance, reportMode, h, r', hrequest, hmode, hload, hr', hbad⟩

end Answers

/-! ## A house that is built with something wrong -/

/-- The arguments that ask for the house in the file to be checked. -/
def validateArguments : List String := ["validate", "house.json"]

/-- The arguments that ask for the house in the file to be built. -/
def deriveArguments : List String := ["derive", "house.json"]

theorem run_validateArguments (look : Path → Entry) : run look validateArguments =
    (Request.validate housePath Tolerance.support).run look := rfl

theorem run_deriveArguments (look : Path → Entry) : run look deriveArguments =
    (Request.derive housePath "throw" Tolerance.support).run look := rfl

/-- A roof whose only ridge has no length. -/
def lengthless : House Float := .underRoofs [.multiPlane (.bare "roof" [.lengthless])]

end Command

end Housewright
