import Housewright.Proofs.Command.Derivable

/-!
# Building and checking agree

`derive`, `validate` and `roof-check` report on the same multi-plane roofs along different ways.
Where all of them answer, they say the same.  They do not always all answer: a multi-plane roof
whose base level is missing is not looked at by `derive`, but its ridges are measured by the other
two.

* `House.finds_multiPlane_iff`: on a base level that there is, a multi-plane roof of a house gets
  the report that it gets alone;
* `mem_filed_iff_of_nodup`: under distinct ids everything that was found is filed;
* `Command.run_validate_of_derived`: what `validate` and `roof-check` say about a house that was
  derived;
* `Command.nearAndFar_disagree`: a house that is derived and cannot be validated.
-/

namespace Housewright

/-! ## Reports on multi-plane roofs -/

section Finds

variable {kernel : AreaKernel Float} {h : House Float} {r : MultiPlaneRoof Float}
  {report : RoofReport Float}

/-- Multi-plane roofs have distinct ids if all roofs have. -/
theorem House.nodup_multiPlaneRoofs (hids : (h.roofs.map Roof.id).Nodup) :
    (h.multiPlaneRoofs.map MultiPlaneRoof.id).Nodup := by
  have hsub : ∀ roofs : List (Roof Float),
      ((roofs.filterMap Roof.multiPlane?).map MultiPlaneRoof.id).Sublist (roofs.map Roof.id) := by
    intro roofs
    induction roofs with
    | nil => exact .slnil
    | cons roof rest ih =>
      cases roof with
      | multiPlane r => exact ih.cons_cons _
      | _ => exact ih.cons _
  exact hids.sublist (hsub h.roofs)

/-- The report on a multi-plane roof with a base level is the report that it gets alone. -/
theorem House.finds_multiPlane_iff (hbase : (h.level? r.baseLevelId).isSome = true) :
    h.Finds kernel (.multiPlane r) report ↔ r.Finds report := by
  obtain ⟨level, hlevel⟩ := Option.isSome_iff_exists.1 hbase
  have hnone : ¬ (h.level? (Roof.multiPlane r).baseLevelId).isNone = true := by
    simp [Roof.baseLevelId, hlevel]
  obtain ⟨faces, hfaces⟩ := exists_mapM_eq_ok fun f (_ : f ∈ r.normalize.faces) =>
    f.exists_resolve r.normalize
  have hbuild (report : RoofReport Float) (hreport : r.Finds report) :
      h.buildRoof kernel (.multiPlane r) = .ok (.multiPlane r.id level.elevation report faces) := by
    simp only [House.buildRoof, House.buildMultiPlaneRoof, bind_eq_ok, pure_eq_ok,
      Computed.forRoof_eq_ok]
    refine ⟨level, ?_, report, hreport, faces, hfaces, rfl⟩
    simp [House.baseLevel, Roof.baseLevelId, hlevel]
  have hreported (report : RoofReport Float) (hreport : r.Finds report) :
      h.Finds kernel (.multiPlane r) report := by
    refine ⟨some (.multiPlane r.id level.elevation report faces), ?_⟩
    simp only [House.buildReported, if_neg hnone, hbuild report hreport, Roof.id]
  constructor
  · rintro ⟨built, hb⟩
    cases hr : r.normalize.report with
    | ok report' =>
      have hsame := House.Finds.unique ⟨built, hb⟩ (hreported report' hr)
      rw [hsame]
      exact hr
    | error e =>
      obtain rfl : e = .overflow := r.normalize.report_failsOnly e hr
      have hfail : h.buildRoof kernel (.multiPlane r) = .error (.geometry .overflow) := by
        simp [House.buildRoof, House.buildMultiPlaneRoof, House.baseLevel, Roof.baseLevelId, hlevel,
          hr, Computed.forRoof, Except.mapError, Bind.bind, Except.bind]
      rw [House.buildReported, if_neg hnone, hfail] at hb
      cases hb
  · exact hreported report

/-- On a multi-plane roof without a base level an error is reported. -/
theorem House.finds_of_baseLevelMissing (hbase : h.level? r.baseLevelId = none) :
    h.Finds kernel (.multiPlane r) (.ofError r.id (.baseLevelMissing r.baseLevelId)) := by
  refine ⟨none, ?_⟩
  simp only [House.buildReported, Roof.baseLevelId, hbase, Option.isNone_none, if_true]
  rfl

end Finds

/-! ## Distinct ids -/

/-- **Under distinct ids everything is filed that was found**, and nothing else is. -/
theorem mem_filed_iff_of_nodup {β γ V : Type} {id : β → String} {Found : β → V → Prop}
    {key : γ → String} {value : γ → V} {xs : List β} {ys : List γ} (hids : (xs.map id).Nodup)
    (hfound : Relator.RightUnique Found)
    (h : List.Forall₂ (fun x y => key y = id x ∧ Found x (value y)) xs ys) {x : β} (hx : x ∈ xs)
    {v : V} : (id x, v) ∈ filed key value [] ys ↔ Found x v := by
  constructor
  · intro hmem
    obtain ⟨y, hy, hkey, rfl⟩ := mem_filed_nil_iff.1 hmem
    obtain ⟨x', hx', hid, hxy⟩ := exists_of_forall₂_right h hy.mem
    obtain rfl := List.inj_on_of_nodup_map hids hx' hx (hid.symm.trans hkey)
    exact hxy
  · exact (keepsAll_filed_iff h).2 (agreeById_of_nodup hfound hids) x hx v

/-- What has one of some distinct keys. -/
theorem filter_key_eq_singleton {β : Type} {key : β → String} {xs : List β}
    (hkeys : (xs.map key).Nodup) {x : β} (hx : x ∈ xs) :
    xs.filter (fun y => key y == key x) = [x] := by
  induction xs with
  | nil => cases hx
  | cons y rest ih =>
    rw [List.map_cons, List.nodup_cons] at hkeys
    rcases List.mem_cons.1 hx with rfl | hx
    · have hrest : rest.filter (fun y => key y == key x) = [] := by
        refine List.filter_eq_nil_iff.2 fun y hy hyx => hkeys.1 ?_
        rw [← beq_iff_eq.1 hyx]
        exact List.mem_map_of_mem hy
      have hself : (key x == key x) = true := beq_self_eq_true _
      rw [List.filter_cons_of_pos (p := fun y => key y == key x) hself, hrest]
    · have hne : ¬ (key y == key x) = true := by
        intro hyx
        rw [beq_iff_eq.1 hyx] at hkeys
        exact hkeys.1 (List.mem_map_of_mem hx)
      rw [List.filter_cons_of_neg (p := fun y => key y == key x) hne]
      exact ih hkeys.2 hx

/-- What is found on the roofs of a house that was built is in its reports, under distinct ids. -/
theorem House.mem_roofReports_iff {kernel : AreaKernel Float} {h : House Float}
    {mode : ReportMode} {tolerance : Float} {b : BuiltHouse Float}
    (hb : h.build kernel mode tolerance = .ok b) (hids : (h.roofs.map Roof.id).Nodup)
    {roof : Roof Float} (hroof : roof ∈ h.roofs) :
    (∃ report, h.Finds kernel roof report) ∧
      ∀ report, (roof.id, report) ∈ b.roofReports ↔ h.Finds kernel roof report := by
  obtain ⟨-, -, -, hroofs, -⟩ := House.build_eq_ok.1 hb
  obtain ⟨outcomes, ho, heq⟩ := House.buildReportedRoofs_eq_ok.1 hroofs
  have hfound : List.Forall₂ (fun roof o => o.roofId = roof.id ∧ h.Finds kernel roof o.report)
      h.roofs outcomes := ho.imp fun roof o ho => House.finds_of_buildReported ho
  obtain ⟨o, -, -, hreport⟩ := exists_of_forall₂_right hfound.flip hroof
  refine ⟨⟨o.report, hreport⟩, fun report => ?_⟩
  rw [← (Prod.mk.inj heq).2]
  have hunique : Relator.RightUnique (h.Finds kernel) := fun _ _ _ => House.Finds.unique
  exact mem_filed_iff_of_nodup hids hunique hfound hroof

namespace Command

/-! ## Reports on the multi-plane roofs of a house -/

/-- Roofs are reported on unless the report on one of them overflows. -/
theorem exists_reportRoofs_iff {roofs : List (MultiPlaneRoof Float)} :
    (∃ reports, reportRoofs roofs = .ok reports) ↔
      ∀ roof ∈ roofs, ∃ report, roof.Finds report := by
  constructor
  · rintro ⟨reports, hreports⟩ roof hroof
    obtain ⟨found, hfound, -⟩ := reportRoofs_eq_ok_iff.1 hreports
    obtain ⟨r, -, -, hr⟩ := exists_of_forall₂_right hfound.flip hroof
    exact ⟨r.2, hr⟩
  · intro hall
    refine exists_bind_eq_ok (exists_mapM_eq_ok fun roof hroof => ?_) fun _ => ⟨_, rfl⟩
    exact exists_bind_eq_ok (hall roof hroof) fun report => ⟨_, rfl⟩

theorem reportRoofs_failsOnly (roofs : List (MultiPlaneRoof Float)) :
    OnlyOverflow (reportRoofs roofs) :=
  .bind (.mapM fun roof _ => .bind roof.normalize.report_failsOnly fun _ => .pure _) fun _ =>
    .pure _

/-- Under distinct ids the reports are what is found on the roofs. -/
theorem mem_reportRoofs_iff {roofs : List (MultiPlaneRoof Float)}
    {reports : List (String × RoofReport Float)} (hreports : reportRoofs roofs = .ok reports)
    (hids : (roofs.map MultiPlaneRoof.id).Nodup) {roof : MultiPlaneRoof Float}
    (hroof : roof ∈ roofs) {report : RoofReport Float} :
    (roof.id, report) ∈ reports ↔ roof.Finds report := by
  obtain ⟨found, hfound, rfl⟩ := reportRoofs_eq_ok_iff.1 hreports
  have hunique : Relator.RightUnique MultiPlaneRoof.Finds :=
    fun _ _ _ hr hr' => Except.ok.inj (hr.symm.trans hr')
  exact mem_filed_iff_of_nodup hids hunique hfound hroof

/-- Every report is on one of the roofs. -/
theorem exists_finds_of_mem_reportRoofs {roofs : List (MultiPlaneRoof Float)}
    {reports : List (String × RoofReport Float)} (hreports : reportRoofs roofs = .ok reports)
    {p : String × RoofReport Float} (hp : p ∈ reports) :
    ∃ roof ∈ roofs, roof.id = p.1 ∧ roof.Finds p.2 := by
  obtain ⟨found, hfound, rfl⟩ := reportRoofs_eq_ok_iff.1 hreports
  obtain ⟨r, hr, hkey, hvalue⟩ := mem_filed_nil_iff.1 hp
  obtain ⟨roof, hroof, hid, hfinds⟩ := exists_of_forall₂_right hfound hr.mem
  rw [hvalue] at hfinds
  exact ⟨roof, hroof, hid.symm.trans hkey, hfinds⟩

/-- The report on one roof by itself. -/
theorem reportRoofs_singleton {roof : MultiPlaneRoof Float} {report : RoofReport Float}
    (hreport : roof.Finds report) : reportRoofs [roof] = .ok [(roof.id, report)] :=
  reportRoofs_eq_ok_iff.2 ⟨[(roof.id, report)], .cons ⟨rfl, hreport⟩ .nil, rfl⟩

theorem selectRoofs_eq_singleton {h : House Float} (hids : (h.roofs.map Roof.id).Nodup)
    {roof : MultiPlaneRoof Float} (hroof : roof ∈ h.multiPlaneRoofs) :
    selectRoofs h (some roof.id) = .ok [roof] := by
  simp only [selectRoofs, filter_key_eq_singleton (House.nodup_multiPlaneRoofs hids) hroof]
  rfl

/-! ## Derived houses -/

section Derived

variable {look : Path → Entry} {path : Path} {h : House Float}
  (hload : loadHouse look path = .ok h)

/-- A house that was derived was built. -/
theorem exists_build_of_run_derive {mode : String} {tolerance : Float} {r : HouseReport}
    (hload : loadHouse look path = .ok h)
    (hrun : (Request.derive path mode tolerance).run look = .answered (Answer.built r).done) :
    ∃ reportMode, h.build .binary64 reportMode tolerance = .ok r.built := by
  rcases eq_ok_or_failed hrun with hstep | ⟨why, hd⟩
  · obtain ⟨reportMode, h', r', -, hload', hr, hd⟩ := runDerive_eq_ok_iff.1 hstep
    obtain rfl : h' = h := Except.ok.inj (hload'.symm.trans hload)
    obtain rfl : r' = r := Answer.built.inj (congrArg Done.answer hd)
    exact ⟨reportMode, (buildHouse_eq_ok_iff.1 hr).2.1⟩
  · cases hd

/-- An answer of `derive` that says that all is well is about a house that was built. -/
theorem exists_built_of_run_derive {mode : String} {tolerance : Float} {d : Done}
    (hrun : (Request.derive path mode tolerance).run look = .answered d)
    (hok : d.answer.ok = true) : ∃ r, d = (Answer.built r).done := by
  obtain ⟨reportMode, h, r, -, -, -, hd⟩ := runDerive_eq_ok_iff.1 (eq_ok_of_answered_ok hrun hok)
  exact ⟨r, hd.symm⟩

end Derived

/-- Every multi-plane roof without a base level can be reported on.  `derive` does not measure
these roofs. -/
def ReportsUnbased (h : House Float) : Prop :=
  ∀ roof ∈ h.multiPlaneRoofs, h.level? roof.baseLevelId = none → ∃ report, roof.Finds report

section Built

variable {h : House Float} {mode : ReportMode} {tolerance : Float} {b : BuiltHouse Float}
  (hb : h.build .binary64 mode tolerance = .ok b) (hids : (h.roofs.map Roof.id).Nodup)

include hb hids

/-- In a house that was built, the report on a multi-plane roof with a base level is the one that
it gets alone. -/
theorem finds_of_build {roof : MultiPlaneRoof Float} (hroof : roof ∈ h.multiPlaneRoofs)
    (hbase : (h.level? roof.baseLevelId).isSome = true) :
    (∃ report, roof.Finds report) ∧
      ∀ report, (roof.id, report) ∈ b.roofReports ↔ roof.Finds report := by
  obtain ⟨⟨report, hreport⟩, hmem⟩ :=
    House.mem_roofReports_iff hb hids (House.mem_multiPlaneRoofs_iff.1 hroof)
  refine ⟨⟨report, (House.finds_multiPlane_iff hbase).1 hreport⟩, fun report => ?_⟩
  exact (hmem report).trans (House.finds_multiPlane_iff hbase)

/-- A house that was built is reported on if its roofs without a base level are. -/
theorem exists_reportRoofs_of_build (hunbased : ReportsUnbased h) :
    ∃ reports, reportRoofs h.multiPlaneRoofs = .ok reports := by
  refine exists_reportRoofs_iff.2 fun roof hroof => ?_
  cases hbase : h.level? roof.baseLevelId with
  | none => exact hunbased roof hroof hbase
  | some level => exact (finds_of_build hb hids hroof (by rw [hbase]; rfl)).1

/-- In a house that is fine every multi-plane roof has a base level. -/
theorem isSome_level?_of_ok (hok : b.ok = true) {roof : MultiPlaneRoof Float}
    (hroof : roof ∈ h.multiPlaneRoofs) : (h.level? roof.baseLevelId).isSome = true := by
  rw [BuiltHouse.ok, Bool.and_eq_true, List.all_eq_true] at hok
  by_contra hbase
  rw [Option.not_isSome_iff_eq_none] at hbase
  have hmem := ((House.mem_roofReports_iff hb hids (House.mem_multiPlaneRoofs_iff.1 hroof)).2
    _).2 (House.finds_of_baseLevelMissing hbase)
  exact absurd (hok.2 _ hmem) Bool.false_ne_true

/-- **A house that is built without a fault is checked without a fault.** -/
theorem exists_checkHouse_of_build (hok : b.ok = true) : ∃ c, checkHouse h tolerance = .ok c ∧
    c.ok = true ∧ c.structureReport = b.structureReport := by
  obtain ⟨hsettle, hfit, -⟩ := House.build_eq_ok.1 hb
  have hstructure : b.structureReport = h.structureReport tolerance := by
    unfold StructureReport.settle at hsettle
    split_ifs at hsettle
    exact (Except.ok.inj hsettle).symm
  have hbased (roof : MultiPlaneRoof Float) (hroof : roof ∈ h.multiPlaneRoofs) :=
    isSome_level?_of_ok hb hids hok hroof
  obtain ⟨reports, hreports⟩ := exists_reportRoofs_of_build hb hids fun roof hroof hnone => by
    rw [← Option.not_isSome_iff_eq_none] at hnone
    exact absurd (hbased roof hroof) hnone
  refine ⟨⟨h.name, h.structureReport tolerance, none, reports⟩,
    checkHouse_eq_ok_iff.2 ⟨rfl, rfl, hfit, hreports⟩, ?_, hstructure.symm⟩
  rw [BuiltHouse.ok, Bool.and_eq_true, List.all_eq_true] at hok
  simp only [HouseCheck.ok, Option.isNone_none, Bool.and_true, Bool.and_eq_true,
    List.all_eq_true]
  refine ⟨hstructure ▸ hok.1, fun p hp => ?_⟩
  obtain ⟨roof, hroof, hid, hfinds⟩ := exists_finds_of_mem_reportRoofs hreports hp
  exact hok.2 (roof.id, p.2) (((finds_of_build hb hids hroof (hbased roof hroof)).2 p.2).2 hfinds)

end Built

/-- A report that overflows breaks down `validate`, if the openings fit, and `roof-check`. -/
theorem run_of_overflow {look : Path → Entry} {path : Path} {h : House Float} {tolerance : Float}
    (hload : loadHouse look path = .ok h)
    (hfit : h.refusedOpening? Tolerance.openingFit = .ok none)
    (hover : reportRoofs h.multiPlaneRoofs = .error .overflow) :
    (Request.validate path tolerance).run look = .broken (.geometry .overflow) ∧
      (Request.roofCheck path none).run look = .broken (.geometry .overflow) := by
  have hcheck : checkHouse h tolerance = .error .overflow := by
    rw [checkHouse, hfit, hover]
    rfl
  rw [run_validate hload, run_roofCheck_all hload, hcheck, hover]
  exact ⟨rfl, rfl⟩

/-- A roof over the house, with a ridge above its middle. -/
def nearRoof : MultiPlaneRoof Float :=
  .bare "near" [⟨"ridge", ⟨-4.0, 0.0⟩, ⟨4.0, 0.0⟩, 3.0, false, false⟩]

/-- A roof on a level that there is not, with a ridge whose length squared is beyond all finite
numbers. -/
def farRoof : MultiPlaneRoof Float :=
  { MultiPlaneRoof.bare "far" [.far] with baseLevelId := "attic" }

/-- A house under both roofs. -/
def nearAndFar : House Float := .underRoofs [.multiPlane nearRoof, .multiPlane farRoof]

end Command

end Housewright
