import Housewright.Command.Run
import Housewright.Proofs.Steps
import Mathlib.Data.List.Nodup
import Mathlib.Logic.Relator

/-!
# Reports under the ids of roofs

Whoever builds or checks a house files one report after another under the ids of the roofs,
and nobody checks that the ids differ: of several roofs with one id only the last report is
left.

* `mem_filed_iff`: what is filed under the keys of a list is what belongs to the last entry of
  each key.
* `House.buildReported_eq_ok`: a roof is built, or its report is that of an error;
  `House.build_eq_ok` gives the parts of a house that was built.
* `House.roofs_ok_iff`: a house is fine if and only if its structure is and every roof that is
  the last of its id is built without an error; these are all roofs if the ids are distinct.
* `House.laterOfOneId_hides`: a house that is fine although one of its roofs is not.
-/

namespace Housewright

/-! ## Filing under keys -/

section Filing

variable {γ V : Type}

/-- An entry of a list after which its key does not come again. -/
inductive IsLast (key : γ → String) : List γ → γ → Prop
  | here {x : γ} {rest : List γ} (fresh : ∀ y ∈ rest, key y ≠ key x) : IsLast key (x :: rest) x
  | later {x y : γ} {rest : List γ} (last : IsLast key rest y) : IsLast key (x :: rest) y

/-- The values of some entries under their keys, put in one after the other. -/
def filed (key : γ → String) (value : γ → V) (kept : List (String × V)) (xs : List γ) :
    List (String × V) :=
  xs.foldl (fun kept x => upsert (key x) (value x) kept) kept

variable {key : γ → String} {value : γ → V}

theorem IsLast.mem {xs : List γ} {x : γ} (h : IsLast key xs x) : x ∈ xs := by
  induction h with
  | here fresh => exact List.mem_cons_self
  | later last ih => exact List.mem_cons_of_mem _ ih

/-- Every key that occurs has a last entry. -/
theorem exists_isLast {xs : List γ} {k : String} (h : ∃ x ∈ xs, key x = k) :
    ∃ x, IsLast key xs x ∧ key x = k := by
  induction xs with
  | nil => simp at h
  | cons x rest ih =>
    by_cases hrest : ∃ y ∈ rest, key y = k
    · obtain ⟨y, hy, hyk⟩ := ih hrest
      exact ⟨y, .later hy, hyk⟩
    · have hxk : key x = k := by
        obtain ⟨y, hy, hyk⟩ := h
        rcases List.mem_cons.1 hy with rfl | hy
        · exact hyk
        · exact absurd ⟨y, hy, hyk⟩ hrest
      refine ⟨x, .here fun y hy hyx => ?_, hxk⟩
      exact hrest ⟨y, hy, hyx.trans hxk⟩

/-- What stands beside the last entry of a key is the last of that key too. -/
theorem IsLast.exists_beside {β : Type} {id : β → String} {R : β → γ → Prop}
    (hid : ∀ x y, R x y → key y = id x) {xs : List β} {ys : List γ}
    (h : List.Forall₂ R xs ys) {x : β} (hx : IsLast id xs x) : ∃ y, IsLast key ys y ∧ R x y := by
  induction h with
  | nil => cases hx
  | @cons a b as bs hab hrest ih =>
    cases hx with
    | here fresh =>
      refine ⟨b, .here fun y hy hyb => ?_, hab⟩
      obtain ⟨x', hx', hxy⟩ := exists_of_forall₂_right hrest hy
      refine fresh x' hx' ?_
      rw [← hid _ _ hxy, hyb, hid _ _ hab]
    | later last =>
      obtain ⟨y, hy, hxy⟩ := ih last
      exact ⟨y, .later hy, hxy⟩

theorem nodup_keys_upsert {k : String} {v : V} {kept : List (String × V)}
    (h : (kept.map (·.1)).Nodup) : ((upsert k v kept).map (·.1)).Nodup := by
  rw [keys_upsert]
  by_cases hk : k ∈ kept.map (·.1)
  · rwa [if_pos hk]
  · rw [if_neg hk, ← List.concat_eq_append]
    exact List.Nodup.concat hk h

/-- An `upsert` under a new key adds to the end. -/
theorem upsert_of_not_mem {k : String} {v : V} {kept : List (String × V)}
    (h : k ∉ kept.map (·.1)) : upsert k v kept = kept ++ [(k, v)] := by
  induction kept with
  | nil => rfl
  | cons p rest ih =>
    rw [List.map_cons, List.mem_cons, not_or] at h
    obtain ⟨kp, vp⟩ := p
    have hkp : ¬ kp = k := fun e => h.1 e.symm
    simp only [upsert, if_neg hkp, ih h.2, List.cons_append]

/-- An `upsert` changes what stands under its own key only. -/
theorem mem_upsert_iff {k k' : String} {v v' : V} {kept : List (String × V)}
    (h : (kept.map (·.1)).Nodup) :
    (k', v') ∈ upsert k v kept ↔ (k' = k ∧ v' = v) ∨ (k' ≠ k ∧ (k', v') ∈ kept) := by
  induction kept with
  | nil => simp [upsert]
  | cons p rest ih =>
    obtain ⟨kp, vp⟩ := p
    rw [List.map_cons, List.nodup_cons] at h
    by_cases hk : kp = k
    · subst hk
      have hfresh : (k', v') ∈ rest → k' ≠ kp := by
        rintro hmem rfl
        exact h.1 (List.mem_map_of_mem (f := (·.1)) hmem)
      simp only [upsert, if_pos, List.mem_cons, Prod.mk.injEq]
      grind
    · simp only [upsert, if_neg hk, List.mem_cons, Prod.mk.injEq, ih h.2]
      grind

/-- Under distinct keys, everything stays where it was put. -/
theorem filed_of_nodup {xs : List γ} {kept : List (String × V)}
    (h : (kept.map (·.1) ++ xs.map key).Nodup) :
    filed key value kept xs = kept ++ xs.map fun x => (key x, value x) := by
  induction xs generalizing kept with
  | nil => exact (List.append_nil kept).symm
  | cons x rest ih =>
    have hfresh : key x ∉ kept.map (·.1) := by
      intro hx
      exact (List.nodup_append.1 h).2.2 _ hx _ List.mem_cons_self rfl
    rw [List.map_cons, List.append_cons] at h
    have hput : (kept ++ [(key x, value x)]).map (·.1) = kept.map (·.1) ++ [key x] := by
      rw [List.map_append, List.map_singleton]
    rw [← hput] at h
    show filed key value (upsert (key x) (value x) kept) rest = _
    rw [upsert_of_not_mem hfresh, ih h, List.map_cons, List.append_assoc, List.singleton_append]

theorem nodup_keys_filed {xs : List γ} {kept : List (String × V)}
    (h : (kept.map (·.1)).Nodup) : ((filed key value kept xs).map (·.1)).Nodup := by
  induction xs generalizing kept with
  | nil => exact h
  | cons x rest ih => exact ih (nodup_keys_upsert h)

/-- What was filed before is left only under keys that do not come again. -/
theorem mem_filed_iff {xs : List γ} {kept : List (String × V)} (h : (kept.map (·.1)).Nodup)
    {k : String} {v : V} :
    (k, v) ∈ filed key value kept xs ↔
      (∃ x, IsLast key xs x ∧ key x = k ∧ value x = v) ∨
        ((∀ x ∈ xs, key x ≠ k) ∧ (k, v) ∈ kept) := by
  induction xs generalizing kept with
  | nil =>
    constructor
    · intro hmem
      exact .inr ⟨by simp, hmem⟩
    · rintro (⟨x, hx, -⟩ | ⟨-, hmem⟩)
      · cases hx
      · exact hmem
  | cons x rest ih =>
    show (k, v) ∈ filed key value (upsert (key x) (value x) kept) rest ↔ _
    rw [ih (nodup_keys_upsert h), mem_upsert_iff h]
    constructor
    · rintro (⟨y, hy, hyk, hyv⟩ | ⟨hrest, ⟨rfl, rfl⟩ | ⟨hkx, hmem⟩⟩)
      · exact .inl ⟨y, .later hy, hyk, hyv⟩
      · exact .inl ⟨x, .here hrest, rfl, rfl⟩
      · exact .inr ⟨List.forall_mem_cons.2 ⟨fun e => hkx e.symm, hrest⟩, hmem⟩
    · rintro (⟨y, hy, rfl, rfl⟩ | ⟨hnone, hmem⟩)
      · cases hy with
        | here fresh => exact .inr ⟨fresh, .inl ⟨rfl, rfl⟩⟩
        | later last => exact .inl ⟨y, last, rfl, rfl⟩
      · obtain ⟨hxk, hrest⟩ := List.forall_mem_cons.1 hnone
        exact .inr ⟨hrest, .inr ⟨fun e => hxk e.symm, hmem⟩⟩

/-- **What is filed** is what belongs to the last entry of each key. -/
theorem mem_filed_nil_iff {xs : List γ} {k : String} {v : V} :
    (k, v) ∈ filed key value [] xs ↔ ∃ x, IsLast key xs x ∧ key x = k ∧ value x = v := by
  have hnil : (([] : List (String × V)).map (·.1)).Nodup := List.nodup_nil
  rw [mem_filed_iff hnil]
  simp

/-! ## What is left of what was found -/

variable {β : Type} {id : β → String} {Found : β → V → Prop} {xs : List β} {ys : List γ}

/-- Everything that was found on an entry stands under its id. -/
def KeepsAll (id : β → String) (Found : β → V → Prop) (xs : List β)
    (reports : List (String × V)) : Prop :=
  ∀ x ∈ xs, ∀ v, Found x v → (id x, v) ∈ reports

/-- **What is filed** has a property if and only if what was found on the last entry of every
id has it. -/
theorem forall_filed_iff (hfound : Relator.RightUnique Found)
    (h : List.Forall₂ (fun x y => key y = id x ∧ Found x (value y)) xs ys) (P : V → Prop) :
    (∀ p ∈ filed key value [] ys, P p.2) ↔
      ∀ x, IsLast id xs x → ∃ v, Found x v ∧ P v := by
  constructor
  · intro hall x hx
    obtain ⟨y, hy, -, hxy⟩ := hx.exists_beside (fun _ _ hxy => hxy.1) h
    exact ⟨value y, hxy, hall (key y, value y) (mem_filed_nil_iff.2 ⟨y, hy, rfl, rfl⟩)⟩
  · rintro hall ⟨k, v⟩ hp
    obtain ⟨y, hy, rfl, rfl⟩ := mem_filed_nil_iff.1 hp
    obtain ⟨x, hx, -, hxy⟩ := hy.exists_beside (R := fun y x => key y = id x ∧ Found x (value y))
      (fun _ _ hxy => hxy.1.symm) h.flip
    obtain ⟨v, hv, hPv⟩ := hall x hx
    rwa [hfound hv hxy] at hPv

/-- The same was found on all entries of one id. -/
def AgreeById (id : β → String) (Found : β → V → Prop) (xs : List β) : Prop :=
  ∀ x ∈ xs, ∀ x' ∈ xs, id x = id x' → ∀ v v', Found x v → Found x' v' → v = v'

/-- **Nothing is lost** if and only if the same was found on all entries of one id. -/
theorem keepsAll_filed_iff
    (h : List.Forall₂ (fun x y => key y = id x ∧ Found x (value y)) xs ys) :
    KeepsAll id Found xs (filed key value [] ys) ↔ AgreeById id Found xs := by
  constructor
  · intro hkeeps x hx x' hx' hid v v' hv hv'
    have hmem := hkeeps x hx v hv
    have hmem' := hkeeps x' hx' v' hv'
    rw [← hid] at hmem'
    have hnodup : ((filed key value [] ys).map (·.1)).Nodup := nodup_keys_filed List.nodup_nil
    exact congrArg Prod.snd (List.inj_on_of_nodup_map hnodup hmem hmem' rfl)
  · intro hequal x hx v hv
    obtain ⟨x', hx', hid⟩ : ∃ x', IsLast id xs x' ∧ id x' = id x := exists_isLast ⟨x, hx, rfl⟩
    obtain ⟨y, hy, hkey, hxy⟩ := hx'.exists_beside (fun _ _ hxy => hxy.1) h
    refine mem_filed_nil_iff.2 ⟨y, hy, hkey.trans hid, ?_⟩
    exact hequal x' hx'.mem x hx hid _ _ hxy hv

/-- Entries with distinct ids agree. -/
theorem agreeById_of_nodup (hfound : Relator.RightUnique Found)
    (hids : (xs.map id).Nodup) : AgreeById id Found xs := by
  intro x hx x' hx' hid v v' hv hv'
  obtain rfl := List.inj_on_of_nodup_map hids hx hx' hid
  exact hfound hv hv'

/-- If nothing is lost, what is filed tells about all entries. -/
theorem KeepsAll.forall_filed_iff (hfound : Relator.RightUnique Found)
    (h : List.Forall₂ (fun x y => key y = id x ∧ Found x (value y)) xs ys)
    (hkeeps : KeepsAll id Found xs (filed key value [] ys)) (P : V → Prop) :
    (∀ p ∈ filed key value [] ys, P p.2) ↔ ∀ x ∈ xs, ∃ v, Found x v ∧ P v := by
  constructor
  · intro hall x hx
    obtain ⟨y, -, -, hxy⟩ := exists_of_forall₂_right h.flip hx
    exact ⟨value y, hxy, hall _ (hkeeps x hx _ hxy)⟩
  · intro hall
    exact (Housewright.forall_filed_iff hfound h P).2 fun x hx => hall x hx.mem

end Filing

/-! ## The roofs of a house -/

section Roofs

variable {α : Type} [Scalar α] {kernel : AreaKernel α} {h : House α}

theorem Computed.forRoof_eq_ok {β : Type} {c : Computed β} {x : β} :
    c.forRoof = .ok x ↔ c = .ok x :=
  mapError_eq_ok

omit [Scalar α] in
theorem Computed.forHouse_eq_ok {β : Type} {c : Computed β} {x : β} :
    (c.forHouse : Except (BuildError α) β) = .ok x ↔ c = .ok x :=
  mapError_eq_ok

/-- A built roof has the id of its description. -/
theorem House.roofId_of_buildRoof {roof : Roof α} {built : BuiltRoof α}
    (hb : h.buildRoof kernel roof = .ok built) : built.roofId = roof.id := by
  cases roof with
  | flat r =>
    simp only [House.buildRoof, House.buildFlatRoof, bind_eq_ok] at hb
    obtain ⟨level, -, outline, -, hb⟩ := hb
    cases hspared : h.sparedOutline? r with
    | none =>
      simp only [hspared, bind_eq_ok, pure_eq_ok] at hb
      obtain ⟨pieces, -, rfl⟩ := hb
      rfl
    | some above =>
      simp only [hspared, bind_eq_ok, pure_eq_ok] at hb
      obtain ⟨pieces, -, rfl⟩ := hb
      rfl
  | gable r =>
    simp only [House.buildRoof, House.buildGableRoof, bind_eq_ok, pure_eq_ok] at hb
    obtain ⟨level, -, outline, -, slopes, -, left, -, right, -, rfl⟩ := hb
    rfl
  | multiRidge r =>
    simp only [House.buildRoof, House.buildMultiRidgeRoof, bind_eq_ok] at hb
    obtain ⟨level, -, hb⟩ := hb
    cases hridges : r.ridges with
    | nil => simp [hridges] at hb
    | cons ridge rest =>
      simp only [hridges, bind_eq_ok, pure_eq_ok] at hb
      obtain ⟨outline, -, west, -, east, -, rfl⟩ := hb
      rfl
  | multiPlane r =>
    simp only [House.buildRoof, House.buildMultiPlaneRoof, bind_eq_ok, pure_eq_ok] at hb
    obtain ⟨level, -, report, -, faces, -, rfl⟩ := hb
    rfl

/-- **One roof is built, or its report is that of an error.** -/
theorem House.buildReported_eq_ok {roof : Roof α} {o : RoofOutcome α}
    (ho : h.buildReported kernel roof = .ok o) :
    (∃ built report, h.buildRoof kernel roof = .ok built ∧ o = ⟨roof.id, some built, report⟩) ∨
      ∃ problem, o = ⟨roof.id, none, .ofError roof.id problem⟩ := by
  simp only [House.buildReported] at ho
  split at ho
  · exact .inr ⟨_, (Except.ok.inj ho).symm⟩
  · split at ho
    case h_1 id base report faces hb => exact .inl ⟨_, report, hb, (Except.ok.inj ho).symm⟩
    case h_2 built hb => exact .inl ⟨_, .clean, hb, (Except.ok.inj ho).symm⟩
    case h_3 e he =>
      cases hf : e.failure? with
      | some failure => simp [hf] at ho
      | none =>
        rw [hf] at ho
        exact .inr ⟨_, (Except.ok.inj ho).symm⟩

/-- A report belongs to a roof of a house. -/
def House.Finds (kernel : AreaKernel α) (h : House α) (roof : Roof α) (report : RoofReport α) :
    Prop :=
  ∃ built, h.buildReported kernel roof = .ok ⟨roof.id, built, report⟩

/-- A roof of a house is built, and nothing is wrong with it. -/
def House.Derives (kernel : AreaKernel α) (h : House α) (roof : Roof α) (built : BuiltRoof α) :
    Prop :=
  built.roofId = roof.id ∧ ∃ report, report.ok = true ∧
    h.buildReported kernel roof = .ok ⟨roof.id, some built, report⟩

theorem House.finds_of_buildReported {roof : Roof α} {o : RoofOutcome α}
    (ho : h.buildReported kernel roof = .ok o) :
    o.roofId = roof.id ∧ h.Finds kernel roof o.report := by
  rcases House.buildReported_eq_ok ho with ⟨built, report, -, rfl⟩ | ⟨problem, rfl⟩
  · exact ⟨rfl, some built, ho⟩
  · exact ⟨rfl, none, ho⟩

theorem House.Finds.unique {roof : Roof α} {r r' : RoofReport α} (hr : h.Finds kernel roof r)
    (hr' : h.Finds kernel roof r') : r = r' := by
  obtain ⟨built, hb⟩ := hr
  obtain ⟨built', hb'⟩ := hr'
  have hsame := Except.ok.inj (hb.symm.trans hb')
  exact congrArg RoofOutcome.report hsame

/-- A roof on which nothing wrong was found has been built. -/
theorem House.exists_built_of_finds {roof : Roof α} {o : RoofOutcome α} {report : RoofReport α}
    (ho : h.buildReported kernel roof = .ok o) (hr : h.Finds kernel roof report)
    (hok : report.ok = true) : ∃ built, o.built = some built ∧ h.Derives kernel roof built := by
  obtain rfl : o.report = report := (House.finds_of_buildReported ho).2.unique hr
  rcases House.buildReported_eq_ok ho with ⟨built, report, hb, rfl⟩ | ⟨problem, rfl⟩
  · exact ⟨built, rfl, House.roofId_of_buildRoof hb, report, hok, ho⟩
  · cases hok

theorem House.buildReportedRoofs_eq_ok {p : List (BuiltRoof α) × List (String × RoofReport α)} :
    h.buildReportedRoofs kernel = .ok p ↔
      ∃ outcomes, List.Forall₂ (fun roof o => h.buildReported kernel roof = .ok o)
          h.roofs outcomes ∧
        (outcomes.filterMap (·.built), filed (·.roofId) (·.report) [] outcomes) = p := by
  simp only [House.buildReportedRoofs, bind_eq_ok, pure_eq_ok, mapM_eq_ok]
  rfl

/-- **A house that was built**, part by part. -/
theorem House.build_eq_ok {mode : ReportMode} {tolerance : α} {b : BuiltHouse α} :
    h.build kernel mode tolerance = .ok b ↔
      (h.structureReport tolerance).settle mode = .ok b.structureReport ∧
      h.refusedOpening? Tolerance.openingFit = .ok none ∧
      h.placeOpenings = .ok b.openings ∧
      h.buildReportedRoofs kernel = .ok (b.roofs, b.roofReports) ∧
      h.buildSlabs = .ok b.slabs ∧ h.buildShells = .ok b.shells ∧
      h.buildSegments = .ok b.segments ∧
      h.buildPanels b.openings Tolerance.panelThickness = .ok b.panels := by
  simp only [House.build, bind_eq_ok, mapError_eq_ok, Computed.forHouse_eq_ok]
  constructor
  · rintro ⟨structureReport, hstructure, refused, hrefused, hb⟩
    cases refused with
    | some refused => simp [throw, throwThe, MonadExceptOf.throw, Bind.bind, Except.bind] at hb
    | none =>
      simp only [bind_eq_ok, pure_eq_ok, Computed.forHouse_eq_ok] at hb
      obtain ⟨openings, ho, roofs, hr, slabs, hs, shells, hw, segments, hg, panels, hp, rfl⟩ := hb
      exact ⟨hstructure, hrefused, ho, hr, hs, hw, hg, hp⟩
  · rintro ⟨hstructure, hrefused, ho, hr, hs, hw, hg, hp⟩
    refine ⟨_, hstructure, none, hrefused, ?_⟩
    simp only [bind_eq_ok, pure_eq_ok, Computed.forHouse_eq_ok]
    exact ⟨_, ho, _, hr, _, hs, _, hw, _, hg, _, hp, rfl⟩

/-- A roof is among those that were built if nothing is wrong with it. -/
theorem House.exists_derives_iff {outcomes : List (RoofOutcome α)}
    (ho : List.Forall₂ (fun roof o => h.buildReported kernel roof = .ok o) h.roofs outcomes)
    {roof : Roof α} (hroof : roof ∈ h.roofs) :
    (∃ built ∈ outcomes.filterMap (·.built), h.Derives kernel roof built) ↔
      ∃ report, h.Finds kernel roof report ∧ report.ok = true := by
  constructor
  · rintro ⟨built, -, -, report, hok, hb⟩
    exact ⟨report, ⟨some built, hb⟩, hok⟩
  · rintro ⟨report, hreport, hok⟩
    obtain ⟨o, hmem, ho⟩ := exists_of_forall₂_right ho.flip hroof
    obtain ⟨built, hbuilt, hderives⟩ := House.exists_built_of_finds ho hreport hok
    exact ⟨built, List.mem_filterMap.2 ⟨o, hmem, hbuilt⟩, hderives⟩

/-- All roofs are built, one after the other, if nothing is wrong with any of them. -/
theorem House.forall₂_derives_iff {outcomes : List (RoofOutcome α)}
    (ho : List.Forall₂ (fun roof o => h.buildReported kernel roof = .ok o) h.roofs outcomes) :
    List.Forall₂ (h.Derives kernel) h.roofs (outcomes.filterMap (·.built)) ↔
      ∀ roof ∈ h.roofs, ∃ report, h.Finds kernel roof report ∧ report.ok = true := by
  have hlen : h.roofs.length = (outcomes.map (·.built)).length := by
    rw [List.length_map, ho.length_eq]
  have hmap : outcomes.filterMap (·.built) = (outcomes.map (·.built)).filterMap id := by
    rw [List.filterMap_map, Function.id_comp]
  rw [hmap, forall₂_filterMap_id_iff hlen, List.forall₂_map_right_iff]
  constructor
  · intro hall roof hroof
    obtain ⟨o, -, built, -, -, report, hok, hbuilt⟩ := exists_of_forall₂_right hall.flip hroof
    exact ⟨report, ⟨some built, hbuilt⟩, hok⟩
  · intro hall
    refine ((List.forall₂_and_left _ _).2 ⟨hall, ho⟩).imp fun roof o => ?_
    rintro ⟨⟨report, hreport, hok⟩, ho⟩
    exact House.exists_built_of_finds ho hreport hok

end Roofs

/-! ## What a fine house tells about its roofs -/

/-- A report belongs to a multi-plane roof, whose dividers are written out first. -/
def MultiPlaneRoof.Finds (roof : MultiPlaneRoof Float) (report : RoofReport Float) : Prop :=
  roof.normalize.report = .ok report

/-- The reports of a house that was checked. -/
theorem Command.checkHouse_eq_ok {h : House Float} {tolerance : Float} {c : HouseCheck}
    (hc : checkHouse h tolerance = .ok c) :
    ∃ found : List (String × RoofReport Float),
      List.Forall₂ (fun roof r => r.1 = MultiPlaneRoof.id roof ∧ roof.Finds r.2)
        h.multiPlaneRoofs found ∧
      (c.ok = true ↔ (c.structureReport.ok = true ∧ c.refusedOpening = none) ∧
        ∀ p ∈ c.roofs, p.2.ok = true) ∧
      c.roofs = filed (·.1) (·.2) [] found := by
  simp only [checkHouse, reportRoofs, bind_eq_ok, pure_eq_ok, mapM_eq_ok] at hc
  obtain ⟨refused, -, roofs, ⟨found, hfound, rfl⟩, rfl⟩ := hc
  refine ⟨found, hfound.imp fun roof r => ?_, ?_, rfl⟩
  · rintro ⟨report, hreport, rfl⟩
    exact ⟨rfl, hreport⟩
  · simp [HouseCheck.ok, Option.isNone_iff_eq_none]

/-- **What a fine house tells about its roofs.**  A house that was built is fine if and only if
its structure is and every roof that is the last of its id is built without an error.  No
report is lost if and only if roofs of one id have equal reports, as they have if the ids are
distinct; then a house is fine if and only if its structure is and all of its roofs are built,
one after the other, without an error.  The same holds of the multi-plane roofs of a house
that was checked. -/
theorem House.roofs_ok_iff (h : House Float) :
    (∀ kernel mode tolerance b, h.build kernel mode tolerance = .ok b →
      (b.ok = true ↔ b.structureReport.ok = true ∧
        ∀ roof, IsLast Roof.id h.roofs roof → ∃ built ∈ b.roofs, h.Derives kernel roof built) ∧
      (KeepsAll Roof.id (h.Finds kernel) h.roofs b.roofReports ↔
        AgreeById Roof.id (h.Finds kernel) h.roofs) ∧
      ((h.roofs.map Roof.id).Nodup → AgreeById Roof.id (h.Finds kernel) h.roofs) ∧
      (AgreeById Roof.id (h.Finds kernel) h.roofs →
        (b.ok = true ↔ b.structureReport.ok = true ∧
          List.Forall₂ (h.Derives kernel) h.roofs b.roofs))) ∧
    ∀ tolerance c, Command.checkHouse h tolerance = .ok c →
      (c.ok = true ↔ (c.structureReport.ok = true ∧ c.refusedOpening = none) ∧
        ∀ roof, IsLast MultiPlaneRoof.id h.multiPlaneRoofs roof →
          ∃ report, roof.Finds report ∧ report.ok = true) ∧
      (KeepsAll MultiPlaneRoof.id MultiPlaneRoof.Finds h.multiPlaneRoofs c.roofs ↔
        AgreeById MultiPlaneRoof.id MultiPlaneRoof.Finds h.multiPlaneRoofs) ∧
      ((h.multiPlaneRoofs.map MultiPlaneRoof.id).Nodup →
        AgreeById MultiPlaneRoof.id MultiPlaneRoof.Finds h.multiPlaneRoofs) ∧
      (AgreeById MultiPlaneRoof.id MultiPlaneRoof.Finds h.multiPlaneRoofs →
        (c.ok = true ↔ (c.structureReport.ok = true ∧ c.refusedOpening = none) ∧
          ∀ roof ∈ h.multiPlaneRoofs, ∃ report, roof.Finds report ∧ report.ok = true)) := by
  constructor
  · intro kernel mode tolerance b hb
    obtain ⟨-, -, -, hroofs, -⟩ := House.build_eq_ok.1 hb
    obtain ⟨outcomes, ho, heq⟩ := House.buildReportedRoofs_eq_ok.1 hroofs
    obtain ⟨hroofs, hreports⟩ := Prod.mk.inj heq
    have hfound : List.Forall₂ (fun roof o => o.roofId = roof.id ∧ h.Finds kernel roof o.report)
        h.roofs outcomes := ho.imp fun roof o ho => House.finds_of_buildReported ho
    have hok : b.ok = true ↔ b.structureReport.ok = true ∧
        ∀ p ∈ filed (·.roofId) (·.report) [] outcomes, p.2.ok = true := by
      rw [hreports, BuiltHouse.ok, Bool.and_eq_true, List.all_eq_true]
    have hunique : Relator.RightUnique (h.Finds kernel) := fun _ _ _ => House.Finds.unique
    refine ⟨?_, ?_, agreeById_of_nodup hunique, fun hagree => ?_⟩
    · have hlast := forall_filed_iff hunique hfound fun r => r.ok = true
      rw [hok, hlast, ← hroofs]
      refine and_congr_right fun _ => forall_congr' fun roof => imp_congr_right fun hroof => ?_
      exact (House.exists_derives_iff ho hroof.mem).symm
    · rw [← hreports]
      exact keepsAll_filed_iff hfound
    · have hkeeps := (keepsAll_filed_iff hfound).2 hagree
      have hall := hkeeps.forall_filed_iff hunique hfound fun r => r.ok = true
      rw [hok, hall, ← hroofs, House.forall₂_derives_iff ho]
  · intro tolerance c hc
    obtain ⟨found, hall, hok, hreports⟩ := Command.checkHouse_eq_ok hc
    have hunique : Relator.RightUnique MultiPlaneRoof.Finds :=
      fun _ _ _ hr hr' => Except.ok.inj (hr.symm.trans hr')
    refine ⟨?_, ?_, agreeById_of_nodup hunique, fun hagree => ?_⟩
    · have hlast := forall_filed_iff hunique hall fun r => r.ok = true
      rw [hok, hreports, hlast]
    · rw [hreports]
      exact keepsAll_filed_iff hall
    · have hkeeps := (keepsAll_filed_iff hall).2 hagree
      have hall := hkeeps.forall_filed_iff hunique hall fun r => r.ok = true
      rw [hok, hreports, hall]

/-! ## One id for two roofs -/

/-- A multi-plane roof without faces. -/
def MultiPlaneRoof.bare (id : String) (ridges : List (Ridge Float)) : MultiPlaneRoof Float :=
  ⟨id, "ground", 2.8, 0.2, 0.0, ridges, []⟩

/-- A ridge that ends where it starts. -/
def Ridge.lengthless : Ridge Float := ⟨"ridge", ⟨1.0, 1.0⟩, ⟨1.0, 1.0⟩, 3.0, false, false⟩

/-- A house of one storey under some roofs. -/
def House.underRoofs (roofs : List (Roof Float)) : House Float where
  name := "House"
  wallThickness := 0.3
  elevationConvention := .topOfSlab
  allowGroundSupport := true
  supportGapLevelIds := []
  levels :=
    [⟨"ground", 0.0, 2.8, ⟨[⟨0.0, 0.0⟩, ⟨8.0, 0.0⟩, ⟨0.0, 8.0⟩], []⟩, some ⟨0.3, 0.0⟩⟩]
  roofs
  openings := []

/-- The house is built with whatever its roofs give. -/
theorem House.exists_build_underRoofs_with {roofs : List (Roof Float)}
    {p : List (BuiltRoof Float) × List (String × RoofReport Float)}
    (hroofs : (House.underRoofs roofs).buildReportedRoofs .binary64 = .ok p) :
    ∃ b, (House.underRoofs roofs).build .binary64 .throw Tolerance.support = .ok b ∧
      b.structureReport.ok = true ∧ b.roofReports = p.2 := by
  -- nothing but the roofs depends on the roofs
  have hstructure : ((House.underRoofs []).structureReport Tolerance.support).ok = true := by
    decide +kernel
  obtain ⟨slabs, hslabs⟩ : ∃ slabs, (House.underRoofs []).buildSlabs = .ok slabs :=
    exists_eq_ok_of_isSome (by decide +kernel)
  obtain ⟨shells, hshells⟩ : ∃ shells, (House.underRoofs []).buildShells = .ok shells :=
    exists_eq_ok_of_isSome (by decide +kernel)
  obtain ⟨segments, hsegments⟩ : ∃ segments,
      (House.underRoofs []).buildSegments = .ok segments :=
    exists_eq_ok_of_isSome (by decide +kernel)
  obtain ⟨panels, hpanels⟩ : ∃ panels,
      (House.underRoofs []).buildPanels [] Tolerance.panelThickness = .ok panels :=
    exists_eq_ok_of_isSome (by decide +kernel)
  refine ⟨⟨(House.underRoofs roofs).structureReport Tolerance.support, slabs, shells, segments, [],
    panels, p.1, p.2⟩, House.build_eq_ok.2 ⟨?_, rfl, rfl, hroofs, hslabs, hshells, hsegments,
    hpanels⟩, hstructure, rfl⟩
  exact StructureReport.settle_throw_eq_ok_iff.2 ⟨hstructure, rfl⟩

/-- The house is fine if nothing is wrong with its roofs. -/
theorem House.exists_build_underRoofs {roofs : List (Roof Float)}
    {p : List (BuiltRoof Float) × List (String × RoofReport Float)}
    (hroofs : (House.underRoofs roofs).buildReportedRoofs .binary64 = .ok p)
    (hok : p.2.all (·.2.ok) = true) :
    ∃ b, (House.underRoofs roofs).build .binary64 .throw Tolerance.support = .ok b ∧
      b.ok = true := by
  obtain ⟨b, hb, hstructure, hreports⟩ := House.exists_build_underRoofs_with hroofs
  refine ⟨b, hb, ?_⟩
  rw [BuiltHouse.ok, hreports, Bool.and_eq_true]
  exact ⟨hstructure, hok⟩

/-- Two roofs with an id of their own, and nothing wrong with either. -/
def House.twoIds : House Float :=
  .underRoofs [.multiPlane (.bare "left" []), .multiPlane (.bare "right" [])]

/-- A house with two roofs of its own ids is fine, and both of its roofs are built. -/
theorem House.twoIds_derived :
    (∃ b, House.twoIds.build .binary64 .throw Tolerance.support = .ok b ∧
      List.Forall₂ (House.twoIds.Derives .binary64) House.twoIds.roofs b.roofs) ∧
    ∃ c, Command.checkHouse House.twoIds Tolerance.support = .ok c ∧
      ∀ roof ∈ House.twoIds.multiPlaneRoofs, ∃ report, roof.Finds report ∧ report.ok = true := by
  obtain ⟨p, hp, hpok⟩ : ∃ p, House.twoIds.buildReportedRoofs .binary64 = .ok p ∧
      p.2.all (·.2.ok) = true := exists_eq_ok_of_any (by decide +kernel)
  obtain ⟨b, hb, hok⟩ := House.exists_build_underRoofs hp hpok
  obtain ⟨c, hc, hcok⟩ : ∃ c, Command.checkHouse House.twoIds Tolerance.support = .ok c ∧
      c.ok = true := exists_eq_ok_of_any (by decide +kernel)
  obtain ⟨hbuilt, hchecked⟩ := House.roofs_ok_iff House.twoIds
  obtain ⟨-, -, hids, hroofs⟩ := hbuilt _ _ _ b hb
  obtain ⟨-, -, hids', hroofs'⟩ := hchecked _ c hc
  exact ⟨⟨b, hb, ((hroofs (hids (by decide))).1 hok).2⟩,
    ⟨c, hc, ((hroofs' (hids' (by decide))).1 hcok).2⟩⟩

/-- A roof with a ridge that has no length, and after it another one with its id. -/
def House.laterOfOneId : House Float :=
  .underRoofs [.multiPlane (.bare "roof" [.lengthless]), .multiPlane (.bare "roof" [])]

/-- **The later of two roofs hides the earlier**: the house is fine, and what was found on its
first roof is in no report. -/
theorem House.laterOfOneId_hides :
    ∃ report, report.ok = false ∧
      House.laterOfOneId.Finds .binary64 (.multiPlane (.bare "roof" [.lengthless])) report ∧
      (∃ b, House.laterOfOneId.build .binary64 .throw Tolerance.support = .ok b ∧
        b.ok = true ∧ ∀ id, (id, report) ∉ b.roofReports) ∧
      ∃ c, Command.checkHouse House.laterOfOneId Tolerance.support = .ok c ∧
        c.ok = true ∧ ∀ id, (id, report) ∉ c.roofs := by
  obtain ⟨o, ho, hbad⟩ : ∃ o, House.laterOfOneId.buildReported .binary64
      (.multiPlane (.bare "roof" [.lengthless])) = .ok o ∧ (!o.report.ok) = true :=
    exists_eq_ok_of_any (by decide +kernel)
  obtain ⟨p, hp, hpok⟩ : ∃ p, House.laterOfOneId.buildReportedRoofs .binary64 = .ok p ∧
      p.2.all (·.2.ok) = true := exists_eq_ok_of_any (by decide +kernel)
  obtain ⟨b, hb, hok⟩ := House.exists_build_underRoofs hp hpok
  obtain ⟨c, hc, hcok⟩ : ∃ c, Command.checkHouse House.laterOfOneId Tolerance.support = .ok c ∧
      c.ok = true := exists_eq_ok_of_any (by decide +kernel)
  rw [Bool.not_eq_true'] at hbad
  -- a report with an error is not among reports that are all without
  have hnone : ∀ reports : List (String × RoofReport Float), reports.all (·.2.ok) = true →
      ∀ id, (id, o.report) ∉ reports := by
    intro reports hall id hmem
    have hgood := List.all_eq_true.1 hall _ hmem
    exact absurd (hbad.symm.trans hgood) Bool.false_ne_true
  refine ⟨o.report, hbad, (House.finds_of_buildReported ho).2, ⟨b, hb, hok, ?_⟩, c, hc, hcok, ?_⟩
  · rw [BuiltHouse.ok, Bool.and_eq_true] at hok
    exact hnone _ hok.2
  · rw [Command.HouseCheck.ok, Bool.and_eq_true] at hcok
    exact hnone _ hcok.2

end Housewright
