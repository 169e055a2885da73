import Housewright.Proofs.Construction.RoofCauses

/-!
# One roof after the other

What is wrong with a roof goes into its report, and the other roofs are built all the same;
only a distance that overflows gets through.

* `House.buildRoof_failsOnly`: whatever the coordinates are, a roof of any kind fails over its
  shape, over its description, or over a square that is too large.
* `House.buildReportedRoofs_withOnly`: what a house under one roof yields.
* `House.roofs_apart`: a house yields what its roofs yield one by one, and if it yields nothing,
  then one of them alone overflows.
* `House.farRidge_blocks`: one ridge that is too long keeps a sound roof from being built.
-/

namespace Housewright

open Binary64

/-! ## Kernels -/

section Kernels

variable {α : Type}

/-- A kernel that fails only over the shapes that it is given. -/
structure AreaKernel.BlamesShapes (kernel : AreaKernel α) : Prop where
  repair : ∀ r, FailsOnly (·.concernsShape = true) (kernel.repair r)
  difference : ∀ base cutter, FailsOnly (·.concernsShape = true) (kernel.difference base cutter)
  triangles : ∀ r, FailsOnly (·.concernsShape = true) (kernel.triangles r)

/-- The kernel that programs run on blames shapes only. -/
theorem AreaKernel.binary64_blamesShapes : AreaKernel.binary64.BlamesShapes where
  repair r := (AreaKernel.binary64_stopsOnly.repair r).mono fun _ he => he.1
  difference base cutter :=
    (AreaKernel.binary64_stopsOnly.difference base cutter).mono fun _ he => he.1
  triangles r := (AreaKernel.binary64_stopsOnly.triangles r).mono fun _ he => he.1

end Kernels

/-! ## What can stop a roof -/

/-- A failure over a shape, or an overflow. -/
def GeometryError.Foreseen (e : GeometryError) : Prop := e.concernsShape = true ∨ e = .overflow

/-- An error that says something about a roof, or an overflow. -/
def RoofError.Foreseen (e : RoofError) : Prop :=
  ∀ failure, e.failure? = some failure → failure = .overflow

theorem AreaKernel.BlamesShapes.stopsOnly {kernel : AreaKernel Float}
    (hkernel : kernel.BlamesShapes) : kernel.StopsOnly GeometryError.Foreseen where
  repair r := (hkernel.repair r).mono fun _ => .inl
  difference base cutter := (hkernel.difference base cutter).mono fun _ => .inl
  triangles r := (hkernel.triangles r).mono fun _ => .inl

theorem RoofError.CausedBy.foreseen {e : RoofError} (h : e.CausedBy GeometryError.Foreseen) :
    e.Foreseen := by
  intro failure hf
  cases e with
  | geometry cause =>
    rcases h with hshape | rfl
    · simp [RoofError.failure?, hshape] at hf
    · exact (Option.some.inj hf).symm
  | _ => cases hf

section Roofs

variable {kernel : AreaKernel Float}

/-- **A roof of any kind** fails over what it is, or over an overflow. -/
theorem House.buildRoof_failsOnly (hkernel : kernel.BlamesShapes) (h : House Float)
    (roof : Roof Float) : FailsOnly RoofError.Foreseen (h.buildRoof kernel roof) :=
  (h.buildRoof_causedBy (.inr rfl) hkernel.stopsOnly roof).mono fun _ => RoofError.CausedBy.foreseen

/-- With its report, a roof fails over an overflow only. -/
theorem House.buildReported_failsOnly (hkernel : kernel.BlamesShapes) (h : House Float)
    (roof : Roof Float) : OnlyOverflow (h.buildReported kernel roof) := by
  refine (h.buildReported_stopsOnly (.inr rfl) hkernel.stopsOnly roof).mono ?_
  rintro e ⟨hshape | rfl, hno⟩
  · rw [hshape] at hno
    cases hno
  · rfl

/-- **Only an overflow gets through** to whoever builds the roofs of a house. -/
theorem House.buildReportedRoofs_failsOnly (hkernel : kernel.BlamesShapes) (h : House Float) :
    OnlyOverflow (h.buildReportedRoofs kernel) :=
  .bind (.mapM fun roof _ => h.buildReported_failsOnly hkernel roof) fun _ => .pure _

end Roofs

/-! ## A house under one roof -/

section Stage

variable {α : Type} [Scalar α] {kernel : AreaKernel α} {h : House α}

/-- The house under one roof only. -/
def House.withOnly (h : House α) (roof : Roof α) : House α := { h with roofs := [roof] }

/-- What a roof yields: the roof as it was built with its report, or the report of an error. -/
inductive Roof.Yields (roof : Roof α) : List (BuiltRoof α) × List (String × RoofReport α) → Prop
  | built (b : BuiltRoof α) (report : RoofReport α) (id : b.roofId = roof.id) :
    Yields roof ([b], [(roof.id, report)])
  | refused (problem : RoofProblem α) :
    Yields roof ([], [(roof.id, .ofError roof.id problem)])

/-- What an outcome adds to a house. -/
def RoofOutcome.parts (o : RoofOutcome α) : List (BuiltRoof α) × List (String × RoofReport α) :=
  (o.built.toList, [(o.roofId, o.report)])

/-- **A house under one roof** yields what the roof adds to a house. -/
theorem House.buildReportedRoofs_withOnly (kernel : AreaKernel α) (h : House α) (roof : Roof α) :
    (h.withOnly roof).buildReportedRoofs kernel =
      (h.buildReported kernel roof).map RoofOutcome.parts := by
  have hsame : (h.withOnly roof).buildReported kernel roof = h.buildReported kernel roof := rfl
  have hroofs : (h.withOnly roof).roofs = [roof] := rfl
  unfold House.buildReportedRoofs
  rw [hroofs, List.mapM_cons, List.mapM_nil, hsame]
  cases h.buildReported kernel roof with
  | error e => rfl
  | ok o =>
    obtain ⟨roofId, built, report⟩ := o
    cases built <;> rfl

theorem House.yields_of_buildReported {roof : Roof α} {o : RoofOutcome α}
    (ho : h.buildReported kernel roof = .ok o) : roof.Yields o.parts := by
  rcases House.buildReported_eq_ok ho with ⟨built, report, hb, rfl⟩ | ⟨problem, rfl⟩
  · exact .built built report (House.roofId_of_buildRoof hb)
  · exact .refused problem

theorem House.exists_withOnly_iff {roof : Roof α} :
    (∃ q, (h.withOnly roof).buildReportedRoofs kernel = .ok q) ↔
      ∃ o, h.buildReported kernel roof = .ok o := by
  rw [House.buildReportedRoofs_withOnly]
  cases h.buildReported kernel roof with
  | error e => simp [Except.map]
  | ok o => simp [Except.map]

/-- What roofs of distinct ids yield is put together, one after the other. -/
theorem House.eq_flatMap_parts (hids : (h.roofs.map Roof.id).Nodup)
    {outcomes : List (RoofOutcome α)}
    (ho : List.Forall₂ (fun roof o => h.buildReported kernel roof = .ok o) h.roofs outcomes) :
    outcomes.filterMap (·.built) = (outcomes.map RoofOutcome.parts).flatMap (·.1) ∧
      filed (·.roofId) (·.report) [] outcomes =
        (outcomes.map RoofOutcome.parts).flatMap (·.2) := by
  constructor
  · rw [List.flatMap_map, List.filterMap_eq_flatMap_toList]
    rfl
  · have hsame : outcomes.map (·.roofId) = h.roofs.map Roof.id :=
      map_eq_map_of_forall₂ (ho.imp fun _ _ ho => (House.finds_of_buildReported ho).1)
    have hnodup : ((([] : List (String × RoofReport α)).map (·.1)) ++
        outcomes.map (·.roofId)).Nodup := by
      rw [List.map_nil, List.nil_append, hsame]
      exact hids
    rw [filed_of_nodup hnodup, List.nil_append, List.flatMap_map]
    exact List.map_eq_flatMap

end Stage

/-- **The roofs of a house are built apart from one another.**  Under distinct ids a house
yields roofs and reports if and only if each of its roofs does alone, and then they are what the
roofs yield alone, one after the other: a built roof with its report, or the report of an
error.  If it yields nothing, a square was too large, and already so for one roof alone. -/
theorem House.roofs_apart {kernel : AreaKernel Float} (hkernel : kernel.BlamesShapes)
    (h : House Float) (hids : (h.roofs.map Roof.id).Nodup) :
    ((∃ p, h.buildReportedRoofs kernel = .ok p) ↔
      ∀ roof ∈ h.roofs, ∃ q, (h.withOnly roof).buildReportedRoofs kernel = .ok q) ∧
    (∀ p, h.buildReportedRoofs kernel = .ok p → ∃ each,
      List.Forall₂ (fun roof q => (h.withOnly roof).buildReportedRoofs kernel = .ok q ∧
        roof.Yields q) h.roofs each ∧
      p = (each.flatMap (·.1), each.flatMap (·.2))) ∧
    ∀ e, h.buildReportedRoofs kernel = .error e → e = .overflow ∧
      ∃ roof ∈ h.roofs, (h.withOnly roof).buildReportedRoofs kernel = .error .overflow := by
  refine ⟨⟨?_, ?_⟩, ?_, ?_⟩
  · rintro ⟨p, hp⟩ roof hroof
    obtain ⟨outcomes, ho, -⟩ := House.buildReportedRoofs_eq_ok.1 hp
    obtain ⟨o, -, ho⟩ := exists_of_forall₂_right ho.flip hroof
    exact House.exists_withOnly_iff.2 ⟨o, ho⟩
  · intro hall
    obtain ⟨outcomes, ho⟩ := exists_mapM_eq_ok fun roof hroof =>
      House.exists_withOnly_iff.1 (hall roof hroof)
    exact ⟨_, House.buildReportedRoofs_eq_ok.2 ⟨outcomes, mapM_eq_ok.1 ho, rfl⟩⟩
  · intro p hp
    obtain ⟨outcomes, ho, rfl⟩ := House.buildReportedRoofs_eq_ok.1 hp
    obtain ⟨hroofs, hreports⟩ := House.eq_flatMap_parts hids ho
    refine ⟨outcomes.map RoofOutcome.parts, ?_, Prod.ext hroofs hreports⟩
    rw [List.forall₂_map_right_iff]
    refine ho.imp fun roof o ho => ⟨?_, House.yields_of_buildReported ho⟩
    rw [House.buildReportedRoofs_withOnly, ho]
    rfl
  · intro e he
    obtain rfl := h.buildReportedRoofs_failsOnly hkernel e he
    rcases bind_eq_error.1 he with hroofs | ⟨outcomes, -, hnone⟩
    · obtain ⟨roof, hroof, hfail⟩ := exists_of_mapM_eq_error hroofs
      refine ⟨rfl, roof, hroof, ?_⟩
      rw [House.buildReportedRoofs_withOnly, hfail]
      rfl
    · cases hnone

/-! ## A ridge that is too long -/

/-- A slab over the whole outline. -/
def FlatRoof.plain : FlatRoof Float := ⟨"flat", "ground", none, 0.2, 0.0⟩

/-- A gable roof whose ridge ends where it starts. -/
def GableRoof.broken : GableRoof Float :=
  ⟨"broken", "ground", 2.8, 4.8, ⟨⟨1.0, 1.0⟩, ⟨1.0, 1.0⟩⟩, 0.0, 0.2⟩

/-- A house under a broken roof and a sound one. -/
def House.halfBroken : House Float := .underRoofs [.gable .broken, .flat .plain]

/-- The broken roof and the sound one yield what they yield alone. -/
theorem House.halfBroken_apart :
    ∃ p each, House.halfBroken.buildReportedRoofs .binary64 = .ok p ∧
      List.Forall₂ (fun roof q =>
        (House.halfBroken.withOnly roof).buildReportedRoofs .binary64 = .ok q ∧ roof.Yields q)
        House.halfBroken.roofs each ∧
      p = (each.flatMap (·.1), each.flatMap (·.2)) ∧ p.1.length = 1 := by
  obtain ⟨p, hp, hlen⟩ : ∃ p, House.halfBroken.buildReportedRoofs .binary64 = .ok p ∧
      (p.1.length == 1) = true := exists_eq_ok_of_any (by decide +kernel)
  obtain ⟨each, heach, hflat⟩ := (House.roofs_apart AreaKernel.binary64_blamesShapes
    House.halfBroken (by decide)).2.1 p hp
  exact ⟨p, each, hp, heach, hflat, beq_iff_eq.1 hlen⟩

/-- A ridge whose length squared is beyond all finite numbers. -/
def Ridge.far : Ridge Float := ⟨"ridge", ⟨-1e200, 0.0⟩, ⟨1e200, 0.0⟩, 3.0, false, false⟩

/-- A house under a roof with such a ridge, and under a sound one. -/
def House.withFarRidge : House Float :=
  .underRoofs [.multiPlane (.bare "far" [.far]), .flat .plain]

/-- **One ridge stops all roofs**: the sound roof is built alone, and not at all after a roof
with a ridge that is too long. -/
theorem House.farRidge_blocks :
    (House.withFarRidge.roofs.map Roof.id).Nodup ∧
      House.withFarRidge.buildReportedRoofs .binary64 = .error .overflow ∧
      ∃ roof ∈ House.withFarRidge.roofs, ∃ q,
        (House.withFarRidge.withOnly roof).buildReportedRoofs .binary64 = .ok q ∧
          q.1.length = 1 := by
  refine ⟨by decide, ?_, .flat .plain, by simp [House.withFarRidge, House.underRoofs], ?_⟩
  · obtain ⟨e, he⟩ : ∃ e, House.withFarRidge.buildReportedRoofs .binary64 = .error e :=
      exists_eq_error_of_isNone (by decide +kernel)
    obtain rfl := House.buildReportedRoofs_failsOnly AreaKernel.binary64_blamesShapes _ e he
    exact he
  · obtain ⟨q, hq, hlen⟩ : ∃ q, (House.withFarRidge.withOnly (.flat .plain)).buildReportedRoofs
        .binary64 = .ok q ∧ (q.1.length == 1) = true := exists_eq_ok_of_any (by decide +kernel)
    exact ⟨q, hq, beq_iff_eq.1 hlen⟩

end Housewright
