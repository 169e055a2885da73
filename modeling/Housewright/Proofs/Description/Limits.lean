import Housewright.Description.Decoder
import Housewright.Description.Encoder
import Housewright.Proofs.Json.Inversion

/-!
# Houses within the limits of the reader

Almost everything in a house has an encoding of bounded depth with numbers of bounded size.
The exceptions are what openings pass on from the file: the index of an edge and the style.
`Opening.PassedOnReadable` says that these are within the limits of the reader.

## Main results

* `House.encode_readable` : then the whole encoding of the house is.
* `House.passedOnReadable_of_load` : every house that was loaded is such a house.
-/

namespace Housewright

open Json

/-! ## Encoders of lists and optional values -/

theorem Json.Readable.ofList {α : Type} {d : ℕ} {f : α → Json} {xs : List α}
    (h : ∀ x ∈ xs, Readable d (f x)) : Readable (d + 1) (ofList f xs) := by
  refine .arr fun v hv => ?_
  obtain ⟨x, hx, rfl⟩ := List.mem_map.1 hv
  exact h x hx

theorem Json.Readable.ofOption {α : Type} {d : ℕ} {f : α → Json} {o : Option α}
    (h : ∀ x, o = some x → Readable d (f x)) : Readable d (ofOption f o) := by
  cases o with
  | none => exact .null
  | some x => exact h x rfl

/-! ## The parts of a house -/

theorem Point.encode_readable (p : Point Float) : Readable 1 p.encode := by
  refine .obj (by simp) ?_
  simp only [List.forall_mem_cons]
  exact ⟨.num _, .num _, nofun⟩

theorem PlanePoint.encode_readable (p : PlanePoint Float) : Readable 1 p.encode := by
  refine .obj (by simp) ?_
  simp only [List.forall_mem_cons]
  exact ⟨.num _, .num _, .num _, nofun⟩

theorem HalfPlane.members_readable (h : HalfPlane Float) : ∀ m ∈ h.members, Readable 1 m.2 := by
  simp only [HalfPlane.members, List.forall_mem_cons]
  exact ⟨h.a.encode_readable, h.b.encode_readable, .str _, nofun⟩

theorem HalfPlane.encode_readable (h : HalfPlane Float) : Readable 2 h.encode :=
  .obj (by simp [HalfPlane.members]) h.members_readable

theorem RidgeLine.encode_readable (r : RidgeLine Float) : Readable 2 r.encode := by
  refine .obj (by simp) ?_
  simp only [List.forall_mem_cons]
  exact ⟨r.start.encode_readable, r.finish.encode_readable, nofun⟩

theorem Ridge.encode_readable (r : Ridge Float) : Readable 2 r.encode := by
  refine .obj (by simp) ?_
  simp only [List.forall_mem_cons]
  exact ⟨.str _, r.start.encode_readable, r.finish.encode_readable, .num _, .bool _, .bool _,
    nofun⟩

theorem RegionItem.encode_readable (i : RegionItem Float) : Readable 2 i.encode := by
  refine .obj ?_ ?_
  · cases i <;> simp [RegionItem.members, HalfPlane.members]
  · refine List.forall_mem_cons.2 ⟨.str _, ?_⟩
    cases i with
    | explicit h => exact h.members_readable
    | materialized h ridgeId =>
      refine List.forall_mem_append.2 ⟨h.members_readable, ?_⟩
      exact List.forall_mem_singleton.2 (.ofOption fun _ _ => .str _)
    | divider ridgeId keep =>
      simp only [RegionItem.members, List.forall_mem_cons]
      exact ⟨.str _, .str _, nofun⟩
    | perpCut ridgeId t keep =>
      simp only [RegionItem.members, List.forall_mem_cons]
      exact ⟨.str _, .num _, .str _, nofun⟩

theorem FaceRegion.encode_readable (r : FaceRegion Float) : Readable 4 r.encode := by
  refine .obj ?_ ?_
  · cases r <;> simp [FaceRegion.members]
  · refine List.forall_mem_cons.2 ⟨.str _, ?_⟩
    cases r with
    | halfPlanes planes =>
      exact List.forall_mem_singleton.2 (.ofList fun h _ => h.encode_readable)
    | ridgeCap ridgeId cap =>
      simp only [FaceRegion.members, List.forall_mem_cons]
      exact ⟨.str _, .str _, nofun⟩
    | compound items =>
      exact List.forall_mem_singleton.2 (.ofList fun i _ => i.encode_readable)

theorem RoofFace.encode_readable (f : RoofFace Float) : Readable 5 f.encode := by
  have hpoint : ∀ o : Option (PlanePoint Float), Readable 4 (Json.ofOption PlanePoint.encode o) :=
    fun o => .ofOption fun p _ => p.encode_readable.mono (by decide)
  refine .obj (by simp) ?_
  simp only [List.forall_mem_cons]
  exact ⟨.str _, .str _, .ofOption fun _ _ => .str _, .ofOption fun _ _ => .num _,
    .ofOption fun _ _ => .num _, .ofOption fun _ _ => .str _, .ofOption fun _ _ => .str _,
    hpoint _, hpoint _, hpoint _, f.region.encode_readable, nofun⟩

theorem Roof.encode_readable (r : Roof Float) : Readable 7 r.encode := by
  have hridges : ∀ rs : List (Ridge Float), Readable 6 (Json.ofList Ridge.encode rs) := fun rs =>
    (Json.Readable.ofList fun r _ => r.encode_readable).mono (by decide)
  refine .obj ?_ ?_
  · cases r <;> simp [Roof.members]
  · refine List.forall_mem_cons.2 ⟨.str _, ?_⟩
    cases r with
    | flat r =>
      simp only [Roof.members, List.forall_mem_cons]
      exact ⟨.str _, .str _, .ofOption fun _ _ => .str _, .num _, .num _, nofun⟩
    | gable r =>
      simp only [Roof.members, List.forall_mem_cons]
      exact ⟨.str _, .str _, .num _, .num _, r.ridge.encode_readable.mono (by decide), .num _,
        .num _, nofun⟩
    | multiRidge r =>
      simp only [Roof.members, List.forall_mem_cons]
      exact ⟨.str _, .str _, .num _, .num _, .num _, hridges _, nofun⟩
    | multiPlane r =>
      simp only [Roof.members, List.forall_mem_cons]
      exact ⟨.str _, .str _, .num _, .num _, .num _, hridges _,
        .ofList fun f _ => f.encode_readable, nofun⟩

theorem Ring.encode_readable (r : Ring Float) : Readable 2 (Ring.encode r) :=
  .ofList fun p _ => p.encode_readable

theorem Footprint.encode_readable (f : Footprint Float) : Readable 4 f.encode := by
  refine .obj (by simp) ?_
  simp only [List.forall_mem_cons]
  exact ⟨(Ring.encode_readable _).mono (by decide), .ofList fun r _ => Ring.encode_readable r,
    nofun⟩

theorem SlabSpec.encode_readable (s : SlabSpec Float) : Readable 1 s.encode := by
  refine .obj (by simp) ?_
  simp only [List.forall_mem_cons]
  exact ⟨.num _, .num _, nofun⟩

theorem Level.encode_readable (l : Level Float) : Readable 5 l.encode := by
  refine .obj (by simp) ?_
  simp only [List.forall_mem_cons]
  exact ⟨.str _, .num _, .num _, l.footprint.encode_readable,
    .ofOption fun s _ => s.encode_readable.mono (by decide), nofun⟩

/-! ## Openings -/

/-- What an opening passes on from its file is within the limits of the reader. -/
structure Opening.PassedOnReadable (o : Opening Float) : Prop where
  edgeIndex : o.edge.edgeIndex.natAbs < 10 ^ digitLimit
  style : ∀ ms, o.style = some ms → Readable 198 (.obj ms)

theorem Opening.encode_readable {o : Opening Float} (h : o.PassedOnReadable) :
    Readable 199 o.encode := by
  have hedge : Readable 1 o.edge.encode := by
    refine .obj (by simp) ?_
    simp only [List.forall_mem_cons]
    exact ⟨.int h.edgeIndex, .bool _, .ofOption fun _ _ => .str _, nofun⟩
  refine .obj (by simp) ?_
  simp only [List.forall_mem_cons]
  exact ⟨.str _, .str _, .str _, hedge.mono (by decide), .num _, .num _, .num _, .num _,
    .ofOption h.style, nofun⟩

/-! ## Houses -/

/-- **The encoding of a house is within the limits of the reader** if what its openings pass on
is. -/
theorem House.encode_readable {h : House Float} (hopenings : ∀ o ∈ h.openings, o.PassedOnReadable) :
    Readable depthLimit h.encode := by
  refine .obj (d := 200) (by simp) ?_
  simp only [List.forall_mem_cons]
  exact ⟨.str _, .num _, .str _, .bool _, .ofList fun _ _ => .str _,
    (Json.Readable.ofList fun l _ => l.encode_readable).mono (by decide),
    (Json.Readable.ofList fun r _ => r.encode_readable).mono (by decide),
    .ofList fun o ho => Opening.encode_readable (hopenings o ho), nofun⟩

/-! ## What was loaded -/

/-- What an opening passes on comes from the value that it was decoded from. -/
theorem Opening.passedOnReadable_of_decode {j : Json} {o : Opening Float} (hj : Readable 199 j)
    (h : Opening.decode j = .value o) : o.PassedOnReadable := by
  obtain ⟨ms, rfl, h₀⟩ := thing_eq_value h
  obtain ⟨_, style, h₁, hstyle, rfl⟩ := Decoded.seq_eq_value h₀
  obtain ⟨_, sillHeight, h₂, -, rfl⟩ := Decoded.seq_eq_value h₁
  obtain ⟨_, height, h₃, -, rfl⟩ := Decoded.seq_eq_value h₂
  obtain ⟨_, width, h₄, -, rfl⟩ := Decoded.seq_eq_value h₃
  obtain ⟨_, offset, h₅, -, rfl⟩ := Decoded.seq_eq_value h₄
  obtain ⟨_, edge, h₆, hedge, rfl⟩ := Decoded.seq_eq_value h₅
  obtain ⟨_, levelId, h₇, -, rfl⟩ := Decoded.seq_eq_value h₆
  obtain ⟨_, kind, h₈, -, rfl⟩ := Decoded.seq_eq_value h₇
  obtain ⟨id, -, rfl⟩ := Decoded.map_eq_value h₈
  have hms := Readable.of_mem_obj (d := 198) hj
  constructor
  · obtain ⟨m, hm, hedge⟩ := required_eq_value hedge
    obtain ⟨es, hes, he₀⟩ := thing_eq_value hedge
    obtain ⟨_, outwardSide, he₁, -, rfl⟩ := Decoded.seq_eq_value he₀
    obtain ⟨_, fromEnd, he₂, -, rfl⟩ := Decoded.seq_eq_value he₁
    obtain ⟨edgeIndex, hindex, rfl⟩ := Decoded.map_eq_value he₂
    obtain ⟨e, he, hindex⟩ := required_eq_value hindex
    have hread := hms m hm
    rw [hes] at hread
    exact integer_natAbs_lt (Readable.of_mem_obj (d := 197) hread e he) hindex
  · rintro ms' rfl
    obtain ⟨m, hm, hobject⟩ := maybe_eq_value hstyle
    exact (hms m hm).of_anyObject hobject

/-- The openings of a house come from the value that it was decoded from. -/
theorem House.passedOnReadable_of_decode {j : Json} {h : House Float}
    (hj : Readable depthLimit j) (hdecode : House.decode j = .value h) :
    ∀ o ∈ h.openings, o.PassedOnReadable := by
  obtain ⟨ms, rfl, h₀⟩ := thing_eq_value hdecode
  obtain ⟨_, openings, h₁, hopenings, rfl⟩ := Decoded.seq_eq_value h₀
  obtain ⟨_, roofs, h₂, -, rfl⟩ := Decoded.seq_eq_value h₁
  obtain ⟨_, levels, h₃, -, rfl⟩ := Decoded.seq_eq_value h₂
  obtain ⟨_, gaps, h₄, -, rfl⟩ := Decoded.seq_eq_value h₃
  obtain ⟨_, ground, h₅, -, rfl⟩ := Decoded.seq_eq_value h₄
  obtain ⟨_, convention, h₆, -, rfl⟩ := Decoded.seq_eq_value h₅
  obtain ⟨_, wallThickness, h₇, -, rfl⟩ := Decoded.seq_eq_value h₆
  obtain ⟨name, -, rfl⟩ := Decoded.map_eq_value h₇
  intro o ho
  obtain hnone | ⟨m, hm, hlist⟩ := withDefault_eq_value hopenings
  · rw [show openings = [] from hnone] at ho
    exact absurd ho List.not_mem_nil
  · obtain ⟨js, hjs, hall⟩ := list_eq_value hlist
    obtain ⟨v, hv, hopening⟩ := hall o ho
    have hread := Readable.of_mem_obj (d := 200) hj m hm
    rw [hjs] at hread
    exact Opening.passedOnReadable_of_decode (Readable.of_mem_arr (d := 199) hread v hv) hopening

/-- **What the openings of a loaded house pass on is within the limits of the reader.** -/
theorem House.passedOnReadable_of_load {text : String} {h : House Float}
    (hload : House.load text = .ok h) : ∀ o ∈ h.openings, o.PassedOnReadable := by
  rw [House.load] at hload
  split at hload
  · cases hload
  next j hj =>
    split at hload
    next h' hdecode =>
      rw [← Except.ok.inj hload]
      exact House.passedOnReadable_of_decode (parse?_readable hj) hdecode
    · cases hload

end Housewright
