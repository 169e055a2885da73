import Housewright.Proofs.Construction.IndexedLoops
import Housewright.Proofs.Construction.Stoppages

/-!
# Guards of partial operations

A division by zero, an index beyond a list and the extent of nothing have no result.  Every such
operation stands behind a guard, and the guards suffice: for checks and for the building of a
house, whatever its numbers are and however degenerate its rings.

* `Ring.ReadByIndex`, `House.ReadByIndex`: whatever is read by index is there;
* `House.guards_suffice`: no check, no roof and no house is stopped by a partial operation.
-/

namespace Housewright

/-- Whatever loops over a ring read by index is there. -/
structure Ring.ReadByIndex (kernel : AreaKernel Float) (r : Ring Float) : Prop where
  edges : r.edgesByIndex = .ok r.edges
  edgesInto : r.edgesIntoByIndex = .ok r.edgesInto
  corners : r.cornersByIndex = .ok r.corners
  repeats : ∀ eps, r.withoutRepeatsByIndex eps = r.withoutRepeats eps
  triangles : r.triangulateByIndex kernel = r.triangulate kernel

theorem Ring.readByIndex (kernel : AreaKernel Float) (r : Ring Float) : r.ReadByIndex kernel where
  edges := r.edgesByIndex_eq
  edgesInto := r.edgesIntoByIndex_eq
  corners := r.cornersByIndex_eq
  repeats eps := r.withoutRepeatsByIndex_eq eps
  triangles := r.triangulateByIndex_eq kernel

/-- Whatever is read by index for a house is there: its levels, the vertices of all rings that
come up, and those that a half of a roof reaches to. -/
structure House.ReadByIndex (kernel : AreaKernel Float) (h : House Float) : Prop where
  levels : ∀ tolerance, structureReportByIndex h.supportPolicy tolerance h.readings =
    .ok (h.structureReport tolerance)
  openings : ∀ o, h.placeOpeningByIndex o = h.placeOpening o
  rings : ∀ r : Ring Float, r.ReadByIndex kernel
  halves : ∀ (r : MultiRidgeRoof Float) (ridge : Ridge Float) (base : Float)
    (outline : Ring Float) (keep : Side),
    r.buildHalfByReach kernel ridge base outline keep = r.buildHalf kernel ridge base outline keep

theorem House.readByIndex (kernel : AreaKernel Float) (h : House Float) :
    h.ReadByIndex kernel where
  levels tolerance := structureReportByIndex_eq h.supportPolicy tolerance h.readings
  openings o := h.placeOpeningByIndex_eq o
  rings r := r.readByIndex kernel
  halves r := r.buildHalfByReach_eq kernel

/-- **The guards suffice.**  Over a kernel that knows what it divides by and reads, no partial
operation stops a check of the structure, of the openings or of a multi-plane roof, nor the
building of a roof or of a house; and all that is read by index is there. -/
theorem House.guards_suffice {kernel : AreaKernel Float}
    (hkernel : kernel.StopsOnly fun e => e.isPartial = false) (h : House Float)
    (mode : ReportMode) (tolerance : Float) :
    h.ReadByIndex kernel ∧
      (∃ refused?, h.refusedOpening? tolerance = .ok refused?) ∧
      (∀ roof : MultiPlaneRoof Float, OnlyOverflow roof.report) ∧
      (∀ roof, FailsOnly (RoofError.CausedBy fun e => e.isPartial = false)
        (h.buildRoof kernel roof)) ∧
      FailsOnly (h.StopsOver (fun e => e.isPartial = false) mode tolerance)
        (h.build kernel mode tolerance) := by
  have hover : GeometryError.overflow.isPartial = false := rfl
  refine ⟨h.readByIndex kernel, ?_, fun roof => roof.report_failsOnly, fun roof => ?_, ?_⟩
  · exact exists_firstRefused? tolerance h.lastLevel? h.openings
  · exact h.buildRoof_causedBy hover hkernel roof
  · exact h.build_stopsOnly hover hkernel mode tolerance

/-- The kernel that programs run on knows what it divides by and reads. -/
theorem AreaKernel.binary64_isTotal :
    AreaKernel.binary64.StopsOnly fun e => e.isPartial = false :=
  AreaKernel.binary64_stopsOnly.mono fun _ he => he.2

/-- A house without walls on its ground floor, under a roof whose ridge ends where it starts, and
with a point for an upper floor. -/
def House.pointless : House Float :=
  { House.underRoofs [.gable .broken] with
    levels :=
      [⟨"ground", 0.0, 2.8, ⟨[], []⟩, some ⟨0.3, 0.0⟩⟩,
        ⟨"upper", 3.1, 2.8, ⟨[⟨1.0, 1.0⟩, ⟨1.0, 1.0⟩, ⟨1.0, 1.0⟩], []⟩, some ⟨0.3, 0.0⟩⟩] }

/-- The guards suffice for a house without an extent. -/
theorem House.pointless_guarded :
    (AreaKernel.binary64.StopsOnly fun e => e.isPartial = false) ∧
      House.pointless.ReadByIndex .binary64 ∧
      FailsOnly (House.pointless.StopsOver (fun e => e.isPartial = false) .throw 0.01)
        (House.pointless.build .binary64 .throw 0.01) := by
  obtain ⟨hread, -, -, -, hbuild⟩ :=
    House.guards_suffice AreaKernel.binary64_isTotal House.pointless .throw 0.01
  exact ⟨AreaKernel.binary64_isTotal, hread, hbuild⟩

end Housewright
