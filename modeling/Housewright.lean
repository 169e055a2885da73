import Housewright.Command.Answer
import Housewright.Command.Path
import Housewright.Command.Request
import Housewright.Command.Run
import Housewright.Construction.Facade
import Housewright.Construction.House
import Housewright.Construction.Openings
import Housewright.Construction.Outward
import Housewright.Construction.Plates
import Housewright.Construction.Roofs
import Housewright.Construction.Slabs
import Housewright.Construction.Walls
import Housewright.Decimal.Binary
import Housewright.Decimal.Fixed
import Housewright.Decimal.Reading
import Housewright.Decimal.Shortest
import Housewright.Description.Decoder
import Housewright.Description.Document
import Housewright.Description.Encoder
import Housewright.Description.House
import Housewright.Description.Roof
import Housewright.Description.Words
import Housewright.Drawing.Mark
import Housewright.Drawing.Plan
import Housewright.Drawing.Sheet
import Housewright.Geometry.Canonical
import Housewright.Geometry.Containment
import Housewright.Geometry.HalfPlane
import Housewright.Geometry.Kernel
import Housewright.Geometry.Offset
import Housewright.Geometry.Point
import Housewright.Geometry.Ring
import Housewright.Inspection.Openings
import Housewright.Inspection.Roofs
import Housewright.Inspection.Structure
import Housewright.Inspection.Wording
import Housewright.Json.Blank
import Housewright.Json.Decoded
import Housewright.Json.Edit
import Housewright.Json.Fields
import Housewright.Json.Reader
import Housewright.Json.Value
import Housewright.Json.Writer
import Housewright.Main
import Housewright.Planar.Area
import Housewright.Planar.Arrangement
import Housewright.Planar.Binary64
import Housewright.Planar.Delaunay
import Housewright.Planar.Ears
import Housewright.Planar.Exact
import Housewright.Planar.Pieces
import Housewright.Roof.Editing
import Housewright.Roof.Error
import Housewright.Roof.Region
import Housewright.Roof.RidgeSync
import Housewright.Sample.Box
import Housewright.Sample.BoxDecoder
import Housewright.Sample.Reference
import Housewright.Scalar
import Housewright.Scalar.Binary64
import Housewright.Tolerance
import Housewright.Proofs.Binary64.Decimals
import Housewright.Proofs.Binary64.Equality
import Housewright.Proofs.Binary64.Errors
import Housewright.Proofs.Binary64.Nonnegative
import Housewright.Proofs.Binary64.Order
import Housewright.Proofs.Binary64.Parts
import Housewright.Proofs.Binary64.Products
import Housewright.Proofs.Binary64.Rounding
import Housewright.Proofs.Binary64.SignedZeros
import Housewright.Proofs.Binary64.Sizeless
import Housewright.Proofs.Binary64.Sums
import Housewright.Proofs.Command.Agreement
import Housewright.Proofs.Command.Derivable
import Housewright.Proofs.Command.ExitCodes
import Housewright.Proofs.Command.FixedRoofs
import Housewright.Proofs.Command.Runs
import Housewright.Proofs.Command.SavedFiles
import Housewright.Proofs.Command.UneditedHouse
import Housewright.Proofs.Construction.ClosedPlates
import Housewright.Proofs.Construction.GableMesh
import Housewright.Proofs.Construction.Guards
import Housewright.Proofs.Construction.IndexedLoops
import Housewright.Proofs.Construction.MeshSides
import Housewright.Proofs.Construction.NamedCorners
import Housewright.Proofs.Construction.Outside
import Housewright.Proofs.Construction.OutwardAgreement
import Housewright.Proofs.Construction.PanelOpenings
import Housewright.Proofs.Construction.Panels
import Housewright.Proofs.Construction.Placement
import Housewright.Proofs.Construction.PlateSides
import Housewright.Proofs.Construction.ResolvedFaces
import Housewright.Proofs.Construction.RoofCauses
import Housewright.Proofs.Construction.RoofHeights
import Housewright.Proofs.Construction.RoofReports
import Housewright.Proofs.Construction.RoofsApart
import Housewright.Proofs.Construction.SlabAgreement
import Housewright.Proofs.Construction.SolidArea
import Housewright.Proofs.Construction.Stoppages
import Housewright.Proofs.Construction.Triangulation
import Housewright.Proofs.Construction.WallArea
import Housewright.Proofs.Construction.Winding
import Housewright.Proofs.Decimal.Digits
import Housewright.Proofs.Decimal.Forms
import Housewright.Proofs.Decimal.Places
import Housewright.Proofs.Decimal.Shortest
import Housewright.Proofs.Decimal.Text
import Housewright.Proofs.Description.LevelLookup
import Housewright.Proofs.Description.Limits
import Housewright.Proofs.Description.RoundTrip
import Housewright.Proofs.Description.Spelling
import Housewright.Proofs.Exact.AreaLaws
import Housewright.Proofs.Exact.Boxes
import Housewright.Proofs.Exact.Chords
import Housewright.Proofs.Exact.ClippedVertices
import Housewright.Proofs.Exact.Clipping
import Housewright.Proofs.Exact.Containment
import Housewright.Proofs.Exact.ConvexClip
import Housewright.Proofs.Exact.ConvexContainment
import Housewright.Proofs.Exact.ConvexRing
import Housewright.Proofs.Exact.Cycles
import Housewright.Proofs.Exact.DroppedPoints
import Housewright.Proofs.Exact.Halves
import Housewright.Proofs.Exact.Mitres
import Housewright.Proofs.Exact.OffsetCorners
import Housewright.Proofs.Exact.Pruning
import Housewright.Proofs.Exact.RayParity
import Housewright.Proofs.Exact.Real
import Housewright.Proofs.Exact.SegmentDistance
import Housewright.Proofs.Exact.SplitArea
import Housewright.Proofs.Exact.Stops
import Housewright.Proofs.Exact.Tilings
import Housewright.Proofs.Exact.Windings
import Housewright.Proofs.Geometry.CloseNumbers
import Housewright.Proofs.Geometry.ClosingRepeats
import Housewright.Proofs.Geometry.CornerOrder
import Housewright.Proofs.Geometry.FinitePoints
import Housewright.Proofs.Geometry.Overflow
import Housewright.Proofs.Geometry.PointSets
import Housewright.Proofs.Geometry.Probing
import Housewright.Proofs.Geometry.RepeatedCorners
import Housewright.Proofs.Geometry.RoundedArea
import Housewright.Proofs.Inspection.LooserRules
import Housewright.Proofs.Inspection.OpeningFit
import Housewright.Proofs.Inspection.OpeningVerdict
import Housewright.Proofs.Inspection.RegionCuts
import Housewright.Proofs.Inspection.RegionReports
import Housewright.Proofs.Inspection.RegionVerdict
import Housewright.Proofs.Inspection.ReportLists
import Housewright.Proofs.Inspection.RoofVerdict
import Housewright.Proofs.Inspection.StructureVerdict
import Housewright.Proofs.Json.Fields
import Housewright.Proofs.Json.FiniteNumbers
import Housewright.Proofs.Json.Inversion
import Housewright.Proofs.Json.Numbers
import Housewright.Proofs.Json.Readable
import Housewright.Proofs.Json.RoundTrip
import Housewright.Proofs.Json.Spelling
import Housewright.Proofs.Json.Strings
import Housewright.Proofs.LevelIds
import Housewright.Proofs.LostNumbers
import Housewright.Proofs.Roof.DividerSync
import Housewright.Proofs.Roof.FreshDividers
import Housewright.Proofs.Roof.LastPatch
import Housewright.Proofs.Roof.NoEdit
import Housewright.Proofs.Roof.Normalization
import Housewright.Proofs.Roof.PatchedDocument
import Housewright.Proofs.Roof.PerpCuts
import Housewright.Proofs.Roof.PlanEffect
import Housewright.Proofs.Sample.StandingBox
import Housewright.Proofs.SaveLoad
import Housewright.Proofs.Steps
