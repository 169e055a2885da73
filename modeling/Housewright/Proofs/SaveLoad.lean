import Housewright.Proofs.Description.Limits
import Housewright.Proofs.Description.RoundTrip
import Housewright.Proofs.Json.RoundTrip

/-!
# Saved houses are loaded again

Saving and loading undo each other.  The text that is written for a house holds its encoding
(`Json.parse?_render`), and the encoding decodes to the house (`House.decode_encode`).  The
reader has limits, which every house that was loaded keeps
(`House.passedOnReadable_of_load`).

## Main results

* `House.load_save` : a house that was loaded, and whose numbers are finite, is loaded again
  from the text that is saved for it.
-/

namespace Housewright

open Json

/-! ## Finite values -/

theorem Json.finiteElements_eq_self {xs : List Json} (h : ∀ v ∈ xs, v.finiteOnly = v) :
    finiteElements xs = xs := by
  induction xs with
  | nil => rfl
  | cons v xs ih =>
    rw [finiteElements, h v List.mem_cons_self, ih fun w hw => h w (List.mem_cons_of_mem _ hw)]

theorem Json.finiteMembers_eq_self {ms : List (String × Json)}
    (h : ∀ m ∈ ms, m.2.finiteOnly = m.2) : finiteMembers ms = ms := by
  induction ms with
  | nil => rfl
  | cons m ms ih =>
    rw [finiteMembers, h m List.mem_cons_self, ih fun w hw => h w (List.mem_cons_of_mem _ hw)]

/-- Nothing becomes `null` in a value whose numbers are finite. -/
theorem Json.finiteOnly_eq_self {v : Json} (h : ∀ x ∈ v.numbers, x.isFinite = true) :
    v.finiteOnly = v := by
  induction v using Json.induction with
  | null => rfl
  | bool b => rfl
  | int n => rfl
  | num x => rw [finiteOnly, if_pos (h x (by simp [numbers]))]
  | str s => rfl
  | arr xs ih =>
    rw [finiteOnly, finiteElements_eq_self]
    exact fun v hv => ih v hv fun x hx => h x (mem_elementNumbers.2 ⟨v, hv, hx⟩)
  | obj ms ih =>
    rw [finiteOnly, finiteMembers_eq_self]
    exact fun m hm => ih m hm fun x hx => h x (mem_memberNumbers.2 ⟨m, hm, hx⟩)

/-! ## Houses -/

/-- The text of a readable value is loaded as the house that the value decodes to. -/
theorem House.load_render {style : TextStyle} {v : Json} {h : House Float}
    (hread : Readable depthLimit v) (hfinite : ∀ x ∈ v.numbers, x.isFinite = true)
    (hback : ∀ x ∈ v.numbers, ReadsBack x) (hdecode : House.decode v = .value h) :
    House.load (render style v) = .ok h := by
  rw [House.load, parse?_render hread hfinite hback]
  dsimp only
  rw [hdecode]

/-- **Saving and loading undo each other.**  A house that was loaded, and whose numbers are
finite, those in the styles of its openings included, is loaded again from the text that is
saved for it.  Of the numbers it is taken that each of them is read back from its own text. -/
theorem House.load_save {text : String} {h : House Float} (hload : House.load text = .ok h)
    (hfinite : ∀ x ∈ h.encode.numbers, x.isFinite = true)
    (hback : ∀ x ∈ h.encode.numbers, ReadsBack x) : House.load h.save = .ok h := by
  have hread : Readable depthLimit h.encode :=
    House.encode_readable (House.passedOnReadable_of_load hload)
  rw [House.save, finiteOnly_eq_self hfinite]
  exact House.load_render hread hfinite hback (House.decode_encode h)

/-! ## A house file -/

/-- Whether all numbers of a value are finite and read back. -/
def Json.numbersReadBack (v : Json) : Bool :=
  v.numbers.all fun x => x.isFinite && decide (ReadsBack x)

theorem Json.numbersReadBack_iff {v : Json} : v.numbersReadBack = true ↔
    (∀ x ∈ v.numbers, x.isFinite = true) ∧ ∀ x ∈ v.numbers, ReadsBack x := by
  simp only [numbersReadBack, List.all_eq_true, Bool.and_eq_true, decide_eq_true_eq]
  exact ⟨fun h => ⟨fun x hx => (h x hx).1, fun x hx => (h x hx).2⟩,
    fun h x hx => ⟨h.1 x hx, h.2 x hx⟩⟩

/-- A house whose numbers are known to read back is loaded again. -/
theorem House.load_save_of_numbersReadBack {h : House Float}
    (hopenings : ∀ o ∈ h.openings, o.PassedOnReadable)
    (hnumbers : h.encode.numbersReadBack = true) : House.load h.save = .ok h := by
  obtain ⟨hfinite, hback⟩ := numbersReadBack_iff.1 hnumbers
  rw [House.save, finiteOnly_eq_self hfinite]
  exact House.load_render (House.encode_readable hopenings) hfinite hback (House.decode_encode h)

/-- A house file that uses both spellings of keys, leaves fields out, gives whole numbers for
lengths, and has a region item without a tag. -/
def cottageDocument : Json :=
  let point (x y : Int) : Json := .obj [("x", .int x), ("y", .int y)]
  let item : Json := .obj [("a", point 0 0), ("b", point 0 4), ("keep", .str "left")]
  let cut : Json := .obj [("type", .str "ridgePerpCut"), ("ridgeId", .str "r"), ("t", .num 0.5),
    ("keep", .str "behind")]
  .obj [("name", .str "Cottage"),
    ("levels", .arr [.obj [("id", .str "ground"), ("elevation", .int 0), ("height", .num 2.75),
      ("footprint", .obj [("outer", .arr [point 0 0, point 6 0, point 6 4, point 0 4])]),
      ("slab", .null)]]),
    ("roofs", .arr [.obj [("type", .str "multi-plane"), ("id", .str "roof"),
      ("base_level_id", .str "ground"),
      ("ridge_segments", .arr [.obj [("id", .str "r"), ("start", point 0 2), ("end", point 6 2),
        ("height", .int 4)]]),
      ("faces", .arr [.obj [("id", .str "south"), ("kind", .str "ridgeSideSegment"),
        ("ridgeT0", .int 0), ("side", .str "right"),
        ("region", .obj [("type", .str "compound"), ("items", .arr [item, cut])])]])]]),
    ("openings", .arr [.obj [("id", .str "window"), ("level_id", .str "ground"),
      ("edge", .obj [("edge_index", .int 0), ("outwardSide", .null)]), ("offset", .int 1),
      ("width", .num 1.5), ("height", .int 1),
      ("style", .obj [("frame", .num (-0.125)), ("panes", .arr [.int 2, .bool true, .null])])]])]

theorem cottageDocument_readable : Readable depthLimit cottageDocument := by
  show Readable 201 _
  unfold cottageDocument
  dsimp only
  repeat' first
    | exact .num _
    | exact .str _
    | exact .bool _
    | exact .null
    | exact .int (natAbs_lt_of_lt_two_pow (by decide))
    | refine .obj (by simp) ?_
    | refine .arr ?_
    | refine List.forall_mem_cons.2 ⟨?_, ?_⟩
    | exact nofun

/-- A result that a check was evaluated on. -/
theorem Json.Decoded.exists_of_any {α : Type} {p : α → Bool} {x : Decoded α}
    (h : x.toOption.any p = true) : ∃ a, x = .value a ∧ p a = true := by
  cases x with
  | value a => exact ⟨a, rfl, h⟩
  | refused cs => cases h

theorem House.cottage_load_save : ∃ h, House.load (render .line cottageDocument) = .ok h ∧
    (∀ x ∈ h.encode.numbers, x.isFinite = true) ∧ (∀ x ∈ h.encode.numbers, ReadsBack x) ∧
      House.load h.save = .ok h := by
  obtain ⟨h, hdecode, hnumbers⟩ := Decoded.exists_of_any
    (x := House.decode cottageDocument) (p := fun h => h.encode.numbersReadBack)
    (by decide +kernel)
  obtain ⟨hfinite, hback⟩ := numbersReadBack_iff.1 hnumbers
  have hdocument : cottageDocument.numbersReadBack = true := by decide +kernel
  have hload : House.load (render .line cottageDocument) = .ok h :=
    House.load_render cottageDocument_readable (numbersReadBack_iff.1 hdocument).1
      (numbersReadBack_iff.1 hdocument).2 hdecode
  exact ⟨h, hload, hfinite, hback, House.load_save hload hfinite hback⟩

end Housewright
