import Mathlib.Data.List.Chain
import Housewright.Geometry.Ring
import Housewright.Proofs.Steps

/-!
# One pass over the points of a ring

What dropping repeats does to a ring, whatever the numbers: it leaves points out, and of those that
are left each is apart from the next one.

* `Point.Apart`: points that are farther apart than a tolerance;
* `Ring.keepDistant_sublist`, `Ring.withoutRepeats_sublist`: no point is added;
* `Ring.isChain_keepDistant`, `Ring.keepDistant_of_isChain`: a pass leaves points that are apart from
  the next one, and leaves such points alone;
* `Ring.withoutRepeats_cons_eq_ok_iff`, `Ring.isChain_withoutRepeats`: a pass, and the end of the
  ring once more, are all that dropping repeats does, so that it leaves such points, too.
-/

namespace Housewright

variable {α : Type} [Scalar α] {eps : α}

/-- Two points are farther apart than `eps`. -/
def Point.Apart (eps : α) (p q : Point α) : Prop :=
  ∃ d, p.distance q = .ok d ∧ eps < d

namespace Ring

variable {p : Point α}

theorem keepDistant_sublist {last : Point α} {points kept : List (Point α)}
    (h : keepDistant eps last points = .ok kept) : kept.Sublist points := by
  induction points generalizing last kept with
  | nil =>
    obtain rfl := Except.ok.inj h
    exact .slnil
  | cons p rest ih =>
    obtain ⟨d, -, h⟩ := bind_eq_ok.1 h
    split_ifs at h
    · obtain ⟨others, hothers, hkept⟩ := bind_eq_ok.1 h
      obtain rfl := pure_eq_ok.1 hkept
      exact (ih hothers).cons_cons p
    · exact (ih h).cons p

/-- The points that a pass keeps are apart from the point kept before them. -/
theorem isChain_keepDistant {last : Point α} {points kept : List (Point α)}
    (h : keepDistant eps last points = .ok kept) : (last :: kept).IsChain (Point.Apart eps) := by
  induction points generalizing last kept with
  | nil =>
    obtain rfl := Except.ok.inj h
    exact List.isChain_singleton last
  | cons p rest ih =>
    obtain ⟨d, hd, h⟩ := bind_eq_ok.1 h
    split_ifs at h with hfar
    · obtain ⟨others, hothers, hkept⟩ := bind_eq_ok.1 h
      obtain rfl := pure_eq_ok.1 hkept
      exact List.isChain_cons_cons.2 ⟨⟨d, hd, hfar⟩, ih hothers⟩
    · exact ih h

/-- Points that are apart from the one before them are all kept. -/
theorem keepDistant_of_isChain {last : Point α} {points : List (Point α)}
    (h : (last :: points).IsChain (Point.Apart eps)) : keepDistant eps last points = .ok points := by
  induction points generalizing last with
  | nil => rfl
  | cons p rest ih =>
    obtain ⟨⟨d, hd, hfar⟩, hrest⟩ := List.isChain_cons_cons.1 h
    rw [keepDistant, hd]
    show (if eps < d then _ else _) = _
    rw [if_pos hfar, ih hrest]
    rfl

/-- **What a ring is left with**: its first vertex and those that a pass keeps, without the last of
them if that is within `eps` of the first vertex. -/
theorem withoutRepeats_cons_eq_ok_iff {rest : List (Point α)} {s : Ring α} :
    withoutRepeats eps (p :: rest) = .ok s ↔
      keepDistant eps p rest = .ok [] ∧ s = [p] ∨
        ∃ init last d, keepDistant eps p rest = .ok (init ++ [last]) ∧ p.distance last = .ok d ∧
          s = if d ≤ eps then p :: init else p :: (init ++ [last]) := by
  have hnil (h : keepDistant eps p rest = .ok []) : withoutRepeats eps (p :: rest) = .ok [p] := by
    rw [withoutRepeats, h]
    rfl
  have hconcat {init last} (h : keepDistant eps p rest = .ok (init ++ [last])) :
      withoutRepeats eps (p :: rest) = do
        let d ← p.distance last
        return if d ≤ eps then p :: init else p :: (init ++ [last]) := by
    rw [withoutRepeats, h]
    simp only [bind, Except.bind, List.getLast?_concat, List.dropLast_concat]
    cases p.distance last with
    | error e => rfl
    | ok d => exact (apply_ite Except.ok _ _ _).symm
  constructor
  · intro h
    obtain ⟨kept, hkept, -⟩ := bind_eq_ok.1 h
    obtain rfl | ⟨init, last, rfl⟩ := kept.eq_nil_or_concat'
    · exact .inl ⟨hkept, Except.ok.inj (h.symm.trans (hnil hkept))⟩
    · rw [hconcat hkept] at h
      obtain ⟨d, hd, h⟩ := bind_eq_ok.1 h
      exact .inr ⟨init, last, d, hkept, hd, (pure_eq_ok.1 h).symm⟩
  · rintro (⟨hkept, rfl⟩ | ⟨init, last, d, hkept, hd, rfl⟩)
    · exact hnil hkept
    · rw [hconcat hkept]
      exact bind_eq_ok.2 ⟨d, hd, rfl⟩

/-- Dropping repeats leaves points out and adds none. -/
theorem withoutRepeats_sublist {r s : Ring α} (h : r.withoutRepeats eps = .ok s) :
    s.Sublist r := by
  cases r with
  | nil =>
    obtain rfl := Except.ok.inj h
    exact .slnil
  | cons p rest =>
    obtain ⟨-, rfl⟩ | ⟨init, last, d, hkept, -, rfl⟩ := withoutRepeats_cons_eq_ok_iff.1 h
    · exact (List.nil_sublist rest).cons_cons p
    · have hsub := keepDistant_sublist hkept
      split_ifs
      · exact ((List.sublist_append_left init [last]).trans hsub).cons_cons p
      · exact hsub.cons_cons p

/-- **The vertices of a ring without repeats** are apart from the next one, the last one left out. -/
theorem isChain_withoutRepeats {r s : Ring α} (h : r.withoutRepeats eps = .ok s) :
    s.IsChain (Point.Apart eps) := by
  cases r with
  | nil =>
    obtain rfl := Except.ok.inj h
    exact List.isChain_nil
  | cons p rest =>
    obtain ⟨-, rfl⟩ | ⟨init, last, d, hkept, -, rfl⟩ := withoutRepeats_cons_eq_ok_iff.1 h
    · exact List.isChain_singleton p
    · have hchain := isChain_keepDistant hkept
      split_ifs
      · exact hchain.prefix ⟨[last], rfl⟩
      · exact hchain

end Ring

end Housewright
