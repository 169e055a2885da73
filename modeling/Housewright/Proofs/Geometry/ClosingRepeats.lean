import Housewright.Proofs.Geometry.FinitePoints
import Housewright.Proofs.Geometry.RepeatedCorners

/-!
# Neighbours that are left when repeats are dropped

`Ring.withoutRepeats` drops the vertices that are too close to the one kept before them, and then a
last vertex that closes the ring.  It looks at the end of the ring only once: the vertex that is
the last one then may be as close to the first one.

* `Ring.ApartAround`: rings all of whose neighbours are farther apart than a tolerance;
* `Ring.ClosesTwice`: the last two vertices of the pass are both close to the first one;
* `Ring.withoutRepeats_apartAround_iff`: this is all that keeps the neighbours from being apart, and
  dropping repeats again from dropping more;
* `Ring.hook_not_apart`: a ring whose end returns to its start in two steps.
-/

namespace Housewright

namespace Ring

theorem forall_mem_edges_iff {α : Type} {R : Point α → Point α → Prop} (p : Point α)
    (rest : List (Point α)) :
    (∀ e ∈ edges (p :: rest), R e.1 e.2) ↔ (p :: (rest ++ [p])).IsChain R := by
  have hpath (first : Point α) (path : List (Point α)) (last : Point α) :
      (∀ e ∈ (first :: path).zip (path ++ [last]), R e.1 e.2) ↔
        (first :: (path ++ [last])).IsChain R := by
    induction path generalizing first with
    | nil => simp
    | cons q path ih =>
      rw [List.cons_append, List.zip_cons_cons, List.forall_mem_cons, ih q,
        List.isChain_cons_cons]
  exact hpath p rest p

/-! ## Ends of rings -/

section Ends

variable {α : Type} [Scalar α]

/-- Every vertex is farther than `eps` from the one after it, the last one from the first. -/
def ApartAround (eps : α) (r : Ring α) : Prop := ∀ e ∈ r.edges, e.1.Apart eps e.2

/-- A pass over the ring ends with two vertices of which the last is within `eps` of the first
vertex of the ring, and the one before is not apart from it either. -/
def ClosesTwice (eps : α) : Ring α → Prop
  | [] => False
  | p :: rest => ∃ init before last d, keepDistant eps p rest = .ok (init ++ [before] ++ [last]) ∧
      p.distance last = .ok d ∧ d ≤ eps ∧ ¬ before.Apart eps p

end Ends

/-! ## Rings with finite coordinates -/

section Finite

open Binary64

variable {eps : Float} {r s : Ring Float}

/-- A ring whose vertices are apart from the next one is apart around if its last vertex is apart
from the first one. -/
theorem apartAround_concat_iff {p last : Point Float} {init : List (Point Float)}
    (h : (p :: (init ++ [last])).IsChain (Point.Apart eps)) :
    ApartAround eps (p :: (init ++ [last])) ↔ last.Apart eps p := by
  unfold ApartAround
  rw [forall_mem_edges_iff, List.append_assoc, List.cons_append, List.nil_append,
    List.isChain_cons_append_cons_cons]
  exact ⟨fun hall => hall.2.1, fun hclosing => ⟨h, hclosing, List.isChain_singleton p⟩⟩

theorem apart_iff_not_le {p q : Point Float} (hp : p.IsFinite) (hq : q.IsFinite)
    (heps : 0.0 ≤ eps) {d : Float} (hd : p.distance q = .ok d) : q.Apart eps p ↔ ¬ d ≤ eps := by
  rw [← Point.lt_distance_iff hp hq (isNaN_of_le heps).2 hd]
  constructor
  · rintro ⟨d', hd', hfar⟩
    rw [Point.distance_comm hq hp] at hd'
    exact Except.ok.inj (hd'.symm.trans hd) ▸ hfar
  · exact fun hfar => ⟨d, (Point.distance_comm hq hp).trans hd, hfar⟩

/-- **A ring whose vertices are apart from the next one** loses no vertex if and only if the last
one is apart from the first one, too. -/
theorem withoutRepeats_eq_self_iff (heps : 0.0 ≤ eps) (hs : ∀ v ∈ s, v.IsFinite)
    (hchain : s.IsChain (Point.Apart eps)) :
    s.withoutRepeats eps = .ok s ↔ (2 ≤ s.length → s.ApartAround eps) := by
  match s with
  | [] => exact ⟨fun _ htwo => absurd htwo (by decide), fun _ => rfl⟩
  | p :: kept =>
    have hkept := keepDistant_of_isChain hchain
    obtain rfl | ⟨init, last, rfl⟩ := kept.eq_nil_or_concat'
    · exact iff_of_true (withoutRepeats_cons_eq_ok_iff.2 (.inl ⟨hkept, rfl⟩))
        fun htwo => absurd htwo (by simp)
    · have hp := hs p List.mem_cons_self
      have hlast := hs last (by simp)
      have htwo : 2 ≤ (p :: (init ++ [last])).length := by simp
      rw [withoutRepeats_cons_eq_ok_iff, apartAround_concat_iff hchain, forall_prop_of_true htwo]
      constructor
      · rintro (⟨-, hone⟩ | ⟨init', last', d, hkept', hd, hself⟩)
        · simp at hone
        · obtain ⟨rfl, hends⟩ := List.append_inj' (Except.ok.inj (hkept.symm.trans hkept')) rfl
          obtain rfl := List.singleton_inj.1 hends
          refine (apart_iff_not_le hp hlast heps hd).2 fun hclosed => ?_
          -- one vertex less is another ring
          rw [if_pos hclosed] at hself
          simpa using congrArg List.length hself
      · rintro ⟨d, hd, hfar⟩
        rw [Point.distance_comm hlast hp] at hd
        refine .inr ⟨init, last, d, hkept, hd, (if_neg ?_).symm⟩
        exact (Point.lt_distance_iff hp hlast (isNaN_of_le heps).2 hd).1 hfar

/-- **The neighbours that are left** are apart unless the end of the ring closes it twice. -/
theorem apartAround_iff_not_closesTwice (heps : 0.0 ≤ eps) (hr : ∀ v ∈ r, v.IsFinite)
    (h : r.withoutRepeats eps = .ok s) (htwo : 2 ≤ s.length) :
    s.ApartAround eps ↔ ¬ r.ClosesTwice eps := by
  have hchain := isChain_withoutRepeats h
  cases r with
  | nil =>
    obtain rfl := Except.ok.inj h
    cases htwo
  | cons p rest =>
    obtain ⟨-, rfl⟩ | ⟨init, last, d, hkept, hd, rfl⟩ := withoutRepeats_cons_eq_ok_iff.1 h
    · simp at htwo
    split_ifs at htwo hchain ⊢ with hclosed
    · -- the vertex before the one that is dropped closes the ring now
      obtain rfl | ⟨init, before, rfl⟩ := init.eq_nil_or_concat'
      · simp at htwo
      rw [apartAround_concat_iff hchain, iff_not_comm]
      constructor
      · rintro ⟨init', before', last', d', hkept', -, -, hnot⟩
        obtain ⟨hinit, -⟩ := List.append_inj' (Except.ok.inj (hkept.symm.trans hkept')) rfl
        obtain ⟨-, hbefore⟩ := List.append_inj' hinit rfl
        obtain rfl := List.singleton_inj.1 hbefore
        exact hnot
      · exact fun hnot => ⟨init, before, last, d, hkept, hd, hclosed, hnot⟩
    · have hp := hr p List.mem_cons_self
      have hlast := hr last
        (List.mem_cons_of_mem p ((keepDistant_sublist hkept).subset (by simp)))
      rw [apartAround_concat_iff hchain, apart_iff_not_le hp hlast heps hd]
      refine iff_of_true hclosed ?_
      rintro ⟨init', before', last', d', hkept', hd', hclosed', -⟩
      obtain ⟨-, hsame⟩ := List.append_inj' (Except.ok.inj (hkept.symm.trans hkept')) rfl
      obtain rfl := List.singleton_inj.1 hsame
      obtain rfl := Except.ok.inj (hd.symm.trans hd')
      exact hclosed hclosed'

/-- **Dropping repeats** leaves vertices that are apart from the next one.  The last one is apart
from the first one, too, unless the end of the ring closes it twice; this decides whether repeats
can be dropped again, or the ring can be clipped twice by a half-plane that keeps all of it, without
a change. -/
theorem withoutRepeats_apartAround_iff (heps : 0.0 ≤ eps) (hr : ∀ v ∈ r, v.IsFinite)
    (h : r.withoutRepeats eps = .ok s) :
    s.IsChain (Point.Apart eps) ∧
      (2 ≤ s.length → (s.ApartAround eps ↔ ¬ r.ClosesTwice eps)) ∧
      (s.withoutRepeats eps = .ok s ↔ (2 ≤ s.length → s.ApartAround eps)) ∧
      ∀ (plane : HalfPlane Float) (t : Ring Float), (∀ v ∈ r, plane.keeps eps v = true) →
        r.clip plane eps = .ok t →
        (t.clip plane eps = .ok t ↔ (3 ≤ t.length → t.ApartAround eps)) := by
  have hs : ∀ v ∈ s, v.IsFinite := fun v hv => hr v ((withoutRepeats_sublist h).subset hv)
  have hchain := isChain_withoutRepeats h
  have hself := withoutRepeats_eq_self_iff heps hs hchain
  refine ⟨hchain, apartAround_iff_not_closesTwice heps hr h, hself, fun plane t hkeeps ht => ?_⟩
  rw [clip_of_keeps hkeeps] at ht
  split_ifs at ht with hfew
  · obtain rfl := Except.ok.inj ht
    rw [clip_of_keeps hkeeps, if_pos hfew]
    exact iff_of_true rfl fun hthree => absurd hthree (by omega)
  · obtain rfl := Except.ok.inj (h.symm.trans ht)
    rw [clip_of_keeps fun v hv => hkeeps v ((withoutRepeats_sublist h).subset hv)]
    split_ifs with hfew'
    · exact iff_of_true rfl fun hthree => absurd hthree (by omega)
    · rw [hself]
      exact ⟨fun hall _ => hall (by omega), fun hall _ => hall (by omega)⟩

/-- A ring with its first vertex given again, more or less, at the end. -/
def closedQuad : Ring Float := [⟨0.0, 0.0⟩, ⟨4.0, 0.0⟩, ⟨4.0, 4.0⟩, ⟨0.0, 4.0⟩, ⟨5e-7, 0.0⟩]

/-- Without the copy the neighbours are apart. -/
theorem closedQuad_apart :
    (0.0 : Float) ≤ 1e-6 ∧ closedQuad.withoutRepeats 1e-6 = .ok quad ∧ quad.ApartAround 1e-6 := by
  have heps : (0.0 : Float) ≤ 1e-6 := by decide +kernel
  have hquad : closedQuad.withoutRepeats 1e-6 = .ok quad := by decide +kernel
  have hagain : quad.withoutRepeats 1e-6 = .ok quad := by decide +kernel
  obtain ⟨-, -, hself, -⟩ := withoutRepeats_apartAround_iff heps
    (by decide +kernel : ∀ v ∈ closedQuad, v.IsFinite) hquad
  exact ⟨heps, hquad, hself.1 hagain (by decide)⟩

/-- A ring that ends with two vertices close to the first one, which are apart from one another. -/
def hook : Ring Float := [⟨0.0, 0.0⟩, ⟨4.0, 0.0⟩, ⟨4.0, 4.0⟩, ⟨0.0, 8e-7⟩, ⟨8e-7, 0.0⟩]

/-- **Only one of the two is dropped**: the other is left beside the first vertex, and is dropped
when repeats are dropped again, or when the ring is clipped again by a half-plane that keeps all
of it. -/
theorem hook_not_apart :
    (0.0 : Float) ≤ 1e-6 ∧ (∀ v ∈ hook, v.IsFinite) ∧
      ∃ (s : Ring Float) (plane : HalfPlane Float), hook.withoutRepeats 1e-6 = .ok s ∧
        2 ≤ s.length ∧ ¬ s.ApartAround 1e-6 ∧ s.withoutRepeats 1e-6 ≠ .ok s ∧
        (∀ v ∈ hook, plane.keeps 1e-6 v = true) ∧ hook.clip plane 1e-6 = .ok s ∧
        s.clip plane 1e-6 ≠ .ok s := by
  have heps : (0.0 : Float) ≤ 1e-6 := by decide +kernel
  have hfinite : ∀ v ∈ hook, v.IsFinite := by decide +kernel
  have hs : hook.withoutRepeats 1e-6 = .ok (hook.take 4) := by decide +kernel
  have hagain : withoutRepeats 1e-6 (hook.take 4) ≠ .ok (hook.take 4) := by decide +kernel
  have hself := withoutRepeats_eq_self_iff heps
    (fun v hv => hfinite v (List.mem_of_mem_take hv)) (isChain_withoutRepeats hs)
  exact ⟨heps, hfinite, hook.take 4, ⟨⟨-1.0, 0.0⟩, ⟨-1.0, 1.0⟩, .left⟩, hs, by decide,
    fun hapart => hagain (hself.2 fun _ => hapart), hagain, by decide +kernel, by decide +kernel,
    by decide +kernel⟩

end Finite

end Ring

end Housewright
