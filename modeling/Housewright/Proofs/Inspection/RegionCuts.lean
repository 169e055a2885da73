import Housewright.Proofs.Exact.ConvexClip
import Housewright.Inspection.Roofs

/-!
# Cutting a ring by one half-plane after the other

* `Ring.CutsTo` says which rings are left after which half-planes, and `clipWhileArea_eq_ok` that
  these are the rings of the program, which always comes to an end (`exists_clipWhileArea`);
* `Ring.AtEveryCut` says that something holds whenever a half-plane cuts a ring;
* `Ring.CutsTo.turnsLeft_and_hull`: if no vertex is ever kept that is outside, the ring turns left
  all along and lies in what the half-planes keep of the hull.
-/

namespace Housewright

/-- What is left of a ring after some half-planes, as long as it has three vertices. -/
inductive Ring.CutsTo {α : Type} [Scalar α] : Ring α → List (HalfPlane α) → Ring α → Prop
  | start (r : Ring α) : CutsTo r [] r
  | cut {r s t : Ring α} {h : HalfPlane α} {rest : List (HalfPlane α)} (h3 : 3 ≤ r.length)
      (hclip : r.clip h Tolerance.geometry = .ok s) (hrest : CutsTo s rest t) :
      CutsTo r (h :: rest) t

/-- **The rings of the program**: it ends at the first ring that has fewer than three vertices,
or when the half-planes are used up. -/
theorem clipWhileArea_eq_ok {α : Type} [Scalar α] {r s : Ring α} {planes : List (HalfPlane α)}
    (h3 : 3 ≤ r.length) : clipWhileArea r planes = .ok s ↔
      ∃ done rest, planes = done ++ rest ∧ r.CutsTo done s ∧ (s.length < 3 ∨ rest = []) := by
  induction planes generalizing r with
  | nil =>
    constructor
    · intro hs
      obtain rfl := Except.ok.inj hs
      exact ⟨[], [], rfl, .start r, .inr rfl⟩
    · rintro ⟨done, rest, hplanes, hcuts, -⟩
      obtain ⟨rfl, -⟩ := List.append_eq_nil_iff.1 hplanes.symm
      cases hcuts
      rfl
  | cons h planes ih =>
    rw [clipWhileArea, bind_eq_ok]
    constructor
    · rintro ⟨c, hclip, hs⟩
      split at hs
      · rename_i hshort
        obtain rfl := pure_eq_ok.1 hs
        exact ⟨[h], planes, rfl, .cut h3 hclip (.start c), .inl hshort⟩
      · rename_i hlong
        obtain ⟨done, rest, rfl, hcuts, hend⟩ := (ih (not_lt.1 hlong)).1 hs
        exact ⟨h :: done, rest, rfl, .cut h3 hclip hcuts, hend⟩
    · rintro ⟨done, rest, hplanes, hcuts, hend⟩
      cases hcuts with
      | start =>
        obtain hshort | rfl := hend
        · omega
        · cases hplanes
      | cut _ hclip hcuts =>
        rw [List.cons_append, List.cons.injEq] at hplanes
        obtain ⟨rfl, rfl⟩ := hplanes
        refine ⟨_, hclip, ?_⟩
        split
        · rename_i hshort
          cases hcuts with
          | start => rfl
          | cut hlong => omega
        · rename_i hlong
          exact (ih (not_lt.1 hlong)).2 ⟨_, rest, rfl, hcuts, hend⟩

noncomputable section

/-- The run always comes to an end. -/
theorem exists_clipWhileArea (r : Ring ℝ) (planes : List (HalfPlane ℝ)) :
    ∃ s, clipWhileArea r planes = .ok s := by
  induction planes generalizing r with
  | nil => exact ⟨r, rfl⟩
  | cons h planes ih =>
    rw [clipWhileArea]
    refine exists_bind_eq_ok (r.exists_clip h _) fun t => ?_
    split_ifs
    · exact ⟨t, rfl⟩
    · exact ih t

/-- Something holds at every cut, of the half-plane and the ring that it cuts. -/
def Ring.AtEveryCut (P : HalfPlane ℝ → Ring ℝ → Prop) (r : Ring ℝ)
    (planes : List (HalfPlane ℝ)) : Prop :=
  ∀ done h rest s, planes = done ++ h :: rest → r.CutsTo done s → 3 ≤ s.length → P h s

namespace Ring.AtEveryCut

variable {P Q : HalfPlane ℝ → Ring ℝ → Prop} {r s : Ring ℝ} {h : HalfPlane ℝ}
  {planes later : List (HalfPlane ℝ)}

theorem imp (hP : r.AtEveryCut P planes) (himp : ∀ h s, P h s → Q h s) : r.AtEveryCut Q planes :=
  fun done h rest s hplanes hcuts h3 => himp h s (hP done h rest s hplanes hcuts h3)

theorem of_append (hP : r.AtEveryCut P (planes ++ later)) : r.AtEveryCut P planes :=
  fun done h rest s hplanes hcuts h3 =>
    hP done h (rest ++ later) s (by rw [hplanes, List.append_assoc, List.cons_append]) hcuts h3

theorem nil : r.AtEveryCut P [] := by
  intro done h rest s hplanes
  simp at hplanes

theorem cons (hP : P h r) (hrest : ∀ s, r.clip h Tolerance.geometry = .ok s →
    s.AtEveryCut P planes) : r.AtEveryCut P (h :: planes) := by
  intro done k rest t hplanes hcuts ht
  cases hcuts with
  | start =>
    obtain ⟨rfl, -⟩ := List.cons.inj hplanes
    exact hP
  | cut _ hclip hcuts =>
    obtain ⟨rfl, hlater⟩ := List.cons.inj hplanes
    exact hrest _ hclip _ k rest t hlater hcuts ht

theorem head (hP : r.AtEveryCut P (h :: planes)) (h3 : 3 ≤ r.length) : P h r :=
  hP [] h planes r rfl (.start r) h3

theorem tail (hP : r.AtEveryCut P (h :: planes)) (h3 : 3 ≤ r.length)
    (hclip : r.clip h Tolerance.geometry = .ok s) : s.AtEveryCut P planes :=
  fun done k rest t hplanes hcuts ht =>
    hP (h :: done) k rest t (by rw [hplanes, List.cons_append]) (.cut h3 hclip hcuts) ht

end Ring.AtEveryCut

/-- The points that all half-planes keep. -/
def keptBy (planes : List (HalfPlane ℝ)) : Set (ℝ × ℝ) := {x | ∀ h ∈ planes, x ∈ h.keptSide}

theorem keptBy_cons (h : HalfPlane ℝ) (planes : List (HalfPlane ℝ)) :
    keptBy (h :: planes) = h.keptSide ∩ keptBy planes := by
  ext x
  simp [keptBy]

namespace Ring

variable {r s : Ring ℝ} {planes : List (HalfPlane ℝ)}

/-- **A run of cuts** at which no vertex is kept that is outside: the ring turns left all along
and lies in what the half-planes keep of the hull.  It has all of that as its hull when no points
are dropped but repeated ones. -/
theorem CutsTo.turnsLeft_and_hull (hcuts : r.CutsTo planes s) (hr : r.TurnsLeft)
    (hsharp : r.AtEveryCut (fun h s => ∀ v ∈ s, h.Sharp v) planes) :
    s.TurnsLeft ∧ s.hull ⊆ r.hull ∩ keptBy planes ∧
      (r.AtEveryCut (fun h s => h.DropsOnlyRepeats Tolerance.geometry s) planes →
        s.hull = r.hull ∩ keptBy planes) := by
  induction hcuts with
  | start r =>
    have hall : r.hull ∩ keptBy [] = r.hull := by simp [keptBy]
    exact ⟨hr, hall.symm.subset, fun _ => hall.symm⟩
  | cut h3 hclip hrest ih =>
    obtain ⟨t, ht, htleft, htsubset, hteq⟩ := hr.exists_clip h3 (hsharp.head h3)
    obtain rfl := Except.ok.inj (hclip.symm.trans ht)
    obtain ⟨hleft, hsubset, heq⟩ := ih htleft (hsharp.tail h3 hclip)
    rw [keptBy_cons, ← Set.inter_assoc]
    refine ⟨hleft, hsubset.trans (Set.inter_subset_inter_left _ htsubset), fun hdrops => ?_⟩
    rw [heq (hdrops.tail h3 hclip), hteq (hdrops.head h3)]

end Ring

end

end Housewright
