import Mathlib.Data.List.Forall2
import Mathlib.Data.List.Nodup

/-!
# Steps that may stop

Facts about computations with errors, and about doing one computation for every entry of a
list: `mapM_eq_ok` says that the results stand entry by entry beside what they are results
of, and `exists_of_forall₂` finds the result of an entry at its index.

Entries are looked up by their ids; `find?_key_eq_some_iff` says which one is found if the ids
are distinct.
-/

namespace Housewright

variable {ε α β : Type}

/-- A step gives a result if both of its halves do. -/
theorem bind_eq_ok {x : Except ε α} {f : α → Except ε β} {b : β} :
    (x >>= f) = .ok b ↔ ∃ a, x = .ok a ∧ f a = .ok b := by
  cases x with
  | error e => simp [Bind.bind, Except.bind]
  | ok a => simp [Bind.bind, Except.bind]

/-- A step stops in one of its halves. -/
theorem bind_eq_error {x : Except ε α} {f : α → Except ε β} {e : ε} :
    (x >>= f) = .error e ↔ x = .error e ∨ ∃ a, x = .ok a ∧ f a = .error e := by
  cases x with
  | error e => simp [Bind.bind, Except.bind]
  | ok a => simp [Bind.bind, Except.bind]

theorem pure_eq_ok {a b : α} : (pure a : Except ε α) = .ok b ↔ a = b :=
  ⟨fun h => Except.ok.inj h, fun h => congrArg Except.ok h⟩

/-- Renaming errors does not change what gives a result. -/
theorem mapError_eq_ok {ε' : Type} {x : Except ε α} {f : ε → ε'} {a : α} :
    x.mapError f = .ok a ↔ x = .ok a := by
  cases x with
  | error e => simp [Except.mapError]
  | ok a => simp [Except.mapError]

/-- Two steps that never stop, one after the other. -/
theorem exists_bind_eq_ok {x : Except ε α} {f : α → Except ε β} (hx : ∃ a, x = .ok a)
    (hf : ∀ a, ∃ b, f a = .ok b) : ∃ b, (x >>= f) = .ok b := by
  obtain ⟨a, rfl⟩ := hx
  exact hf a

/-- A check that is evaluated to a result without a finding. -/
theorem eq_ok_none {x : Except ε (Option α)} (h : x.toOption.any (·.isNone) = true) :
    x = .ok none := by
  cases x with
  | error e => cases h
  | ok o =>
    cases o with
    | none => rfl
    | some a => cases h

/-- A computation that is evaluated to a result with a property. -/
theorem exists_eq_ok_of_any {x : Except ε α} {p : α → Bool} (h : x.toOption.any p = true) :
    ∃ a, x = .ok a ∧ p a = true := by
  cases x with
  | error e => cases h
  | ok a => exact ⟨a, rfl, h⟩

/-- A computation that is evaluated to a result. -/
theorem exists_eq_ok_of_isSome {x : Except ε α} (h : x.toOption.isSome = true) :
    ∃ a, x = .ok a := by
  cases x with
  | error e => cases h
  | ok a => exact ⟨a, rfl⟩

/-- A computation that is evaluated to no result. -/
theorem exists_eq_error_of_isNone {x : Except ε α} (h : x.toOption.isNone = true) :
    ∃ e, x = .error e := by
  cases x with
  | error e => exact ⟨e, rfl⟩
  | ok a => cases h

/-- A list is gone through if every entry gives a result. -/
theorem mapM_eq_ok {f : α → Except ε β} {xs : List α} {ys : List β} :
    xs.mapM f = .ok ys ↔ List.Forall₂ (fun x y => f x = .ok y) xs ys := by
  induction xs generalizing ys with
  | nil => rw [List.mapM_nil, pure_eq_ok, List.forall₂_nil_left_iff, eq_comm]
  | cons x xs ih =>
    rw [List.mapM_cons, bind_eq_ok, List.forall₂_cons_left_iff]
    simp only [bind_eq_ok, pure_eq_ok, ih]
    constructor
    · rintro ⟨y, hy, ys', hys, rfl⟩
      exact ⟨y, ys', hy, hys, rfl⟩
    · rintro ⟨y, ys', hy, hys, rfl⟩
      exact ⟨y, hy, ys', hys, rfl⟩

/-- If every entry gives a result, so does the list. -/
theorem exists_mapM_eq_ok {f : α → Except ε β} {xs : List α} (h : ∀ x ∈ xs, ∃ y, f x = .ok y) :
    ∃ ys, xs.mapM f = .ok ys := by
  induction xs with
  | nil => exact ⟨[], rfl⟩
  | cons x xs ih =>
    obtain ⟨y, hy⟩ := h x List.mem_cons_self
    obtain ⟨ys, hys⟩ := ih fun x' hx' => h x' (List.mem_cons_of_mem x hx')
    exact ⟨y :: ys, mapM_eq_ok.2 (.cons hy (mapM_eq_ok.1 hys))⟩

/-- If every entry gives a result that belongs to it, the list gives them in order. -/
theorem exists_mapM_eq_ok_forall₂ {f : α → Except ε β} {R : α → β → Prop} {xs : List α}
    (h : ∀ x ∈ xs, ∃ y, f x = .ok y ∧ R x y) : ∃ ys, xs.mapM f = .ok ys ∧ List.Forall₂ R xs ys := by
  obtain ⟨ys, hys⟩ := exists_mapM_eq_ok fun x hx => (h x hx).imp fun _ hy => hy.1
  refine ⟨ys, hys, ((List.forall₂_and_left _ _).2 ⟨h, mapM_eq_ok.1 hys⟩).imp ?_⟩
  rintro x y ⟨⟨y', hy', hR⟩, hy⟩
  obtain rfl : y' = y := Except.ok.inj (hy'.symm.trans hy)
  exact hR

/-- A list is gone through with the results that its entries are known to give. -/
theorem mapM_eq_ok_map {f : α → Except ε β} {g : α → β} {xs : List α}
    (h : ∀ x ∈ xs, f x = .ok (g x)) : xs.mapM f = .ok (xs.map g) :=
  mapM_eq_ok.2 (List.forall₂_map_right_iff.2 (List.forall₂_same.2 h))

/-- A list is stopped by one of its entries. -/
theorem exists_of_mapM_eq_error {f : α → Except ε β} {xs : List α} {e : ε}
    (h : xs.mapM f = .error e) : ∃ x ∈ xs, f x = .error e := by
  induction xs with
  | nil => cases h
  | cons x rest ih =>
    rw [List.mapM_cons] at h
    cases hx : f x with
    | error e' =>
      rw [hx] at h
      obtain rfl : e' = e := Except.error.inj h
      exact ⟨x, List.mem_cons_self, hx⟩
    | ok y =>
      rw [hx] at h
      cases hrest : rest.mapM f with
      | error e' =>
        rw [hrest] at h
        obtain rfl : e' = e := Except.error.inj h
        obtain ⟨x', hx', he⟩ := ih hrest
        exact ⟨x', List.mem_cons_of_mem x hx', he⟩
      | ok ys =>
        rw [hrest] at h
        cases h

/-- A computation for every changed entry gives the changed results. -/
theorem mapM_map_eq_map {f g : α → Except ε β} {change : α → α} {after : β → β}
    (h : ∀ x, f (change x) = (g x).map after) (xs : List α) :
    (xs.map change).mapM f = (xs.mapM g).map (·.map after) := by
  induction xs with
  | nil => rfl
  | cons x rest ih =>
    rw [List.map_cons, List.mapM_cons, List.mapM_cons, h, ih]
    cases g x with
    | error e => rfl
    | ok y => cases rest.mapM g <;> rfl

/-! ## Errors of a kind -/

/-- All errors that can stop a computation are of one kind. -/
def FailsOnly (P : ε → Prop) (x : Except ε α) : Prop := ∀ e, x = .error e → P e

namespace FailsOnly

variable {ε' : Type} {P : ε → Prop} {Q : ε' → Prop}

theorem ok (a : α) : FailsOnly P (.ok a : Except ε α) := by
  intro e he
  cases he

theorem pure (a : α) : FailsOnly P (Pure.pure a : Except ε α) := ok a

theorem error {e : ε} (h : P e) : FailsOnly P (.error e : Except ε α) := by
  intro e' he
  cases he
  exact h

theorem of_exists {x : Except ε α} (h : ∃ a, x = .ok a) : FailsOnly P x := by
  obtain ⟨a, rfl⟩ := h
  exact ok a

theorem mono {P' : ε → Prop} {x : Except ε α} (h : FailsOnly P x) (hP : ∀ e, P e → P' e) :
    FailsOnly P' x := fun e he => hP e (h e he)

/-- A step fails as one of its halves does. -/
theorem bind {x : Except ε α} {f : α → Except ε β} (hx : FailsOnly P x)
    (hf : ∀ a, FailsOnly P (f a)) : FailsOnly P (x >>= f) := by
  cases x with
  | error e => exact error (hx e rfl)
  | ok a => exact hf a

/-- After a step with a known result, only what follows can fail. -/
theorem bind_of_eq_ok {x : Except ε α} {a : α} {f : α → Except ε β} (hx : x = .ok a)
    (hf : FailsOnly P (f a)) : FailsOnly P (x >>= f) := by
  rw [hx]
  exact hf

/-- What is not stopped by the only error that can stop it gives a result. -/
theorem exists_eq_ok {e : ε} {x : Except ε α} (h : FailsOnly (· = e) x) (hne : x ≠ .error e) :
    ∃ a, x = .ok a := by
  cases x with
  | error e' => exact absurd (congrArg Except.error (h e' rfl)) hne
  | ok a => exact ⟨a, rfl⟩

/-- A list fails as one of its entries does. -/
theorem mapM {f : α → Except ε β} {xs : List α} (h : ∀ x ∈ xs, FailsOnly P (f x)) :
    FailsOnly P (xs.mapM f) := by
  induction xs with
  | nil => exact pure []
  | cons x rest ih =>
    rw [List.mapM_cons]
    refine bind (h x List.mem_cons_self) fun y => ?_
    exact bind (ih fun x' hx' => h x' (List.mem_cons_of_mem x hx')) fun ys => pure _

/-- Errors with other names. -/
theorem mapError {x : Except ε α} {f : ε → ε'} (h : FailsOnly P x) (hf : ∀ e, P e → Q (f e)) :
    FailsOnly Q (x.mapError f) := by
  cases x with
  | error e => exact error (hf e (h e rfl))
  | ok a => exact ok a

end FailsOnly

/-- What stands beside the entry at an index. -/
theorem exists_of_forall₂ {R : α → β → Prop} {xs : List α} {ys : List β}
    (h : List.Forall₂ R xs ys) {i : ℕ} {x : α} (hx : xs[i]? = some x) :
    ∃ y, ys[i]? = some y ∧ R x y := by
  induction h generalizing i with
  | nil => simp at hx
  | @cons a b as bs hab _ ih =>
    cases i with
    | zero =>
      rw [List.getElem?_cons_zero, Option.some_inj] at hx
      exact ⟨b, rfl, hx ▸ hab⟩
    | succ i =>
      rw [List.getElem?_cons_succ] at hx
      exact ih hx

/-- What a result is a result of. -/
theorem exists_of_forall₂_right {R : α → β → Prop} {xs : List α} {ys : List β}
    (h : List.Forall₂ R xs ys) {y : β} (hy : y ∈ ys) : ∃ x ∈ xs, R x y := by
  obtain ⟨i, hi⟩ := List.mem_iff_getElem?.1 hy
  obtain ⟨x, hx, hR⟩ := exists_of_forall₂ (List.Forall₂.flip (R := fun y x => R x y) h) hi
  exact ⟨x, List.mem_of_getElem? hx, hR⟩

/-- A list gives results with a property if every entry does. -/
theorem exists_mapM_eq_ok_all_iff {f : α → Except ε β} {p : β → Prop} {xs : List α} :
    (∃ ys, xs.mapM f = .ok ys ∧ ∀ y ∈ ys, p y) ↔ ∀ x ∈ xs, ∃ y, f x = .ok y ∧ p y := by
  constructor
  · rintro ⟨ys, hys, hall⟩ x hx
    obtain ⟨i, hi⟩ := List.mem_iff_getElem?.1 hx
    obtain ⟨y, hy, hxy⟩ := exists_of_forall₂ (mapM_eq_ok.1 hys) hi
    exact ⟨y, hxy, hall y (List.mem_of_getElem? hy)⟩
  · intro h
    obtain ⟨ys, hys, hbeside⟩ := exists_mapM_eq_ok_forall₂ h
    refine ⟨ys, hys, fun y hy => ?_⟩
    obtain ⟨x, -, hp⟩ := exists_of_forall₂_right hbeside hy
    exact hp

/-- What has the names of the entries it stands beside has them in the same order. -/
theorem map_eq_map_of_forall₂ {γ : Type} {f : α → γ} {g : β → γ} {xs : List α} {ys : List β}
    (h : List.Forall₂ (fun x y => g y = f x) xs ys) : ys.map g = xs.map f := by
  induction h with
  | nil => rfl
  | cons hxy _ ih => rw [List.map_cons, List.map_cons, hxy, ih]

/-- What the results that are there are results of comes in the same order. -/
theorem sublist_of_forall₂ {γ : Type} {f : α → γ} {g : β → γ} {xs : List α}
    {found : List (Option β)}
    (h : List.Forall₂ (fun x r => ∀ y, r = some y → g y = f x) xs found) :
    ((found.filterMap id).map g).Sublist (xs.map f) := by
  induction h with
  | nil => exact List.Sublist.slnil
  | @cons x r xs found hxr _ ih =>
    cases r with
    | none => exact ih.trans (List.sublist_cons_self _ _)
    | some y =>
      show (g y :: (found.filterMap id).map g).Sublist (f x :: xs.map f)
      rw [hxr y rfl]
      exact ih.cons_cons _

/-- Results that are all there stay where they are when the missing ones are left out. -/
theorem map_some_filterMap_id {xs : List (Option β)} (h : ∀ o ∈ xs, o.isSome = true) :
    (xs.filterMap id).map some = xs := by
  induction xs with
  | nil => rfl
  | cons o xs ih =>
    obtain ⟨b, rfl⟩ := Option.isSome_iff_exists.1 (h o List.mem_cons_self)
    have hrest := ih fun o' ho => h o' (List.mem_cons_of_mem _ ho)
    rw [List.filterMap_cons_some (by rfl), List.map_cons, hrest]

/-- Results stand beside what they belong to without the missing ones if and only if none is
missing. -/
theorem forall₂_filterMap_id_iff {R : α → β → Prop} {xs : List α} {found : List (Option β)}
    (hlen : xs.length = found.length) :
    List.Forall₂ R xs (found.filterMap id) ↔
      List.Forall₂ (fun x r => ∃ y, r = some y ∧ R x y) xs found := by
  constructor
  · intro h
    have hall := List.filterMap_length_eq_length.1 (h.length_eq.symm.trans hlen)
    rw [← map_some_filterMap_id hall, List.forall₂_map_right_iff]
    exact h.imp fun x y hxy => ⟨y, rfl, hxy⟩
  · intro h
    clear hlen
    induction h with
    | nil => exact .nil
    | cons hxr _ ih =>
      obtain ⟨y, rfl, hxy⟩ := hxr
      exact .cons hxy ih

/-! ## Entries found by their ids -/

section Keys

variable {κ : Type} [BEq κ] [LawfulBEq κ] {key : α → κ} {xs : List α} {k : κ} {x : α}

theorem of_find?_key_eq_some (h : xs.find? (fun x => key x == k) = some x) :
    x ∈ xs ∧ key x = k :=
  ⟨List.mem_of_find?_eq_some h, by simpa using List.find?_some h⟩

/-- An entry is found by its id, or another one with that id is. -/
theorem exists_find?_key_of_mem (key : α → κ) (hx : x ∈ xs) :
    ∃ first, xs.find? (fun y => key y == key x) = some first := by
  refine Option.ne_none_iff_exists'.1 fun hnone => ?_
  exact List.find?_eq_none.1 hnone x hx (beq_iff_eq.2 rfl)

/-- Among distinct ids, the entry with an id is the one that is found. -/
theorem find?_key_eq_some_iff (hkeys : (xs.map key).Nodup) :
    xs.find? (fun x => key x == k) = some x ↔ x ∈ xs ∧ key x = k := by
  constructor
  · exact of_find?_key_eq_some
  · rintro ⟨hx, rfl⟩
    obtain ⟨first, hfirst⟩ := exists_find?_key_of_mem key hx
    obtain ⟨hmem, hkey⟩ := of_find?_key_eq_some hfirst
    obtain rfl := List.inj_on_of_nodup_map hkeys hmem hx hkey
    exact hfirst

end Keys

end Housewright
