import Housewright.Description.House
import Housewright.Proofs.Steps

/-!
# Which level an id means

Levels are looked up by their ids in two ways: some places take the first level of an id,
others the last one.  `levelIndex?` is the index of the first, `lastLevelIndex?` that of the
last.

* `House.level?_eq`, `House.lastLevel?_eq`: the levels found are those at these indices;
* `House.levelIndex?_eq_lastLevelIndex?_iff`: the two ways agree on an id if and only if at
  most one level has it;
* `House.lastLevel?_eq_some_iff`: among distinct ids, the level with an id is the one found.
-/

namespace Housewright

/-! ## The last match in a list -/

section Matches

variable {β γ : Type} {p : β → Bool}

/-- The index of the last entry that fulfils a condition. -/
def lastIdx? (p : β → Bool) : List β → Option ℕ
  | [] => none
  | x :: xs =>
    match lastIdx? p xs with
    | some i => some (i + 1)
    | none => if p x then some 0 else none

theorem lastIdx?_map (f : γ → β) (xs : List γ) :
    lastIdx? p (xs.map f) = lastIdx? (fun x => p (f x)) xs := by
  induction xs with
  | nil => rfl
  | cons x xs ih => rw [List.map_cons, lastIdx?, lastIdx?, ih]

theorem lastIdx?_eq_none {xs : List β} : lastIdx? p xs = none ↔ ∀ x ∈ xs, p x = false := by
  induction xs with
  | nil => simp [lastIdx?]
  | cons x xs ih =>
    rw [lastIdx?, List.forall_mem_cons, ← ih]
    cases lastIdx? p xs with
    | none => cases p x <;> simp
    | some i => simp

/-- The last match is a match after which there is none. -/
theorem lastIdx?_eq_some {xs : List β} {i : ℕ} :
    lastIdx? p xs = some i ↔ (∃ x, xs[i]? = some x ∧ p x = true) ∧
      ∀ j x, i < j → xs[j]? = some x → p x = false := by
  induction xs generalizing i with
  | nil => simp [lastIdx?]
  | cons y xs ih =>
    rw [lastIdx?]
    cases h : lastIdx? p xs with
    | none =>
      have hnone := lastIdx?_eq_none.1 h
      cases i with
      | zero =>
        constructor
        · intro hy
          refine ⟨⟨y, rfl, by revert hy; cases p y <;> simp⟩, fun j x hj hx => ?_⟩
          obtain ⟨j, rfl⟩ := Nat.exists_eq_succ_of_ne_zero (by omega : j ≠ 0)
          exact hnone x (List.mem_of_getElem? hx)
        · rintro ⟨⟨x, hx, hp⟩, -⟩
          obtain rfl : y = x := Option.some_inj.1 hx
          exact if_pos hp
      | succ i =>
        constructor
        · cases p y <;> simp
        · rintro ⟨⟨x, hx, hp⟩, -⟩
          rw [hnone x (List.mem_of_getElem? hx)] at hp
          cases hp
    | some k =>
      obtain ⟨⟨z, hz, hpz⟩, hafter⟩ := ih.1 h
      cases i with
      | zero =>
        constructor
        · intro hk
          cases hk
        · rintro ⟨-, hlast⟩
          rw [hlast (k + 1) z (by omega) hz] at hpz
          cases hpz
      | succ i =>
        rw [Option.some_inj, Nat.succ_inj, ← Option.some_inj, ← h, ih]
        refine and_congr_right fun _ => ⟨fun hl j x hj hx => ?_, fun hl j x hj hx => ?_⟩
        · obtain ⟨j, rfl⟩ := Nat.exists_eq_succ_of_ne_zero (by omega : j ≠ 0)
          exact hl j x (by omega) hx
        · exact hl (j + 1) x (by omega) hx

theorem find?_reverse_eq (xs : List β) :
    xs.reverse.find? p = (lastIdx? p xs).bind fun i => xs[i]? := by
  induction xs with
  | nil => rfl
  | cons x xs ih =>
    rw [List.reverse_cons, List.find?_append, ih, lastIdx?]
    cases h : lastIdx? p xs with
    | none => cases hp : p x <;> simp [hp]
    | some i =>
      obtain ⟨⟨y, hy, -⟩, -⟩ := lastIdx?_eq_some.1 h
      simp [hy]

/-- The first match is a match before which there is none. -/
theorem findIdx?_eq_some {xs : List β} {i : ℕ} :
    xs.findIdx? p = some i ↔ (∃ x, xs[i]? = some x ∧ p x = true) ∧
      ∀ j x, j < i → xs[j]? = some x → p x = false := by
  rw [List.findIdx?_eq_some_iff_getElem]
  constructor
  · rintro ⟨hi, hp, hbefore⟩
    refine ⟨⟨xs[i], List.getElem?_eq_getElem hi, hp⟩, fun j x hj hx => ?_⟩
    obtain ⟨hlt, rfl⟩ := List.getElem?_eq_some_iff.1 hx
    simpa using hbefore j hj
  · rintro ⟨⟨x, hx, hp⟩, hbefore⟩
    obtain ⟨hlt, rfl⟩ := List.getElem?_eq_some_iff.1 hx
    refine ⟨hlt, hp, fun j hj => ?_⟩
    simpa using hbefore j _ hj (List.getElem?_eq_getElem (Nat.lt_trans hj hlt))

/-- The first and the last match are one if and only if there are no two matches. -/
theorem findIdx?_eq_lastIdx?_iff {xs : List β} :
    xs.findIdx? p = lastIdx? p xs ↔ ∀ (i j : ℕ) (x y : β), xs[i]? = some x → xs[j]? = some y →
      p x = true → p y = true → i = j := by
  constructor
  · intro h i j x y hi hj hx hy
    cases hk : lastIdx? p xs with
    | none =>
      rw [lastIdx?_eq_none.1 hk x (List.mem_of_getElem? hi)] at hx
      cases hx
    | some k =>
      obtain ⟨-, hafter⟩ := lastIdx?_eq_some.1 hk
      obtain ⟨-, hbefore⟩ := findIdx?_eq_some.1 (h.trans hk)
      have heq : ∀ l z, xs[l]? = some z → p z = true → l = k := by
        intro l z hl hz
        rcases Nat.lt_trichotomy l k with hlt | rfl | hlt
        · exact absurd (hbefore l z hlt hl) (by simp [hz])
        · rfl
        · exact absurd (hafter l z hlt hl) (by simp [hz])
      rw [heq i x hi hx, heq j y hj hy]
  · intro h
    cases hk : lastIdx? p xs with
    | none => exact List.findIdx?_eq_none_iff.2 (lastIdx?_eq_none.1 hk)
    | some k =>
      obtain ⟨⟨z, hz, hpz⟩, -⟩ := lastIdx?_eq_some.1 hk
      refine findIdx?_eq_some.2 ⟨⟨z, hz, hpz⟩, fun j x hj hx => ?_⟩
      by_contra hpx
      have := h j k x z hx hz (by simpa using hpx) hpz
      omega

end Matches

/-! ## The levels of a house -/

namespace House

variable {α : Type} {h : House α} {id : String}

/-- The index of the last level with the given id. -/
def lastLevelIndex? (h : House α) (id : String) : Option ℕ := lastIdx? (·.id == id) h.levels

/-- At most one level has the id. -/
def NamesOneLevel (h : House α) (id : String) : Prop :=
  ∀ (i j : ℕ) (l m : Level α), h.levels[i]? = some l → h.levels[j]? = some m →
    l.id = id → m.id = id → i = j

theorem level?_eq (h : House α) (id : String) :
    h.level? id = (h.levelIndex? id).bind fun i => h.levels[i]? :=
  List.find?_eq_bind_findIdx?_getElem?

theorem lastLevel?_eq (h : House α) (id : String) :
    h.lastLevel? id = (h.lastLevelIndex? id).bind fun i => h.levels[i]? :=
  find?_reverse_eq h.levels

/-- **The first and the last level of an id are one** if and only if at most one level has
the id. -/
theorem levelIndex?_eq_lastLevelIndex?_iff :
    h.levelIndex? id = h.lastLevelIndex? id ↔ h.NamesOneLevel id := by
  unfold levelIndex? lastLevelIndex? NamesOneLevel
  simp only [findIdx?_eq_lastIdx?_iff, beq_iff_eq]

/-- Where ids are not repeated, each of them names one level. -/
theorem namesOneLevel_of_nodup (hids : (h.levels.map (·.id)).Nodup) (id : String) :
    h.NamesOneLevel id := by
  intro i j l m hi hj hl hm
  obtain ⟨hlt, -⟩ := List.getElem?_eq_some_iff.1 hi
  refine (List.getElem?_inj (by simpa using hlt) hids).1 ?_
  rw [List.getElem?_map, List.getElem?_map, hi, hj, Option.map_some, Option.map_some, hl, hm]

/-- Where ids are not repeated, the level with an id is the one that is found. -/
theorem lastLevel?_eq_some_iff (hids : (h.levels.map (·.id)).Nodup) {level : Level α} :
    h.lastLevel? id = some level ↔ level ∈ h.levels ∧ level.id = id := by
  have hreverse : (h.levels.reverse.map (·.id)).Nodup := by
    rw [List.map_reverse]
    exact List.nodup_reverse.2 hids
  rw [lastLevel?, find?_key_eq_some_iff hreverse, List.mem_reverse]

end House

end Housewright
