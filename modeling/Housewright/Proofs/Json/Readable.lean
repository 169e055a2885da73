import Mathlib.Data.List.Nodup
import Housewright.Proofs.Json.Numbers

/-!
# Values that a text can hold

The reader has limits, and every value that it gives is within them: `Readable d v` says
that `v` is nested at most `d` deep, that its whole numbers have at most `digitLimit`
digits, and that no object has two members of one key.

## Main results

* `induction` : induction over values, by way of the elements and members.
* `parse?_readable` : what a text holds is readable.
-/

namespace Housewright.Json

/-! ## Induction over values -/

/-- A property holds of every value if it holds of an array whenever it holds of the elements,
of an object whenever it holds of the members, and of all that has no parts. -/
@[elab_as_elim]
theorem induction {motive : Json → Prop} (null : motive .null) (bool : ∀ b, motive (.bool b))
    (int : ∀ n, motive (.int n)) (num : ∀ x, motive (.num x)) (str : ∀ s, motive (.str s))
    (arr : ∀ xs, (∀ x ∈ xs, motive x) → motive (.arr xs))
    (obj : ∀ ms, (∀ m ∈ ms, motive m.2) → motive (.obj ms)) (v : Json) : motive v := by
  refine Json.rec (motive_1 := motive) (motive_2 := fun xs => ∀ x ∈ xs, motive x)
    (motive_3 := fun ms => ∀ m ∈ ms, motive m.2) (motive_4 := fun m => motive m.2)
    null bool int num str arr obj ?_ ?_ ?_ ?_ ?_ v
  · exact fun x hx => absurd hx List.not_mem_nil
  · intro x xs hx hxs
    exact List.forall_mem_cons.2 ⟨hx, hxs⟩
  · exact fun m hm => absurd hm List.not_mem_nil
  · intro m ms hm hms
    exact List.forall_mem_cons.2 ⟨hm, hms⟩
  · exact fun _ _ hv => hv

/-! ## Readable values -/

/-- A value nested at most so deep that is within the limits of the reader. -/
inductive Readable : ℕ → Json → Prop where
  | null {d : ℕ} : Readable d .null
  | bool {d : ℕ} (b : Bool) : Readable d (.bool b)
  | int {d : ℕ} {n : Int} (digits : n.natAbs < 10 ^ digitLimit) : Readable d (.int n)
  | num {d : ℕ} (x : Float) : Readable d (.num x)
  | str {d : ℕ} (s : String) : Readable d (.str s)
  | arr {d : ℕ} {xs : List Json} (elements : ∀ x ∈ xs, Readable d x) : Readable (d + 1) (.arr xs)
  | obj {d : ℕ} {ms : List (String × Json)} (keys : (ms.map (·.1)).Nodup)
      (members : ∀ m ∈ ms, Readable d m.2) : Readable (d + 1) (.obj ms)

namespace Readable

/-- What may be nested so deep may be nested deeper. -/
theorem mono {d d' : ℕ} {v : Json} (h : Readable d v) (hd : d ≤ d') : Readable d' v := by
  induction h generalizing d' with
  | null => exact .null
  | bool b => exact .bool b
  | int digits => exact .int digits
  | num x => exact .num x
  | str s => exact .str s
  | arr _ ih =>
    obtain ⟨e, rfl⟩ := Nat.exists_eq_add_of_lt hd
    exact .arr fun x hx => ih x hx (by omega)
  | obj keys _ ih =>
    obtain ⟨e, rfl⟩ := Nat.exists_eq_add_of_lt hd
    exact .obj keys fun m hm => ih m hm (by omega)

theorem of_mem_arr {d : ℕ} {xs : List Json} (h : Readable (d + 1) (.arr xs)) :
    ∀ x ∈ xs, Readable d x := by
  cases h with
  | arr elements => exact elements

theorem of_mem_obj {d : ℕ} {ms : List (String × Json)} (h : Readable (d + 1) (.obj ms)) :
    ∀ m ∈ ms, Readable d m.2 := by
  cases h with
  | obj _ members => exact members

end Readable

/-! ## Members with distinct keys -/

/-- Writing a member adds its key at most. -/
theorem mem_set {key : String} {value : Json} {members : List (String × Json)}
    {m : String × Json} (h : m ∈ set key value members) : m = (key, value) ∨ m ∈ members := by
  induction members with
  | nil => exact .inl (List.mem_singleton.1 h)
  | cons first rest ih =>
    rw [set] at h
    split at h
    next hk =>
      rcases List.mem_cons.1 h with rfl | h
      · exact .inl (by rw [hk])
      · exact .inr (List.mem_cons_of_mem _ h)
    next hk =>
      rcases List.mem_cons.1 h with rfl | h
      · exact .inr List.mem_cons_self
      · exact (ih h).imp_right (List.mem_cons_of_mem _)

/-- Writing a member keeps the keys distinct. -/
theorem nodup_set {key : String} {value : Json} {members : List (String × Json)}
    (h : (members.map (·.1)).Nodup) : ((set key value members).map (·.1)).Nodup := by
  induction members with
  | nil => exact List.nodup_singleton key
  | cons first rest ih =>
    rw [List.map_cons, List.nodup_cons] at h
    rw [set]
    split
    next => exact List.nodup_cons.2 h
    next hk =>
      refine List.nodup_cons.2 ⟨fun hmem => ?_, ih h.2⟩
      obtain ⟨m, hm, hfirst⟩ := List.mem_map.1 hmem
      rcases mem_set hm with rfl | hm
      · exact hk hfirst.symm
      · exact h.1 (List.mem_map.2 ⟨m, hm, hfirst⟩)

/-- Members written one after the other have distinct keys, and each was given. -/
theorem ofMembers_readable {d : ℕ} {members : List (String × Json)}
    (h : ∀ m ∈ members, Readable d m.2) : Readable (d + 1) (ofMembers members) := by
  suffices hacc : ∀ acc : List (String × Json), (acc.map (·.1)).Nodup →
      (∀ m ∈ acc, Readable d m.2) →
      Readable (d + 1) (.obj (members.foldl (fun acc m => set m.1 m.2 acc) acc)) from
    hacc [] List.nodup_nil fun m hm => absurd hm List.not_mem_nil
  induction members with
  | nil => exact fun acc hkeys hacc => .obj hkeys hacc
  | cons first rest ih =>
    intro acc hkeys hacc
    refine ih (fun m hm => h m (List.mem_cons_of_mem _ hm)) _ (nodup_set hkeys) fun m hm => ?_
    rcases mem_set hm with rfl | hm
    · exact h first List.mem_cons_self
    · exact hacc m hm

/-- A member with a new key is added at the end. -/
theorem set_of_notMem {key : String} {value : Json} {members : List (String × Json)}
    (h : key ∉ members.map (·.1)) : set key value members = members ++ [(key, value)] := by
  induction members with
  | nil => rfl
  | cons first rest ih =>
    rw [List.map_cons, List.mem_cons, not_or] at h
    rw [set, if_neg (Ne.symm h.1), ih h.2, List.cons_append]

/-- Members with distinct keys stay as they are. -/
theorem ofMembers_of_nodup {members : List (String × Json)} (h : (members.map (·.1)).Nodup) :
    ofMembers members = .obj members := by
  suffices hacc : ∀ acc : List (String × Json), ((acc ++ members).map (·.1)).Nodup →
      members.foldl (fun acc m => set m.1 m.2 acc) acc = acc ++ members from
    congrArg Json.obj (hacc [] h)
  clear h
  induction members with
  | nil => exact fun acc _ => (List.append_nil acc).symm
  | cons first rest ih =>
    intro acc hacc
    have hnew : first.1 ∉ acc.map (·.1) := by
      rw [List.map_append, List.nodup_append'] at hacc
      exact fun hmem => hacc.2.2 hmem List.mem_cons_self
    rw [List.foldl_cons, set_of_notMem hnew, ih _ (by simpa using hacc), List.append_assoc]
    rfl

/-! ## What the reader gives -/

/-- A number of digits is within the limit. -/
theorem numberOfParts?_readable {d : ℕ} {negative : Bool} {whole : List Char}
    {fraction : Option (List Char)} {exponent : Option Int} {v : Json}
    (hwhole : ∀ c ∈ whole, c.isDigit = true)
    (h : numberOfParts? negative whole fraction exponent = some v) : Readable d v := by
  rw [numberOfParts?.eq_def] at h
  split at h
  · split at h
    · cases h
    · next hlen =>
      have hvalue : Decimal.digitsValue whole < 10 ^ digitLimit :=
        Nat.lt_of_lt_of_le (Decimal.digitsValue_lt hwhole)
          (Nat.pow_le_pow_right (by decide) (Nat.le_of_not_lt hlen))
      rw [← Option.some.inj h]
      refine .int ?_
      cases negative
      · exact hvalue
      · rw [if_pos rfl, Int.natAbs_neg]
        exact hvalue
  · rw [← Option.some.inj h]
    exact .num _

/-- A number that is read is within the limit. -/
theorem readUnsigned?_readable {d : ℕ} {negative : Bool} {cs rest : List Char} {v : Json}
    (h : readUnsigned? negative cs = some (v, rest)) : Readable d v := by
  obtain ⟨whole, _, _, _, _, hspan, -, -, -, hv⟩ := readUnsigned?_eq_some_iff.1 h
  exact numberOfParts?_readable (Decimal.spanDigits_eq hspan).2.1 hv

theorem readNumber?_readable {d : ℕ} {cs rest : List Char} {v : Json}
    (h : readNumber? cs = some (v, rest)) : Readable d v := by
  rw [readNumber?.eq_def] at h
  split at h
  · split at h
    · obtain ⟨rfl, -⟩ := Prod.mk.inj (Option.some.inj h)
      exact .num _
    · exact readUnsigned?_readable h
  · exact readUnsigned?_readable h

/-- A word that is read stands for a value without parts. -/
theorem readable_of_word {d : ℕ} {word cs rest : List Char} {v w : Json} (hw : Readable d w)
    (h : (afterWord? word cs).map (w, ·) = some (v, rest)) : Readable d v := by
  obtain ⟨r, -, hr⟩ := Option.map_eq_some_iff.1 h
  obtain ⟨rfl, -⟩ := Prod.mk.inj hr
  exact hw

/-- What the readers give with a measure is within their limits: values, and the elements and
members that are added to those already read. -/
structure ReadsReadable (n : ℕ) : Prop where
  value : ∀ d cs v rest, readValue d n cs = some (v, rest) → Readable d v
  elements : ∀ d acc cs xs rest, readElements d n acc cs = some (xs, rest) →
    (∀ x ∈ acc, Readable d x) → ∀ x ∈ xs, Readable d x
  members : ∀ d acc cs ms rest, readMembers d n acc cs = some (ms, rest) →
    (∀ m ∈ acc, Readable d m.2) → ∀ m ∈ ms, Readable d m.2

namespace ReadsReadable

variable {n d : ℕ} {cs rest : List Char}

/-- One step of the reader of values. -/
theorem value_succ (ih : ReadsReadable n) {v : Json}
    (h : readValue d (n + 1) cs = some (v, rest)) : Readable d v := by
  rw [readValue.eq_def] at h
  dsimp only at h
  split at h
  · cases h
  · split at h
    · cases h
    next hd =>
      obtain ⟨e, rfl⟩ := Nat.exists_eq_succ_of_ne_zero hd
      split at h
      · obtain ⟨rfl, -⟩ := Prod.mk.inj (Option.some.inj h)
        exact .obj List.nodup_nil fun m hm => absurd hm List.not_mem_nil
      · obtain ⟨⟨ms, after⟩, hms, hv⟩ := Option.map_eq_some_iff.1 h
        obtain ⟨rfl, -⟩ := Prod.mk.inj hv
        exact ofMembers_readable
          (ih.members e [] _ ms after hms fun m hm => absurd hm List.not_mem_nil)
  · split at h
    · cases h
    next hd =>
      obtain ⟨e, rfl⟩ := Nat.exists_eq_succ_of_ne_zero hd
      split at h
      · obtain ⟨rfl, -⟩ := Prod.mk.inj (Option.some.inj h)
        exact .arr fun x hx => absurd hx List.not_mem_nil
      · obtain ⟨⟨xs, after⟩, hxs, hv⟩ := Option.map_eq_some_iff.1 h
        obtain ⟨rfl, -⟩ := Prod.mk.inj hv
        exact .arr (ih.elements e [] _ xs after hxs fun x hx => absurd hx List.not_mem_nil)
  · obtain ⟨s, -, hs⟩ := Option.map_eq_some_iff.1 h
    obtain ⟨rfl, -⟩ := Prod.mk.inj hs
    exact .str _
  · exact readable_of_word (.bool true) h
  · exact readable_of_word (.bool false) h
  · exact readable_of_word .null h
  · exact readable_of_word (.num _) h
  · exact readable_of_word (.num _) h
  · exact readNumber?_readable h

/-- One step of the reader of elements. -/
theorem elements_succ (ih : ReadsReadable n) {acc xs : List Json}
    (h : readElements d (n + 1) acc cs = some (xs, rest)) (hacc : ∀ x ∈ acc, Readable d x) :
    ∀ x ∈ xs, Readable d x := by
  rw [readElements] at h
  split at h
  · cases h
  next v after hv =>
    have hcons : ∀ x ∈ v :: acc, Readable d x :=
      List.forall_mem_cons.2 ⟨ih.value d _ v after hv, hacc⟩
    split at h
    · exact ih.elements d _ _ xs rest h hcons
    · obtain ⟨rfl, -⟩ := Prod.mk.inj (Option.some.inj h)
      exact fun x hx => hcons x (List.mem_reverse.1 hx)
    · cases h

/-- One step of the reader of members. -/
theorem members_succ (ih : ReadsReadable n) {acc ms : List (String × Json)}
    (h : readMembers d (n + 1) acc cs = some (ms, rest)) (hacc : ∀ m ∈ acc, Readable d m.2) :
    ∀ m ∈ ms, Readable d m.2 := by
  rw [readMembers] at h
  split at h
  next after hopen =>
    split at h
    · cases h
    next key after hkey =>
      split at h
      next after hcolon =>
        split at h
        · cases h
        next v after hv =>
          have hcons : ∀ m ∈ (key, v) :: acc, Readable d m.2 :=
            List.forall_mem_cons.2 ⟨ih.value d _ v after hv, hacc⟩
          split at h
          · exact ih.members d _ _ ms rest h hcons
          · obtain ⟨rfl, -⟩ := Prod.mk.inj (Option.some.inj h)
            exact fun m hm => hcons m (List.mem_reverse.1 hm)
          · cases h
      · cases h
  · cases h

end ReadsReadable

/-- **Whatever the readers give is within their limits**, by induction on their measure. -/
theorem readsReadable (n : ℕ) : ReadsReadable n := by
  induction n with
  | zero =>
    refine ⟨fun d cs v rest h => ?_, fun d acc cs xs rest h => ?_, fun d acc cs ms rest h => ?_⟩
    · rw [readValue] at h
      cases h
    · rw [readElements] at h
      cases h
    · rw [readMembers] at h
      cases h
  | succ n ih =>
    exact ⟨fun _ _ _ _ h => ih.value_succ h, fun _ _ _ _ _ h hacc => ih.elements_succ h hacc,
      fun _ _ _ _ _ h hacc => ih.members_succ h hacc⟩

/-- What a text holds is nested at most as deep as the reader goes. -/
theorem parse?_readable {text : String} {v : Json} (h : parse? text = some v) :
    Readable depthLimit v := by
  rw [parse?] at h
  split at h
  next v' rest hv =>
    split at h
    · rw [← Option.some.inj h]
      exact (readsReadable _).value depthLimit _ v' rest hv
    · cases h
  · cases h

end Housewright.Json
