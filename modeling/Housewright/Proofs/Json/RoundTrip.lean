import Housewright.Proofs.Json.Numbers
import Housewright.Proofs.Json.Readable
import Housewright.Proofs.Json.Strings

/-!
# Text that is written is read back

A value within the limits of the reader is read back from its text, in either style, if
its numbers are finite and each of them is read back from its own text.

## Main results

* `read_items` : items between brackets are read one after the other.
* `readsAs_renderAt` : the text of a value is read as the value wherever it stands.
* `parse?_render` : the text of a value is read back.
-/

namespace Housewright.Json

/-! ## The numbers of a value -/

mutual

/-- All numbers of a value that are not whole by type, in order. -/
def numbers : Json → List Float
  | .num x => [x]
  | .arr xs => elementNumbers xs
  | .obj ms => memberNumbers ms
  | _ => []

/-- The numbers of the elements of an array. -/
def elementNumbers : List Json → List Float
  | [] => []
  | v :: rest => numbers v ++ elementNumbers rest

/-- The numbers of the members of an object. -/
def memberNumbers : List (String × Json) → List Float
  | [] => []
  | (_, v) :: rest => numbers v ++ memberNumbers rest

end

theorem mem_elementNumbers {x : Float} {xs : List Json} :
    x ∈ elementNumbers xs ↔ ∃ v ∈ xs, x ∈ numbers v := by
  induction xs with
  | nil => simp [elementNumbers]
  | cons v xs ih => simp [elementNumbers, ih]

theorem mem_memberNumbers {x : Float} {ms : List (String × Json)} :
    x ∈ memberNumbers ms ↔ ∃ m ∈ ms, x ∈ numbers m.2 := by
  induction ms with
  | nil => simp [memberNumbers]
  | cons m ms ih => simp [memberNumbers, ih]

/-! ## Blanks -/

/-- There is nothing but blanks. -/
def Blanks (cs : List Char) : Prop := ∀ c ∈ cs, isBlank c = true

theorem blanks_nil : Blanks [] := fun _ hc => absurd hc List.not_mem_nil

theorem blanks_break (style : TextStyle) (depth : ℕ) : Blanks (style.break depth).toList := by
  intro c hc
  rw [TextStyle.break] at hc
  split at hc
  · exact absurd hc List.not_mem_nil
  · rw [String.toList_append] at hc
    rcases List.mem_append.1 hc with hc | hc
    · rw [List.mem_singleton.1 hc]
      rfl
    · rw [String.toList_ofList] at hc
      rw [List.eq_of_mem_replicate hc]
      rfl

theorem skipBlanks_append {bs cs : List Char} (h : Blanks bs) :
    skipBlanks (bs ++ cs) = skipBlanks cs := List.dropWhile_append_of_pos h

/-- The text starts with something that is neither a blank nor a closing bracket. -/
def Opens (cs : List Char) : Prop :=
  ∃ c rest, cs = c :: rest ∧ isBlank c = false ∧ c ≠ ']' ∧ c ≠ '}'

theorem Opens.append {cs : List Char} (h : Opens cs) (rest : List Char) : Opens (cs ++ rest) := by
  obtain ⟨c, cs', rfl, hc⟩ := h
  exact ⟨c, cs' ++ rest, rfl, hc⟩

theorem Opens.skipBlanks {cs : List Char} (h : Opens cs) : skipBlanks cs = cs := by
  obtain ⟨c, cs', rfl, hc, -⟩ := h
  exact skipBlanks_cons hc

/-- What closes or separates values may follow a number, with blanks before it. -/
theorem delimited_of_blanks {bs : List Char} (h : Blanks bs) {c : Char} (hc : c ∈ [',', ']', '}'])
    (rest : List Char) : Delimited (bs ++ c :: rest) := by
  intro a ha
  cases bs with
  | nil =>
    obtain rfl : c = a := Option.some.inj ha
    simp only [List.mem_cons, List.not_mem_nil, or_false] at hc
    rcases hc with rfl | rfl | rfl <;> decide
  | cons b bs =>
    obtain rfl : b = a := Option.some.inj ha
    have hb := h b List.mem_cons_self
    simp only [isBlank, Bool.or_eq_true, decide_eq_true_eq] at hb
    rcases hb with ((rfl | rfl) | rfl) | rfl <;> decide

/-! ## Items between brackets -/

/-- One step of a reader of items: it reads one item after some blanks, and then goes on
after a comma or stops at the closing bracket. -/
structure ReadsItem {α : Type} (read : ℕ → List α → List Char → Option (List α × List Char))
    (close : Char) (cs : List Char) (x : α) : Prop where
  next : ∀ n acc bs rest, Blanks bs → 2 * cs.length + 1 ≤ n →
    read (n + 1) acc (bs ++ (cs ++ ',' :: rest)) = read n (x :: acc) rest
  last : ∀ n acc bs bs' rest, Blanks bs → Blanks bs' → 2 * cs.length + 1 ≤ n →
    read (n + 1) acc (bs ++ (cs ++ (bs' ++ close :: rest))) = some ((x :: acc).reverse, rest)

/-- **Items are read one after the other**, whatever the blanks between them. -/
theorem read_items {α : Type} {read : ℕ → List α → List Char → Option (List α × List Char)}
    {close : Char} {text : α → List Char} {sep bs' : List Char} (hsep : Blanks sep)
    (hbs' : Blanks bs') {xs : List α} (hne : xs ≠ [])
    (h : ∀ x ∈ xs, ReadsItem read close (text x) x) (n : ℕ) (acc : List α) (bs rest : List Char)
    (hbs : Blanks bs) (hn : 2 * ((',' :: sep).intercalate (xs.map text)).length + 2 ≤ n) :
    read n acc (bs ++ ((',' :: sep).intercalate (xs.map text) ++ (bs' ++ close :: rest))) =
      some (acc.reverse ++ xs, rest) := by
  induction xs generalizing n acc bs with
  | nil => exact absurd rfl hne
  | cons x xs ih =>
    obtain ⟨n, rfl⟩ : ∃ k, n = k + 1 := ⟨n - 1, by omega⟩
    have hx := h x List.mem_cons_self
    cases xs with
    | nil =>
      rw [List.map_singleton, List.intercalate_singleton] at hn ⊢
      rw [hx.last n acc bs bs' rest hbs hbs' (by omega), List.reverse_cons]
    | cons y ys =>
      rw [List.map_cons, List.map_cons, List.intercalate_cons_cons, ← List.map_cons] at hn ⊢
      simp only [List.length_append, List.length_cons] at hn
      rw [List.append_assoc, List.append_assoc, List.cons_append,
        hx.next n acc bs _ hbs (by omega),
        ih (List.cons_ne_nil y ys) (fun z hz => h z (List.mem_cons_of_mem _ hz)) n (x :: acc) sep
          hsep (by omega), List.reverse_cons, List.append_assoc]
      rfl

/-! ## Values in a longer text -/

/-- The text is read as the value, whatever follows it. -/
def ReadsAs (d : ℕ) (cs : List Char) (v : Json) : Prop :=
  ∀ n rest, 2 * cs.length ≤ n → Delimited rest → readValue d n (cs ++ rest) = some (v, rest)

theorem delimited_nil : Delimited [] := fun _ h => nomatch h

/-- No value starts with a blank or a closing bracket. -/
theorem readValue_eq_none {d n : ℕ} {c : Char} {cs : List Char}
    (h : isBlank c = true ∨ c = ']' ∨ c = '}') : readValue d n (c :: cs) = none := by
  cases n with
  | zero => rw [readValue]
  | succ n =>
    simp only [isBlank, Bool.or_eq_true, decide_eq_true_eq] at h
    rcases h with (((rfl | rfl) | rfl) | rfl) | rfl | rfl <;> rfl

theorem ReadsAs.opens {d : ℕ} {cs : List Char} {v : Json} (h : ReadsAs d cs v) : Opens cs := by
  have hread := h (2 * cs.length) [] le_rfl delimited_nil
  rw [List.append_nil] at hread
  cases cs with
  | nil => cases hread
  | cons c cs =>
    by_contra hnot
    have hbad : isBlank c = true ∨ c = ']' ∨ c = '}' := by
      by_contra hgood
      simp only [not_or, Bool.not_eq_true] at hgood
      exact hnot ⟨c, cs, rfl, hgood⟩
    rw [readValue_eq_none hbad] at hread
    cases hread

/-- An element whose text is read as it. -/
theorem ReadsAs.element {d : ℕ} {cs : List Char} {v : Json} (h : ReadsAs d cs v) :
    ReadsItem (readElements d) ']' cs v where
  next n acc bs rest hbs hn := by
    have hread := h n (',' :: rest) (by omega)
      (delimited_of_blanks blanks_nil (by simp) rest)
    rw [readElements, skipBlanks_append hbs, (h.opens.append _).skipBlanks, hread]
    simp only [@skipBlanks_cons ',' rest rfl]
  last n acc bs bs' rest hbs hbs' hn := by
    have hread := h n (bs' ++ ']' :: rest) (by omega) (delimited_of_blanks hbs' (by simp) rest)
    rw [readElements, skipBlanks_append hbs, (h.opens.append _).skipBlanks, hread]
    simp only [skipBlanks_append hbs', @skipBlanks_cons ']' rest rfl]

/-- The key of a member is read back, the blank after the colon is skipped, and what follows the
value settles whether there is another member. -/
theorem readMembers_key (style : TextStyle) (key : String) {d n : ℕ}
    {acc : List (String × Json)} {bs cs after : List Char} {v : Json} (hbs : Blanks bs)
    (hcs : Opens cs) (hread : readValue d n cs = some (v, after)) :
    (∀ rest, skipBlanks after = ',' :: rest →
      readMembers d (n + 1) acc (bs ++ ((quote style key).toList ++ ':' :: ' ' :: cs)) =
        readMembers d n ((key, v) :: acc) rest) ∧
    ∀ rest, skipBlanks after = '}' :: rest →
      readMembers d (n + 1) acc (bs ++ ((quote style key).toList ++ ':' :: ' ' :: cs)) =
        some (((key, v) :: acc).reverse, rest) := by
  have hquote : (quote style key).toList ++ ':' :: ' ' :: cs =
      '"' :: (key.toList.flatMap (escapeChar style.asciiOnly) ++ '"' :: ':' :: ' ' :: cs) := by
    rw [quote, String.toList_ofList, List.cons_append, List.append_assoc]
    rfl
  have hspace : skipBlanks (' ' :: cs) = cs :=
    (@skipBlanks_append [' '] cs (by simp [Blanks, isBlank])).trans hcs.skipBlanks
  rw [readMembers, skipBlanks_append hbs, hquote, skipBlanks_cons rfl]
  simp only [readString_quote, @skipBlanks_cons ':' (' ' :: cs) rfl, hspace, hread]
  constructor
  · intro rest hafter
    simp only [hafter]
  · intro rest hafter
    simp only [hafter]

/-- A member whose value's text is read as the value. -/
theorem ReadsAs.member {d : ℕ} {cs : List Char} {v : Json} (h : ReadsAs d cs v)
    (style : TextStyle) (key : String) :
    ReadsItem (readMembers d) '}' ((quote style key).toList ++ ':' :: ' ' :: cs) (key, v) where
  next n acc bs rest hbs hn := by
    simp only [List.length_append, List.length_cons] at hn
    have hread := h n (',' :: rest) (by omega) (delimited_of_blanks blanks_nil (by simp) rest)
    rw [List.append_assoc, List.cons_append, List.cons_append]
    exact (readMembers_key style key hbs (h.opens.append _) hread).1 rest (skipBlanks_cons rfl)
  last n acc bs bs' rest hbs hbs' hn := by
    simp only [List.length_append, List.length_cons] at hn
    have hread := h n (bs' ++ '}' :: rest) (by omega) (delimited_of_blanks hbs' (by simp) rest)
    rw [List.append_assoc, List.cons_append, List.cons_append]
    refine (readMembers_key style key hbs (h.opens.append _) hread).2 rest ?_
    rw [skipBlanks_append hbs', skipBlanks_cons rfl]

/-! ## Brackets -/

/-- The blanks between a comma and the next item. -/
def afterComma (style : TextStyle) (depth : ℕ) : List Char :=
  (if style.indent.isSome then [] else [' ']) ++ (style.break depth).toList

theorem blanks_afterComma (style : TextStyle) (depth : ℕ) : Blanks (afterComma style depth) := by
  intro c hc
  rcases List.mem_append.1 hc with hc | hc
  · split at hc
    · exact absurd hc List.not_mem_nil
    · rw [List.mem_singleton.1 hc]
      rfl
  · exact blanks_break style depth c hc

/-- Items between brackets: blanks, the items with commas between them, and blanks. -/
theorem toList_bracket (style : TextStyle) (depth : ℕ) (opening closing : String)
    {items : List String} (hne : items ≠ []) :
    (bracket style depth opening closing items).toList =
      opening.toList ++ ((style.break (depth + 1)).toList ++
        ((',' :: afterComma style (depth + 1)).intercalate (items.map String.toList) ++
          ((style.break depth).toList ++ closing.toList))) := by
  have hcomma : (if style.indent.isSome then "," else ", ").toList ++
      (style.break (depth + 1)).toList = ',' :: afterComma style (depth + 1) := by
    rw [afterComma]
    split <;> rfl
  rw [bracket, if_neg (by simpa using hne)]
  simp only [String.toList_append, String.toList_intercalate, hcomma, List.append_assoc]

theorem Opens.intercalate {α : Type} {text : α → List Char} {x : α} (h : Opens (text x))
    (sep : List Char) (xs : List α) : Opens (sep.intercalate ((x :: xs).map text)) := by
  cases xs with
  | nil => exact (@List.intercalate_singleton _ sep (text x)).symm ▸ h
  | cons y ys =>
    rw [List.map_cons, List.map_cons, List.intercalate_cons_cons, List.append_assoc]
    exact h.append _

section Bracket

variable {α : Type} {style : TextStyle} {depth d : ℕ} {opening closing : String} {o close : Char}
  {read : ℕ → List α → List Char → Option (List α × List Char)} {text : α → List Char}
  {result : List α → Json} {xs : List α} {items : List String}

/-- **What stands between brackets is read as its items**, if the reader of values hands the
items over to a reader that reads each of them. -/
theorem readsAs_bracket (hopening : opening.toList = [o]) (hclosing : closing.toList = [close])
    (hitems : items.map String.toList = xs.map text)
    (hempty : ∀ n rest, readValue (d + 1) (n + 1) (o :: close :: rest) = some (result [], rest))
    (hfirst : ∀ n bs cs, Blanks bs → Opens cs →
      readValue (d + 1) (n + 1) (o :: (bs ++ cs)) =
        (read n [] cs).map fun r => (result r.1, r.2))
    (hopens : ∀ x ∈ xs, Opens (text x)) (hread : ∀ x ∈ xs, ReadsItem read close (text x) x) :
    ReadsAs (d + 1) (bracket style depth opening closing items).toList (result xs) := by
  intro n rest hn _
  cases xs with
  | nil =>
    obtain rfl : items = [] := List.map_eq_nil_iff.1 hitems
    have htext : (bracket style depth opening closing []).toList = [o, close] := by
      rw [bracket, if_pos List.isEmpty_nil, String.toList_append, hopening, hclosing]
      rfl
    rw [htext] at hn ⊢
    obtain ⟨n, rfl⟩ : ∃ k, n = k + 1 := ⟨n - 1, by simp only [List.length_cons] at hn; omega⟩
    exact hempty n rest
  | cons x xs =>
    have hne : items ≠ [] := by
      rintro rfl
      cases hitems
    rw [toList_bracket style depth opening closing hne, hitems, hopening, hclosing] at hn ⊢
    simp only [List.length_append, List.length_cons, List.length_nil] at hn
    obtain ⟨n, rfl⟩ : ∃ k, n = k + 1 := ⟨n - 1, by omega⟩
    have hall := read_items (blanks_afterComma style (depth + 1)) (blanks_break style depth)
      (List.cons_ne_nil x xs) hread n [] [] rest blanks_nil (by omega)
    have hstart :=
      (hopens x List.mem_cons_self).intercalate (',' :: afterComma style (depth + 1)) xs
    simp only [List.append_assoc, List.cons_append, List.nil_append] at hall ⊢
    rw [hfirst n _ _ (blanks_break style (depth + 1)) (hstart.append _), hall]
    rfl

end Bracket

/-! ## Arrays and objects -/

theorem renderElements_toList (style : TextStyle) (depth : ℕ) (xs : List Json) :
    (renderElements style depth xs).map String.toList =
      xs.map fun v => (renderAt style depth v).toList := by
  induction xs with
  | nil => rw [renderElements, List.map_nil, List.map_nil]
  | cons v xs ih => rw [renderElements, List.map_cons, List.map_cons, ih]

theorem renderMembers_toList (style : TextStyle) (depth : ℕ) (ms : List (String × Json)) :
    (renderMembers style depth ms).map String.toList =
      ms.map fun m =>
        (quote style m.1).toList ++ ':' :: ' ' :: (renderAt style depth m.2).toList := by
  induction ms with
  | nil => rw [renderMembers, List.map_nil, List.map_nil]
  | cons m ms ih =>
    rw [renderMembers, List.map_cons, List.map_cons, ih, String.toList_append,
      String.toList_append, List.append_assoc]
    rfl

/-- After an opening bracket the elements are read, if there are any. -/
theorem readValue_elements {d n : ℕ} {bs cs : List Char} (hbs : Blanks bs) (hcs : Opens cs) :
    readValue (d + 1) (n + 1) ('[' :: (bs ++ cs)) =
      (readElements d n [] cs).map fun r => (.arr r.1, r.2) := by
  rw [readValue, if_neg (Nat.succ_ne_zero d), skipBlanks_append hbs, hcs.skipBlanks]
  obtain ⟨c, rest, rfl, -, hc, -⟩ := hcs
  split
  next h => exact absurd (List.cons.inj h).1 hc
  · rfl

/-- After an opening brace the members are read, if there are any. -/
theorem readValue_members {d n : ℕ} {bs cs : List Char} (hbs : Blanks bs) (hcs : Opens cs) :
    readValue (d + 1) (n + 1) ('{' :: (bs ++ cs)) =
      (readMembers d n [] cs).map fun r => (ofMembers r.1, r.2) := by
  rw [readValue, if_neg (Nat.succ_ne_zero d), skipBlanks_append hbs, hcs.skipBlanks]
  obtain ⟨c, rest, rfl, -, -, hc⟩ := hcs
  split
  next h => exact absurd (List.cons.inj h).1 hc
  · rfl

/-- An array is read as its elements, each of whose texts is read as it. -/
theorem readsAs_arr {style : TextStyle} {depth d : ℕ} {xs : List Json}
    (h : ∀ x ∈ xs, ReadsAs d (renderAt style (depth + 1) x).toList x) :
    ReadsAs (d + 1) (renderAt style depth (.arr xs)).toList (.arr xs) := by
  rw [renderAt]
  exact readsAs_bracket rfl rfl (renderElements_toList style (depth + 1) xs) (fun _ _ => rfl)
    (fun _ _ _ => readValue_elements) (fun x hx => (h x hx).opens) fun x hx => (h x hx).element

/-- An object with distinct keys is read as its members. -/
theorem readsAs_obj {style : TextStyle} {depth d : ℕ} {ms : List (String × Json)}
    (hkeys : (ms.map (·.1)).Nodup)
    (h : ∀ m ∈ ms, ReadsAs d (renderAt style (depth + 1) m.2).toList m.2) :
    ReadsAs (d + 1) (renderAt style depth (.obj ms)).toList (.obj ms) := by
  rw [renderAt, ← ofMembers_of_nodup hkeys]
  refine readsAs_bracket rfl rfl (renderMembers_toList style (depth + 1) ms) (fun _ _ => rfl)
    (fun _ _ _ => readValue_members) (fun m _ => ?_) fun m hm => (h m hm).member style m.1
  rw [quote, String.toList_ofList]
  exact ⟨'"', _, rfl, rfl, by decide, by decide⟩

/-! ## Values -/

theorem afterWord?_append (word rest : List Char) : afterWord? word (word ++ rest) = some rest := by
  induction word with
  | nil => rfl
  | cons c word ih => rw [List.cons_append, afterWord?, if_pos rfl, ih]

/-- A value without parts is read in one step. -/
theorem ReadsAs.of_step {d : ℕ} {cs : List Char} {v : Json} (hne : cs ≠ [])
    (h : ∀ n rest, Delimited rest → readValue d (n + 1) (cs ++ rest) = some (v, rest)) :
    ReadsAs d cs v := by
  intro n rest hn hrest
  have hpos := List.length_pos_iff.2 hne
  obtain ⟨n, rfl⟩ : ∃ k, n = k + 1 := ⟨n - 1, by omega⟩
  exact h n rest hrest

/-- A word is read as the value that it stands for. -/
theorem readsAs_word {d : ℕ} {word : String} {v : Json} (hne : word.toList ≠ [])
    (h : ∀ n rest, readValue d (n + 1) (word.toList ++ rest) =
      (afterWord? word.toList (word.toList ++ rest)).map (v, ·)) : ReadsAs d word.toList v := by
  refine .of_step hne fun n rest _ => ?_
  rw [h, afterWord?_append]
  rfl

theorem readsAs_null {d : ℕ} {style : TextStyle} {depth : ℕ} :
    ReadsAs d (renderAt style depth .null).toList .null := by
  rw [renderAt]
  exact readsAs_word (by decide) fun _ _ => rfl

theorem readsAs_bool {d : ℕ} {style : TextStyle} {depth : ℕ} (b : Bool) :
    ReadsAs d (renderAt style depth (.bool b)).toList (.bool b) := by
  cases b with
  | true =>
    rw [renderAt]
    exact readsAs_word (by decide) fun _ _ => rfl
  | false =>
    rw [renderAt]
    exact readsAs_word (by decide) fun _ _ => rfl

theorem readsAs_str {d : ℕ} {style : TextStyle} {depth : ℕ} (s : String) :
    ReadsAs d (renderAt style depth (.str s)).toList (.str s) := by
  rw [renderAt, quote, String.toList_ofList]
  refine .of_step (List.cons_ne_nil _ _) fun n rest _ => ?_
  rw [List.cons_append, List.append_assoc, readValue]
  show (readString [] (_ ++ '"' :: rest)).map _ = _
  rw [readString_quote]
  rfl

/-- **The text of a value is read as the value wherever it stands.** -/
theorem readsAs_renderAt {style : TextStyle} {d : ℕ} {v : Json} (hv : Readable d v)
    (hfinite : ∀ x ∈ v.numbers, x.isFinite = true) (hback : ∀ x ∈ v.numbers, ReadsBack x)
    (depth : ℕ) : ReadsAs d (renderAt style depth v).toList v := by
  induction hv generalizing depth with
  | null => exact readsAs_null
  | bool b => exact readsAs_bool b
  | @int _ k digits =>
    rw [renderAt]
    refine .of_step ?_ fun n rest hrest => readValue_int digits hrest
    rw [toList_toString]
    exact List.append_ne_nil_of_right_ne_nil _ Nat.toDigits_ne_nil
  | num x =>
    have hx := hfinite x (by simp [numbers])
    rw [renderAt]
    refine .of_step ?_ fun n rest hrest => readValue_num hx (hback x (by simp [numbers])) hrest
    obtain ⟨negative, c, tail, htext, -⟩ := Decimal.exists_render_eq (.plain .tokens) hx
    rw [htext]
    exact List.append_ne_nil_of_right_ne_nil _ (List.cons_ne_nil _ _)
  | str s => exact readsAs_str s
  | arr _ ih =>
    refine readsAs_arr fun v hv => ih v hv (fun x hx => ?_) (fun x hx => ?_) (depth + 1)
    · exact hfinite x (mem_elementNumbers.2 ⟨v, hv, hx⟩)
    · exact hback x (mem_elementNumbers.2 ⟨v, hv, hx⟩)
  | obj keys _ ih =>
    refine readsAs_obj keys fun m hm => ih m hm (fun x hx => ?_) (fun x hx => ?_) (depth + 1)
    · exact hfinite x (mem_memberNumbers.2 ⟨m, hm, hx⟩)
    · exact hback x (mem_memberNumbers.2 ⟨m, hm, hx⟩)

/-- **The text of a value is read back as the value.** -/
theorem parse?_render {style : TextStyle} {v : Json} (hv : Readable depthLimit v)
    (hfinite : ∀ x ∈ v.numbers, x.isFinite = true) (hback : ∀ x ∈ v.numbers, ReadsBack x) :
    parse? (render style v) = some v := by
  have hreads := @readsAs_renderAt style _ v hv hfinite hback 0
  have hread := hreads (2 * (render style v).toList.length + 2) [] (by rw [render]; omega)
    delimited_nil
  rw [List.append_nil] at hread
  simp only [parse?, render, hreads.opens.skipBlanks] at hread ⊢
  rw [hread]
  rfl

end Housewright.Json
