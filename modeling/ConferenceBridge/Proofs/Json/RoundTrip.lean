import ConferenceBridge.Json.Printer
import ConferenceBridge.Json.Reader
import Mathlib.Data.List.Basic

/-! The text of a JSON value is read back as the value: whatever characters its strings have, however large its
    whole numbers are and however deep it is. Only an object that has a name twice, which no text can say, and
    numbers that are not whole are left out. -/

namespace ConferenceBridge

/-! ### Numerals -/

namespace Text

theorem digit?_of_isDigit {c : Char} (h : c.isDigit = true) : digit? c = some (c.toNat - '0'.toNat) := if_pos h

theorem numeralAfter?_of_isDigit {cs : List Char} (h : ∀ c ∈ cs, c.isDigit = true) (n : Nat) :
    numeralAfter? 10 n cs = some (Nat.ofDigitChars 10 cs n) := by
  induction cs generalizing n with
  | nil => rfl
  | cons c cs ih =>
    have hc := h c List.mem_cons_self
    have hlt : c.toNat - '0'.toNat < 10 := by
      have hle : c.toNat ≤ 57 := (Char.isDigit_iff_toNat.mp hc).2
      change c.toNat - 48 < 10
      omega
    rw [numeralAfter?, digit?_of_isDigit hc, Nat.ofDigitChars_cons]
    exact (if_pos hlt).trans (ih (fun d hd => h d (List.mem_cons_of_mem c hd)) _)

theorem isDigit_toDigits (n : Nat) : ∀ c ∈ Nat.toDigits 10 n, c.isDigit = true :=
  fun _ hc => Nat.isDigit_of_mem_toDigits (by decide) (by decide) hc

theorem numeral?_toDigits (n : Nat) : numeral? 10 (Nat.toDigits 10 n) = some n := by
  have hne : (Nat.toDigits 10 n).isEmpty = false := List.isEmpty_eq_false_iff.mpr Nat.toDigits_ne_nil
  rw [numeral?, hne, numeralAfter?_of_isDigit (isDigit_toDigits n), Nat.ofDigitChars_toDigits (by decide) (by decide)]
  rfl

/-- No zero stands before a numeral. -/
theorem head?_toDigits {n : Nat} (h : 0 < n) : (Nat.toDigits 10 n).head? ≠ some '0' := by
  induction n using Nat.strongRecOn with
  | ind n ih =>
    by_cases hn : n < 10
    · rw [Nat.toDigits_of_lt_base hn]
      have : ∀ m : Fin 10, 0 < m.val → m.val.digitChar ≠ '0' := by decide
      simpa using this ⟨n, hn⟩ h
    · rw [Nat.toDigits_of_base_le (by decide) (Nat.not_lt.mp hn), List.head?_append]
      rw [Option.or_of_isSome (by simp)]
      exact ih (n / 10) (Nat.div_lt_self h (by decide)) (Nat.div_pos (Nat.not_lt.mp hn) (by decide))

theorem length_toDigits_of_zero {n : Nat} (h : (Nat.toDigits 10 n).head? = some '0') :
    (Nat.toDigits 10 n).length = 1 := by
  cases n with
  | zero => rfl
  | succ n => exact absurd h (head?_toDigits n.succ_pos)

end Text

namespace Json

/-- A value that a text says: each object has a name once, and its numbers are whole ones. -/
inductive Plain : Json → Prop
  | null : Plain .null
  | bool (b : Bool) : Plain (.bool b)
  | int (n : Int) : Plain (.int n)
  | str (s : String) : Plain (.str s)
  | arr {items : List Json} (items_plain : ∀ j ∈ items, Plain j) : Plain (.arr items)
  | obj {fields : List (String × Json)} (distinct : (fields.map (·.1)).Nodup)
      (fields_plain : ∀ f ∈ fields, Plain f.2) : Plain (.obj fields)

namespace Reader

/-- What can come after a value inside another. -/
def Closing (rest : List Char) : Prop := ∀ c ∈ rest.head?, c = ',' ∨ c = ']' ∨ c = '\x7d'

theorem closing_nil : Closing [] := fun _ h => nomatch h

theorem closing_cons {c : Char} {rest : List Char} (h : c = ',' ∨ c = ']' ∨ c = '\x7d') : Closing (c :: rest) := by
  intro d hd
  cases Option.some.inj hd
  exact h

variable {rest : List Char}

/-! ### Numbers -/

theorem digits?_append {ds : List Char} (hne : ds ≠ []) (h : ∀ c ∈ ds, c.isDigit = true) (hrest : Closing rest) :
    digits? (ds ++ rest) = some (ds, rest) := by
  have stops : ∀ c ∈ rest.head?, c.isDigit = false := by
    intro c hc
    rcases hrest c hc with rfl | rfl | rfl <;> rfl
  have htake : rest.takeWhile Char.isDigit = [] := by
    cases rest with
    | nil => rfl
    | cons c rest => rw [List.takeWhile_cons, stops c rfl]; rfl
  have hdrop : rest.dropWhile Char.isDigit = rest := by
    cases rest with
    | nil => rfl
    | cons c rest => rw [List.dropWhile_cons, stops c rfl]; rfl
  unfold digits?
  rw [List.takeWhile_append_of_pos h, List.dropWhile_append_of_pos h, htake, hdrop, List.append_nil]
  cases ds with
  | nil => exact absurd rfl hne
  | cons d ds => rfl

theorem fraction?_of_closing (hrest : Closing rest) : fraction? rest = some ([], rest) := by
  cases rest with
  | nil => rfl
  | cons c rest => rcases hrest c rfl with rfl | rfl | rfl <;> rfl

theorem exponent?_of_closing (hrest : Closing rest) : exponent? rest = some ([], rest) := by
  cases rest with
  | nil => rfl
  | cons c rest => rcases hrest c rfl with rfl | rfl | rfl <;> rfl

/-- A whole number, with a minus or without. -/
theorem number?_toDigits (negative : Bool) {n : Nat} (h : negative = true → 0 < n) (hrest : Closing rest) :
    number? ((if negative then ['-'] else []) ++ (Nat.toDigits 10 n ++ rest)) =
      some (.int (if negative then -(Int.ofNat n) else Int.ofNat n), rest) := by
  have hdigits := digits?_append Nat.toDigits_ne_nil (Text.isDigit_toDigits n) hrest
  have hfraction := fraction?_of_closing hrest
  have hexponent := exponent?_of_closing hrest
  have hnumeral := Text.numeral?_toDigits n
  have hzero : (Nat.toDigits 10 n).head? = some '0' → (Nat.toDigits 10 n).length = 1 := Text.length_toDigits_of_zero
  cases negative with
  | true =>
    have hn : n ≠ 0 := Nat.pos_iff_ne_zero.mp (h rfl)
    simpa [number?, hdigits, hfraction, hexponent, hnumeral, hn] using hzero
  | false =>
    have unsigned : ∀ cs, Nat.toDigits 10 n ++ rest ≠ '-' :: cs := by
      intro cs he
      obtain ⟨d, ds, hds⟩ := List.exists_cons_of_ne_nil (Nat.toDigits_ne_nil (n := n) (b := 10))
      have hd := Text.isDigit_toDigits n d (hds ▸ List.mem_cons_self)
      rw [hds] at he
      obtain ⟨rfl, -⟩ := List.cons.inj he
      exact absurd hd (by decide)
    simpa [number?, unsigned, hdigits, hfraction, hexponent, hnumeral] using hzero

theorem toList_toString_ofNat (m : Nat) : (toString (Int.ofNat m)).toList = Nat.toDigits 10 m := by
  rw [Int.toString_eq_repr, Int.repr, Nat.repr_eq_ofList_toDigits, String.toList_ofList]

theorem toList_toString_negSucc (m : Nat) : (toString (Int.negSucc m)).toList = '-' :: Nat.toDigits 10 (m + 1) := by
  simp [Int.toString_eq_repr, Int.repr, Nat.repr_eq_ofList_toDigits]

theorem number?_toString (n : Int) (hrest : Closing rest) :
    number? ((toString n).toList ++ rest) = some (.int n, rest) := by
  cases n with
  | ofNat m =>
    rw [toList_toString_ofNat]
    exact number?_toDigits false (by simp) hrest
  | negSucc m =>
    rw [toList_toString_negSucc]
    exact number?_toDigits true (fun _ => m.succ_pos) hrest

/-- The text of a whole number begins with a digit or a minus. -/
theorem toList_toString (n : Int) : ∃ c cs, (toString n).toList = c :: cs ∧ (c.isDigit = true ∨ c = '-') := by
  cases n with
  | ofNat m =>
    obtain ⟨c, cs, hcs⟩ := List.exists_cons_of_ne_nil (Nat.toDigits_ne_nil (n := m) (b := 10))
    exact ⟨c, cs, (toList_toString_ofNat m).trans hcs, Or.inl (Text.isDigit_toDigits m c (hcs ▸ List.mem_cons_self))⟩
  | negSucc m => exact ⟨'-', _, toList_toString_negSucc m, Or.inr rfl⟩

/-! ### Strings -/

theorem unit?_hex {n : Nat} (h : n < 0x20) : unit? (Text.hex 4 n ++ rest) = some (n, rest) := by
  have hhex : ∀ m : Fin 0x20, (Text.hex 4 m).length = 4 ∧ Text.numeral? 16 (Text.hex 4 m) = some m.val := by decide
  obtain ⟨hlength, hnumeral⟩ : (Text.hex 4 n).length = 4 ∧ Text.numeral? 16 (Text.hex 4 n) = some n := hhex ⟨n, h⟩
  have hlong : ¬(Text.hex 4 n ++ rest).length < 4 := by
    rw [List.length_append, hlength]
    omega
  rw [unit?, if_neg hlong, List.take_left' hlength, List.drop_left' hlength, hnumeral]
  rfl

theorem codePoint?_hex {c : Char} (h : c.toNat < 0x20) : codePoint? (Text.hex 4 c.toNat ++ rest) = some (c, rest) := by
  have hlow : c.toNat < 0xD800 ∨ 0xDFFF < c.toNat := Or.inl (by omega)
  simp [codePoint?, unit?_hex h, hlow]

/-- One character that stands between quotes is read back. -/
theorem string?_escape (c : Char) (fuel : Nat) (taken cs : List Char) :
    string? (fuel + 1) taken (escape c ++ cs) = string? fuel (c :: taken) cs := by
  unfold escape
  split
  · subst c
    rfl
  · split
    · subst c
      rfl
    · split
      · rename_i hc
        simp [string?, codePoint?_hex hc]
      · rename_i hquote hback hc
        simp [string?, hback, hc]

theorem length_escape_pos (c : Char) : 0 < (escape c).length := by
  unfold escape
  repeat' split
  all_goals exact Nat.succ_pos _

theorem string?_flatMap_escape {cs taken : List Char} {fuel : Nat} (h : (cs.flatMap escape).length < fuel) :
    string? fuel taken (cs.flatMap escape ++ '"' :: rest) = some (String.ofList (taken.reverse ++ cs), rest) := by
  induction cs generalizing taken fuel with
  | nil =>
    obtain ⟨fuel, rfl⟩ := Nat.exists_eq_add_one.mpr (Nat.zero_lt_of_lt h)
    simp [string?]
  | cons c cs ih =>
    obtain ⟨fuel, rfl⟩ := Nat.exists_eq_add_one.mpr (Nat.zero_lt_of_lt h)
    have hc := length_escape_pos c
    have hfuel : (cs.flatMap escape).length < fuel := by
      rw [List.flatMap_cons, List.length_append] at h
      omega
    rw [List.flatMap_cons, List.append_assoc, string?_escape, ih hfuel, List.reverse_cons, List.append_assoc]
    rfl

/-- A string stands between quotes with each of its characters as it stands there. -/
theorem toList_quote (s : String) : (quote s).toList = '"' :: (s.toList.flatMap escape ++ ['"']) := by
  unfold quote
  split
  · simp
  · rename_i h
    have plain : ∀ c ∈ s.toList, escape c = [c] := by
      intro c hc
      have hany : (s.toList.any fun c => c = '"' || c = '\\' || c.toNat < 0x20) = false := by
        rw [← String.contains_bool_eq]
        exact Bool.eq_false_iff.mpr h
      have hplain := List.any_eq_false.mp hany c hc
      simp only [Bool.or_eq_true, decide_eq_true_eq, not_or] at hplain
      rw [escape, if_neg hplain.1.1, if_neg hplain.1.2, if_neg hplain.2]
    have same : s.toList.flatMap escape = s.toList := (List.flatMap_congr plain).trans (List.flatMap_singleton' _)
    simp [same]

theorem string?_quote (s : String) :
    string? ((s.toList.flatMap escape ++ '"' :: rest).length + 1) [] (s.toList.flatMap escape ++ '"' :: rest) =
      some (s, rest) := by
  rw [string?_flatMap_escape (by simp only [List.length_append]; omega)]
  simp

/-! ### Values -/

section Values
variable {fuel : Nat} {c : Char} {cs : List Char}

theorem skipBlanks_cons (h : isBlank c = false) : skipBlanks (c :: cs) = c :: cs := by
  rw [skipBlanks, List.dropWhile_cons, h]
  rfl

theorem value?_string : value? (fuel + 1) ('"' :: cs) =
    (string? (cs.length + 1) [] cs).map fun r => (.str r.1, r.2) := by
  rw [value?]
  rfl

theorem value?_array (blank : isBlank c = false) (more : c ≠ ']') : value? (fuel + 1) ('[' :: c :: cs) =
    (items? fuel [] (c :: cs)).map fun r => (.arr r.1, r.2) := by
  rw [value?, skipBlanks_cons (by decide)]
  simp only [skipBlanks_cons blank]
  split
  · rename_i he
    exact absurd (List.cons.inj he).1 more
  · rfl

theorem value?_object : value? (fuel + 1) ('\x7b' :: '"' :: cs) =
    (fields? fuel [] ('"' :: cs)).map fun r => (.obj r.1, r.2) := by
  rw [value?]
  rfl

theorem not_isBlank_of_number (h : c.isDigit = true ∨ c = '-') : isBlank c = false := by
  rw [Bool.eq_false_iff]
  intro hblank
  simp only [isBlank, Bool.or_eq_true, beq_iff_eq] at hblank
  rcases hblank with ((rfl | rfl) | rfl) | rfl <;> exact absurd h (by decide)

theorem value?_number (h : c.isDigit = true ∨ c = '-') : value? (fuel + 1) (c :: cs) = number? (c :: cs) := by
  rw [value?, skipBlanks_cons (not_isBlank_of_number h)]
  split <;> simp_all

theorem toList_text_arr (items : List Json) :
    (text (.arr items)).toList = '[' :: ((itemTexts items).toList ++ [']']) := by
  simp [text]

theorem toList_text_obj (fields : List (String × Json)) :
    (text (.obj fields)).toList = '\x7b' :: ((fieldTexts fields).toList ++ ['\x7d']) := by
  simp [text]

theorem toList_itemTexts_cons (item next : Json) (items : List Json) :
    (itemTexts (item :: next :: items)).toList = item.text.toList ++ ',' :: (itemTexts (next :: items)).toList := by
  simp [itemTexts]

/-- The text of a field. -/
def fieldText (f : String × Json) : List Char := (quote f.1).toList ++ ':' :: f.2.text.toList

theorem toList_fieldTexts_one (f : String × Json) : (fieldTexts [f]).toList = fieldText f := by
  simp [fieldTexts, fieldText]

theorem toList_fieldTexts_cons (f next : String × Json) (fields : List (String × Json)) :
    (fieldTexts (f :: next :: fields)).toList = fieldText f ++ ',' :: (fieldTexts (next :: fields)).toList := by
  simp [fieldTexts, fieldText]

/-- A text begins with a character that is not blank and does not end an array. -/
theorem head_text {j : Json} (h : Plain j) : ∃ c cs, j.text.toList = c :: cs ∧ isBlank c = false ∧ c ≠ ']' := by
  cases h with
  | null => exact ⟨_, _, rfl, rfl, by decide⟩
  | bool b => cases b <;> exact ⟨_, _, rfl, rfl, by decide⟩
  | int n =>
    obtain ⟨c, cs, htext, hc⟩ := toList_toString n
    refine ⟨c, cs, htext, not_isBlank_of_number hc, ?_⟩
    rintro rfl
    exact absurd hc (by decide)
  | str s => exact ⟨'"', _, toList_quote s, rfl, by decide⟩
  | arr => exact ⟨'[', _, toList_text_arr _, rfl, by decide⟩
  | obj => exact ⟨'\x7b', _, toList_text_obj _, rfl, by decide⟩

theorem head_itemTexts {item : Json} (h : Plain item) (items : List Json) :
    ∃ c cs, (itemTexts (item :: items)).toList = c :: cs ∧ isBlank c = false ∧ c ≠ ']' := by
  obtain ⟨c, cs, htext, hc⟩ := head_text h
  cases items with
  | nil => exact ⟨c, cs, htext, hc⟩
  | cons next items =>
    rw [toList_itemTexts_cons, htext]
    exact ⟨c, _, rfl, hc⟩

theorem head_fieldTexts (f : String × Json) (fields : List (String × Json)) :
    ∃ cs, (fieldTexts (f :: fields)).toList = '"' :: cs := by
  have htext : ∃ cs, fieldText f = '"' :: cs := ⟨_, by rw [fieldText, toList_quote, List.cons_append]⟩
  obtain ⟨cs, hcs⟩ := htext
  cases fields with
  | nil => exact ⟨cs, (toList_fieldTexts_one f).trans hcs⟩
  | cons next fields =>
    rw [toList_fieldTexts_cons, hcs]
    exact ⟨_, rfl⟩

/-- The value is read from its text, whatever closes it and with any fuel that is enough for the text. -/
def Reads (j : Json) : Prop :=
  ∀ fuel rest, j.text.toList.length < fuel → Closing rest → value? fuel (j.text.toList ++ rest) = some (j, rest)

theorem items?_itemTexts {items : List Json} (reads : ∀ j ∈ items, Reads j) (hne : items ≠ []) {before : List Json}
    (h : (itemTexts items).toList.length + 1 < fuel) :
    items? fuel before ((itemTexts items).toList ++ ']' :: rest) = some (before.reverse ++ items, rest) := by
  induction items generalizing before fuel with
  | nil => exact absurd rfl hne
  | cons item items ih =>
    obtain ⟨fuel, rfl⟩ := Nat.exists_eq_add_one.mpr (Nat.zero_lt_of_lt h)
    have hitem := reads item List.mem_cons_self
    cases items with
    | nil =>
      rw [itemTexts] at h ⊢
      rw [items?, hitem fuel _ (by omega) (closing_cons (by simp))]
      simp [skipBlanks_cons (c := ']') (by decide)]
    | cons next items =>
      rw [toList_itemTexts_cons, List.length_append, List.length_cons] at h
      have hrest : items? fuel (item :: before) ((itemTexts (next :: items)).toList ++ ']' :: rest) =
          some ((item :: before).reverse ++ next :: items, rest) :=
        ih (fun j hj => reads j (List.mem_cons_of_mem _ hj)) (List.cons_ne_nil _ _) (by omega)
      rw [toList_itemTexts_cons, List.append_assoc, List.cons_append, items?,
        hitem fuel _ (by omega) (closing_cons (by simp))]
      simp only [skipBlanks_cons (c := ',') (by decide)]
      rw [hrest]
      simp

theorem setField_of_new {fields : List (String × Json)} {name : String} {value : Json}
    (h : name ∉ fields.map (·.1)) : setField fields name value = fields ++ [(name, value)] := by
  have hany : fields.any (·.1 == name) = false := by
    rw [List.any_eq_false]
    intro f hf he
    exact h (List.mem_map.mpr ⟨f, hf, beq_iff_eq.mp he⟩)
  rw [setField, hany]
  rfl

/-- A field is read with the comma that follows it, or with the end of the object. -/
theorem fields?_fieldText {f : String × Json} (hf : Reads f.2) {before : List (String × Json)}
    (hc : c = ',' ∨ c = '\x7d') (h : (fieldText f).length ≤ fuel) :
    fields? (fuel + 1) before (fieldText f ++ c :: rest) =
      if c = ',' then fields? fuel (setField before f.1 f.2) rest else some (setField before f.1 f.2, rest) := by
  have hquote := toList_quote f.1
  rw [fieldText, List.length_append, hquote] at h
  simp only [List.length_cons, List.length_append] at h
  have hvalue := hf fuel (c :: rest) (by omega) (closing_cons (hc.imp id Or.inr))
  have blank : isBlank c = false := by rcases hc with rfl | rfl <;> rfl
  rw [fieldText, hquote, fields?]
  simp only [List.cons_append, List.append_assoc, List.nil_append]
  simp only [skipBlanks_cons (c := '"') (by decide), string?_quote f.1]
  simp only [skipBlanks_cons (c := ':') (by decide), hvalue, skipBlanks_cons blank]
  rcases hc with rfl | rfl <;> simp

theorem fields?_fieldTexts {fields : List (String × Json)} (reads : ∀ f ∈ fields, Reads f.2) (hne : fields ≠ [])
    {before : List (String × Json)} (distinct : ((before ++ fields).map (·.1)).Nodup)
    (h : (fieldTexts fields).toList.length + 1 < fuel) :
    fields? fuel before ((fieldTexts fields).toList ++ '\x7d' :: rest) = some (before ++ fields, rest) := by
  induction fields generalizing before fuel with
  | nil => exact absurd rfl hne
  | cons f fields ih =>
    obtain ⟨fuel, rfl⟩ := Nat.exists_eq_add_one.mpr (Nat.zero_lt_of_lt h)
    have hf := reads f List.mem_cons_self
    have new : f.1 ∉ before.map (·.1) := by
      rw [List.map_append, List.nodup_append] at distinct
      exact fun hm => distinct.2.2 _ hm _ (List.mem_cons_self) rfl
    cases fields with
    | nil =>
      rw [toList_fieldTexts_one] at h ⊢
      rw [fields?_fieldText hf (Or.inr rfl) (by omega), setField_of_new new]
      rfl
    | cons next fields =>
      rw [toList_fieldTexts_cons, List.length_append, List.length_cons] at h
      have hdistinct : ((before ++ [f] ++ next :: fields).map (·.1)).Nodup := by simpa using distinct
      have hrest : fields? fuel (before ++ [f]) ((fieldTexts (next :: fields)).toList ++ '\x7d' :: rest) =
          some (before ++ [f] ++ next :: fields, rest) :=
        ih (fun g hg => reads g (List.mem_cons_of_mem _ hg)) (List.cons_ne_nil _ _) hdistinct (by omega)
      rw [toList_fieldTexts_cons, List.append_assoc, List.cons_append,
        fields?_fieldText hf (Or.inl rfl) (by omega), if_pos rfl, setField_of_new new]
      exact hrest.trans (by simp)

/-! Each kind of value is read from its text. -/

theorem reads_int (n : Int) : Reads (.int n) := by
  intro fuel rest hfuel hrest
  obtain ⟨fuel, rfl⟩ := Nat.exists_eq_add_one.mpr (Nat.zero_lt_of_lt hfuel)
  obtain ⟨c, cs, htext, hc⟩ := toList_toString n
  have hnumber := number?_toString n hrest
  rw [htext] at hnumber
  rw [text, htext, List.cons_append, value?_number hc]
  exact hnumber

theorem reads_str (s : String) : Reads (.str s) := by
  intro fuel rest hfuel _
  obtain ⟨fuel, rfl⟩ := Nat.exists_eq_add_one.mpr (Nat.zero_lt_of_lt hfuel)
  rw [text, toList_quote, List.cons_append, List.append_assoc, List.singleton_append, value?_string, string?_quote]
  rfl

theorem reads_arr {items : List Json} (items_plain : ∀ j ∈ items, Plain j) (reads : ∀ j ∈ items, Reads j) :
    Reads (.arr items) := by
  intro fuel rest hfuel _
  obtain ⟨fuel, rfl⟩ := Nat.exists_eq_add_one.mpr (Nat.zero_lt_of_lt hfuel)
  rw [toList_text_arr, List.length_cons, List.length_append, List.length_singleton] at hfuel
  rw [toList_text_arr, List.cons_append, List.append_assoc, List.singleton_append]
  cases items with
  | nil => rfl
  | cons item items =>
    have hitems : items? fuel [] ((itemTexts (item :: items)).toList ++ ']' :: rest) =
        some ([] ++ item :: items, rest) :=
      items?_itemTexts reads (List.cons_ne_nil _ _) (Nat.lt_of_succ_lt_succ hfuel)
    obtain ⟨c, cs, htext, blank, more⟩ := head_itemTexts (items_plain item List.mem_cons_self) items
    rw [htext, List.cons_append] at hitems ⊢
    rw [value?_array blank more, hitems]
    rfl

theorem reads_obj {fields : List (String × Json)} (distinct : (fields.map (·.1)).Nodup)
    (reads : ∀ f ∈ fields, Reads f.2) : Reads (.obj fields) := by
  intro fuel rest hfuel _
  obtain ⟨fuel, rfl⟩ := Nat.exists_eq_add_one.mpr (Nat.zero_lt_of_lt hfuel)
  rw [toList_text_obj, List.length_cons, List.length_append, List.length_singleton] at hfuel
  rw [toList_text_obj, List.cons_append, List.append_assoc, List.singleton_append]
  cases fields with
  | nil => rfl
  | cons f fields =>
    have hfields : fields? fuel [] ((fieldTexts (f :: fields)).toList ++ '\x7d' :: rest) =
        some ([] ++ f :: fields, rest) :=
      fields?_fieldTexts reads (List.cons_ne_nil _ _) distinct (Nat.lt_of_succ_lt_succ hfuel)
    obtain ⟨cs, htext⟩ := head_fieldTexts f fields
    rw [htext, List.cons_append] at hfields ⊢
    rw [value?_object, hfields]
    rfl

theorem reads_word {j : Json} (h : j = .null ∨ ∃ b, j = .bool b) : Reads j := by
  intro fuel rest hfuel _
  obtain ⟨fuel, rfl⟩ := Nat.exists_eq_add_one.mpr (Nat.zero_lt_of_lt hfuel)
  rcases h with rfl | ⟨b, rfl⟩
  · rfl
  · cases b <;> rfl

theorem reads_of_plain {j : Json} (h : Plain j) : Reads j := by
  induction h with
  | null => exact reads_word (Or.inl rfl)
  | bool b => exact reads_word (Or.inr ⟨b, rfl⟩)
  | int n => exact reads_int n
  | str s => exact reads_str s
  | arr items_plain ih => exact reads_arr items_plain ih
  | obj distinct _ ih => exact reads_obj distinct ih

end Values
end Reader

/-- The text of a value is read back as the value. -/
theorem ofText?_text {j : Json} (h : Plain j) : ofText? j.text = some j := by
  have hread := Reader.reads_of_plain h (j.text.toList.length + 1) [] (Nat.lt_succ_self _) Reader.closing_nil
  rw [List.append_nil] at hread
  rw [ofText?]
  simp only [hread]
  rfl

end Json
end ConferenceBridge
