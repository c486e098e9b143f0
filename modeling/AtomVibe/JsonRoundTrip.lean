import Mathlib.Data.List.DropRight
import AtomVibe.Json

namespace AtomVibe.JsonRoundTrip

open Text Json JsonText Parser

def Delimited (tail : List Char) : Prop :=
  tail.head? = none ∨ tail.head? = some ',' ∨ tail.head? = some ']' ∨ tail.head? = some '\x7d'

def Reads (levels : ℕ) (text : List Char) (value : JsonValue) : Prop :=
  ∀ n tail, Delimited tail → parseValue levels ⟨n, text ++ tail⟩ = .ok (value, ⟨n, tail⟩)

@[simp]
theorem peekChar_cons (n : ℕ) (c : Char) (cs : List Char) :
    peekChar ⟨n, c :: cs⟩ = some c := rfl

@[simp]
theorem advance_cons (n : ℕ) (c : Char) (cs : List Char) : advance ⟨n, c :: cs⟩ = ⟨n, cs⟩ := rfl

theorem consumeChar_cons (n : ℕ) (e c : Char) (cs : List Char) :
    consumeChar e ⟨n, c :: cs⟩ = if c = e then some ⟨n, cs⟩ else none := by
  simp [consumeChar]

theorem expectChar_cons (n : ℕ) (c : Char) (cs : List Char) :
    expectChar c ⟨n, c :: cs⟩ = .ok ⟨n, cs⟩ := by
  simp [expectChar, consumeChar_cons]

def Solid (c : Char) : Prop := c ≠ ' ' ∧ c ≠ '\t' ∧ c ≠ '\n' ∧ c ≠ '\r'

instance (c : Char) : Decidable (Solid c) :=
  inferInstanceAs (Decidable (c ≠ ' ' ∧ c ≠ '\t' ∧ c ≠ '\n' ∧ c ≠ '\r'))

theorem skipWhitespace_cons {c : Char} (h : Solid c) (n : ℕ) (cs : List Char) :
    skipWhitespace ⟨n, c :: cs⟩ = ⟨n, c :: cs⟩ := by
  obtain ⟨h1, h2, h3, h4⟩ := h
  simp [skipWhitespace, h1, h2, h3, h4]

theorem parseStringLoop_escapeChar (fuel n : ℕ) (output : List Char) (c : Char) (cs : List Char) :
    parseStringLoop (fuel + 1) output ⟨n, escapeChar c ++ cs⟩ =
      parseStringLoop fuel (sanitizeChar c :: output) ⟨n, cs⟩ := by
  by_cases hl : lossy c = true
  · rw [escapeChar_of_lossy hl, sanitizeChar, if_pos hl]
    rfl
  rw [sanitizeChar, if_neg hl]
  unfold escapeChar
  split_ifs with hq hb hn hr ht hc
  · subst hq; rfl
  · subst hb; rfl
  · subst hn; rfl
  · subst hr; rfl
  · subst ht; rfl
  · exact absurd (show lossy c = true by simp [lossy, hc, hn, hr, ht]) hl
  · simp [parseStringLoop, hq, hb, hc]

theorem parseStringLoop_escape (n : ℕ) (cs tail : List Char) (fuel : ℕ) (output : List Char)
    (hfuel : cs.length < fuel) :
    parseStringLoop fuel output ⟨n, cs.flatMap escapeChar ++ '"' :: tail⟩ =
      .ok (String.ofList (output.reverse ++ cs.map sanitizeChar), ⟨n, tail⟩) := by
  induction cs generalizing fuel output with
  | nil =>
    obtain ⟨fuel, rfl⟩ : ∃ m, fuel = m + 1 := ⟨fuel - 1, by simp at hfuel; omega⟩
    simp [parseStringLoop]
  | cons c cs ih =>
    obtain ⟨fuel, rfl⟩ : ∃ m, fuel = m + 1 := ⟨fuel - 1, by simp at hfuel; omega⟩
    rw [List.flatMap_cons, List.append_assoc, parseStringLoop_escapeChar,
      ih fuel _ (by simpa using hfuel)]
    simp

theorem length_le_escape (cs : List Char) : cs.length ≤ (cs.flatMap escapeChar).length := by
  induction cs with
  | nil => simp
  | cons c cs ih =>
    have h1 : 1 ≤ (escapeChar c).length := by
      unfold escapeChar
      split_ifs <;> simp
    simp only [List.flatMap_cons, List.length_append, List.length_cons]
    omega

theorem toList_quote (value : String) :
    (quote value).toList = '"' :: (value.toList.flatMap escapeChar ++ ['"']) := by
  simp [quote, escape]

theorem parseString_quote (value : String) (n : ℕ) (tail : List Char) :
    parseString ⟨n, (quote value).toList ++ tail⟩ = .ok (sanitize value, ⟨n, tail⟩) := by
  have hlen := length_le_escape value.toList
  simp only [toList_quote, List.cons_append, List.append_assoc, parseString, expectChar_cons,
    bind, Except.bind, List.nil_append]
  rw [parseStringLoop_escape]
  · simp [sanitize]
  · simp only [List.length_append, List.length_cons]
    omega

theorem reads_string (value : String) (k : ℕ) :
    Reads (k + 1) (quote value).toList (.string (sanitize value)) := by
  intro n tail _
  have hs := parseString_quote value n tail
  rw [toList_quote, List.cons_append] at hs ⊢
  simp only [parseValue, skipWhitespace_cons (show Solid '"' by decide), peekChar_cons, hs]
  rfl

theorem reads_literal (k : ℕ) (b : Bool) : Reads (k + 1) (boolText b).toList (.bool b) := by
  intro n tail _
  cases b <;> rfl

theorem reads_null (k : ℕ) : Reads (k + 1) "null".toList .null := by
  intro n tail _
  rfl

theorem dropWhile_digits {ds tail : List Char} (hd : ∀ c ∈ ds, isAsciiDigit c = true)
    (ht : Delimited tail) : (ds ++ tail).dropWhile isAsciiDigit = tail := by
  rw [List.dropWhile_append_of_pos hd]
  cases tail with
  | nil => rfl
  | cons c tail =>
    have hc : isAsciiDigit c = false := by
      rcases ht with h | h | h | h <;> simp only [List.head?_cons, Option.some.injEq,
        reduceCtorEq] at h <;> subst h <;> decide
    simp [hc]

theorem toDigits_head_zero {n : ℕ} {ds : List Char} (h : Nat.toDigits 10 n = '0' :: ds) :
    n = 0 := by
  induction n using Nat.strong_induction_on generalizing ds with
  | _ n ih =>
    rcases Nat.lt_or_ge n 10 with hn | hn
    · rw [Nat.toDigits_of_lt_base hn] at h
      simp only [List.cons.injEq] at h
      have h0 : ∀ m < 10, Nat.digitChar m = '0' → m = 0 := by decide
      exact h0 n hn h.1
    · rw [Nat.toDigits_of_base_le (by decide) hn] at h
      obtain ⟨c, cs, hcs⟩ := List.exists_cons_of_ne_nil
        (Nat.toDigits_ne_nil (n := n / 10) (b := 10))
      rw [hcs] at h
      simp only [List.cons_append, List.cons.injEq] at h
      rw [h.1] at hcs
      have := ih (n / 10) (by omega) hcs
      omega

theorem parseInteger_digits (m n : ℕ) {tail : List Char} (ht : Delimited tail) :
    parseInteger ⟨n, Nat.toDigits 10 m ++ tail⟩ = .ok ⟨n, tail⟩ := by
  obtain ⟨c, cs, hcs⟩ := List.exists_cons_of_ne_nil (Nat.toDigits_ne_nil (n := m) (b := 10))
  have hd : ∀ x ∈ Nat.toDigits 10 m, isAsciiDigit x = true := fun x hx => toDigits_isAsciiDigit hx
  have hdrop := dropWhile_digits hd ht
  have hc : isAsciiDigit c = true := hd c (by rw [hcs]; exact List.mem_cons_self)
  rw [hcs, List.cons_append] at hdrop ⊢
  by_cases h0 : c = '0'
  · subst h0
    have hm := toDigits_head_zero hcs
    subst hm
    obtain rfl : cs = [] := by simpa [Nat.toDigits_zero] using hcs.symm
    have hnd : atDigit ⟨n, tail⟩ = false := by
      cases tail with
      | nil => rfl
      | cons c tail =>
        rcases ht with h | h | h | h <;> simp only [List.head?_cons, Option.some.injEq,
          reduceCtorEq] at h <;> subst h <;> rfl
    simp [parseInteger, hnd]
  · have ha : atDigit ⟨n, c :: (cs ++ tail)⟩ = true := by simp [atDigit, hc]
    unfold parseInteger
    split
    · rename_i h
      exact absurd (by simpa using h) h0
    · rw [if_pos ha, consumeDigits, hdrop]

theorem parseNumber_digits (m n : ℕ) {tail : List Char} (ht : Delimited tail) :
    parseNumber ⟨n, m.repr.toList ++ tail⟩ = .ok (m.repr, ⟨n, tail⟩) := by
  rw [Nat.toList_repr]
  have hminus : (consumeChar '-' ⟨n, Nat.toDigits 10 m ++ tail⟩).getD
      ⟨n, Nat.toDigits 10 m ++ tail⟩ = ⟨n, Nat.toDigits 10 m ++ tail⟩ := by
    obtain ⟨c, cs, hcs⟩ := List.exists_cons_of_ne_nil (Nat.toDigits_ne_nil (n := m) (b := 10))
    have hc : isAsciiDigit c = true :=
      toDigits_isAsciiDigit (n := m) (by rw [hcs]; exact List.mem_cons_self)
    have hne : c ≠ '-' := by rintro rfl; exact absurd hc (by decide)
    rw [hcs, List.cons_append, consumeChar_cons, if_neg hne]
    rfl
  have hfraction : parseFraction ⟨n, tail⟩ = .ok ⟨n, tail⟩ := by
    cases tail with
    | nil => rfl
    | cons c tail =>
      rcases ht with h | h | h | h <;> simp only [List.head?_cons, Option.some.injEq,
        reduceCtorEq] at h <;> subst h <;> rfl
  have hexponent : parseExponent ⟨n, tail⟩ = .ok ⟨n, tail⟩ := by
    cases tail with
    | nil => rfl
    | cons c tail =>
      rcases ht with h | h | h | h <;> simp only [List.head?_cons, Option.some.injEq,
        reduceCtorEq] at h <;> subst h <;> rfl
  simp only [parseNumber, hminus, parseInteger_digits m n ht, hfraction, hexponent, bind,
    Except.bind, List.length_append, Nat.add_sub_cancel, List.take_left]
  rw [Nat.repr_eq_ofList_toDigits]

theorem solid_of_digit {c : Char} (h : isAsciiDigit c = true) : Solid c := by
  refine ⟨?_, ?_, ?_, ?_⟩ <;> (rintro rfl; exact absurd h (by decide))

theorem reads_number (m k : ℕ) : Reads (k + 1) m.repr.toList (.number m.repr) := by
  intro n tail ht
  have hn := parseNumber_digits m n ht
  obtain ⟨c, cs, hcs⟩ := List.exists_cons_of_ne_nil (Nat.toDigits_ne_nil (n := m) (b := 10))
  have hc : isAsciiDigit c = true :=
    toDigits_isAsciiDigit (n := m) (by rw [hcs]; exact List.mem_cons_self)
  rw [Nat.toList_repr, hcs, List.cons_append] at hn ⊢
  have hne : ∀ d, isAsciiDigit d = false → c ≠ d := by
    rintro d hd rfl
    rw [hc] at hd
    exact absurd hd (by decide)
  simp only [parseValue, skipWhitespace_cons (solid_of_digit hc), peekChar_cons]
  simp [hne '\x7b' (by decide), hne '[' (by decide), hne '"' (by decide), hne 't' (by decide),
    hne 'f' (by decide), hne 'n' (by decide), hc, hn, bind, Except.bind]

theorem toList_commaJoin_cons (x y : String) (xs : List String) :
    (commaJoin (x :: y :: xs)).toList = x.toList ++ ',' :: (commaJoin (y :: xs)).toList := by
  simp [commaJoin]

theorem delimited_cons {c : Char} (h : c = ',' ∨ c = ']' ∨ c = '\x7d') (tail : List Char) :
    Delimited (c :: tail) := by
  rcases h with rfl | rfl | rfl <;> simp [Delimited]

section Nested

variable {α : Type} {k : ℕ} {text : α → String} {value : α → JsonValue}

theorem parseElements_commaJoin (xs : List α) (hne : xs ≠ [])
    (hx : ∀ x ∈ xs, Reads k (text x).toList (value x)) (fuel n : ℕ) (values : List JsonValue)
    (tail : List Char) (hfuel : xs.length ≤ fuel) :
    parseElements (parseValue k) fuel values
      ⟨n, (commaJoin (xs.map text)).toList ++ ']' :: tail⟩ =
      .ok (.array (values ++ xs.map value), ⟨n, tail⟩) := by
  induction xs generalizing fuel values with
  | nil => exact absurd rfl hne
  | cons x xs ih =>
    obtain ⟨fuel, rfl⟩ : ∃ m, fuel = m + 1 := ⟨fuel - 1, by simp at hfuel; omega⟩
    have hread := hx x List.mem_cons_self
    cases xs with
    | nil =>
      simp only [List.map_cons, List.map_nil, commaJoin, parseElements,
        hread n _ (delimited_cons (.inr (.inl rfl)) tail), bind, Except.bind,
        skipWhitespace_cons (show Solid ']' by decide), consumeChar_cons, ↓reduceIte]
    | cons y xs =>
      have hrest := ih (by simp) (fun z hz => hx z (List.mem_cons_of_mem _ hz)) fuel
        (values ++ [value x]) (by simpa using hfuel)
      simp only [List.map_cons] at hrest ⊢
      simp only [toList_commaJoin_cons, List.append_assoc, List.cons_append, parseElements,
        hread n _ (delimited_cons (.inl rfl) _), bind, Except.bind,
        skipWhitespace_cons (show Solid ',' by decide), consumeChar_cons, expectChar_cons,
        show (',' : Char) ≠ ']' by decide, if_false, hrest]
      simp

end Nested

theorem length_le_commaJoin (values : List String) (h : ∀ v ∈ values, v.toList ≠ []) :
    values.length ≤ (commaJoin values).toList.length := by
  induction values with
  | nil => simp
  | cons v values ih =>
    have hv : 0 < v.toList.length := List.length_pos_iff.mpr (h v List.mem_cons_self)
    have hrest := ih fun x hx => h x (List.mem_cons_of_mem _ hx)
    cases values with
    | nil => exact hv
    | cons w values =>
      rw [toList_commaJoin_cons]
      simp only [List.length_append, List.length_cons] at hrest ⊢
      omega

def Opens (text : List Char) : Prop := ∃ c cs, text = c :: cs ∧ Solid c ∧ c ≠ ']'

theorem opens_quote (value : String) : Opens (quote value).toList :=
  ⟨'"', _, toList_quote value, by decide, by decide⟩

theorem opens_repr (m : ℕ) : Opens m.repr.toList := by
  obtain ⟨c, cs, hcs⟩ := List.exists_cons_of_ne_nil (Nat.toDigits_ne_nil (n := m) (b := 10))
  have hc : isAsciiDigit c = true :=
    toDigits_isAsciiDigit (n := m) (by rw [hcs]; exact List.mem_cons_self)
  refine ⟨c, cs, by rw [Nat.toList_repr, hcs], solid_of_digit hc, ?_⟩
  rintro rfl
  exact absurd hc (by decide)

theorem opens_boolText (b : Bool) : Opens (boolText b).toList := by
  cases b
  · exact ⟨'f', _, rfl, by decide, by decide⟩
  · exact ⟨'t', _, rfl, by decide, by decide⟩

theorem toList_arrayText (values : List String) :
    (arrayText values).toList = '[' :: ((commaJoin values).toList ++ [']']) := by
  simp [arrayText]

def fieldText (field : String × String) : String := "\"" ++ field.1 ++ "\":" ++ field.2

theorem toList_objectText (fields : List (String × String)) :
    (objectText fields).toList =
      '\x7b' :: ((commaJoin (fields.map fieldText)).toList ++ ['\x7d']) := by
  simp only [objectText, String.toList_append]
  rfl

def PlainKey (key : String) : Prop := escape key = key ∧ Lossless key

instance (key : String) : Decidable (PlainKey key) :=
  inferInstanceAs (Decidable (escape key = key ∧ Lossless key))

theorem toList_fieldText {key : String} (h : PlainKey key) (text : String) :
    (fieldText (key, text)).toList = (quote key).toList ++ ':' :: text.toList := by
  simp [fieldText, quote, h.1]

theorem parseString_key {key : String} (h : PlainKey key) (n : ℕ) (tail : List Char) :
    parseString ⟨n, (quote key).toList ++ tail⟩ = .ok (key, ⟨n, tail⟩) := by
  rw [parseString_quote, (sanitize_eq_self_iff key).mpr h.2]

theorem skip_text {text : List Char} (h : Opens text) (n : ℕ) (tail : List Char) :
    skipWhitespace ⟨n, text ++ tail⟩ = ⟨n, text ++ tail⟩ := by
  obtain ⟨c, cs, rfl, hc, -⟩ := h
  exact skipWhitespace_cons hc n (cs ++ tail)

theorem parseArray_arrayText {α : Type} {k : ℕ} {text : α → String} {value : α → JsonValue}
    (xs : List α) (hx : ∀ x ∈ xs, Opens (text x).toList ∧ Reads k (text x).toList (value x))
    (n : ℕ) (tail : List Char) :
    parseArray (parseValue k) ⟨n, (arrayText (xs.map text)).toList ++ tail⟩ =
      .ok (.array (xs.map value), ⟨n, tail⟩) := by
  simp only [toList_arrayText, List.cons_append, List.append_assoc, List.nil_append, parseArray,
    expectChar_cons, bind, Except.bind]
  cases xs with
  | nil =>
    simp [commaJoin, skipWhitespace_cons (show Solid ']' by decide), consumeChar_cons]
  | cons x xs =>
    have hlen := length_le_commaJoin ((x :: xs).map text) (by
      intro t ht
      obtain ⟨y, hy, rfl⟩ := List.mem_map.mp ht
      obtain ⟨c, cs, hcs, -⟩ := (hx y hy).1
      rw [hcs]
      simp)
    have hopen : Opens (commaJoin ((x :: xs).map text)).toList := by
      obtain ⟨c, cs, hcs, hc, hne⟩ := (hx x List.mem_cons_self).1
      cases xs with
      | nil => exact ⟨c, cs, hcs, hc, hne⟩
      | cons y xs =>
        refine ⟨c, cs ++ ',' :: (commaJoin ((y :: xs).map text)).toList, ?_, hc, hne⟩
        rw [List.map_cons, List.map_cons, toList_commaJoin_cons, hcs]
        rfl
    have hclose : consumeChar ']' ⟨n, (commaJoin ((x :: xs).map text)).toList ++
        ']' :: tail⟩ = none := by
      obtain ⟨c, cs, hcs, -, hne⟩ := hopen
      rw [hcs, List.cons_append, consumeChar_cons, if_neg hne]
    rw [skip_text hopen, hclose]
    refine parseElements_commaJoin (x :: xs) (by simp) (fun y hy => (hx y hy).2) _ n [] tail ?_
    simp only [List.length_append, List.length_map] at hlen ⊢
    omega

def afterField (pv : Parser → Except JsonError (JsonValue × Parser)) (fuel : ℕ)
    (fields : List (String × JsonValue)) (p : Parser) : Except JsonError (JsonValue × Parser) :=
  match p.consumeChar '\x7d' with
  | some p => .ok (.object fields, p)
  | none => do
    let p ← p.expectChar ','
    parseFields pv fuel fields p

theorem parseFields_turn {pv : Parser → Except JsonError (JsonValue × Parser)} {n : ℕ}
    {cs text : List Char} {key : String} {value : JsonValue} {p : Parser}
    {fields : List (String × JsonValue)} (fuel : ℕ)
    (hkey : parseString ⟨n, '"' :: cs⟩ = .ok (key, ⟨n, ':' :: text⟩))
    (hfresh : fields.any (fun field => field.1 == key) = false)
    (hvalue : pv ⟨n, text⟩ = .ok (value, p)) :
    parseFields pv (fuel + 1) fields ⟨n, '"' :: cs⟩ =
      afterField pv fuel (fields ++ [(key, value)]) p.skipWhitespace := by
  simp only [parseFields, skipWhitespace_cons (show Solid '"' by decide), peekChar_cons, ne_eq,
    not_true_eq_false, if_false, hkey, bind, Except.bind, hfresh, Bool.false_eq_true,
    skipWhitespace_cons (show Solid ':' by decide), expectChar_cons, hvalue]
  rfl

theorem afterField_close (pv : Parser → Except JsonError (JsonValue × Parser)) (fuel n : ℕ)
    (fields : List (String × JsonValue)) (tail : List Char) :
    afterField pv fuel fields (skipWhitespace ⟨n, '\x7d' :: tail⟩) =
      .ok (.object fields, ⟨n, tail⟩) := by
  rw [skipWhitespace_cons (by decide)]
  simp only [afterField, consumeChar_cons, ↓reduceIte]

theorem afterField_comma (pv : Parser → Except JsonError (JsonValue × Parser)) (fuel n : ℕ)
    (fields : List (String × JsonValue)) (tail : List Char) :
    afterField pv fuel fields (skipWhitespace ⟨n, ',' :: tail⟩) =
      parseFields pv fuel fields ⟨n, tail⟩ := by
  rw [skipWhitespace_cons (by decide)]
  simp only [afterField, consumeChar_cons, expectChar_cons, bind, Except.bind,
    show (',' : Char) ≠ '\x7d' by decide, if_false]

def ReadsField {α : Type} (k : ℕ) (text : α → String) (value : α → JsonValue)
    (field : String × α) : Prop :=
  PlainKey field.1 ∧ Reads k (text field.2).toList (value field.2)

section Fields

variable {α : Type} {k : ℕ} {text : α → String} {value : α → JsonValue}

theorem parseFields_commaJoin (fs : List (String × α)) (hne : fs ≠ [])
    (hf : ∀ f ∈ fs, ReadsField k text value f) (fuel n : ℕ)
    (fields : List (String × JsonValue)) (tail : List Char)
    (hkeys : (fields.map Prod.fst ++ fs.map Prod.fst).Nodup) (hfuel : fs.length ≤ fuel) :
    parseFields (parseValue k) fuel fields
      ⟨n, (commaJoin (fs.map fun f => fieldText (f.1, text f.2))).toList ++ '\x7d' :: tail⟩ =
      .ok (.object (fields ++ fs.map fun f => (f.1, value f.2)), ⟨n, tail⟩) := by
  induction fs generalizing fuel fields with
  | nil => exact absurd rfl hne
  | cons f fs ih =>
    obtain ⟨fuel, rfl⟩ : ∃ m, fuel = m + 1 := ⟨fuel - 1, by simp at hfuel; omega⟩
    obtain ⟨key, x⟩ := f
    obtain ⟨hplain, hread⟩ := hf _ List.mem_cons_self
    have hfresh : fields.any (fun field => field.1 == key) = false := by
      rw [List.any_eq_false]
      intro y hy hyk
      rw [List.nodup_append] at hkeys
      exact hkeys.2.2 y.1 (List.mem_map_of_mem hy) key (by simp) (by simpa using hyk)
    have hturn : ∀ rest, Delimited rest →
        parseFields (parseValue k) (fuel + 1) fields
          ⟨n, (fieldText (key, text x)).toList ++ rest⟩ =
        afterField (parseValue k) fuel (fields ++ [(key, value x)])
          (skipWhitespace ⟨n, rest⟩) := by
      intro rest hrest
      have hkey := parseString_key hplain n (':' :: ((text x).toList ++ rest))
      rw [toList_fieldText hplain, List.append_assoc]
      rw [toList_quote, List.cons_append] at hkey ⊢
      exact parseFields_turn fuel hkey hfresh (hread n rest hrest)
    cases fs with
    | nil =>
      simp only [List.map_cons, List.map_nil, commaJoin]
      rw [hturn _ (delimited_cons (.inr (.inr rfl)) tail), afterField_close]
    | cons g fs =>
      have hrest := ih (by simp) (fun y hy => hf y (List.mem_cons_of_mem _ hy)) fuel
        (fields ++ [(key, value x)]) (by simpa using hkeys) (by simpa using hfuel)
      simp only [List.map_cons] at hrest ⊢
      rw [toList_commaJoin_cons, List.append_assoc, List.cons_append,
        hturn _ (delimited_cons (.inl rfl) _), afterField_comma, hrest, List.append_assoc]
      rfl

theorem parseObject_objectText (fs : List (String × α))
    (hf : ∀ f ∈ fs, ReadsField k text value f) (hkeys : (fs.map Prod.fst).Nodup) (n : ℕ)
    (tail : List Char) :
    parseObject (parseValue k)
      ⟨n, (objectText (fs.map fun f => (f.1, text f.2))).toList ++ tail⟩ =
      .ok (.object (fs.map fun f => (f.1, value f.2)), ⟨n, tail⟩) := by
  simp only [toList_objectText, List.map_map, List.cons_append, List.append_assoc,
    List.nil_append, parseObject, expectChar_cons, bind, Except.bind]
  cases fs with
  | nil =>
    simp [commaJoin, skipWhitespace_cons (show Solid '\x7d' by decide), consumeChar_cons]
  | cons f fs =>
    have hlen := length_le_commaJoin ((f :: fs).map fun f => fieldText (f.1, text f.2)) (by
      intro t ht
      obtain ⟨g, hg, rfl⟩ := List.mem_map.mp ht
      rw [toList_fieldText (hf g hg).1, toList_quote]
      simp)
    have hopen : ∃ cs, (commaJoin ((f :: fs).map fun f => fieldText (f.1, text f.2))).toList =
        '"' :: cs := by
      have hfirst := toList_fieldText (hf f List.mem_cons_self).1 (text f.2)
      rw [toList_quote, List.cons_append] at hfirst
      cases fs with
      | nil => exact ⟨_, hfirst⟩
      | cons g fs =>
        rw [List.map_cons, List.map_cons, toList_commaJoin_cons, hfirst]
        exact ⟨_, rfl⟩
    have hfields := fun fuel => parseFields_commaJoin (f :: fs) (by simp) hf fuel n [] tail
      (by simpa using hkeys)
    obtain ⟨cs, hcs⟩ := hopen
    rw [List.length_map] at hlen
    simp only [Function.comp_def, hcs, List.cons_append, List.nil_append] at hfields hlen ⊢
    rw [skipWhitespace_cons (show Solid '"' by decide), consumeChar_cons, if_neg (by decide)]
    refine hfields _ ?_
    simp only [List.length_cons, List.length_append] at hlen ⊢
    omega

end Fields

/-- The shape of the documents the crates write: decimal numbers, distinct literal keys, at most
`k` levels of nesting. -/
def Fits : ℕ → JsonValue → Prop
  | 0, _ => False
  | _ + 1, .null => True
  | _ + 1, .bool _ => True
  | _ + 1, .number text => ∃ m : ℕ, text = m.repr
  | _ + 1, .string _ => True
  | k + 1, .array values => ∀ v ∈ values, Fits k v
  | k + 1, .object fields =>
    (fields.map Prod.fst).Nodup ∧ ∀ f ∈ fields, PlainKey f.1 ∧ Fits k f.2

def clean : JsonValue → JsonValue
  | .null => .null
  | .bool b => .bool b
  | .number text => .number text
  | .string value => .string (sanitize value)
  | .array values => .array (values.map clean)
  | .object fields => .object (fields.map fun field => (field.1, clean field.2))
decreasing_by
  · have := List.sizeOf_lt_of_mem ‹_ ∈ values›
    simp only [JsonValue.array.sizeOf_spec]
    omega
  · have := List.sizeOf_lt_of_mem ‹_ ∈ fields›
    obtain ⟨key, value⟩ := field
    simp only [Prod.mk.sizeOf_spec, JsonValue.object.sizeOf_spec] at *
    omega

def Renders (levels : ℕ) (v : JsonValue) : Prop :=
  Opens (render v).toList ∧ Reads levels (render v).toList (clean v)

section Renders

variable {k : ℕ}

theorem renders_null : Renders (k + 1) .null := by
  rw [Renders, render, clean]
  exact ⟨⟨'n', _, rfl, by decide, by decide⟩, reads_null k⟩

theorem renders_bool (b : Bool) : Renders (k + 1) (.bool b) := by
  rw [Renders, render, clean]
  exact ⟨opens_boolText b, reads_literal k b⟩

theorem renders_number (m : ℕ) : Renders (k + 1) (.number m.repr) := by
  rw [Renders, render, clean]
  exact ⟨opens_repr m, reads_number m k⟩

theorem renders_string (value : String) : Renders (k + 1) (.string value) := by
  rw [Renders, render, clean]
  exact ⟨opens_quote value, reads_string value k⟩

theorem renders_array {values : List JsonValue} (h : ∀ v ∈ values, Renders k v) :
    Renders (k + 1) (.array values) := by
  rw [Renders, render, clean]
  refine ⟨⟨'[', _, toList_arrayText _, by decide, by decide⟩, fun n tail _ => ?_⟩
  have hp := parseArray_arrayText values h n tail
  rw [toList_arrayText, List.cons_append] at hp ⊢
  simp only [parseValue, skipWhitespace_cons (show Solid '[' by decide), peekChar_cons]
  exact hp

theorem renders_object {fields : List (String × JsonValue)}
    (hkeys : (fields.map Prod.fst).Nodup) (h : ∀ f ∈ fields, PlainKey f.1 ∧ Renders k f.2) :
    Renders (k + 1) (.object fields) := by
  rw [Renders, render, clean]
  refine ⟨⟨'\x7b', _, toList_objectText _, by decide, by decide⟩, fun n tail _ => ?_⟩
  have hp := parseObject_objectText fields (fun f hf => ⟨(h f hf).1, (h f hf).2.2⟩) hkeys n tail
  rw [toList_objectText, List.cons_append] at hp ⊢
  simp only [parseValue, skipWhitespace_cons (show Solid '\x7b' by decide), peekChar_cons]
  exact hp

end Renders

theorem reads_render {k : ℕ} {v : JsonValue} (h : Fits k v) : Renders k v := by
  induction k generalizing v with
  | zero => exact absurd h (by simp [Fits])
  | succ k ih =>
    cases v with
    | null => exact renders_null
    | bool b => exact renders_bool b
    | number text =>
      obtain ⟨m, rfl⟩ := h
      exact renders_number m
    | string value => exact renders_string value
    | array values => exact renders_array fun v hv => ih (h v hv)
    | object fields => exact renders_object h.1 fun f hf => ⟨(h.2 f hf).1, ih (h.2 f hf).2⟩

theorem Renders.parse {v : JsonValue} (h : Renders (maxDepth + 1) v) :
    Json.parse (render v) = .ok (clean v) := by
  obtain ⟨hopen, hread⟩ := h
  have hp := hread (render v).utf8ByteSize [] (.inl rfl)
  have hskip := skip_text hopen (render v).utf8ByteSize []
  rw [List.append_nil] at hp hskip
  simp only [Json.parse, hskip, hp, bind, Except.bind]
  rfl

theorem parse_render {v : JsonValue} (h : Fits (maxDepth + 1) v) :
    parse (render v) = .ok (clean v) :=
  (reads_render h).parse

end AtomVibe.JsonRoundTrip
