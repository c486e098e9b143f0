import AtomVibe.JsonRoundTrip
import AtomVibe.JsonSound

namespace AtomVibe.JsonGrammar

open Checked Text Json Json.Parser
open JsonRoundTrip (peekChar_cons expectChar_cons)

def StartsWith (good : Char → Prop) (cs : List Char) : Prop := ∀ c ∈ cs.head?, good c

def Stops (cs : List Char) : Prop :=
  StartsWith (fun c => isBlankChar c = true ∨ c = ',' ∨ c = ']' ∨ c = '\x7d') cs

theorem StartsWith.mono {p q : Char → Prop} {cs : List Char} (h : StartsWith p cs)
    (himp : ∀ c, p c → q c) : StartsWith q cs := fun c hc => himp c (h c hc)

theorem dropWhile_append_of {p : Char → Bool} {cs t : List Char} (hcs : ∀ c ∈ cs, p c = true)
    (htail : StartsWith (fun c => p c = false) t) : (cs ++ t).dropWhile p = t := by
  rw [List.dropWhile_append_of_pos hcs]
  cases t with
  | nil => rfl
  | cons c t => rw [List.dropWhile_cons_of_neg (by simp [htail c rfl])]

theorem skipWhitespace_blanks {gap t : List Char} (hgap : Blanks gap)
    (htail : StartsWith (fun c => isBlankChar c = false) t) (n : ℕ) :
    skipWhitespace ⟨n, gap ++ t⟩ = ⟨n, t⟩ := by
  exact congrArg (Parser.mk n) (dropWhile_append_of hgap htail)

theorem stops_after {c : Char} (h : c = ',' ∨ c = ']' ∨ c = '\x7d') {after : List Char}
    (hafter : Blanks after) (t : List Char) : Stops (after ++ c :: t) := by
  intro d hd
  cases after with
  | nil =>
    obtain rfl : c = d := by simpa using hd
    exact .inr h
  | cons e after =>
    obtain rfl : e = d := by simpa using hd
    exact .inl (hafter e List.mem_cons_self)

theorem stops_blanks {after : List Char} (hafter : Blanks after) : Stops after := by
  intro c hc
  exact .inl (hafter c (List.mem_of_mem_head? hc))

section Numbers

variable {n : ℕ} {cs t : List Char}

theorem not_digit_of_blank {c : Char} (h : isBlankChar c = true) : isAsciiDigit c = false := by
  simp only [isBlankChar, Bool.or_eq_true, beq_iff_eq] at h
  rcases h with ((rfl | rfl) | rfl) | rfl <;> decide

theorem Stops.notNumber (h : Stops cs) : StartsWith (fun c =>
    isAsciiDigit c = false ∧ c ≠ '.' ∧ c ≠ 'e' ∧ c ≠ 'E') cs := by
  refine StartsWith.mono h ?_
  rintro c (hblank | rfl | rfl | rfl)
  · refine ⟨not_digit_of_blank hblank, ?_⟩
    refine ⟨?_, ?_, ?_⟩ <;> rintro rfl <;> exact absurd hblank (by decide)
  · decide
  · decide
  · decide

theorem consumeDigits_complete (hcs : ∀ c ∈ cs, isAsciiDigit c = true)
    (htail : StartsWith (fun c => isAsciiDigit c = false) t) :
    consumeDigits ⟨n, cs ++ t⟩ = ⟨n, t⟩ := by
  simp only [consumeDigits, dropWhile_append_of hcs htail]

theorem atDigit_digits (hcs : Digits cs) : atDigit ⟨n, cs ++ t⟩ = true := by
  obtain ⟨c, rest, rfl⟩ := List.exists_cons_of_ne_nil hcs.nonempty
  simpa [atDigit, peekChar] using hcs.digits c List.mem_cons_self

theorem parseInteger_complete (h : IntText cs)
    (htail : StartsWith (fun c => isAsciiDigit c = false) t) :
    parseInteger ⟨n, cs ++ t⟩ = .ok ⟨n, t⟩ := by
  cases h with
  | zero =>
    have hdigit : atDigit ⟨n, t⟩ = false := by
      cases t with
      | nil => rfl
      | cons c t => simpa [atDigit, peekChar] using htail c rfl
    simp only [parseInteger, peekChar, advance, List.cons_append, List.nil_append, List.head?_cons,
      List.tail_cons, hdigit, Bool.false_eq_true, if_false]
  | @digits c cs first rest =>
    have hdigits : Digits (c :: cs) := ⟨by simp, List.forall_mem_cons.mpr ⟨first.1, rest⟩⟩
    unfold parseInteger
    split
    · rename_i hzero
      exact absurd (by simpa [peekChar] using hzero) first.2
    · rw [if_pos (atDigit_digits hdigits), consumeDigits_complete hdigits.digits htail]

theorem parseFraction_complete (h : FractionText cs)
    (htail : StartsWith (fun c => isAsciiDigit c = false ∧ c ≠ '.') t) :
    parseFraction ⟨n, cs ++ t⟩ = .ok ⟨n, t⟩ := by
  cases h with
  | none =>
    have hdot : consumeChar '.' ⟨n, t⟩ = none := by
      rw [consumeChar, if_neg]
      intro hc
      exact (htail '.' hc).2 rfl
    simp only [parseFraction, List.nil_append, hdot]
  | @some cs digits =>
    have hdot : consumeChar '.' ⟨n, '.' :: cs ++ t⟩ = some ⟨n, cs ++ t⟩ := rfl
    simp only [parseFraction, hdot]
    rw [if_pos (atDigit_digits digits),
      consumeDigits_complete digits.digits (htail.mono fun _ h => h.1)]

theorem parseExponent_complete (h : ExponentText cs)
    (htail : StartsWith (fun c => isAsciiDigit c = false ∧ c ≠ 'e' ∧ c ≠ 'E') t) :
    parseExponent ⟨n, cs ++ t⟩ = .ok ⟨n, t⟩ := by
  cases h with
  | none =>
    rw [List.nil_append, parseExponent, if_neg]
    rintro (he | he)
    · exact (htail 'e' he).2.1 rfl
    · exact (htail 'E' he).2.2 rfl
  | @some e sign cs letter signed digits =>
    have hpeek : peekChar ⟨n, e :: (sign ++ cs) ++ t⟩ = some 'e' ∨
        peekChar ⟨n, e :: (sign ++ cs) ++ t⟩ = some 'E' := by
      rcases letter with rfl | rfl
      · exact .inl rfl
      · exact .inr rfl
    have hdone : (if atDigit ⟨n, cs ++ t⟩ = true then
        Except.ok (consumeDigits ⟨n, cs ++ t⟩)
        else error ⟨n, cs ++ t⟩ "exponent requires a digit") = .ok ⟨n, t⟩ := by
      rw [if_pos (atDigit_digits digits),
        consumeDigits_complete digits.digits (htail.mono fun _ h => h.1)]
    have hsign : (if (advance ⟨n, e :: (sign ++ cs) ++ t⟩).peekChar = some '+' ∨
        (advance ⟨n, e :: (sign ++ cs) ++ t⟩).peekChar = some '-' then
        (advance ⟨n, e :: (sign ++ cs) ++ t⟩).advance
        else advance ⟨n, e :: (sign ++ cs) ++ t⟩) = ⟨n, cs ++ t⟩ := by
      rcases signed with rfl | rfl | rfl
      · rw [if_neg]
        · rfl
        · obtain ⟨c, rest, rfl⟩ := List.exists_cons_of_ne_nil digits.nonempty
          have hc := digits.digits c List.mem_cons_self
          rintro (hplus | hminus)
          · obtain rfl : c = '+' := by simpa [peekChar, advance] using hplus
            exact absurd hc (by decide)
          · obtain rfl : c = '-' := by simpa [peekChar, advance] using hminus
            exact absurd hc (by decide)
      · rfl
      · rfl
    simp only [parseExponent, if_pos hpeek, hsign]
    exact hdone

theorem parseNumber_complete (h : NumberText cs) (htail : Stops t) :
    parseNumber ⟨n, cs ++ t⟩ = .ok (String.ofList cs, ⟨n, t⟩) := by
  cases h with
  | @mk minus int fraction exponent sign integer frac exp =>
    have hexponent : StartsWith (fun c => isAsciiDigit c = false ∧ c ≠ '.') (exponent ++ t) := by
      cases exp with
      | none => exact htail.notNumber.mono fun c h => ⟨h.1, h.2.1⟩
      | some letter =>
        rintro c hc
        obtain rfl : _ = c := by simpa using hc
        rcases letter with rfl | rfl <;> decide
    have hfraction : StartsWith (fun c => isAsciiDigit c = false)
        (fraction ++ (exponent ++ t)) := by
      cases frac with
      | none => exact hexponent.mono fun c h => h.1
      | some =>
        rintro c hc
        obtain rfl : '.' = c := by simpa using hc
        decide
    have hminus : (consumeChar '-' ⟨n, minus ++ (int ++ (fraction ++ (exponent ++ t)))⟩).getD
        ⟨n, minus ++ (int ++ (fraction ++ (exponent ++ t)))⟩ =
          ⟨n, int ++ (fraction ++ (exponent ++ t))⟩ := by
      rcases sign with rfl | rfl
      · rw [consumeChar, if_neg]
        · rfl
        · intro hpeek
          cases integer with
          | zero => exact absurd hpeek (by simp [peekChar])
          | digits first =>
            obtain rfl : _ = '-' := by simpa [peekChar] using hpeek
            exact absurd first.1 (by decide)
      · rfl
    have htext : minus ++ (int ++ (fraction ++ exponent)) ++ t =
        minus ++ (int ++ (fraction ++ (exponent ++ t))) := by simp
    have hlast := htail.notNumber.mono (q := fun c =>
      isAsciiDigit c = false ∧ c ≠ 'e' ∧ c ≠ 'E') fun c h => ⟨h.1, h.2.2⟩
    simp only [parseNumber, htext, hminus, parseInteger_complete integer hfraction, ok_bind,
      parseFraction_complete frac hexponent, parseExponent_complete exp hlast]
    rw [← htext, List.length_append, Nat.add_sub_cancel, List.take_left]

end Numbers

section Strings

variable {n : ℕ} {cs t : List Char}

theorem toDigit16_lt {c : Char} {d : ℕ} (h : toDigit16 c = some d) : d < 16 := by
  unfold toDigit16 at h
  split_ifs at h with hdigit hlower hupper
  · obtain rfl := Option.some.inj h
    simp only [isAsciiDigit, Bool.and_eq_true, decide_eq_true_eq] at hdigit
    have hle : c.toNat ≤ '9'.toNat := UInt32.le_iff_toNat_le.mp hdigit.2
    have hnine : '9'.toNat = 57 ∧ '0'.toNat = 48 := by decide
    omega
  · obtain rfl := Option.some.inj h
    have hle : c.toNat ≤ 'f'.toNat := UInt32.le_iff_toNat_le.mp hlower.2
    have hf : 'f'.toNat = 102 ∧ 'a'.toNat = 97 := by decide
    omega
  · obtain rfl := Option.some.inj h
    have hle : c.toNat ≤ 'F'.toNat := UInt32.le_iff_toNat_le.mp hupper.2
    have hf : 'F'.toNat = 70 ∧ 'A'.toNat = 65 := by decide
    omega

theorem HexText.lt {m : ℕ} (h : HexText cs m) : m < 0x10000 := by
  cases h with
  | mk first second third fourth =>
    have h1 := toDigit16_lt first
    have h2 := toDigit16_lt second
    have h3 := toDigit16_lt third
    have h4 := toDigit16_lt fourth
    omega

theorem parseHexUnit_complete {m : ℕ} (h : HexText cs m) :
    parseHexUnit ⟨n, cs ++ t⟩ = .ok (m, ⟨n, t⟩) := by
  cases h with
  | mk first second third fourth =>
    simp [parseHexUnit, parseHexDigits, peekChar, advance, first, second, third, fourth]

theorem fromU32_complete {m : ℕ} (h : m.isValidChar) (p : Parser) :
    fromU32 m p = .ok (Char.ofNat m, p) := by
  rw [fromU32, if_pos h]

theorem parseUnicodeScalar_complete {c : Char}
    (h : CharText literalChar ('\\' :: 'u' :: cs) c) :
    parseUnicodeScalar ⟨n, cs ++ t⟩ = .ok (c, ⟨n, t⟩) := by
  cases h with
  | escape known => exact absurd known (by simp [escapes])
  | @unit _ m hex scalar =>
    have hlt := hex.lt
    have hvalid : m.isValidChar := by
      simp only [isHighSurrogate, isLowSurrogate] at scalar
      simp only [Nat.isValidChar]
      omega
    have hhigh : ¬(0xd800 ≤ m ∧ m ≤ 0xdbff) := scalar.1
    have hlow : ¬(0xdc00 ≤ m ∧ m ≤ 0xdfff) := scalar.2
    simp only [parseUnicodeScalar, parseHexUnit_complete hex, ok_bind]
    rw [if_neg hhigh, if_neg hlow, fromU32_complete hvalid]
  | @pair digits digits' high low hex hex' first second =>
    have hvalid : (0x10000 + (high - 0xd800) * 0x400 + (low - 0xdc00)).isValidChar := by
      simp only [isHighSurrogate, isLowSurrogate] at first second
      simp only [Nat.isValidChar]
      omega
    have htext : digits ++ '\\' :: 'u' :: digits' ++ t =
        digits ++ ('\\' :: 'u' :: (digits' ++ t)) := by simp
    have hslash : ¬peekChar ⟨n, '\\' :: 'u' :: (digits' ++ t)⟩ ≠ some '\\' := by
      simp [peekChar]
    have hu : ¬(advance ⟨n, '\\' :: 'u' :: (digits' ++ t)⟩).peekChar ≠ some 'u' := by
      simp [peekChar, advance]
    have hrest : (advance ⟨n, '\\' :: 'u' :: (digits' ++ t)⟩).advance =
        ⟨n, digits' ++ t⟩ := rfl
    have hhigh : 0xd800 ≤ high ∧ high ≤ 0xdbff := first
    have hlow : 0xdc00 ≤ low ∧ low ≤ 0xdfff := second
    simp only [parseUnicodeScalar, htext, parseHexUnit_complete hex, ok_bind]
    rw [if_pos hhigh, if_neg hslash, if_neg hu, hrest, parseHexUnit_complete hex', ok_bind]
    simp only
    rw [if_pos hlow, fromU32_complete hvalid]

theorem parseStringLoop_char {c : Char} (h : CharText literalChar cs c) (fuel : ℕ)
    (output : List Char) : parseStringLoop (fuel + 1) output ⟨n, cs ++ t⟩ =
      parseStringLoop fuel (c :: output) ⟨n, t⟩ := by
  have hescape : ∀ {rest : List Char} {e : Char}, e = 'u' → cs = '\\' :: e :: rest →
      parseStringLoop (fuel + 1) output ⟨n, cs ++ t⟩ =
        parseStringLoop fuel (c :: output) ⟨n, t⟩ := by
    rintro rest _ rfl rfl
    have hscalar := parseUnicodeScalar_complete (n := n) (t := t) h
    simp only [parseStringLoop, peekChar, advance, List.cons_append, List.head?_cons,
      List.tail_cons, hscalar, ok_bind, if_true]
    rw [if_neg (by decide)]
  cases h with
  | plain allowed =>
    simp only [literalChar, Bool.and_eq_true, Bool.not_eq_true', bne_iff_ne] at allowed
    obtain ⟨⟨hcontrol, hquote⟩, hslash⟩ := allowed
    simp [parseStringLoop, peekChar, advance, hcontrol, hquote, hslash]
  | @escape letter _ known =>
    have hsimple := mem_escapes.mp known
    have hu : letter ≠ 'u' := by
      rintro rfl
      simp [simpleEscape] at hsimple
    simp [parseStringLoop, peekChar, advance, hsimple, hu]
  | unit => exact hescape rfl rfl
  | pair => exact hescape rfl rfl

theorem CharText.length_pos {plain : Char → Bool} {c : Char} (h : CharText plain cs c) :
    0 < cs.length := by
  cases h <;> simp

theorem parseStringLoop_complete {out : List Char} (h : CharsText literalChar cs out) {fuel : ℕ}
    (hfuel : cs.length < fuel) (output : List Char) :
    parseStringLoop fuel output ⟨n, cs ++ '"' :: t⟩ =
      .ok (String.ofList (output.reverse ++ out), ⟨n, t⟩) := by
  induction h generalizing fuel output with
  | nil =>
    obtain ⟨fuel, rfl⟩ := Nat.exists_eq_succ_of_ne_zero (by omega : fuel ≠ 0)
    simp [parseStringLoop, peekChar, advance]
  | @cons cs rest out c head _ ih =>
    obtain ⟨fuel, rfl⟩ := Nat.exists_eq_succ_of_ne_zero (by omega : fuel ≠ 0)
    have hpos := head.length_pos
    rw [List.length_append] at hfuel
    rw [List.append_assoc, parseStringLoop_char head, ih (by omega)]
    simp

theorem parseString_complete {s : String} (h : StringText literalChar cs s) :
    parseString ⟨n, cs ++ t⟩ = .ok (s, ⟨n, t⟩) := by
  cases h with
  | @mk cs out chars =>
    have htext : '"' :: (cs ++ ['"']) ++ t = '"' :: (cs ++ '"' :: t) := by simp
    rw [htext, parseString, expectChar_cons, ok_bind,
      parseStringLoop_complete chars (by rw [List.length_append]; omega)]
    rfl

end Strings

section Nested

variable {value : List Char → JsonValue → Prop} {n : ℕ} {cs t : List Char}

def Solid (value : List Char → JsonValue → Prop) : Prop := ∀ cs v, value cs v →
  ∃ c rest, cs = c :: rest ∧ isBlankChar c = false ∧ c ≠ ']' ∧ c ≠ '\x7d'

def CompleteStep (value : List Char → JsonValue → Prop)
    (step : Parser → Except JsonError (JsonValue × Parser)) : Prop :=
  ∀ {n : ℕ} {gap cs t : List Char} {v : JsonValue}, Blanks gap → value cs v → Stops t →
    step ⟨n, gap ++ (cs ++ t)⟩ = .ok (v, ⟨n, t⟩)

theorem consumeChar_other {c d : Char} (h : d ≠ c) (rest : List Char) :
    consumeChar c ⟨n, d :: rest⟩ = none := by
  simp [consumeChar, peekChar, h]

theorem consumeChar_self (c : Char) (rest : List Char) :
    consumeChar c ⟨n, c :: rest⟩ = some ⟨n, rest⟩ := by
  simp [consumeChar, peekChar, advance]

theorem skip_to {gap r : List Char} {c : Char} (hgap : Blanks gap)
    (hc : isBlankChar c = false) : skipWhitespace ⟨n, gap ++ c :: r⟩ = ⟨n, c :: r⟩ := by
  apply skipWhitespace_blanks hgap
  intro d hd
  obtain rfl : c = d := by simpa using hd
  exact hc

theorem Elements.skip (hsolid : Solid value) {vs : List JsonValue} (h : Elements value cs vs)
    (rest : List Char) : ∃ c text, skipWhitespace ⟨n, cs ++ rest⟩ = ⟨n, c :: text ++ rest⟩ ∧
      c ≠ ']' ∧ Elements value (c :: text) vs := by
  cases h with
  | @one before item after v left hitem right =>
    obtain ⟨c, text, rfl, hblank, hclose, -⟩ := hsolid _ _ hitem
    refine ⟨c, text ++ after, ?_, hclose, .one blanks_nil hitem right⟩
    have h := skip_to (n := n) (r := text ++ after ++ rest) left hblank
    simpa using h
  | @more before item after others v vs left hitem right hothers =>
    obtain ⟨c, text, rfl, hblank, hclose, -⟩ := hsolid _ _ hitem
    refine ⟨c, text ++ (after ++ ',' :: others), ?_, hclose,
      .more blanks_nil hitem right hothers⟩
    have h := skip_to (n := n) (r := text ++ (after ++ ',' :: others) ++ rest) left hblank
    simpa using h

theorem StringText.head {plain : Char → Bool} {s : String} (h : StringText plain cs s) :
    ∃ rest, cs = '"' :: rest := by
  cases h
  exact ⟨_, rfl⟩

theorem Member.skip {f : String × JsonValue} (h : Member literalChar value cs f)
    (rest : List Char) : ∃ text, skipWhitespace ⟨n, cs ++ rest⟩ = ⟨n, '"' :: text ++ rest⟩ ∧
      Member literalChar value ('"' :: text) f := by
  cases h with
  | @mk before key colon gap item after k v left name middle space hitem right =>
    obtain ⟨keyRest, rfl⟩ := name.head
    refine ⟨keyRest ++ (colon ++ ':' :: (gap ++ (item ++ after))), ?_,
      .mk blanks_nil name middle space hitem right⟩
    have h := skip_to (n := n) (r := keyRest ++ (colon ++ ':' :: (gap ++ (item ++ after))) ++
      rest) left (by decide : isBlankChar '"' = false)
    simpa using h

theorem Members.skip {fs : List (String × JsonValue)} (h : Members literalChar value cs fs)
    (rest : List Char) : ∃ text, skipWhitespace ⟨n, cs ++ rest⟩ = ⟨n, '"' :: text ++ rest⟩ ∧
      Members literalChar value ('"' :: text) fs := by
  cases h with
  | one member =>
    obtain ⟨text, hskip, hmember⟩ := member.skip (n := n) rest
    exact ⟨text, hskip, .one hmember⟩
  | @more cs others f fs member hothers =>
    obtain ⟨text, hskip, hmember⟩ := member.skip (n := n) (',' :: others ++ rest)
    refine ⟨text ++ ',' :: others, by simpa using hskip, .more hmember hothers⟩

variable {parseValue : Parser → Except JsonError (JsonValue × Parser)} {fuel : ℕ}

theorem parseElements_complete (hvalue : CompleteStep value parseValue) {vs : List JsonValue}
    (h : Elements value cs vs) (hfuel : cs.length < fuel) (values : List JsonValue) :
    parseElements parseValue fuel values ⟨n, cs ++ ']' :: t⟩ =
      .ok (.array (values ++ vs), ⟨n, t⟩) := by
  induction h generalizing fuel values with
  | @one before item after v left hitem right =>
    obtain ⟨fuel, rfl⟩ := Nat.exists_eq_succ_of_ne_zero (by omega : fuel ≠ 0)
    have hstep := hvalue (n := n) left hitem (stops_after (.inr (.inl rfl)) right t)
    have htext : before ++ (item ++ after) ++ ']' :: t =
        before ++ (item ++ (after ++ ']' :: t)) := by simp
    have hskip := skip_to (n := n) (r := t) right (by decide : isBlankChar ']' = false)
    simp only [parseElements, htext, hstep, ok_bind, hskip, consumeChar_self]
  | @more before item after others v vs left hitem right hothers ih =>
    obtain ⟨fuel, rfl⟩ := Nat.exists_eq_succ_of_ne_zero (by omega : fuel ≠ 0)
    have hstep := hvalue (n := n) left hitem
      (stops_after (.inl rfl) right (others ++ ']' :: t))
    have htext : before ++ (item ++ (after ++ ',' :: others)) ++ ']' :: t =
        before ++ (item ++ (after ++ ',' :: (others ++ ']' :: t))) := by simp
    have hskip := skip_to (n := n) (r := others ++ ']' :: t) right
      (by decide : isBlankChar ',' = false)
    have hshort : others.length < fuel := by
      simp only [List.length_append, List.length_cons] at hfuel
      omega
    have hrest := ih hshort (values ++ [v])
    simp only [parseElements, htext, hstep, ok_bind, hskip,
      consumeChar_other (by decide : ',' ≠ ']'), expectChar_cons, hrest, List.append_assoc,
      List.singleton_append]

theorem parseFields_member (hvalue : CompleteStep value parseValue) {f : String × JsonValue}
    (h : Member literalChar value cs f) (fuel : ℕ) {fields : List (String × JsonValue)}
    (hfresh : f.1 ∉ fields.map Prod.fst) {c : Char} (hc : c = ',' ∨ c = '\x7d') :
    parseFields parseValue (fuel + 1) fields ⟨n, cs ++ c :: t⟩ =
      match consumeChar '\x7d' ⟨n, c :: t⟩ with
      | some p => .ok (.object (fields ++ [f]), p)
      | none => expectChar ',' ⟨n, c :: t⟩ >>= parseFields parseValue fuel (fields ++ [f]) := by
  cases h with
  | @mk before key colon gap item after k v left name middle space hitem right =>
    have hstops : Stops (after ++ c :: t) := by
      apply stops_after _ right
      rcases hc with rfl | rfl <;> simp
    have hcBlank : isBlankChar c = false := by rcases hc with rfl | rfl <;> decide
    have htext : before ++ (key ++ (colon ++ ':' :: (gap ++ (item ++ after)))) ++ c :: t =
        before ++ (key ++ (colon ++ ':' :: (gap ++ (item ++ (after ++ c :: t))))) := by simp
    have hkeyHead : ∃ rest, key ++ (colon ++ ':' :: (gap ++ (item ++ (after ++ c :: t)))) =
        '"' :: rest := by
      obtain ⟨rest, rfl⟩ := name.head
      exact ⟨_, rfl⟩
    obtain ⟨rest, hkeyHead⟩ := hkeyHead
    have hskip : skipWhitespace
        ⟨n, before ++ (key ++ (colon ++ ':' :: (gap ++ (item ++ (after ++ c :: t)))))⟩ =
          ⟨n, key ++ (colon ++ ':' :: (gap ++ (item ++ (after ++ c :: t))))⟩ := by
      rw [hkeyHead]
      exact skip_to left (by decide)
    have hquote : ¬peekChar ⟨n, key ++ (colon ++ ':' :: (gap ++ (item ++ (after ++ c :: t))))⟩ ≠
        some '"' := by
      rw [hkeyHead]
      simp [peekChar]
    have hduplicate : ¬(fields.any fun field => field.1 == k) = true := by
      rw [List.any_eq_true]
      rintro ⟨field, hfield, hsame⟩
      exact hfresh (List.mem_map.mpr ⟨field, hfield, by simpa using hsame⟩)
    have hcolon := skip_to (n := n) (r := gap ++ (item ++ (after ++ c :: t))) middle
      (by decide : isBlankChar ':' = false)
    have hafter := skip_to (n := n) (r := t) right hcBlank
    simp only [parseFields, htext, hskip, if_neg hquote, parseString_complete name, ok_bind]
    rewrite [if_neg hduplicate, hcolon, expectChar_cons, ok_bind, hvalue space hitem hstops,
      ok_bind, hafter]
    rfl

theorem parseFields_complete (hvalue : CompleteStep value parseValue)
    {fs : List (String × JsonValue)} (h : Members literalChar value cs fs)
    (hfuel : cs.length < fuel) {fields : List (String × JsonValue)}
    (hdistinct : ((fields ++ fs).map Prod.fst).Nodup) :
    parseFields parseValue fuel fields ⟨n, cs ++ '\x7d' :: t⟩ =
      .ok (.object (fields ++ fs), ⟨n, t⟩) := by
  have hnew : ∀ {f : String × JsonValue} {rest : List (String × JsonValue)},
      ∀ {fields : List (String × JsonValue)}, ((fields ++ f :: rest).map Prod.fst).Nodup →
        f.1 ∉ fields.map Prod.fst := by
    intro f rest fields h hmem
    rw [List.map_append, List.map_cons, List.nodup_append] at h
    exact h.2.2 _ hmem _ List.mem_cons_self rfl
  induction h generalizing fuel fields with
  | one member =>
    obtain ⟨fuel, rfl⟩ := Nat.exists_eq_succ_of_ne_zero (by omega : fuel ≠ 0)
    rw [parseFields_member hvalue member fuel (hnew hdistinct) (.inr rfl), consumeChar_self]
  | @more cs others f fs member hothers ih =>
    obtain ⟨fuel, rfl⟩ := Nat.exists_eq_succ_of_ne_zero (by omega : fuel ≠ 0)
    have hshort : others.length < fuel := by
      rw [List.length_append, List.length_cons] at hfuel
      omega
    have hrest := ih hshort
      (show ((fields ++ [f] ++ fs).map Prod.fst).Nodup by simpa using hdistinct)
    rw [List.append_assoc, List.cons_append,
      parseFields_member hvalue member fuel (hnew hdistinct) (.inl rfl),
      consumeChar_other (by decide), expectChar_cons]
    simpa using hrest

end Nested

theorem solid_valueText (levels : ℕ) : Solid (ValueText literalChar levels) := by
  intro cs v h
  cases levels with
  | zero => exact h.elim
  | succ levels =>
    cases h with
    | null => exact ⟨'n', "ull".toList, rfl, by decide⟩
    | true => exact ⟨'t', "rue".toList, rfl, by decide⟩
    | false => exact ⟨'f', "alse".toList, rfl, by decide⟩
    | number number =>
      cases number with
      | @mk minus int fraction exponent sign integer _ _ =>
        rcases sign with rfl | rfl
        · cases integer with
          | zero => exact ⟨'0', _, rfl, by decide⟩
          | @digits c cs first _ =>
            refine ⟨c, _, rfl, ?_, ?_, ?_⟩
            · by_contra hblank
              rw [Bool.not_eq_false] at hblank
              exact absurd first.1 (by rw [not_digit_of_blank hblank]; decide)
            · rintro rfl
              exact absurd first.1 (by decide)
            · rintro rfl
              exact absurd first.1 (by decide)
        · exact ⟨'-', _, rfl, by decide⟩
    | string string =>
      obtain ⟨rest, rfl⟩ := string.head
      exact ⟨'"', rest, rfl, by decide⟩
    | emptyArray | array => exact ⟨'[', _, rfl, by decide⟩
    | emptyObject | object => exact ⟨'\x7b', _, rfl, by decide⟩

section Values

variable {n levels : ℕ} {cs t : List Char}

theorem parseObject_complete {parseValue : Parser → Except JsonError (JsonValue × Parser)}
    {value : List Char → JsonValue → Prop} (hvalue : CompleteStep value parseValue)
    {fs : List (String × JsonValue)} (h : Members literalChar value cs fs)
    (hdistinct : (fs.map Prod.fst).Nodup) :
    parseObject parseValue ⟨n, '\x7b' :: (cs ++ '\x7d' :: t)⟩ =
      .ok (.object fs, ⟨n, t⟩) := by
  obtain ⟨text, hskip, hmembers⟩ := h.skip (n := n) ('\x7d' :: t)
  have hfields := parseFields_complete (n := n) (t := t) hvalue hmembers
    (show ('"' :: text).length < ('"' :: text ++ '\x7d' :: t).length + 1 by rw [List.length_append]; omega)
    (show (([] ++ fs).map Prod.fst).Nodup by simpa using hdistinct)
  simp only [parseObject, expectChar_cons, ok_bind, hskip]
  rw [List.cons_append, consumeChar_other (by decide)]
  simpa using hfields

theorem parseArray_complete {parseValue : Parser → Except JsonError (JsonValue × Parser)}
    {value : List Char → JsonValue → Prop} (hsolid : Solid value)
    (hvalue : CompleteStep value parseValue) {vs : List JsonValue} (h : Elements value cs vs) :
    parseArray parseValue ⟨n, '[' :: (cs ++ ']' :: t)⟩ = .ok (.array vs, ⟨n, t⟩) := by
  obtain ⟨c, text, hskip, hclose, helements⟩ := h.skip (n := n) hsolid (']' :: t)
  have hloop := parseElements_complete (n := n) (t := t) hvalue helements
    (show (c :: text).length < (c :: text ++ ']' :: t).length + 1 by rw [List.length_append]; omega) []
  simp only [parseArray, expectChar_cons, ok_bind, hskip]
  rw [List.cons_append, consumeChar_other hclose]
  simpa using hloop

theorem parseLiteral_complete (literal : String) (v : JsonValue) :
    parseLiteral literal v ⟨n, literal.toList ++ t⟩ = .ok (v, ⟨n, t⟩) := by
  have hprefix : literal.toList.isPrefixOf (literal.toList ++ t) = true :=
    List.isPrefixOf_iff_prefix.mpr (List.prefix_append _ _)
  simp only [parseLiteral, hprefix, if_true, List.drop_left]

theorem NumberText.head (h : NumberText cs) : ∃ c rest, cs = c :: rest ∧
    (c = '-' ∨ isAsciiDigit c = true) := by
  cases h with
  | mk sign integer =>
    rcases sign with rfl | rfl
    · cases integer with
      | zero => exact ⟨'0', _, rfl, .inr (by decide)⟩
      | digits first => exact ⟨_, _, rfl, .inr first.1⟩
    · exact ⟨'-', _, rfl, .inl rfl⟩

theorem numberStart_ne {c : Char} (h : c = '-' ∨ isAsciiDigit c = true) :
    c ≠ '\x7b' ∧ c ≠ '[' ∧ c ≠ '"' ∧ c ≠ 't' ∧ c ≠ 'f' ∧ c ≠ 'n' := by
  rcases h with rfl | h
  · decide
  · refine ⟨?_, ?_, ?_, ?_, ?_, ?_⟩ <;> rintro rfl <;> exact absurd h (by decide)

theorem parseValue_complete (levels : ℕ) :
    CompleteStep (ValueText literalChar levels) (Parser.parseValue levels) := by
  induction levels with
  | zero => exact fun _ h _ => h.elim
  | succ levels ih =>
    intro n gap cs t v hgap h hstops
    have hskip : skipWhitespace ⟨n, gap ++ (cs ++ t)⟩ = ⟨n, cs ++ t⟩ := by
      obtain ⟨c, rest, rfl, hblank, -⟩ := solid_valueText _ cs v h
      exact skip_to hgap hblank
    simp only [Parser.parseValue, hskip]
    cases h with
    | null => exact parseLiteral_complete "null" .null
    | true => exact parseLiteral_complete "true" (.bool true)
    | false => exact parseLiteral_complete "false" (.bool false)
    | number number =>
      obtain ⟨c, rest, rfl, hc⟩ := number.head
      obtain ⟨h1, h2, h3, h4, h5, h6⟩ := numberStart_ne hc
      have hnumber := parseNumber_complete (n := n) number hstops
      simp only [List.cons_append, peekChar_cons] at hnumber ⊢
      simp only [h1, h2, h3, h4, h5, h6, hc, if_false, if_true, hnumber, ok_bind]
    | string string =>
      obtain ⟨rest, rfl⟩ := string.head
      have hstring := parseString_complete (n := n) (t := t) string
      simp only [List.cons_append, peekChar_cons] at hstring ⊢
      simp [hstring]
    | @emptyArray gap' blank =>
      have hclose := skip_to (n := n) (r := t) blank (by decide : isBlankChar ']' = false)
      simp [peekChar_cons, parseArray, expectChar_cons, hclose, consumeChar_self]
    | @array cs vs elements =>
      have harray := parseArray_complete (n := n) (t := t) (solid_valueText levels) ih elements
      simpa [peekChar_cons] using harray
    | @emptyObject gap' blank =>
      have hclose := skip_to (n := n) (r := t) blank
        (by decide : isBlankChar '\x7d' = false)
      simp [peekChar_cons, parseObject, expectChar_cons, hclose, consumeChar_self]
    | @object cs fs members distinct =>
      have hobject := parseObject_complete (n := n) (t := t) ih members distinct
      simpa [peekChar_cons] using hobject

end Values

theorem parse_complete {input : String} {v : JsonValue}
    (h : JsonText literalChar (maxDepth + 1) input.toList v) : parse input = .ok v := by
  generalize htext : input.toList = text at h
  cases h with
  | @mk before cs after v left value right =>
    obtain ⟨c, rest, hcs, hblank, -⟩ := solid_valueText _ cs v value
    have hskip : skipWhitespace ⟨input.utf8ByteSize, before ++ (cs ++ after)⟩ =
        ⟨input.utf8ByteSize, cs ++ after⟩ := by
      rw [hcs]
      exact skip_to left hblank
    have hvalue := parseValue_complete (maxDepth + 1) (n := input.utf8ByteSize)
      blanks_nil value (stops_blanks right)
    have hend := skipWhitespace_blanks (t := []) right (by simp [StartsWith])
      input.utf8ByteSize
    rw [List.append_nil] at hend
    rw [List.nil_append] at hvalue
    simp only [parse, htext, hskip, hvalue, ok_bind, hend]
    rfl

section Loops

variable {p q : Parser} {fuel fuel' : ℕ}

theorem Read.length {cs : List Char} (h : Read p q cs) :
    p.rest.length = cs.length + q.rest.length := by
  rw [h.rest, List.length_append]

theorem length_advance {c : Char} (h : p.peekChar = some c) :
    p.advance.rest.length < p.rest.length := by
  rw [(read_advance h).length, List.length_singleton]
  omega

theorem parseStringLoop_turns {output : List Char} (h : p.rest.length < fuel)
    (h' : p.rest.length < fuel') :
    parseStringLoop fuel output p = parseStringLoop fuel' output p := by
  induction fuel generalizing fuel' output p with
  | zero => omega
  | succ fuel ih =>
    obtain ⟨fuel', rfl⟩ := Nat.exists_eq_succ_of_ne_zero (by omega : fuel' ≠ 0)
    have hnext : ∀ r out, r.rest.length < p.rest.length →
        parseStringLoop fuel out r = parseStringLoop fuel' out r :=
      fun r out hr => ih (by omega) (by omega)
    simp only [parseStringLoop]
    cases hc : p.peekChar with
    | none => rfl
    | some c =>
      have hadvance := length_advance hc
      simp only
      split_ifs with hquote hslash hcontrol
      · rfl
      · cases he : p.advance.peekChar with
        | none => rfl
        | some e =>
          have hadvance' := length_advance he
          simp only
          split_ifs with hu
          · cases hscalar : p.advance.advance.parseUnicodeScalar with
            | error error => rfl
            | ok result =>
              obtain ⟨scalar, r⟩ := result
              obtain ⟨cs, hread, -⟩ := parseUnicodeScalar_sound hscalar
              have hlength := hread.length
              exact hnext r _ (by omega)
          · split
            · exact hnext _ _ (by omega)
            · rfl
      · rfl
      · exact hnext _ _ hadvance

variable {parseValue : Parser → Except JsonError (JsonValue × Parser)}

def Shrinks {α : Type} (step : Parser → Except JsonError (α × Parser)) : Prop :=
  ∀ {p q : Parser} {a : α}, step p = .ok (a, q) → q.rest.length < p.rest.length

theorem shrinks_parseString : Shrinks parseString := by
  intro p q s h
  obtain ⟨cs, hread, hstring⟩ := parseString_sound h
  obtain ⟨rest, rfl⟩ := hstring.head
  have hlength := hread.length
  rw [List.length_cons] at hlength
  omega

theorem shrinks_parseValue (levels : ℕ) : Shrinks (Parser.parseValue levels) := by
  intro p q v h
  obtain ⟨gap, cs, hread, -, hvalue⟩ := parseValue_sound levels h
  obtain ⟨c, rest, rfl, -⟩ := solid_valueText levels cs v hvalue
  have hlength := hread.length
  rw [List.length_append, List.length_cons] at hlength
  omega

theorem length_skipWhitespace (p : Parser) : p.skipWhitespace.rest.length ≤ p.rest.length := by
  obtain ⟨cs, hread, -⟩ := read_skipWhitespace p
  have hlength := hread.length
  omega

theorem length_expectChar {c : Char} (h : p.expectChar c = .ok q) :
    q.rest.length < p.rest.length := by
  have hlength := (read_expectChar h).length
  rw [List.length_singleton] at hlength
  omega

theorem parseFields_turns (hvalue : Shrinks parseValue) {fields : List (String × JsonValue)}
    (h : p.rest.length < fuel) (h' : p.rest.length < fuel') :
    parseFields parseValue fuel fields p = parseFields parseValue fuel' fields p := by
  induction fuel generalizing fuel' fields p with
  | zero => omega
  | succ fuel ih =>
    obtain ⟨fuel', rfl⟩ := Nat.exists_eq_succ_of_ne_zero (by omega : fuel' ≠ 0)
    have hskip := length_skipWhitespace p
    simp only [parseFields]
    split_ifs with hquote
    · rfl
    cases hkey : p.skipWhitespace.parseString with
    | error error => rfl
    | ok result =>
      obtain ⟨key, p₁⟩ := result
      have hkeyLength := shrinks_parseString hkey
      have hskip₁ := length_skipWhitespace p₁
      simp only [ok_bind]
      split_ifs with hduplicate
      · rfl
      cases hcolon : p₁.skipWhitespace.expectChar ':' with
      | error error => rfl
      | ok p₂ =>
        have hcolonLength := length_expectChar hcolon
        simp only [ok_bind]
        cases hitem : parseValue p₂ with
        | error error => rfl
        | ok result =>
          obtain ⟨item, p₃⟩ := result
          have hitemLength := hvalue hitem
          have hskip₃ := length_skipWhitespace p₃
          simp only [ok_bind]
          cases p₃.skipWhitespace.consumeChar '\x7d' with
          | some last => rfl
          | none =>
            cases hcomma : p₃.skipWhitespace.expectChar ',' with
            | error error => rfl
            | ok p₄ =>
              have hcommaLength := length_expectChar hcomma
              simp only [ok_bind]
              exact ih (by omega) (by omega)

theorem parseElements_turns (hvalue : Shrinks parseValue) {values : List JsonValue}
    (h : p.rest.length < fuel) (h' : p.rest.length < fuel') :
    parseElements parseValue fuel values p = parseElements parseValue fuel' values p := by
  induction fuel generalizing fuel' values p with
  | zero => omega
  | succ fuel ih =>
    obtain ⟨fuel', rfl⟩ := Nat.exists_eq_succ_of_ne_zero (by omega : fuel' ≠ 0)
    simp only [parseElements]
    cases hitem : parseValue p with
    | error error => rfl
    | ok result =>
      obtain ⟨item, p₁⟩ := result
      have hitemLength := hvalue hitem
      have hskip := length_skipWhitespace p₁
      simp only [ok_bind]
      cases p₁.skipWhitespace.consumeChar ']' with
      | some last => rfl
      | none =>
        cases hcomma : p₁.skipWhitespace.expectChar ',' with
        | error error => rfl
        | ok p₂ =>
          have hcommaLength := length_expectChar hcomma
          simp only [ok_bind]
          exact ih (by omega) (by omega)

end Loops

structure LoopsEnd : Prop where
  strings : ∀ (p : Parser) (output : List Char) (fuel : ℕ), p.rest.length < fuel →
    parseStringLoop fuel output p = parseStringLoop (p.rest.length + 1) output p
  fields : ∀ (levels : ℕ) (p : Parser) (fields : List (String × JsonValue)) (fuel : ℕ),
    p.rest.length < fuel → parseFields (Parser.parseValue levels) fuel fields p =
      parseFields (Parser.parseValue levels) (p.rest.length + 1) fields p
  elements : ∀ (levels : ℕ) (p : Parser) (values : List JsonValue) (fuel : ℕ),
    p.rest.length < fuel → parseElements (Parser.parseValue levels) fuel values p =
      parseElements (Parser.parseValue levels) (p.rest.length + 1) values p

theorem loopsEnd : LoopsEnd where
  strings _ _ _ h := parseStringLoop_turns h (Nat.lt_succ_self _)
  fields levels _ _ _ h := parseFields_turns (shrinks_parseValue levels) h (Nat.lt_succ_self _)
  elements levels _ _ _ h := parseElements_turns (shrinks_parseValue levels) h (Nat.lt_succ_self _)

/-- The parser accepts the texts of the grammar that hold no control character as it stands and
at most 64 levels of nesting, and none else, with the value they denote; and it always ends. -/
theorem parse_accepts_json_texts :
    (∀ (input : String) (v : JsonValue), parse input = .ok v ↔
      JsonText literalChar (maxDepth + 1) input.toList v) ∧ LoopsEnd :=
  ⟨fun _ _ => ⟨parse_sound, parse_complete⟩, loopsEnd⟩

theorem parse_refuses_a_json_text :
    JsonText unescaped (maxDepth + 1) "\"\x7f\"".toList (.string "\x7f") ∧
      parse "\"\x7f\"" = .error ⟨2, "unescaped control character in string"⟩ := by
  constructor
  · have hchars : CharsText unescaped ['\x7f'] ['\x7f'] :=
      .cons (.plain (by decide)) .nil
    have hvalue : ValueText unescaped (maxDepth + 1) ['"', '\x7f', '"'] (.string "\x7f") :=
      .string (.mk hchars)
    exact .mk blanks_nil hvalue blanks_nil
  · rfl

end AtomVibe.JsonGrammar
