import AtomVibe.HtmlTokens
import AtomVibe.JsonComplete

/-!
The reader of the string after a member's colon that `avc-core` has of its own, against the strict
parser. Where it subtracts below zero it does not return.
-/

namespace AtomVibe.Core

open Text Html Json Parser JsonGrammar

def hexUnit (rest : List Char) : Option ℕ :=
  if rest.length < 4 then none else fromStrRadix 16 u32Size (rest.take 4)

def checkedSub (a b : ℕ) : Option ℕ := if b ≤ a then some (a - b) else none

def surrogatePair (cp lo : ℕ) : Option (Option Char) := do
  let high ← checkedSub cp 0xd800
  let low ← checkedSub lo 0xdc00
  return charFromU32 (0x10000 + high * 2 ^ 10 + low)

def unicodeEscape (rest : List Char) : Option (Option Char × List Char) :=
  match hexUnit rest with
  | none => some (none, rest)
  | some cp =>
    let rest := rest.drop 4
    if 0xd800 ≤ cp ∧ cp ≤ 0xdbff then
      match rest with
      | '\\' :: 'u' :: behind =>
        match hexUnit behind with
        | none => some (none, rest)
        | some lo => (surrogatePair cp lo).map fun c => (c, behind.drop 4)
      | _ => some (none, rest)
    else some (charFromU32 cp, rest)

def escapedChar : Char → Char
  | 'b' => '\x08'
  | 'f' => '\x0c'
  | 'n' => '\n'
  | 'r' => '\r'
  | 't' => '\t'
  | other => other

def readCharsLoop : ℕ → List Char → List Char → Option (Option String)
  | 0, _, _ => none
  | _ + 1, _, [] => some none
  | fuel + 1, out, ch :: rest =>
    if ch = '\\' then
      match rest with
      | [] => some none
      | esc :: rest =>
        if esc = 'u' then do
          let (written, rest) ← unicodeEscape rest
          readCharsLoop fuel (written.toList ++ out) rest
        else readCharsLoop fuel (escapedChar esc :: out) rest
    else if ch = '"' then some (some (String.ofList out.reverse))
    else readCharsLoop fuel (ch :: out) rest

def isBeforeString (c : Char) : Bool := isWhitespace c || c == ':'

def readJsonStringAfterColon (input : List Char) : Option (Option String) :=
  match input.dropWhile isBeforeString with
  | '"' :: rest => readCharsLoop (rest.length + 1) [] rest
  | _ => some none

inductive Pieces : List Char → Prop
  | nil : Pieces []
  | plain {c : Char} {cs : List Char} (hslash : c ≠ '\\') (hquote : c ≠ '"') (tail : Pieces cs) :
      Pieces (c :: cs)
  | escape {c : Char} {cs : List Char} (tail : Pieces cs) : Pieces ('\\' :: c :: cs)

def UnmatchedAt (found : List Char) : Prop :=
  ∃ hi behind cp unit, found = '\\' :: 'u' :: (hi ++ '\\' :: 'u' :: behind) ∧ hi.length = 4 ∧
    hexUnit hi = some cp ∧ isHighSurrogate cp ∧ hexUnit behind = some unit ∧ unit < 0xdc00

def Unmatched (rest : List Char) : Prop :=
  ∃ before found, rest = before ++ found ∧ Pieces before ∧ UnmatchedAt found

def OpensUnmatched (input : List Char) : Prop :=
  ∃ lead rest, input = lead ++ '"' :: rest ∧ (∀ c ∈ lead, isBeforeString c = true) ∧
    Unmatched rest

section Digits

variable {rest digits t : List Char} {n : ℕ} {c : Char}

theorem digitOf_of_toDigit16 (h : toDigit16 c = some n) : digitOf 16 c = some n := by
  have hlt := toDigit16_lt h
  rw [toDigit16] at h
  rw [digitOf]
  split_ifs at h with hdigit hlower hupper
  · rw [if_pos hdigit, Option.filter_some, ← Option.some.inj h]
    simp only [decide_eq_true_eq]
    rw [if_pos (Option.some.inj h ▸ hlt)]
  · have hsmall : isAsciiLowercase c = true := by
      simp only [isAsciiLowercase, Bool.and_eq_true, decide_eq_true_eq]
      exact ⟨hlower.1, hlower.2.trans (by decide)⟩
    rw [if_neg hdigit, if_pos hsmall, Option.filter_some, ← Option.some.inj h]
    simp only [decide_eq_true_eq]
    rw [if_pos (Option.some.inj h ▸ hlt)]
  · have hlarge : isAsciiUppercase c = true := by
      simp only [isAsciiUppercase, Bool.and_eq_true, decide_eq_true_eq]
      exact ⟨hupper.1, hupper.2.trans (by decide)⟩
    have hsmall : ¬isAsciiLowercase c = true := by
      simp only [isAsciiLowercase, Bool.and_eq_true, decide_eq_true_eq]
      intro hle
      exact absurd (hle.1.trans (hupper.2.trans (by decide : 'F' ≤ 'Z'))) (by decide)
    rw [if_neg hdigit, if_neg hsmall, if_pos hlarge, Option.filter_some, ← Option.some.inj h]
    simp only [decide_eq_true_eq]
    rw [if_pos (Option.some.inj h ▸ hlt)]

theorem fromStrRadix_cons {radix size : ℕ} {s : List Char} {values : List ℕ} (hplus : c ≠ '+')
    (h : (c :: s).mapM (digitOf radix) = some values) : fromStrRadix radix size (c :: s) =
      (some (values.foldl (fun n d => n * radix + d) 0)).filter (· < size) := by
  unfold fromStrRadix
  split
  · rename_i heq
    exact absurd (List.cons.inj heq).1 hplus
  · simp only [List.isEmpty_cons, h]
    rfl

theorem hexUnit_of_hexText (h : HexText digits n) (t : List Char) :
    hexUnit (digits ++ t) = some n := by
  have hlt := h.lt
  cases h with
  | @mk a b c d w x y z first second third fourth =>
    have hplus : a ≠ '+' := by
      rintro rfl
      cases first
    have hvalues : [a, b, c, d].mapM (digitOf 16) = some [w, x, y, z] := by
      simp [digitOf_of_toDigit16 first, digitOf_of_toDigit16 second, digitOf_of_toDigit16 third,
        digitOf_of_toDigit16 fourth]
    rw [hexUnit, if_neg (by simp)]
    change fromStrRadix 16 u32Size [a, b, c, d] = _
    rw [fromStrRadix_cons hplus hvalues]
    simp only [List.foldl_cons, List.foldl_nil, Option.filter_some, Nat.zero_mul,
      Nat.zero_add]
    rw [if_pos (by rw [decide_eq_true_eq, u32Size]; omega)]

theorem all_digits {radix : ℕ} {s : List Char} {values : List ℕ}
    (h : s.mapM (digitOf radix) = some values) : ∀ c ∈ s, (digitOf radix c).isSome = true := by
  induction s generalizing values with
  | nil => simp
  | cons c s ih =>
    simp only [List.mapM_cons, Option.bind_eq_bind, Option.bind_eq_some_iff] at h
    obtain ⟨value, hvalue, rest, hrest, -⟩ := h
    rw [List.forall_mem_cons]
    exact ⟨Option.isSome_iff_exists.mpr ⟨value, hvalue⟩, ih hrest⟩

def digitsValue (size : ℕ) (digits : List Char) : Option ℕ :=
  if digits.isEmpty then none
  else match digits.mapM (digitOf 16) with
    | none => none
    | some values => (some (values.foldl (fun n d => n * 16 + d) 0)).filter (· < size)

theorem plain_of_digitsValue {size : ℕ} {digits : List Char}
    (h : digitsValue size digits = some n) : ∀ c ∈ digits, c ≠ '\\' ∧ c ≠ '"' := by
  have hplain : ∀ c, (digitOf 16 c).isSome = true → c ≠ '\\' ∧ c ≠ '"' := by
    intro c hc
    constructor <;> (rintro rfl; revert hc; decide)
  intro c hc
  rw [digitsValue] at h
  split at h
  · cases h
  · cases hvalues : digits.mapM (digitOf 16) with
    | none => simp [hvalues] at h
    | some values => exact hplain c (all_digits hvalues c hc)

theorem plain_of_fromStrRadix {size : ℕ} {s : List Char} (h : fromStrRadix 16 size s = some n) :
    ∀ c ∈ s, c ≠ '\\' ∧ c ≠ '"' := by
  unfold fromStrRadix at h
  split at h
  · rw [List.forall_mem_cons]
    exact ⟨by decide, plain_of_digitsValue h⟩
  · exact plain_of_digitsValue h

theorem digits_of_hexUnit (h : hexUnit rest = some n) : ∃ digits t, rest = digits ++ t ∧
    digits.length = 4 ∧ ∀ c ∈ digits, c ≠ '\\' ∧ c ≠ '"' := by
  rw [hexUnit] at h
  split at h
  · cases h
  · rename_i hlength
    refine ⟨rest.take 4, rest.drop 4, (List.take_append_drop 4 rest).symm, ?_, ?_⟩
    · rw [List.length_take]
      omega
    · exact plain_of_fromStrRadix h

end Digits

section Unmatched

variable {rest found : List Char} {c : Char}

theorem not_unmatched_nil : ¬Unmatched [] := by
  rintro ⟨before, found, heq, -, hi, behind, cp, unit, rfl, -⟩
  simp at heq

theorem not_unmatched_quote : ¬Unmatched ('"' :: rest) := by
  rintro ⟨before, found, heq, hpieces, hi, behind, cp, unit, rfl, -⟩
  cases hpieces with
  | nil => simp at heq
  | plain _ hquote _ => exact hquote (List.cons.inj heq).1.symm
  | escape _ => simp at heq

theorem not_unmatched_slash : ¬Unmatched ['\\'] := by
  rintro ⟨before, found, heq, hpieces, hi, behind, cp, unit, rfl, -⟩
  have hlength := congrArg List.length heq
  simp only [List.length_append, List.length_cons, List.length_nil] at hlength
  omega

theorem unmatched_plain (hslash : c ≠ '\\') (hquote : c ≠ '"') :
    Unmatched (c :: rest) ↔ Unmatched rest := by
  constructor
  · rintro ⟨before, found, heq, hpieces, hfound⟩
    cases hpieces with
    | nil =>
      obtain ⟨hi, behind, cp, unit, rfl, -⟩ := hfound
      exact absurd (List.cons.inj heq).1 hslash
    | plain _ _ tail => exact ⟨_, found, (List.cons.inj heq).2, tail, hfound⟩
    | escape _ => exact absurd (List.cons.inj heq).1 hslash
  · rintro ⟨before, found, rfl, hpieces, hfound⟩
    exact ⟨c :: before, found, rfl, .plain hslash hquote hpieces, hfound⟩

theorem unmatched_escape :
    Unmatched ('\\' :: c :: rest) ↔ UnmatchedAt ('\\' :: c :: rest) ∨ Unmatched rest := by
  constructor
  · rintro ⟨before, found, heq, hpieces, hfound⟩
    cases hpieces with
    | nil => exact .inl (heq ▸ hfound)
    | plain hslash _ _ => exact absurd (List.cons.inj heq).1.symm hslash
    | escape tail =>
      exact .inr ⟨_, found, (List.cons.inj (List.cons.inj heq).2).2, tail, hfound⟩
  · rintro (hfound | ⟨before, found, rfl, hpieces, hfound⟩)
    · exact ⟨[], _, rfl, .nil, hfound⟩
    · exact ⟨'\\' :: c :: before, found, rfl, .escape hpieces, hfound⟩

theorem unmatched_digits {n : ℕ} (h : hexUnit rest = some n) :
    Unmatched (rest.drop 4) ↔ Unmatched rest := by
  obtain ⟨digits, t, rfl, hlength, hplain⟩ := digits_of_hexUnit h
  rw [List.drop_left' hlength]
  clear h hlength
  induction digits with
  | nil => rfl
  | cons d digits ih =>
    rw [List.forall_mem_cons] at hplain
    rw [List.cons_append, unmatched_plain hplain.1.1 hplain.1.2]
    exact ih hplain.2

theorem unmatchedAt_iff : UnmatchedAt ('\\' :: c :: rest) ↔ c = 'u' ∧ ∃ cp behind unit,
    hexUnit rest = some cp ∧ isHighSurrogate cp ∧ rest.drop 4 = '\\' :: 'u' :: behind ∧
      hexUnit behind = some unit ∧ unit < 0xdc00 := by
  constructor
  · rintro ⟨hi, behind, cp, unit, heq, hlength, hhi, hsurrogate, hbehind, hunit⟩
    obtain ⟨rfl, rfl⟩ := List.cons.inj (List.cons.inj heq).2
    refine ⟨rfl, cp, behind, unit, ?_, hsurrogate, List.drop_left' hlength, hbehind, hunit⟩
    rw [hexUnit, if_neg (by rw [List.length_append]; omega), List.take_left' hlength]
    rwa [hexUnit, if_neg (by omega), List.take_of_length_le (by omega)] at hhi
  · rintro ⟨rfl, cp, behind, unit, hcp, hsurrogate, hdrop, hbehind, hunit⟩
    have hlength : ¬rest.length < 4 := by
      intro hlt
      rw [hexUnit, if_pos hlt] at hcp
      cases hcp
    refine ⟨rest.take 4, behind, cp, unit, ?_, ?_, ?_, hsurrogate, hbehind, hunit⟩
    · rw [← hdrop, List.take_append_drop]
    · rw [List.length_take]
      omega
    · rw [hexUnit, if_neg hlength] at hcp
      rw [hexUnit, if_neg (by rw [List.length_take]; omega), List.take_take, min_self]
      exact hcp

end Unmatched

section Loop

variable {rest out : List Char} {fuel : ℕ}

theorem surrogatePair_eq_none {cp lo : ℕ} (hcp : isHighSurrogate cp) :
    surrogatePair cp lo = none ↔ lo < 0xdc00 := by
  have hhigh : checkedSub cp 0xd800 = some (cp - 0xd800) := if_pos hcp.1
  rw [surrogatePair, hhigh, checkedSub]
  split_ifs with hle
  · exact iff_of_false (by simp) (by omega)
  · exact iff_of_true rfl (by omega)

theorem unicodeEscape_cases (rest : List Char) :
    (unicodeEscape rest = none ∧ UnmatchedAt ('\\' :: 'u' :: rest)) ∨
      ∃ written left, unicodeEscape rest = some (written, left) ∧ left.length ≤ rest.length ∧
        (Unmatched left ↔ Unmatched ('\\' :: 'u' :: rest)) := by
  have hno : ∀ left, (Unmatched left ↔ Unmatched rest) →
      ¬UnmatchedAt ('\\' :: 'u' :: rest) →
        (Unmatched left ↔ Unmatched ('\\' :: 'u' :: rest)) := by
    intro left hleft hat
    rw [hleft, unmatched_escape]
    exact (or_iff_right hat).symm
  rw [unicodeEscape]
  cases hcp : hexUnit rest with
  | none =>
    refine .inr ⟨none, rest, rfl, le_refl _, hno rest Iff.rfl ?_⟩
    rw [unmatchedAt_iff, hcp]
    rintro ⟨-, _, _, _, h, -⟩
    cases h
  | some cp =>
    have hdrop := unmatched_digits hcp
    have hlength : (rest.drop 4).length ≤ rest.length := by
      rw [List.length_drop]
      omega
    simp only
    by_cases hsurrogate : 0xd800 ≤ cp ∧ cp ≤ 0xdbff
    · rw [if_pos hsurrogate]
      split
      · rename_i behind hbehind
        cases hlo : hexUnit behind with
        | none =>
          refine .inr ⟨none, rest.drop 4, rfl, hlength, hno _ hdrop ?_⟩
          rw [unmatchedAt_iff, hcp]
          rintro ⟨-, _, other, _, -, -, hother, hunit, -⟩
          obtain rfl : behind = other := by
            rw [hbehind] at hother
            exact (List.cons.inj (List.cons.inj hother).2).2
          rw [hlo] at hunit
          cases hunit
        | some lo =>
          by_cases hlow : lo < 0xdc00
          · refine .inl ⟨?_, ?_⟩
            · simp only
              rw [(surrogatePair_eq_none hsurrogate).mpr hlow]
              rfl
            · exact unmatchedAt_iff.mpr ⟨rfl, cp, behind, lo, hcp, hsurrogate, hbehind, hlo, hlow⟩
          · obtain ⟨written, hwritten⟩ := Option.ne_none_iff_exists'.mp
              (mt (surrogatePair_eq_none hsurrogate).mp hlow)
            refine .inr ⟨written, behind.drop 4, ?_, ?_, ?_⟩
            · simp only
              rw [hwritten]
              rfl
            · have hle := congrArg List.length hbehind
              simp only [List.length_drop, List.length_cons] at hle ⊢
              omega
            · rw [unmatched_digits hlo, unmatched_escape, ← hdrop, hbehind, unmatched_escape]
              have hhere : ¬UnmatchedAt ('\\' :: 'u' :: rest) := by
                rw [unmatchedAt_iff]
                rintro ⟨-, _, other, unit, -, -, hother, hunit, hlt⟩
                obtain rfl : behind = other := by
                  rw [hbehind] at hother
                  exact (List.cons.inj (List.cons.inj hother).2).2
                rw [hlo] at hunit
                obtain rfl := Option.some.inj hunit
                exact hlow hlt
              have hnext : ¬UnmatchedAt ('\\' :: 'u' :: behind) := by
                rw [unmatchedAt_iff]
                rintro ⟨-, _, _, _, hunit, hhigh, -⟩
                rw [hlo] at hunit
                obtain rfl := Option.some.inj hunit
                have hle := hhigh.2
                omega
              rw [or_iff_right hhere, or_iff_right hnext]
      · rename_i hother
        refine .inr ⟨none, rest.drop 4, rfl, hlength, hno _ hdrop ?_⟩
        rw [unmatchedAt_iff]
        rintro ⟨-, _, behind, _, -, -, hbehind, -⟩
        exact hother behind hbehind
    · rw [if_neg hsurrogate]
      refine .inr ⟨_, rest.drop 4, rfl, hlength, hno _ hdrop ?_⟩
      rw [unmatchedAt_iff, hcp]
      rintro ⟨-, _, _, _, heq, hhigh, -⟩
      exact hsurrogate (Option.some.inj heq ▸ hhigh)

theorem readCharsLoop_cons {ch : Char} (hslash : ch ≠ '\\') :
    readCharsLoop (fuel + 1) out (ch :: rest) =
      if ch = '"' then some (some (String.ofList out.reverse))
      else readCharsLoop fuel (ch :: out) rest := by
  rw [readCharsLoop.eq_def]
  simp only [if_neg hslash]

theorem readCharsLoop_eq_none (h : rest.length < fuel) :
    readCharsLoop fuel out rest = none ↔ Unmatched rest := by
  induction fuel generalizing out rest with
  | zero => omega
  | succ fuel ih =>
    cases rest with
    | nil => exact iff_of_false (by simp [readCharsLoop]) not_unmatched_nil
    | cons ch rest =>
      rw [List.length_cons] at h
      by_cases hslash : ch = '\\'
      · subst hslash
        cases rest with
        | nil => exact iff_of_false (by simp [readCharsLoop]) not_unmatched_slash
        | cons esc rest =>
          rw [List.length_cons] at h
          rw [readCharsLoop, if_pos rfl]
          simp only
          by_cases hu : esc = 'u'
          · subst hu
            rw [if_pos rfl]
            rcases unicodeEscape_cases rest with ⟨hnone, hat⟩ | ⟨written, left, hsome, hle, hiff⟩
            · rw [hnone]
              exact iff_of_true rfl (unmatched_escape.mpr (.inl hat))
            · rw [hsome, ← hiff]
              exact ih (show left.length < fuel by omega)
          · rw [if_neg hu, ih (by omega), unmatched_escape, unmatchedAt_iff]
            simp [hu]
      · rw [readCharsLoop_cons hslash]
        split_ifs with hquote
        · subst hquote
          exact iff_of_false (by simp) not_unmatched_quote
        · rw [ih (by omega), unmatched_plain hslash hquote]

theorem readCharsLoop_char {cs t : List Char} {c : Char} (h : CharText literalChar cs c) :
    readCharsLoop (fuel + 1) out (cs ++ t) = readCharsLoop fuel (c :: out) t := by
  have hunit : ∀ {after written left}, unicodeEscape after = some (some written, left) →
      readCharsLoop (fuel + 1) out ('\\' :: 'u' :: after) =
        readCharsLoop fuel (written :: out) left := by
    intro after written left hescape
    rw [readCharsLoop, if_pos rfl]
    simp only [if_true, hescape]
    rfl
  cases h with
  | plain allowed =>
    simp only [literalChar, Bool.and_eq_true, Bool.not_eq_true', bne_iff_ne] at allowed
    obtain ⟨⟨-, hquote⟩, hslash⟩ := allowed
    rw [List.singleton_append, readCharsLoop_cons hslash, if_neg hquote]
  | @escape letter _ known =>
    have hsimple : letter ≠ 'u' ∧ escapedChar letter = c := by
      revert known
      simp only [escapes, List.mem_cons, List.not_mem_nil, or_false, Prod.mk.injEq]
      rintro (⟨rfl, rfl⟩ | ⟨rfl, rfl⟩ | ⟨rfl, rfl⟩ | ⟨rfl, rfl⟩ | ⟨rfl, rfl⟩ | ⟨rfl, rfl⟩ |
        ⟨rfl, rfl⟩ | ⟨rfl, rfl⟩) <;> decide
    change readCharsLoop (fuel + 1) out ('\\' :: letter :: t) = _
    rw [readCharsLoop, if_pos rfl]
    simp only [if_neg hsimple.1, hsimple.2]
  | @unit digits n hex scalar =>
    have hvalid : n.isValidChar := by
      have hlt := hex.lt
      simp only [isHighSurrogate, isLowSurrogate] at scalar
      simp only [Nat.isValidChar]
      omega
    have hlength : digits.length = 4 := by
      cases hex
      rfl
    apply hunit
    change unicodeEscape (digits ++ t) = _
    rw [unicodeEscape, hexUnit_of_hexText hex]
    simp only
    rw [if_neg (show ¬(0xd800 ≤ n ∧ n ≤ 0xdbff) from scalar.1), List.drop_left' hlength,
      charFromU32, if_pos hvalid]
  | @pair digits digits' high low hex hex' first second =>
    have hvalid : (0x10000 + (high - 0xd800) * 2 ^ 10 + (low - 0xdc00)).isValidChar := by
      simp only [isHighSurrogate, isLowSurrogate] at first second
      simp only [Nat.isValidChar]
      omega
    have hlength : digits.length = 4 ∧ digits'.length = 4 := by
      cases hex
      cases hex'
      exact ⟨rfl, rfl⟩
    have hpair : surrogatePair high low =
        some (some (Char.ofNat (0x10000 + (high - 0xd800) * 2 ^ 10 + (low - 0xdc00)))) := by
      have hhigh : checkedSub high 0xd800 = some (high - 0xd800) := if_pos first.1
      have hlow : checkedSub low 0xdc00 = some (low - 0xdc00) := if_pos second.1
      simp only [surrogatePair, hhigh, hlow, Option.bind_eq_bind, Option.bind_some, charFromU32,
        if_pos hvalid]
      rfl
    have htext : '\\' :: 'u' :: (digits ++ '\\' :: 'u' :: digits') ++ t =
        '\\' :: 'u' :: (digits ++ '\\' :: 'u' :: (digits' ++ t)) := by simp
    rw [htext]
    apply hunit
    rw [unicodeEscape, hexUnit_of_hexText hex]
    simp only
    rw [if_pos (show 0xd800 ≤ high ∧ high ≤ 0xdbff from first), List.drop_left' hlength.1]
    simp only
    rw [hexUnit_of_hexText hex']
    simp only
    rw [hpair, List.drop_left' hlength.2]
    rfl

theorem readCharsLoop_chars {cs t decoded : List Char} (h : CharsText literalChar cs decoded)
    (hfuel : cs.length < fuel) : readCharsLoop fuel out (cs ++ '"' :: t) =
      some (some (String.ofList (out.reverse ++ decoded))) := by
  induction h generalizing fuel out with
  | nil =>
    obtain ⟨fuel, rfl⟩ := Nat.exists_eq_succ_of_ne_zero (by omega : fuel ≠ 0)
    rw [List.nil_append, List.append_nil, readCharsLoop_cons (by decide), if_pos rfl]
  | @cons cs rest decoded c head _ ih =>
    obtain ⟨fuel, rfl⟩ := Nat.exists_eq_succ_of_ne_zero (by omega : fuel ≠ 0)
    have hpos := head.length_pos
    rw [List.length_append] at hfuel
    rw [List.append_assoc, readCharsLoop_char head, ih (by omega), List.reverse_cons,
      List.append_assoc, List.singleton_append]

end Loop

section Reader

variable {input lead rest : List Char}

theorem readJsonStringAfterColon_eq (hlead : ∀ c ∈ lead, isBeforeString c = true) :
    readJsonStringAfterColon (lead ++ '"' :: rest) = readCharsLoop (rest.length + 1) [] rest := by
  have hquote : ('"' :: rest).dropWhile isBeforeString = '"' :: rest :=
    List.dropWhile_cons_of_neg (by decide)
  rw [readJsonStringAfterColon, List.dropWhile_append_of_pos hlead, hquote]
  rfl

theorem readJsonStringAfterColon_eq_none (input : List Char) :
    readJsonStringAfterColon input = none ↔ OpensUnmatched input := by
  constructor
  · intro h
    unfold readJsonStringAfterColon at h
    split at h
    · rename_i rest hrest
      refine ⟨input.takeWhile isBeforeString, rest, ?_, ?_, ?_⟩
      · rw [← hrest, List.takeWhile_append_dropWhile]
      · exact fun c hc => List.mem_takeWhile_imp hc
      · exact (readCharsLoop_eq_none (Nat.lt_succ_self _)).mp h
    · cases h
  · rintro ⟨lead, rest, rfl, hlead, hunmatched⟩
    rw [readJsonStringAfterColon_eq hlead]
    exact (readCharsLoop_eq_none (Nat.lt_succ_self _)).mpr hunmatched

theorem readJsonStringAfterColon_of_parse {p q : Parser} {s : String}
    (hlead : ∀ c ∈ lead, isBeforeString c = true) (h : p.parseString = .ok (s, q)) :
    readJsonStringAfterColon (lead ++ p.rest) = some (some s) := by
  obtain ⟨cs, hread, hstring⟩ := parseString_sound h
  obtain ⟨chars⟩ := hstring
  rename_i cs decoded
  have hrest : p.rest = '"' :: (cs ++ '"' :: q.rest) := by
    rw [hread.rest]
    simp
  rw [hrest, readJsonStringAfterColon_eq hlead, readCharsLoop_chars chars]
  · rfl
  · rw [List.length_append]
    omega

structure ReadsStrings (input : List Char) : Prop where
  returns : readJsonStringAfterColon input ≠ none
  agrees : ∀ (lead : List Char) (p q : Parser) (s : String), input = lead ++ p.rest → (∀ c ∈ lead, isBeforeString c = true) →
    p.parseString = .ok (s, q) → readJsonStringAfterColon input = some (some s)

/-- The reader returns, and reads the strings the strict parser accepts as that does, unless the
text opens a string in which a high surrogate is followed by a number below the low ones. -/
theorem readsStrings_iff (input : List Char) : ReadsStrings input ↔ ¬OpensUnmatched input := by
  rw [← readJsonStringAfterColon_eq_none]
  refine ⟨fun h => h.returns, fun h => ⟨h, ?_⟩⟩
  rintro lead p q s rfl hlead hparse
  exact readJsonStringAfterColon_of_parse hlead hparse

theorem unmatched_letter : ¬ReadsStrings ":\"\\ud83d\\u0041\"".toList :=
  fun h => h.returns (by decide +kernel)

end Reader

end AtomVibe.Core
