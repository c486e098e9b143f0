import Mathlib.Data.List.TakeWhile
import Mathlib.Data.String.Basic
import AtomVibe.Foundations.Encodings

/-!
The operations of Rust's `char` and `str` the crates call. A Rust string is a sequence of
Unicode scalar values, which is what a `String` is here; lengths count UTF-8 bytes.
-/

namespace AtomVibe.Text

instance decidableEqByteArray : DecidableEq ByteArray := fun a b =>
  decidable_of_iff (a.data = b.data) ByteArray.ext_iff.symm

def isControl (c : Char) : Bool := c.toNat < 0x20 || (0x7f ≤ c.toNat && c.toNat ≤ 0x9f)

def isWhitespace (c : Char) : Bool :=
  (0x09 ≤ c.toNat && c.toNat ≤ 0x0d) || c.toNat == 0x20 || c.toNat == 0x85 || c.toNat == 0xa0 ||
    c.toNat == 0x1680 || (0x2000 ≤ c.toNat && c.toNat ≤ 0x200a) || c.toNat == 0x2028 ||
    c.toNat == 0x2029 || c.toNat == 0x202f || c.toNat == 0x205f || c.toNat == 0x3000

def isAsciiDigit (c : Char) : Bool := '0' ≤ c && c ≤ '9'

def isAsciiLowercase (c : Char) : Bool := 'a' ≤ c && c ≤ 'z'

def isAsciiUppercase (c : Char) : Bool := 'A' ≤ c && c ≤ 'Z'

def isAsciiAlphanumeric (c : Char) : Bool :=
  isAsciiDigit c || isAsciiLowercase c || isAsciiUppercase c

def isAsciiHexdigit (c : Char) : Bool :=
  isAsciiDigit c || ('a' ≤ c && c ≤ 'f') || ('A' ≤ c && c ≤ 'F')

theorem toLower_ne {c d : Char} (hd : d.val.toNat < 97 ∨ 122 < d.val.toNat) (h : c ≠ d) :
    c.toLower ≠ d := by
  unfold Char.toLower
  split
  · rename_i hupper
    intro heq
    have hval := congrArg (fun e : Char => e.val.toNat) heq
    have hlow := UInt32.le_iff_toNat_le.mp hupper.1
    have hhigh := UInt32.le_iff_toNat_le.mp hupper.2
    simp only [UInt32.toNat_add, UInt32.toNat_sub] at hval
    have h1 : 65 ≤ c.val.toNat := hlow
    have h2 : c.val.toNat ≤ 90 := hhigh
    have h3 : (c.val.toNat + 32) % 2 ^ 32 = d.val.toNat := hval
    omega
  · exact h

def toAsciiLowercase (s : String) : String := String.ofList (s.toList.map Char.toLower)

def trim (s : String) : String :=
  String.ofList (((s.toList.dropWhile isWhitespace).reverse.dropWhile isWhitespace).reverse)

def trimMatches (p : Char → Bool) (cs : List Char) : List Char :=
  ((cs.dropWhile p).reverse.dropWhile p).reverse

def trimChars (cs : List Char) : List Char :=
  ((cs.dropWhile isWhitespace).reverse.dropWhile isWhitespace).reverse

theorem trimChars_blanks {cs blanks : List Char} (h : ∀ c ∈ blanks, isWhitespace c = true) :
    trimChars (cs ++ blanks) = trimChars cs := by
  have hblanks : blanks.dropWhile isWhitespace = [] := by
    rw [List.dropWhile_eq_nil_iff]
    exact h
  have hreverse : blanks.reverse.dropWhile isWhitespace = [] := by
    rw [List.dropWhile_eq_nil_iff]
    exact fun c hc => h c (List.mem_reverse.mp hc)
  rw [trimChars, trimChars, List.dropWhile_append]
  by_cases hcs : (cs.dropWhile isWhitespace).isEmpty = true
  · rw [if_pos hcs, hblanks, List.isEmpty_iff.mp hcs]
  · rw [if_neg hcs, List.reverse_append, List.dropWhile_append, hreverse]
    simp

theorem trimChars_start {blanks : List Char} (start : List Char) {c d : Char}
    (hblanks : ∀ b ∈ blanks, isWhitespace b = true) (hc : isWhitespace c = false)
    (hd : isWhitespace d = false) (rest : List Char) :
    ∃ kept, trimChars (blanks ++ c :: (start ++ d :: rest)) = c :: (start ++ d :: kept) := by
  have hstart : (blanks ++ c :: (start ++ d :: rest)).dropWhile isWhitespace =
      (c :: start) ++ d :: rest := by
    rw [List.dropWhile_append_of_pos hblanks, List.dropWhile_cons_of_neg (by simp [hc])]
    rfl
  have hreverse : ((c :: start) ++ d :: rest).reverse =
      rest.reverse ++ (d :: (c :: start).reverse) := by
    simp
  rw [trimChars, hstart, hreverse, List.dropWhile_append]
  split
  · refine ⟨[], ?_⟩
    rw [List.dropWhile_cons_of_neg (by simp [hd])]
    simp
  · refine ⟨(rest.reverse.dropWhile isWhitespace).reverse, ?_⟩
    simp

def isBlank (s : String) : Bool := s.toList.all isWhitespace

theorem trim_eq_empty_iff (s : String) : trim s = "" ↔ isBlank s = true := by
  have hdrop : ∀ l : List Char, l.dropWhile isWhitespace = [] ↔ l.all isWhitespace = true := by
    intro l
    induction l with
    | nil => simp
    | cons c l ih =>
      by_cases hc : isWhitespace c = true <;> simp [hc, ih]
  have hall : ∀ l : List Char,
      (l.dropWhile isWhitespace).all isWhitespace = true ↔ l.all isWhitespace = true := by
    intro l
    induction l with
    | nil => simp
    | cons c l ih =>
      by_cases hc : isWhitespace c = true <;> simp [hc, ih]
  rw [← String.toList_inj]
  simp only [trim, isBlank, String.toList_ofList, String.toList_empty, List.reverse_eq_nil_iff,
    hdrop, List.all_reverse, hall]

def startsWith (pattern s : String) : Bool := pattern.toList.isPrefixOf s.toList

def endsWith (pattern s : String) : Bool := pattern.toList.isSuffixOf s.toList

def dropPrefixes (pattern : List Char) : ℕ → List Char → List Char
  | 0, cs => cs
  | fuel + 1, cs =>
    if pattern ≠ [] ∧ pattern.isPrefixOf cs then dropPrefixes pattern fuel (cs.drop pattern.length)
    else cs

def trimStartMatches (pattern s : String) : String :=
  String.ofList (dropPrefixes pattern.toList s.length s.toList)

def findSub (pattern : List Char) : List Char → Option (List Char × List Char)
  | [] => if pattern = [] then some ([], []) else none
  | c :: cs =>
    if pattern.isPrefixOf (c :: cs) then some ([], (c :: cs).drop pattern.length)
    else (findSub pattern cs).map fun found => (c :: found.1, found.2)

def contains (pattern s : List Char) : Bool := (findSub pattern s).isSome

theorem contains_iff_infix {pattern cs : List Char} :
    contains pattern cs = true ↔ pattern <:+: cs := by
  induction cs with
  | nil =>
    by_cases h : pattern = [] <;> simp [contains, findSub, h]
  | cons c cs ih =>
    rw [List.infix_cons_iff, ← ih, contains, findSub]
    by_cases h : pattern.isPrefixOf (c :: cs) = true
    · simp [h, List.isPrefixOf_iff_prefix.mp h]
    · rw [if_neg h, Option.isSome_map, contains]
      simp [← List.isPrefixOf_iff_prefix, h]

def splitOn {α : Type} [DecidableEq α] (sep : α) : List α → List (List α)
  | [] => [[]]
  | c :: cs =>
    if c = sep then [] :: splitOn sep cs
    else match splitOn sep cs with
      | [] => [[c]]
      | part :: parts => (c :: part) :: parts

section SplitOn

variable {α : Type} [DecidableEq α] {sep c : α} {cs : List α}

theorem splitOn_ne_nil (sep : α) (cs : List α) : splitOn sep cs ≠ [] := by
  cases cs with
  | nil => simp [splitOn]
  | cons c cs =>
    rw [splitOn]
    split_ifs
    · simp
    · split <;> simp

theorem splitOn_cons_ne (h : c ≠ sep) : ∃ part parts, splitOn sep cs = part :: parts ∧
    splitOn sep (c :: cs) = (c :: part) :: parts := by
  obtain ⟨part, parts, hparts⟩ := List.exists_cons_of_ne_nil (splitOn_ne_nil sep cs)
  refine ⟨part, parts, hparts, ?_⟩
  rw [splitOn, if_neg h, hparts]

theorem exists_part (h : c ∈ cs) (hc : c ≠ sep) : ∃ part ∈ splitOn sep cs, c ∈ part := by
  induction cs with
  | nil => simp at h
  | cons d cs ih =>
    by_cases hd : d = sep
    · rw [splitOn, if_pos hd]
      rcases List.mem_cons.mp h with rfl | h
      · exact absurd hd hc
      · obtain ⟨found, hfound, hmem⟩ := ih h
        exact ⟨found, List.mem_cons_of_mem _ hfound, hmem⟩
    · obtain ⟨part, parts, hparts, hsplit⟩ := splitOn_cons_ne hd
      rw [hsplit]
      rcases List.mem_cons.mp h with rfl | h
      · exact ⟨c :: part, List.mem_cons_self, List.mem_cons_self⟩
      · obtain ⟨found, hfound, hmem⟩ := ih h
        rw [hparts] at hfound
        rcases List.mem_cons.mp hfound with rfl | hfound
        · exact ⟨d :: found, List.mem_cons_self, List.mem_cons_of_mem _ hmem⟩
        · exact ⟨found, List.mem_cons_of_mem _ hfound, hmem⟩

theorem not_mem_part {part : List α} (h : part ∈ splitOn sep cs) : sep ∉ part := by
  induction cs generalizing part with
  | nil =>
    obtain rfl : part = [] := by simpa [splitOn] using h
    simp
  | cons d cs ih =>
    by_cases hd : d = sep
    · rw [splitOn, if_pos hd] at h
      rcases List.mem_cons.mp h with rfl | h
      · simp
      · exact ih h
    · obtain ⟨first, parts, hparts, hsplit⟩ := splitOn_cons_ne hd
      rw [hsplit] at h
      rcases List.mem_cons.mp h with rfl | h
      · have hfirst : sep ∉ first := ih (by simp [hparts])
        simp [Ne.symm hd, hfirst]
      · exact ih (by simp [hparts, h])

theorem splitOn_append_sep (cs ds : List α) :
    splitOn sep (cs ++ sep :: ds) = splitOn sep cs ++ splitOn sep ds := by
  induction cs with
  | nil =>
    change splitOn sep (sep :: ds) = [] :: splitOn sep ds
    rw [splitOn, if_pos rfl]
  | cons c cs ih =>
    by_cases hc : c = sep
    · rw [List.cons_append, splitOn, if_pos hc, ih, splitOn, if_pos hc, List.cons_append]
    · obtain ⟨first, parts, hparts, hsplit⟩ := splitOn_cons_ne hc
      rw [List.cons_append, splitOn, if_neg hc, ih, hsplit, hparts]
      rfl

theorem splitOn_concat (cs : List α) : splitOn sep (cs ++ [sep]) = splitOn sep cs ++ [[]] :=
  splitOn_append_sep cs []

theorem flatMap_splitOn (cs : List α) :
    (splitOn sep cs).flatMap (fun part => part ++ [sep]) = cs ++ [sep] := by
  induction cs with
  | nil => simp [splitOn]
  | cons d cs ih =>
    by_cases hd : d = sep
    · rw [splitOn, if_pos hd, List.flatMap_cons, ih, hd]
      rfl
    · obtain ⟨first, parts, hparts, hsplit⟩ := splitOn_cons_ne hd
      rw [hparts, List.flatMap_cons] at ih
      rw [hsplit, List.flatMap_cons, List.cons_append, List.cons_append, ih, List.cons_append]

end SplitOn

def splitSecond (pattern s : List Char) : Option (List Char) :=
  match findSub pattern s with
  | none => none
  | some (_, rest) =>
    match findSub pattern rest with
    | none => some rest
    | some (second, _) => some second

def replaceChar (old new : Char) (s : String) : String :=
  String.ofList (s.toList.map fun c => if c = old then new else c)

def linesFrom (line : List Char) : List Char → List (List Char)
  | [] => if line = [] then [] else [line.reverse]
  | '\n' :: cs =>
    (match line with
      | '\r' :: kept => kept.reverse
      | _ => line.reverse) :: linesFrom [] cs
  | c :: cs => linesFrom (c :: line) cs

def lines (s : String) : List (List Char) := linesFrom [] s.toList

section Lines

variable {line cs : List Char}

theorem linesFrom_cons {c : Char} (h : c ≠ '\n') : linesFrom line (c :: cs) = linesFrom (c :: line) cs := by
  rw [linesFrom]
  rintro rfl
  exact h rfl

theorem linesFrom_append (h : '\n' ∉ cs) (rest : List Char) :
    linesFrom line (cs ++ rest) = linesFrom (cs.reverse ++ line) rest := by
  induction cs generalizing line with
  | nil => rfl
  | cons c cs ih =>
    simp only [List.mem_cons, not_or] at h
    rw [List.cons_append, linesFrom_cons (Ne.symm h.1), ih h.2]
    simp

theorem linesFrom_newline (line : List Char) :
    ∃ read, ∀ cs, linesFrom line ('\n' :: cs) = read :: linesFrom [] cs :=
  ⟨_, fun _ => rfl⟩

theorem linesFrom_break (line cs rest : List Char) : linesFrom line (cs ++ '\n' :: rest) =
    linesFrom line (cs ++ ['\n']) ++ linesFrom [] rest := by
  induction cs generalizing line with
  | nil =>
    obtain ⟨read, hread⟩ := linesFrom_newline line
    rw [List.nil_append, List.nil_append, hread, hread]
    rfl
  | cons c cs ih =>
    by_cases hc : c = '\n'
    · subst hc
      obtain ⟨read, hread⟩ := linesFrom_newline line
      rw [List.cons_append, List.cons_append, hread, hread, ih]
      rfl
    · rw [List.cons_append, List.cons_append, linesFrom_cons hc, linesFrom_cons hc, ih]

theorem linesFrom_kept {c : Char} (hc : c ≠ '\r') (above line cs : List Char) :
    ∃ more others, linesFrom (above ++ c :: line) cs = ((c :: line).reverse ++ more) :: others := by
  induction cs generalizing above with
  | nil =>
    refine ⟨above.reverse, [], ?_⟩
    rw [linesFrom, if_neg (by simp)]
    simp
  | cons d cs ih =>
    by_cases hd : d = '\n'
    · subst hd
      cases above with
      | nil =>
        refine ⟨[], linesFrom [] cs, ?_⟩
        rw [List.nil_append, List.append_nil, linesFrom.eq_3]
        intro kept heq
        exact absurd (List.cons.inj heq).1 hc
      | cons e above =>
        by_cases he : e = '\r'
        · subst he
          exact ⟨above.reverse, linesFrom [] cs, by simp [linesFrom]⟩
        · refine ⟨above.reverse ++ [e], linesFrom [] cs, ?_⟩
          rw [List.cons_append, linesFrom.eq_3]
          · simp
          · intro kept heq
            exact absurd (List.cons.inj heq).1 he
    · rw [linesFrom_cons hd]
      exact ih (d :: above)

theorem exists_line_within {pattern : List Char} (hne : pattern ≠ []) (hnewline : '\n' ∉ pattern)
    (hreturn : '\r' ∉ pattern) (h : pattern <:+: cs) :
    ∃ found ∈ linesFrom line cs, pattern <:+: found := by
  obtain ⟨front, back, rfl⟩ := h
  induction front generalizing line with
  | nil =>
    obtain ⟨c, last, hlast⟩ := List.exists_cons_of_ne_nil (List.reverse_ne_nil_iff.mpr hne)
    have hc : c ≠ '\r' := by
      rintro rfl
      exact hreturn (List.mem_reverse.mp (hlast ▸ List.mem_cons_self))
    obtain ⟨more, others, hlines⟩ := linesFrom_kept hc [] (last ++ line) back
    rw [List.nil_append, ← List.cons_append, ← hlast, List.reverse_append, List.reverse_reverse,
      List.append_assoc] at hlines
    rw [List.nil_append, linesFrom_append hnewline, hlines]
    exact ⟨_, List.mem_cons_self, line.reverse, more, List.append_assoc _ _ _⟩
  | cons c front ih =>
    by_cases hc : c = '\n'
    · subst hc
      obtain ⟨read, hread⟩ := linesFrom_newline line
      obtain ⟨found, hfound, hin⟩ := @ih []
      rw [List.cons_append, List.cons_append, hread]
      exact ⟨found, List.mem_cons_of_mem _ hfound, hin⟩
    · rw [List.cons_append, List.cons_append, linesFrom_cons hc]
      exact ih

end Lines

def parseU64 (s : String) : Option UInt64 :=
  let digits := match s.toList with
    | '+' :: cs => cs
    | cs => cs
  if digits ≠ [] ∧ digits.all isAsciiDigit ∧ Nat.ofDigitChars 10 digits 0 < UInt64.size then
    some (UInt64.ofNat (Nat.ofDigitChars 10 digits 0))
  else none

def padded (width n : ℕ) : String :=
  String.ofList (List.replicate (width - (Nat.toDigits 10 n).length) '0' ++ Nat.toDigits 10 n)

def utf8Len (cs : List Char) : ℕ := (cs.map Char.utf8Size).sum

theorem fromUTF8?_toByteArray (s : String) : String.fromUTF8? s.toByteArray = some s := by
  rw [String.fromUTF8?, dif_pos s.isValidUTF8]
  rfl

def dropBytes : ℕ → List Char → List Char
  | _, [] => []
  | n, c :: cs => if n = 0 then c :: cs else dropBytes (n - c.utf8Size) cs

def takeBytes : ℕ → List Char → List Char
  | _, [] => []
  | n, c :: cs => if n = 0 then [] else c :: takeBytes (n - c.utf8Size) cs

def slice (start stop : ℕ) (cs : List Char) : List Char :=
  takeBytes (stop - start) (dropBytes start cs)

def isCharBoundary : ℕ → List Char → Bool
  | n, [] => n == 0
  | n, c :: cs => n == 0 || (c.utf8Size ≤ n && isCharBoundary (n - c.utf8Size) cs)

theorem utf8ByteSize_eq (s : String) : s.utf8ByteSize = utf8Len s.toList := by
  have h : ∀ cs : List Char, (String.ofList cs).utf8ByteSize = utf8Len cs := by
    intro cs
    induction cs with
    | nil => simp [utf8Len]
    | cons c cs ih =>
      rw [← List.singleton_append, String.ofList_append, String.utf8ByteSize_append, ih,
        ← String.singleton_eq_ofList, String.utf8ByteSize_singleton]
      simp [utf8Len]
  simpa using h s.toList

theorem isAsciiDigit_eq (c : Char) : isAsciiDigit c = c.isDigit := by
  simp only [isAsciiDigit, Char.isDigit, Char.le_def]

theorem toDigits_isAsciiDigit {n : ℕ} {c : Char} (h : c ∈ Nat.toDigits 10 n) :
    isAsciiDigit c = true := by
  rw [isAsciiDigit_eq]
  exact Nat.isDigit_of_mem_toDigits (by decide) (by decide) h

theorem repr_injective : Function.Injective Nat.repr := by
  intro m n h
  have hd : Nat.toDigits 10 m = Nat.toDigits 10 n := by
    rw [← Nat.toList_repr, ← Nat.toList_repr, h]
  rw [← Nat.ofDigitChars_ten_toDigits (n := m), hd, Nat.ofDigitChars_ten_toDigits]

theorem colon_not_mem_repr (n : ℕ) : ':' ∉ n.repr.toList := by
  rw [Nat.toList_repr]
  intro h
  exact absurd (toDigits_isAsciiDigit h) (by decide)

theorem padded_isAsciiDigit {width n : ℕ} {c : Char} (h : c ∈ (padded width n).toList) :
    isAsciiDigit c = true := by
  rw [padded, String.toList_ofList] at h
  rcases List.mem_append.mp h with h | h
  · rw [List.eq_of_mem_replicate h]
    decide
  · exact toDigits_isAsciiDigit h

theorem padded_injective (width : ℕ) : Function.Injective (padded width) := by
  have hread : ∀ n, Nat.ofDigitChars 10 (padded width n).toList 0 = n := by
    intro n
    rw [padded, String.toList_ofList, Nat.ofDigitChars_append, Nat.ofDigitChars_replicate_zero,
      Nat.mul_zero, Nat.ofDigitChars_ten_toDigits]
  intro m n h
  rw [← hread m, h, hread n]

theorem parseU64_repr (n : UInt64) : parseU64 n.toNat.repr = some n := by
  have hd : ∀ c ∈ Nat.toDigits 10 n.toNat, isAsciiDigit c = true :=
    fun c hc => toDigits_isAsciiDigit hc
  have hs : (match Nat.toDigits 10 n.toNat with
      | '+' :: cs => cs
      | cs => cs) = Nat.toDigits 10 n.toNat := by
    split
    · rename_i cs hcs
      rw [hcs] at hd
      exact absurd (hd '+' List.mem_cons_self) (by decide)
    · rfl
  have hlt : n.toNat < UInt64.size := n.toNat_lt_size
  simp only [parseU64, Nat.toList_repr, hs]
  rw [if_pos ⟨Nat.toDigits_ne_nil, List.all_eq_true.mpr hd, by
    rwa [Nat.ofDigitChars_ten_toDigits]⟩, Nat.ofDigitChars_ten_toDigits]
  simp

end AtomVibe.Text
