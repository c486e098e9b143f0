import AtomVibe.ByteOffsets
import AtomVibe.Foundations.WordWrap
import AtomVibe.Foundations.SpacedWords
import Mathlib.Algebra.Order.Field.Rat
import Mathlib.Algebra.Order.Ring.WithTop
import Mathlib.Tactic.Linarith

namespace AtomVibe.TextWrap

open Text WordWrap SpacedWords

/-- A face of the system font, by the advances of its characters. -/
structure Face where
  advance : Char → ℚ → ℚ

/-- The faces found on the machine; where one is missing the bitmap tier draws. -/
structure Fonts where
  regular : Option Face
  bold : Option Face

def Fonts.face (fonts : Fonts) (bold : Bool) : Option Face :=
  if bold then fonts.bold else fonts.regular

def wrapSlack : ℚ := 1 / 20

theorem length_dropBytes_lt {rest : List Char} {n : ℕ}
    (h : ¬ utf8Len rest ≤ charBoundary rest (max n 1)) :
    (dropBytes (charBoundary rest (max n 1)) rest).length < rest.length := by
  rw [utf8Len_le_charBoundary] at h
  rw [dropBytes_charBoundary, List.length_drop]
  omega

section Functions

variable (fonts : Fonts)

def advanceStyled (content : List Char) (size : ℚ) (bold : Bool) : ℚ :=
  match fonts.face bold with
  | some f => (content.map fun c => f.advance c size).sum
  | none => content.length * 6 * max (size / 7) 1

def advance (content : List Char) (size : ℚ) : ℚ := advanceStyled fonts content size false

def charAdvance (ch : Char) (size : ℚ) (bold : Bool) : ℚ :=
  match fonts.face bold with
  | some f => f.advance ch size
  | none => 6 * max (size / 7) 1

def fitChars (size : ℚ) (bold : Bool) (maxWidth : WithTop ℚ) (used : ℚ) (count : ℕ) :
    List Char → ℕ
  | [] => count
  | ch :: content =>
    if maxWidth + wrapSlack < ↑(used + charAdvance fonts ch size bold) then count
    else fitChars size bold maxWidth (used + charAdvance fonts ch size bold) (count + 1) content

def fitCharsStyled (content : List Char) (size : ℚ) (bold : Bool) (maxWidth : WithTop ℚ) : ℕ :=
  fitChars fonts size bold maxWidth 0 0 content

structure Wrap where
  lines : List (List Char)
  cur : List Char
  curW : ℚ

namespace Wrap

variable (size maxWidth : ℚ)

def cutWord (s : Wrap) (rest : List Char) : Wrap :=
  let n := max (fitCharsStyled fonts rest size false maxWidth) 1
  let cut := charBoundary rest n
  if utf8Len rest ≤ cut then { s with cur := s.cur ++ rest, curW := advance fonts rest size }
  else cutWord { s with lines := s.lines ++ [takeBytes cut rest] } (dropBytes cut rest)
termination_by rest.length
decreasing_by
  rename_i h
  exact length_dropBytes_lt h

def addWord (s : Wrap) (word : List Char) : Wrap :=
  let spaceW := advance fonts [' '] size
  let wordW := advance fonts word size
  if maxWidth + wrapSlack < wordW then
    let s := if s.cur.isEmpty then s else { s with lines := s.lines ++ [s.cur], cur := [] }
    s.cutWord fonts size maxWidth word
  else
    let need := if s.cur.isEmpty then wordW else s.curW + spaceW + wordW
    if s.cur.isEmpty || need ≤ maxWidth + wrapSlack then
      { s with cur := (if s.cur.isEmpty then [] else s.cur ++ [' ']) ++ word, curW := need }
    else { s with lines := s.lines ++ [s.cur], cur := word, curW := wordW }

end Wrap

def splitWhitespace (content : List Char) : List (List Char) := words isWhitespace content

def wrap (content : List Char) (size maxWidth : ℚ) : List (List Char) :=
  if maxWidth ≤ 0 then [content]
  else
    let s := (splitWhitespace content).foldl (Wrap.addWord fonts size maxWidth) ⟨[], [], 0⟩
    let lines := if s.cur.isEmpty then s.lines else s.lines ++ [s.cur]
    if lines.isEmpty then [[]] else lines

structure WrapRanges where
  lines : List (ℕ × ℕ)
  cur : Option (ℕ × ℕ)
  curW : ℚ
  word : List Char
  wordStart : ℕ

namespace WrapRanges

variable (size maxWidth : ℚ)

def cutWord (wordEnd : ℕ) (s : WrapRanges) (cs : ℕ) (rest : List Char) : WrapRanges :=
  if rest.isEmpty then s
  else
    let n := max (fitCharsStyled fonts rest size false maxWidth) 1
    let cut := charBoundary rest n
    if utf8Len rest ≤ cut then { s with cur := some (cs, wordEnd), curW := advance fonts rest size }
    else cutWord wordEnd { s with lines := s.lines ++ [(cs, cs + n)] } (cs + n) (dropBytes cut rest)
termination_by rest.length
decreasing_by
  rename_i h
  exact length_dropBytes_lt h

def endWord (s : WrapRanges) (wordEnd : ℕ) : WrapRanges :=
  let spaceW := advance fonts [' '] size
  let wordW := advance fonts s.word size
  let s' :=
    if maxWidth + wrapSlack < wordW then
      let flushed := match s.cur with
        | some range => { s with lines := s.lines ++ [range], cur := none, curW := 0 }
        | none => s
      flushed.cutWord fonts size maxWidth wordEnd s.wordStart s.word
    else match s.cur with
      | some (lineStart, lineEnd) =>
        if maxWidth + wrapSlack < s.curW + spaceW + wordW then
          { s with
            lines := s.lines ++ [(lineStart, lineEnd)]
            cur := some (s.wordStart, wordEnd)
            curW := wordW }
        else { s with cur := some (lineStart, wordEnd), curW := s.curW + (spaceW + wordW) }
      | none => { s with cur := some (s.wordStart, wordEnd), curW := wordW }
  { s' with word := [] }

def step (s : WrapRanges) : Option Char × ℕ → WrapRanges
  | (some c, idx) =>
    if !isWhitespace c then
      { s with wordStart := if s.word.isEmpty then idx else s.wordStart, word := s.word ++ [c] }
    else if s.word.isEmpty then s
    else s.endWord fonts size maxWidth idx
  | (none, idx) => if s.word.isEmpty then s else s.endWord fonts size maxWidth idx

end WrapRanges

def wrapRanges (content : List Char) (size maxWidth : ℚ) : List (ℕ × ℕ) :=
  if maxWidth ≤ 0 then [(0, content.length)]
  else
    let s := (content.map some ++ [none]).zipIdx.foldl (WrapRanges.step fonts size maxWidth)
      ⟨[], none, 0, [], 0⟩
    let lines := s.lines ++ s.cur.toList
    if lines.isEmpty then [(0, 0)] else lines

end Functions

section Advances

variable {fonts : Fonts} {size : ℚ} {bold : Bool}

theorem advanceStyled_eq (content : List Char) : advanceStyled fonts content size bold =
    width (fun c => charAdvance fonts c size bold) content := by
  rw [advanceStyled, width]
  cases hface : fonts.face bold with
  | some f => simp only [charAdvance, hface]
  | none =>
    simp only [charAdvance, hface, List.map_const', List.sum_replicate, nsmul_eq_mul, mul_assoc]

theorem fitChars_eq (maxWidth used : ℚ) (count : ℕ) (content : List Char) :
    fitChars fonts size bold maxWidth used count content =
      count + fit (fun c => charAdvance fonts c size bold) (maxWidth + wrapSlack - used) content := by
  induction content generalizing used count with
  | nil => rfl
  | cons ch content ih =>
    have hiff : (maxWidth : WithTop ℚ) + (wrapSlack : ℚ) < ↑(used + charAdvance fonts ch size bold) ↔
        ¬ charAdvance fonts ch size bold ≤ maxWidth + wrapSlack - used := by
      rw [← WithTop.coe_add, WithTop.coe_lt_coe, not_le, sub_lt_iff_lt_add']
    rw [fitChars, fit]
    by_cases h : charAdvance fonts ch size bold ≤ maxWidth + wrapSlack - used
    · rw [if_neg (hiff.not.mpr (not_not.mpr h)), if_pos h, ih, ← sub_sub]
      omega
    · rw [if_pos (hiff.mpr h), if_neg h, Nat.add_zero]

theorem fitCharsStyled_eq (maxWidth : ℚ) (content : List Char) :
    fitCharsStyled fonts content size bold maxWidth =
      fit (fun c => charAdvance fonts c size bold) (maxWidth + wrapSlack) content := by
  rw [fitCharsStyled, fitChars_eq, sub_zero, Nat.zero_add]

theorem charAdvance_pos (h : ∀ face, fonts.face bold = some face → ∀ c, 0 < face.advance c size)
    (c : Char) : 0 < charAdvance fonts c size bold := by
  rw [charAdvance]
  cases hface : fonts.face bold with
  | some f => exact h f hface c
  | none =>
    have hmax : (1 : ℚ) ≤ max (size / 7) 1 := le_max_right _ _
    dsimp only
    linarith

end Advances

section Cut

variable {fonts : Fonts} {size maxWidth : ℚ}

abbrev letterWidth (fonts : Fonts) (size : ℚ) (c : Char) : ℚ := charAdvance fonts c size false

theorem advance_eq (content : List Char) :
    advance fonts content size = width (letterWidth fonts size) content :=
  advanceStyled_eq content

theorem chunk_eq (rest : List Char) : max (fitCharsStyled fonts rest size false maxWidth) 1 =
    chunk (letterWidth fonts size) (maxWidth + wrapSlack) rest := by
  rw [fitCharsStyled_eq, chunk]

theorem Wrap.cutWord_eq {rest : List Char} (hne : rest ≠ []) (s : Wrap) :
    ∃ parts last, breakUp (letterWidth fonts size) (maxWidth + wrapSlack) rest = parts ++ [last] ∧
      s.cutWord fonts size maxWidth rest =
        ⟨s.lines ++ parts, s.cur ++ last, width (letterWidth fonts size) last⟩ := by
  induction hlength : rest.length using Nat.strong_induction_on generalizing rest s with
  | _ n ih =>
    subst hlength
    rw [cutWord]
    simp only [chunk_eq, utf8Len_le_charBoundary]
    split
    · rename_i hlast
      refine ⟨[], rest, breakUp_last hne hlast, ?_⟩
      rw [List.append_nil, advance_eq]
    · rename_i hmore
      have hchunk := one_le_chunk (letterWidth fonts size) (maxWidth + wrapSlack) rest
      have hdrop : rest.drop (chunk (letterWidth fonts size) (maxWidth + wrapSlack) rest) ≠ [] := by
        rw [ne_eq, List.drop_eq_nil_iff]
        exact hmore
      rw [dropBytes_charBoundary, takeBytes_charBoundary]
      obtain ⟨parts, last, hparts, hcut⟩ := ih _ (by rw [List.length_drop]; omega) hdrop
        { s with lines := s.lines ++ [rest.take (chunk (letterWidth fonts size)
          (maxWidth + wrapSlack) rest)] } rfl
      refine ⟨_ :: parts, last, by rw [breakUp_of_ne_nil hne, hparts, List.cons_append], ?_⟩
      rw [hcut, List.append_assoc, List.singleton_append]

def spans (start : ℕ) : List (List Char) → List (ℕ × ℕ)
  | [] => []
  | part :: parts => (start, start + part.length) :: spans (start + part.length) parts

theorem WrapRanges.cutWord_eq {rest : List Char} (hne : rest ≠ []) (wordEnd start : ℕ)
    (s : WrapRanges) :
    ∃ parts last, breakUp (letterWidth fonts size) (maxWidth + wrapSlack) rest = parts ++ [last] ∧
      s.cutWord fonts size maxWidth wordEnd start rest =
        { s with
          lines := s.lines ++ spans start parts
          cur := some (start + parts.flatten.length, wordEnd)
          curW := width (letterWidth fonts size) last } := by
  induction hlength : rest.length using Nat.strong_induction_on generalizing rest s start with
  | _ n ih =>
    subst hlength
    rw [cutWord, if_neg (by simpa using hne)]
    simp only [chunk_eq, utf8Len_le_charBoundary]
    split
    · rename_i hlast
      refine ⟨[], rest, breakUp_last hne hlast, ?_⟩
      rw [advance_eq]
      simp [spans]
    · rename_i hmore
      have hchunk := one_le_chunk (letterWidth fonts size) (maxWidth + wrapSlack) rest
      have hdrop : rest.drop (chunk (letterWidth fonts size) (maxWidth + wrapSlack) rest) ≠ [] := by
        rw [ne_eq, List.drop_eq_nil_iff]
        exact hmore
      have htake : (rest.take (chunk (letterWidth fonts size) (maxWidth + wrapSlack) rest)).length =
          chunk (letterWidth fonts size) (maxWidth + wrapSlack) rest := by
        rw [List.length_take]
        omega
      rw [dropBytes_charBoundary]
      obtain ⟨parts, last, hparts, hcut⟩ := ih _ (by rw [List.length_drop]; omega) hdrop
        (start + chunk (letterWidth fonts size) (maxWidth + wrapSlack) rest)
        { s with lines := s.lines ++ [(start, start + chunk (letterWidth fonts size)
          (maxWidth + wrapSlack) rest)] } rfl
      refine ⟨_ :: parts, last, by rw [breakUp_of_ne_nil hne, hparts, List.cons_append], ?_⟩
      rw [hcut, List.flatten_cons, List.length_append, spans, htake, ← Nat.add_assoc]
      simp only [List.append_assoc, List.singleton_append]

end Cut

end AtomVibe.TextWrap
