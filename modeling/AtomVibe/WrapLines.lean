import AtomVibe.TextWrap

namespace AtomVibe.TextWrap

open Text WordWrap SpacedWords

/-- Each run of whitespace becomes a space; none where a blank came before. -/
def collapse (blank : Bool) : List Char → List Char
  | [] => []
  | c :: text =>
    if isWhitespace c then (if blank then [] else [' ']) ++ collapse true text
    else c :: collapse false text

def endsBlank (blank : Bool) (text : List Char) : Bool :=
  text.foldl (fun _ c => isWhitespace c) blank

theorem collapse_append (blank : Bool) (text more : List Char) :
    collapse blank (text ++ more) = collapse blank text ++ collapse (endsBlank blank text) more := by
  induction text generalizing blank with
  | nil => rfl
  | cons c text ih =>
    rw [List.cons_append, collapse, collapse]
    cases hc : isWhitespace c with
    | true => simp only [if_true, ih, endsBlank, List.foldl_cons, hc, List.append_assoc]
    | false => simp [ih, endsBlank, hc]

theorem collapse_word {word : List Char} (h : ∀ c ∈ word, isWhitespace c = false) (blank : Bool) :
    collapse blank word = word := by
  induction word generalizing blank with
  | nil => rfl
  | cons c word ih =>
    rw [List.forall_mem_cons] at h
    rw [collapse, if_neg (by simp [h.1]), ih h.2]

theorem collapse_blank {gap : List Char} (h : ∀ c ∈ gap, isWhitespace c = true) :
    collapse true gap = [] := by
  induction gap with
  | nil => rfl
  | cons c gap ih =>
    rw [List.forall_mem_cons] at h
    rw [collapse, h.1, ih h.2]
    rfl

theorem collapse_gap {gap : List Char} (h : ∀ c ∈ gap, isWhitespace c = true) (hne : gap ≠ []) :
    collapse false gap = [' '] := by
  cases gap with
  | nil => exact absurd rfl hne
  | cons c gap =>
    rw [List.forall_mem_cons] at h
    rw [collapse, h.1, collapse_blank h.2]
    rfl

theorem endsBlank_word {word : List Char} (h : ∀ c ∈ word, isWhitespace c = false) (hne : word ≠ [])
    (text : List Char) : endsBlank false (text ++ word) = false := by
  obtain ⟨front, c, rfl⟩ := (List.eq_nil_or_concat word).resolve_left hne
  rw [List.concat_eq_append] at h ⊢
  rw [endsBlank, ← List.append_assoc, List.foldl_append, List.foldl_cons, List.foldl_nil]
  exact h c (by simp)

def joined (line : List (List Char)) : List Char := [' '].intercalate line

theorem joined_singleton (word : List Char) : joined [word] = word := List.intercalate_singleton

theorem map_joined_parts (parts : List (List Char)) : (parts.map ([·])).map joined = parts := by
  rw [List.map_map]
  exact (List.map_congr_left fun part _ => joined_singleton part).trans (List.map_id parts)

theorem joined_concat {line : List (List Char)} (h : line ≠ []) (word : List Char) :
    joined (line ++ [word]) = joined line ++ ' ' :: word := by
  induction line with
  | nil => exact absurd rfl h
  | cons first line ih =>
    cases line with
    | nil => simp [joined]
    | cons second line =>
      have hrest := ih (List.cons_ne_nil _ _)
      simp only [joined, List.cons_append, List.intercalate_cons_cons, List.append_assoc] at hrest ⊢
      rw [hrest]

theorem joined_eq_nil {line : List (List Char)} (h : ∀ word ∈ line, word ≠ []) :
    joined line = [] ↔ line = [] := by
  cases line with
  | nil => simp [joined]
  | cons first line =>
    rw [List.forall_mem_cons] at h
    cases line with
    | nil => simp [joined, h.1]
    | cons second line => simp [joined, h.1]

section Built

variable {fonts : Fonts} {size maxWidth : ℚ}

abbrev placeWord (fonts : Fonts) (size maxWidth : ℚ) (page : Page Char) (word : List Char) :
    Page Char :=
  page.place (letterWidth fonts size) (advance fonts [' '] size) (maxWidth + wrapSlack) word

structure Builds (fonts : Fonts) (size : ℚ) (page : Page Char) (s : Wrap) : Prop where
  lines : s.lines = page.lines.map joined
  cur : s.cur = joined page.cur
  curW : page.cur ≠ [] →
    s.curW = lineWidth (letterWidth fonts size) (advance fonts [' '] size) page.cur
  words : ∀ word ∈ page.cur, word ≠ []

theorem Builds.addWord {page : Page Char} {s : Wrap} {word : List Char}
    (h : Builds fonts size page s) (hne : word ≠ []) :
    Builds fonts size (placeWord fonts size maxWidth page word)
      (s.addWord fonts size maxWidth word) := by
  have hempty : s.cur.isEmpty = true ↔ page.cur = [] := by
    rw [List.isEmpty_iff, h.cur, joined_eq_nil h.words]
  rw [placeWord, Page.place, Wrap.addWord]
  simp only [advance_eq word]
  by_cases hlong : maxWidth + wrapSlack < width (letterWidth fonts size) word
  · rw [if_pos hlong, if_pos hlong]
    have hflushed : (if s.cur.isEmpty then s else { s with lines := s.lines ++ [s.cur], cur := [] }) =
        ⟨page.all.map joined, [], s.curW⟩ := by
      rw [Page.all]
      by_cases hcur : page.cur = []
      · rw [if_pos (hempty.mpr hcur), if_pos hcur, ← h.lines, ← List.isEmpty_iff.mp (hempty.mpr hcur)]
      · rw [if_neg (hempty.not.mpr hcur), if_neg hcur, List.map_append, List.map_singleton,
          ← h.lines, ← h.cur]
    obtain ⟨parts, last, hparts, hcut⟩ := @Wrap.cutWord_eq fonts size maxWidth word hne
      ⟨page.all.map joined, [], s.curW⟩
    rw [hflushed, hcut, hparts, List.dropLast_concat, List.getLast?_concat]
    constructor
    · rw [List.map_append, map_joined_parts]
    · exact (joined_singleton last).symm
    · intro _
      rw [Option.toList_some, lineWidth_singleton]
    · intro part hpart
      rw [Option.toList_some, List.mem_singleton] at hpart
      apply @ne_nil_of_mem_breakUp _ _ _ (letterWidth fonts size) _ (maxWidth + wrapSlack) word
      rw [hpart, hparts]
      exact List.mem_append_right _ List.mem_cons_self
  · rw [if_neg hlong, if_neg hlong]
    have hwords : ∀ part ∈ page.cur ++ [word], part ≠ [] := by
      rw [List.forall_mem_append, List.forall_mem_singleton]
      exact ⟨h.words, hne⟩
    by_cases hcur : page.cur = []
    · rw [if_pos (hempty.mpr hcur), if_pos (Or.inl hcur), if_pos (by simp [hempty.mpr hcur]),
        if_pos (hempty.mpr hcur), hcur]
      exact ⟨h.lines, (joined_singleton word).symm, fun _ => (lineWidth_singleton _ _ _).symm,
        by simpa using hne⟩
    · rw [if_neg (hempty.not.mpr hcur), h.curW hcur]
      by_cases hfits : lineWidth (letterWidth fonts size) (advance fonts [' '] size) page.cur +
          advance fonts [' '] size + width (letterWidth fonts size) word ≤ maxWidth + wrapSlack
      · rw [if_pos (Or.inr hfits), if_pos (by simp [hfits]), if_neg (hempty.not.mpr hcur)]
        refine ⟨h.lines, ?_, fun _ => (lineWidth_concat _ _ hcur word).symm, hwords⟩
        rw [joined_concat hcur, h.cur, List.append_assoc]
        rfl
      · have hfull : ¬ (page.cur = [] ∨ lineWidth (letterWidth fonts size) (advance fonts [' '] size)
            page.cur + advance fonts [' '] size + width (letterWidth fonts size) word ≤
              maxWidth + wrapSlack) := not_or.mpr ⟨hcur, hfits⟩
        rw [if_neg hfull, if_neg (by simp [hempty.not.mpr hcur, hfits])]
        refine ⟨?_, (joined_singleton word).symm, fun _ => (lineWidth_singleton _ _ _).symm,
          by simpa using hne⟩
        rw [h.lines, h.cur, List.map_append, List.map_singleton]

variable (fonts size maxWidth) in
def linesOf (words : List (List Char)) : List (List (List Char)) :=
  let lines := layout (letterWidth fonts size) (advance fonts [' '] size) (maxWidth + wrapSlack) words
  if lines.isEmpty then [[]] else lines

variable (maxWidth) in
theorem builds_foldl {words : List (List Char)} (h : ∀ word ∈ words, word ≠ []) {page : Page Char}
    {s : Wrap} (hbuilds : Builds fonts size page s) :
    Builds fonts size (words.foldl (placeWord fonts size maxWidth) page)
      (words.foldl (Wrap.addWord fonts size maxWidth) s) := by
  induction words generalizing page s with
  | nil => exact hbuilds
  | cons word words ih =>
    rw [List.forall_mem_cons] at h
    exact ih h.2 (hbuilds.addWord h.1)

theorem wrap_eq (hwidth : 0 < maxWidth) (content : List Char) : wrap fonts content size maxWidth =
    (linesOf fonts size maxWidth (splitWhitespace content)).map joined := by
  have hbuilds : Builds fonts size .empty ⟨[], [], 0⟩ :=
    ⟨rfl, rfl, fun h => absurd rfl h, by simp [Page.empty]⟩
  have hwords : ∀ word ∈ splitWhitespace content, word ≠ [] :=
    fun word hword => (letters_of_mem_words isWhitespace hword).1
  have h := builds_foldl maxWidth hwords hbuilds
  have hempty := joined_eq_nil h.words
  rw [← h.cur, ← List.isEmpty_iff] at hempty
  have hall : (if ((splitWhitespace content).foldl (Wrap.addWord fonts size maxWidth)
      ⟨[], [], 0⟩).cur.isEmpty then
        ((splitWhitespace content).foldl (Wrap.addWord fonts size maxWidth) ⟨[], [], 0⟩).lines
      else ((splitWhitespace content).foldl (Wrap.addWord fonts size maxWidth) ⟨[], [], 0⟩).lines ++
        [((splitWhitespace content).foldl (Wrap.addWord fonts size maxWidth) ⟨[], [], 0⟩).cur]) =
      (layout (letterWidth fonts size) (advance fonts [' '] size) (maxWidth + wrapSlack)
        (splitWhitespace content)).map joined := by
    rw [layout, Page.all, h.lines]
    by_cases hcur : ((splitWhitespace content).foldl (placeWord fonts size maxWidth) .empty).cur = []
    · rw [if_pos (hempty.mpr hcur), if_pos hcur]
    · rw [if_neg (hempty.not.mpr hcur), if_neg hcur, List.map_append, List.map_singleton, h.cur]
  rw [wrap, if_neg (not_le.mpr hwidth), linesOf]
  simp only [hall, List.isEmpty_map]
  split
  · rfl
  · rfl

end Built

section Found

variable {fonts : Fonts} {size maxWidth : ℚ} {text : List Char}

def lineText (text : List Char) (range : ℕ × ℕ) : List Char :=
  (text.drop range.1).take (range.2 - range.1)

structure Prints (text : List Char) (line : List (List Char)) (range : ℕ × ℕ) : Prop where
  ordered : range.1 ≤ range.2
  within : range.2 ≤ text.length
  same : collapse false (lineText text range) = joined line

theorem Prints.append {line : List (List Char)} {range : ℕ × ℕ} (h : Prints text line range)
    (more : List Char) : Prints (text ++ more) line range := by
  have hwithin := h.within
  have hordered := h.ordered
  refine ⟨hordered, by rw [List.length_append]; omega, ?_⟩
  rw [lineText, List.drop_append_of_le_length (by omega),
    List.take_append_of_le_length (by rw [List.length_drop]; omega)]
  exact h.same

theorem prints_spans {parts : List (List Char)} (hletters : ∀ c ∈ parts.flatten, isWhitespace c = false)
    (front back : List Char) :
    List.Forall₂ (Prints (front ++ (parts.flatten ++ back))) (parts.map ([·]))
      (spans front.length parts) := by
  induction parts generalizing front with
  | nil => exact .nil
  | cons part parts ih =>
    rw [List.flatten_cons, List.forall_mem_append] at hletters
    rw [List.map_cons, spans, List.flatten_cons]
    constructor
    · refine ⟨Nat.le_add_right _ _, ?_, ?_⟩
      · simp only [List.length_append]
        omega
      · rw [lineText, List.drop_left, Nat.add_sub_cancel_left, List.append_assoc, List.take_left,
          collapse_word hletters.1, joined_singleton]
    · have hrest := ih hletters.2 (front ++ part)
      rw [List.length_append, List.append_assoc, ← List.append_assoc part] at hrest
      exact hrest

theorem endWord_word (s : WrapRanges) (wordEnd : ℕ) :
    (s.endWord fonts size maxWidth wordEnd).word = [] := rfl

def WrapRanges.place (fonts : Fonts) (size maxWidth : ℚ) (s : WrapRanges) (start : ℕ)
    (word : List Char) : WrapRanges :=
  { s with wordStart := start, word := word }.endWord fonts size maxWidth (start + word.length)

def placeAll (fonts : Fonts) (size maxWidth : ℚ) (s : WrapRanges) (start : ℕ) :
    List (List Char × List Char) → WrapRanges
  | [] => s
  | (gap, word) :: tokens =>
    placeAll fonts size maxWidth (s.place fonts size maxWidth (start + gap.length) word)
      (start + gap.length + word.length) tokens

section Scan

variable {s : WrapRanges}

theorem step_gap {gap : List Char} (hgap : ∀ c ∈ gap, isWhitespace c = true) (h : s.word = [])
    (start : ℕ) :
    ((gap.map some).zipIdx start).foldl (WrapRanges.step fonts size maxWidth) s = s := by
  induction gap generalizing start with
  | nil => rfl
  | cons c gap ih =>
    rw [List.forall_mem_cons] at hgap
    rw [List.map_cons, List.zipIdx_cons, List.foldl_cons, WrapRanges.step]
    simp only [hgap.1, Bool.not_true, Bool.false_eq_true, if_false, h, List.isEmpty_nil, if_true]
    exact ih hgap.2 (start + 1)

theorem step_letters {word : List Char} (hword : ∀ c ∈ word, isWhitespace c = false)
    (h : s.word ≠ []) (start : ℕ) :
    ((word.map some).zipIdx start).foldl (WrapRanges.step fonts size maxWidth) s =
      { s with word := s.word ++ word } := by
  induction word generalizing s start with
  | nil => rw [List.append_nil]; rfl
  | cons c word ih =>
    rw [List.forall_mem_cons] at hword
    have hnext : WrapRanges.step fonts size maxWidth s (some c, start) =
        { s with word := s.word ++ [c] } := by
      rw [WrapRanges.step]
      simp [hword.1, h]
    rw [List.map_cons, List.zipIdx_cons, List.foldl_cons, hnext, ih hword.2 (by simp)]
    simp

theorem step_word {word : List Char} (hword : ∀ c ∈ word, isWhitespace c = false) (hne : word ≠ [])
    (h : s.word = []) (start : ℕ) :
    ((word.map some).zipIdx start).foldl (WrapRanges.step fonts size maxWidth) s =
      { s with wordStart := start, word := word } := by
  cases word with
  | nil => exact absurd rfl hne
  | cons c word =>
    rw [List.forall_mem_cons] at hword
    have hnext : WrapRanges.step fonts size maxWidth s (some c, start) =
        { s with wordStart := start, word := [c] } := by
      rw [WrapRanges.step]
      simp [hword.1, h]
    rw [List.map_cons, List.zipIdx_cons, List.foldl_cons, hnext, step_letters hword.2 (by simp)]
    rfl

theorem step_end {rest : List Char} (hends : ∀ c ∈ rest.head?, isWhitespace c = true)
    (h : s.word ≠ []) (start : ℕ) :
    ((rest.map some ++ [none]).zipIdx start).foldl (WrapRanges.step fonts size maxWidth) s =
      ((rest.map some ++ [none]).zipIdx start).foldl (WrapRanges.step fonts size maxWidth)
        (s.endWord fonts size maxWidth start) := by
  cases rest with
  | nil =>
    simp [WrapRanges.step, h, endWord_word]
  | cons c rest =>
    have hc : isWhitespace c = true := hends c rfl
    simp only [List.map_cons, List.cons_append, List.zipIdx_cons, List.foldl_cons]
    congr 1
    simp [WrapRanges.step, hc, h, endWord_word]

theorem scan_eq {content : List Char} {tokens : List (List Char × List Char)}
    (hspaced : Spaced isWhitespace content tokens) (h : s.word = []) (start : ℕ) :
    ((content.map some ++ [none]).zipIdx start).foldl (WrapRanges.step fonts size maxWidth) s =
      placeAll fonts size maxWidth s start tokens := by
  induction hspaced generalizing s start with
  | blanks hgap =>
    rw [List.zipIdx_append, List.foldl_append, step_gap hgap h, placeAll]
    simp [WrapRanges.step, h]
  | @word gap word rest tokens hgap hword hne hends more ih =>
    rw [List.map_append, List.map_append, List.append_assoc, List.append_assoc, List.zipIdx_append,
      List.foldl_append, step_gap hgap h, List.zipIdx_append, List.foldl_append,
      step_word hword hne h, step_end hends hne, List.length_map, List.length_map]
    exact ih (endWord_word _ _) _

end Scan

section Place

variable {s : WrapRanges} {word : List Char}

theorem place_long (hne : word ≠ [])
    (hlong : maxWidth + wrapSlack < width (letterWidth fonts size) word) (start : ℕ) :
    ∃ parts last, breakUp (letterWidth fonts size) (maxWidth + wrapSlack) word = parts ++ [last] ∧
      s.place fonts size maxWidth start word =
        ⟨s.lines ++ s.cur.toList ++ spans start parts,
          some (start + parts.flatten.length, start + word.length),
          width (letterWidth fonts size) last, [], start⟩ := by
  rw [WrapRanges.place, WrapRanges.endWord]
  simp only [advance_eq word, if_pos hlong]
  cases hcur : s.cur with
  | none =>
    obtain ⟨parts, last, hparts, hcut⟩ := @WrapRanges.cutWord_eq fonts size maxWidth word hne
      (start + word.length) start { s with wordStart := start, word := word }
    refine ⟨parts, last, hparts, ?_⟩
    dsimp only at hcut ⊢
    rw [← hcur, hcut]
    simp [hcur]
  | some range =>
    obtain ⟨parts, last, hparts, hcut⟩ := @WrapRanges.cutWord_eq fonts size maxWidth word hne
      (start + word.length) start ⟨s.lines ++ [range], none, 0, word, start⟩
    refine ⟨parts, last, hparts, ?_⟩
    dsimp only at hcut ⊢
    rw [hcut]
    simp

theorem place_first (hshort : ¬ maxWidth + wrapSlack < width (letterWidth fonts size) word)
    (hcur : s.cur = none) (start : ℕ) : s.place fonts size maxWidth start word =
      ⟨s.lines, some (start, start + word.length), width (letterWidth fonts size) word, [],
        start⟩ := by
  rw [WrapRanges.place, WrapRanges.endWord]
  simp only [advance_eq word, if_neg hshort, hcur]

theorem place_next (hshort : ¬ maxWidth + wrapSlack < width (letterWidth fonts size) word)
    {lineStart lineEnd : ℕ} (hcur : s.cur = some (lineStart, lineEnd)) (start : ℕ) :
    s.place fonts size maxWidth start word =
      if maxWidth + wrapSlack <
          s.curW + advance fonts [' '] size + width (letterWidth fonts size) word then
        ⟨s.lines ++ s.cur.toList, some (start, start + word.length),
          width (letterWidth fonts size) word, [], start⟩
      else ⟨s.lines, some (lineStart, start + word.length),
        s.curW + (advance fonts [' '] size + width (letterWidth fonts size) word), [], start⟩ := by
  rw [WrapRanges.place, WrapRanges.endWord]
  simp only [advance_eq word, if_neg hshort, hcur]
  split
  · rfl
  · rfl

end Place

theorem spans_concat (start : ℕ) (parts : List (List Char)) (last : List Char) :
    spans start (parts ++ [last]) = spans start parts ++
      [(start + parts.flatten.length, start + parts.flatten.length + last.length)] := by
  induction parts generalizing start with
  | nil => simp [spans]
  | cons part parts ih =>
    rw [List.cons_append, spans, ih, spans, List.cons_append, List.flatten_cons, List.length_append,
      Nat.add_assoc]

theorem spans_within {parts : List (List Char)} {start : ℕ} {range : ℕ × ℕ}
    (h : range ∈ spans start parts) : start ≤ range.1 ∧ range.1 ≤ range.2 ∧
      range.2 ≤ start + parts.flatten.length := by
  induction parts generalizing start with
  | nil => cases h
  | cons part parts ih =>
    rw [List.flatten_cons, List.length_append]
    rw [spans, List.mem_cons] at h
    rcases h with rfl | h
    · dsimp only
      omega
    · obtain ⟨h1, h2, h3⟩ := ih h
      omega

theorem spans_ordered (start : ℕ) (parts : List (List Char)) :
    (spans start parts).Pairwise fun a b => a.2 ≤ b.1 := by
  induction parts generalizing start with
  | nil => exact .nil
  | cons part parts ih =>
    rw [spans, List.pairwise_cons]
    exact ⟨fun range hrange => (spans_within hrange).1, ih _⟩

theorem spans_cover {parts : List (List Char)} {start i : ℕ} (hstart : start ≤ i)
    (hend : i < start + parts.flatten.length) :
    ∃ range ∈ spans start parts, range.1 ≤ i ∧ i < range.2 := by
  induction parts generalizing start with
  | nil =>
    rw [List.flatten_nil, List.length_nil] at hend
    omega
  | cons part parts ih =>
    rw [List.flatten_cons, List.length_append] at hend
    by_cases h : i < start + part.length
    · exact ⟨_, List.mem_cons_self, hstart, h⟩
    · obtain ⟨range, hrange, hi⟩ := @ih (start + part.length) (by omega) (by omega)
      exact ⟨range, List.mem_cons_of_mem _ hrange, hi⟩

structure Open (fonts : Fonts) (size : ℚ) (text : List Char) (line : List (List Char)) (curW : ℚ)
    (start : ℕ) : Prop where
  filled : line ≠ []
  prints : Prints text line (start, text.length)
  letter : endsBlank false (text.drop start) = false
  curW : curW = lineWidth (letterWidth fonts size) (advance fonts [' '] size) line

structure Finds (fonts : Fonts) (size : ℚ) (text : List Char) (page : Page Char) (s : WrapRanges) :
    Prop where
  lines : List.Forall₂ (Prints text) page.lines s.lines
  cur : page.cur = [] ∧ s.cur = none ∨
    ∃ start, s.cur = some (start, text.length) ∧ Open fonts size text page.cur s.curW start
  ordered : (s.lines ++ s.cur.toList).Pairwise fun a b => a.2 ≤ b.1
  covers : ∀ i c, text[i]? = some c → isWhitespace c = false →
    ∃ range ∈ s.lines ++ s.cur.toList, range.1 ≤ i ∧ i < range.2

section Step

variable {page : Page Char} {s : WrapRanges}

theorem Finds.all (h : Finds fonts size text page s) :
    List.Forall₂ (Prints text) page.all (s.lines ++ s.cur.toList) := by
  rw [Page.all]
  rcases h.cur with ⟨hpage, hcur⟩ | ⟨start, hcur, hopen⟩
  · rw [if_pos hpage, hcur, Option.toList_none, List.append_nil]
    exact h.lines
  · rw [if_neg hopen.filled, hcur, Option.toList_some]
    exact List.rel_append h.lines (.cons hopen.prints .nil)

theorem within_of_prints {lines : List (List (List Char))} {ranges : List (ℕ × ℕ)}
    (h : List.Forall₂ (Prints text) lines ranges) {range : ℕ × ℕ} (hrange : range ∈ ranges) :
    range.1 ≤ range.2 ∧ range.2 ≤ text.length := by
  induction h with
  | nil => cases hrange
  | cons hprints _ ih =>
    rcases List.mem_cons.mp hrange with rfl | hrange
    · exact ⟨hprints.ordered, hprints.within⟩
    · exact ih hrange

theorem Finds.fresh {s' : WrapRanges} {gap : List Char} {parts : List (List Char)} {last : List Char}
    (h : Finds fonts size text page s) (hgap : ∀ c ∈ gap, isWhitespace c = true)
    (hword : ∀ c ∈ (parts ++ [last]).flatten, isWhitespace c = false) (hlast : last ≠ [])
    (hlines : s'.lines = s.lines ++ s.cur.toList ++ spans (text.length + gap.length) parts)
    (hcur : s'.cur = some (text.length + gap.length + parts.flatten.length,
      text.length + gap.length + (parts ++ [last]).flatten.length))
    (hcurW : s'.curW = width (letterWidth fonts size) last) :
    Finds fonts size (text ++ (gap ++ (parts ++ [last]).flatten))
      ⟨page.all ++ parts.map ([·]), [last]⟩ s' := by
  have hflat : (parts ++ [last]).flatten = parts.flatten ++ last := by
    rw [List.flatten_append, List.flatten_singleton]
  rw [hflat, List.forall_mem_append] at hword
  rw [hflat, List.length_append] at hcur
  have hranges : s'.lines ++ s'.cur.toList = s.lines ++ s.cur.toList ++
      spans (text.length + gap.length) (parts ++ [last]) := by
    rw [hlines, hcur, spans_concat, Option.toList_some, List.append_assoc (s.lines ++ s.cur.toList)]
    congr 4
    omega
  have hend : Prints (text ++ (gap ++ (parts.flatten ++ last))) [last]
      (text.length + gap.length + parts.flatten.length,
        text.length + gap.length + parts.flatten.length + last.length) := by
    have hspans := @prints_spans [last] (by simpa using hword.2) (text ++ gap ++ parts.flatten) []
    simp only [List.flatten_singleton, List.append_nil, List.append_assoc, List.length_append,
      List.map_singleton, spans] at hspans
    cases hspans with
    | cons hprints _ => simpa only [Nat.add_assoc] using hprints
  have hlength : (text ++ (gap ++ (parts.flatten ++ last))).length =
      text.length + gap.length + parts.flatten.length + last.length := by
    simp only [List.length_append]
    omega
  rw [hflat]
  constructor
  · have hparts := prints_spans hword.1 (text ++ gap) last
    rw [List.append_assoc, List.length_append] at hparts
    rw [hlines]
    exact List.rel_append (h.all.imp fun line range hprints => hprints.append _) hparts
  · refine .inr ⟨text.length + gap.length + parts.flatten.length, ?_, List.cons_ne_nil _ _, ?_, ?_, ?_⟩
    · rw [hcur, hlength, Nat.add_assoc (text.length + gap.length)]
    · rw [hlength]
      exact hend
    · have hdrop : (text ++ (gap ++ (parts.flatten ++ last))).drop
          (text.length + gap.length + parts.flatten.length) = last := by
        rw [← List.append_assoc, ← List.append_assoc, ← List.length_append, ← List.length_append,
          List.drop_left]
      rw [hdrop]
      exact endsBlank_word hword.2 hlast []
    · rw [hcurW, lineWidth_singleton]
  · rw [hranges, List.pairwise_append]
    refine ⟨h.ordered, spans_ordered _ _, fun old hold new hnew => ?_⟩
    have hwithin := within_of_prints h.all hold
    have hstart := spans_within hnew
    omega
  · intro i c hi hc
    rw [hranges]
    by_cases htext : i < text.length
    · rw [List.getElem?_append_left htext] at hi
      obtain ⟨range, hrange, hcovers⟩ := h.covers i c hi hc
      exact ⟨range, List.mem_append_left _ hrange, hcovers⟩
    · have hlt := (List.getElem?_eq_some_iff.mp hi).1
      by_cases hblank : i < text.length + gap.length
      · rw [List.getElem?_append_right (by omega), List.getElem?_append_left (by omega)] at hi
        rw [hgap c (List.mem_of_getElem? hi)] at hc
        cases hc
      · obtain ⟨range, hrange, hcovers⟩ := @spans_cover (parts ++ [last])
          (text.length + gap.length) i (by omega) (by rw [hflat, List.length_append]; omega)
        exact ⟨range, List.mem_append_right _ hrange, hcovers⟩

theorem lineText_end (text : List Char) (start : ℕ) :
    lineText text (start, text.length) = text.drop start := by
  rw [lineText, List.take_of_length_le]
  rw [List.length_drop]

theorem Finds.longer {s' : WrapRanges} {gap word : List Char} {start : ℕ}
    (h : Finds fonts size text page s) (hgap : ∀ c ∈ gap, isWhitespace c = true) (hne : gap ≠ [])
    (hword : ∀ c ∈ word, isWhitespace c = false) (hletter : word ≠ [])
    (hold : s.cur = some (start, text.length)) (hopen : Open fonts size text page.cur s.curW start)
    (hlines : s'.lines = s.lines)
    (hcur : s'.cur = some (start, text.length + gap.length + word.length))
    (hcurW : s'.curW =
      s.curW + (advance fonts [' '] size + width (letterWidth fonts size) word)) :
    Finds fonts size (text ++ (gap ++ word)) ⟨page.lines, page.cur ++ [word]⟩ s' := by
  have hstart : start ≤ text.length := hopen.prints.ordered
  have hlength : (text ++ (gap ++ word)).length = text.length + gap.length + word.length := by
    simp only [List.length_append]
    omega
  have hdrop : (text ++ (gap ++ word)).drop start = text.drop start ++ (gap ++ word) :=
    List.drop_append_of_le_length hstart
  have hordered := h.ordered
  rw [hold, Option.toList_some, List.pairwise_append] at hordered
  constructor
  · rw [hlines]
    exact h.lines.imp fun line range hprints => hprints.append _
  · refine .inr ⟨start, by rw [hcur, hlength], by simp, ⟨by rw [hlength]; omega, le_rfl, ?_⟩, ?_, ?_⟩
    · have hsame := hopen.prints.same
      rw [lineText_end] at hsame
      rw [lineText_end, hdrop, collapse_append, hsame, hopen.letter, collapse_append,
        collapse_gap hgap hne, collapse_word hword, joined_concat hopen.filled]
      rfl
    · rw [hdrop, ← List.append_assoc]
      exact endsBlank_word hword hletter _
    · rw [hcurW, hopen.curW, lineWidth_concat _ _ hopen.filled, add_assoc]
  · rw [hlines, hcur, Option.toList_some, List.pairwise_append]
    refine ⟨hordered.1, List.pairwise_singleton _ _, fun old hmem new hnew => ?_⟩
    rw [List.mem_singleton.mp hnew]
    exact hordered.2.2 old hmem (start, text.length) List.mem_cons_self
  · intro i c hi hc
    rw [hlines, hcur, Option.toList_some]
    by_cases htext : i < text.length
    · rw [List.getElem?_append_left htext] at hi
      obtain ⟨range, hrange, hcovers⟩ := h.covers i c hi hc
      rw [hold, Option.toList_some, List.mem_append, List.mem_singleton] at hrange
      rcases hrange with hrange | rfl
      · exact ⟨range, List.mem_append_left _ hrange, hcovers⟩
      · refine ⟨_, List.mem_append_right _ List.mem_cons_self, hcovers.1, ?_⟩
        dsimp only
        omega
    · have hlt := (List.getElem?_eq_some_iff.mp hi).1
      refine ⟨_, List.mem_append_right _ List.mem_cons_self, ?_, ?_⟩
      · dsimp only
        omega
      · dsimp only
        omega

variable (maxWidth) in
theorem Finds.place {gap word : List Char} (h : Finds fonts size text page s)
    (hgap : ∀ c ∈ gap, isWhitespace c = true) (hword : ∀ c ∈ word, isWhitespace c = false)
    (hne : word ≠ []) (hparted : page.cur ≠ [] → gap ≠ []) :
    Finds fonts size (text ++ (gap ++ word)) (placeWord fonts size maxWidth page word)
      (s.place fonts size maxWidth (text.length + gap.length) word) := by
  rw [placeWord, Page.place]
  by_cases hlong : maxWidth + wrapSlack < width (letterWidth fonts size) word
  · obtain ⟨parts, last, hparts, hplace⟩ := @place_long fonts size maxWidth s word hne hlong
      (text.length + gap.length)
    have hflat := @flatten_breakUp _ _ _ (letterWidth fonts size) _ (maxWidth + wrapSlack) word
    have hlast : last ≠ [] := by
      apply @ne_nil_of_mem_breakUp _ _ _ (letterWidth fonts size) _ (maxWidth + wrapSlack) word
      rw [hparts]
      exact List.mem_append_right _ List.mem_cons_self
    rw [if_pos hlong, hparts, List.dropLast_concat, List.getLast?_concat, Option.toList_some, hplace]
    have hfresh : ∀ s' : WrapRanges,
        s'.lines = s.lines ++ s.cur.toList ++ spans (text.length + gap.length) parts →
        s'.cur = some (text.length + gap.length + parts.flatten.length,
          text.length + gap.length + word.length) →
        s'.curW = width (letterWidth fonts size) last →
        Finds fonts size (text ++ (gap ++ word)) ⟨page.all ++ parts.map ([·]), [last]⟩ s' := by
      rw [← hflat, hparts] at hword ⊢
      exact fun s' => h.fresh hgap hword hlast
    exact hfresh _ rfl rfl rfl
  · rw [if_neg hlong]
    have halone : ∀ s' : WrapRanges, s'.lines = s.lines ++ s.cur.toList →
        s'.cur = some (text.length + gap.length, text.length + gap.length + word.length) →
        s'.curW = width (letterWidth fonts size) word →
        Finds fonts size (text ++ (gap ++ word)) ⟨page.all, [word]⟩ s' := by
      intro s' hlines hcur hcurW
      have hfresh := @Finds.fresh fonts size text page s s' gap [] word h hgap
        (by simpa using hword) hne (by rw [hlines, spans, List.append_nil])
        (by simpa using hcur) hcurW
      simpa using hfresh
    rcases h.cur with ⟨hpage, hcur⟩ | ⟨start, hcur, hopen⟩
    · have hall : page.all = page.lines := by rw [Page.all, if_pos hpage]
      rw [if_pos (Or.inl hpage), hpage, ← hall, place_first hlong hcur]
      exact halone _ (by rw [hcur, Option.toList_none, List.append_nil]) rfl rfl
    · have hall : page.all = page.lines ++ [page.cur] := by rw [Page.all, if_neg hopen.filled]
      rw [place_next hlong hcur, ← hopen.curW, ← hall]
      by_cases hfits : s.curW + advance fonts [' '] size + width (letterWidth fonts size) word ≤
          maxWidth + wrapSlack
      · rw [if_pos (Or.inr hfits), if_neg (not_lt.mpr hfits)]
        exact h.longer hgap (hparted hopen.filled) hword hne hcur hopen rfl rfl rfl
      · rw [if_neg (not_or.mpr ⟨hopen.filled, hfits⟩), if_pos (not_le.mp hfits)]
        exact halone _ rfl rfl rfl

end Step

structure Ranged (text : List Char) (lines : List (List (List Char))) (ranges : List (ℕ × ℕ)) :
    Prop where
  prints : List.Forall₂ (Prints text) lines ranges
  ordered : ranges.Pairwise fun a b => a.2 ≤ b.1
  covers : ∀ i c, text[i]? = some c → isWhitespace c = false →
    ∃ range ∈ ranges, range.1 ≤ i ∧ i < range.2

theorem Ranged.covers_once {lines : List (List (List Char))} {ranges : List (ℕ × ℕ)}
    (h : Ranged text lines ranges) {i : ℕ} {c : Char} (hi : text[i]? = some c)
    (hc : isWhitespace c = false) :
    ranges.countP (fun range => range.1 ≤ i ∧ i < range.2) = 1 := by
  have hex := h.covers i c hi hc
  have hordered := h.ordered
  clear h
  induction ranges with
  | nil =>
    obtain ⟨range, hrange, -⟩ := hex
    cases hrange
  | cons range ranges ih =>
    rw [List.pairwise_cons] at hordered
    by_cases hfirst : range.1 ≤ i ∧ i < range.2
    · have hrest : ranges.countP (fun range => range.1 ≤ i ∧ i < range.2) = 0 := by
        rw [List.countP_eq_zero]
        intro other hother
        have hle := hordered.1 other hother
        rw [decide_eq_true_eq]
        omega
      rw [List.countP_cons_of_pos (by simpa using hfirst), hrest]
    · obtain ⟨other, hother, hi⟩ := hex
      rw [List.mem_cons] at hother
      rcases hother with rfl | hother
      · exact absurd hi hfirst
      · rw [List.countP_cons_of_neg (by simpa using hfirst)]
        exact ih ⟨other, hother, hi⟩ hordered.2

theorem Finds.ranged {page : Page Char} {s : WrapRanges} {gap : List Char}
    (h : Finds fonts size text page s) (hgap : ∀ c ∈ gap, isWhitespace c = true) :
    Ranged (text ++ gap) page.all (s.lines ++ s.cur.toList) := by
  refine ⟨h.all.imp fun line range hprints => hprints.append gap, h.ordered, fun i c hi hc => ?_⟩
  by_cases htext : i < text.length
  · rw [List.getElem?_append_left htext] at hi
    exact h.covers i c hi hc
  · rw [List.getElem?_append_right (by omega)] at hi
    rw [hgap c (List.mem_of_getElem? hi)] at hc
    cases hc

variable (maxWidth) in
theorem finds_placeAll {rest : List Char} {tokens : List (List Char × List Char)}
    {page : Page Char} {s : WrapRanges} (hspaced : Spaced isWhitespace rest tokens)
    (h : Finds fonts size text page s)
    (hparted : page.cur ≠ [] → ∀ c ∈ rest.head?, isWhitespace c = true) :
    Ranged (text ++ rest) ((tokens.map Prod.snd).foldl (placeWord fonts size maxWidth) page).all
      ((placeAll fonts size maxWidth s text.length tokens).lines ++
        (placeAll fonts size maxWidth s text.length tokens).cur.toList) := by
  induction hspaced generalizing text page s with
  | blanks hgap => exact h.ranged hgap
  | @word gap word rest tokens hgap hword hne hends more ih =>
    have hgapped : page.cur ≠ [] → gap ≠ [] := by
      intro hcur
      exact (Spaced.word hgap hword hne hends more).gap_ne_nil (hparted hcur)
    have hlength : (text ++ (gap ++ word)).length = text.length + gap.length + word.length := by
      simp only [List.length_append]
      omega
    have hrest := ih (h.place maxWidth hgap hword hne hgapped) fun _ => hends
    rw [hlength, List.append_assoc, List.append_assoc] at hrest
    exact hrest

theorem wrapRanges_ranged (hwidth : 0 < maxWidth) (content : List Char) :
    Ranged content (linesOf fonts size maxWidth (splitWhitespace content))
      (wrapRanges fonts content size maxWidth) := by
  obtain ⟨tokens, hspaced⟩ := exists_spaced isWhitespace content
  have hstart : Finds fonts size [] .empty ⟨[], none, 0, [], 0⟩ :=
    ⟨.nil, .inl ⟨rfl, rfl⟩, .nil, by simp⟩
  have hranged := finds_placeAll maxWidth hspaced hstart fun h => absurd rfl h
  rw [wrapRanges, if_neg (not_le.mpr hwidth), scan_eq hspaced rfl, splitWhitespace, hspaced.words_eq,
    linesOf, layout]
  rw [List.nil_append] at hranged
  dsimp only [List.length_nil] at hranged ⊢
  generalize (placeAll fonts size maxWidth ⟨[], none, 0, [], 0⟩ 0 tokens).lines ++
    (placeAll fonts size maxWidth ⟨[], none, 0, [], 0⟩ 0 tokens).cur.toList = ranges at hranged ⊢
  generalize Page.all _ = lines at hranged ⊢
  cases ranges with
  | nil =>
    rw [List.forall₂_nil_right_iff.mp hranged.prints]
    refine ⟨.cons ⟨le_rfl, Nat.zero_le _, rfl⟩ .nil, List.pairwise_singleton _ _, ?_⟩
    intro i c hi hc
    obtain ⟨range, hrange, -⟩ := hranged.covers i c hi hc
    cases hrange
  | cons range ranges =>
    cases lines with
    | nil => cases hranged.prints
    | cons line lines => exact hranged

end Found

end AtomVibe.TextWrap
