import AtomVibe.Foundations.LineFill
import AtomVibe.RichMarks

namespace AtomVibe.Rich

open Text TextWrap WordStream LineFill Ux

structure Styled where
  ch : Char
  size : ℚ
  bold : Bool

def Styled.blank (c : Styled) : Bool := isWhitespace c.ch

def Mark.styled (mark : Mark) : Option Styled :=
  mark.ch.map fun c => ⟨c, mark.span.size, mark.span.bold⟩

section Measure

variable (fonts : Fonts) (spans : List Span)

def Styled.advance (c : Styled) : ℚ := charAdvance fonts c.ch c.size c.bold

def Styled.space (c : Styled) : ℚ := advanceStyled fonts [' '] c.size c.bold

def measured (word : Bool × List (Option Styled)) : ℚ × List ℚ :=
  let letters := word.2.filterMap id
  (if word.1 then (letters.head?.map (Styled.space fonts)).getD 0 else 0,
    letters.map (Styled.advance fonts))

def RichFrag.letters (frag : RichFrag) : List Styled :=
  if frag.overlay then []
  else frag.text.map fun c =>
    ⟨c, (spans.getD frag.si default).size, (spans.getD frag.si default).bold⟩

def RichWord.letters (word : RichWord) : List Styled := word.frags.flatMap (RichFrag.letters spans)

abbrev full (limit : WithTop ℚ) : WithTop ℚ := limit + (wrapSlack : ℚ)

def markedWord (word : Bool × List Mark) : ℚ × List ℚ :=
  measured fonts (word.1, word.2.map Mark.styled)

end Measure

section Letters

variable {fonts : Fonts} {spans : List Span} {frag : RichFrag} {word : Bool × List Mark}
  {richWord : RichWord}

theorem RichFrag.OfSpan.styled (h : frag.OfSpan fonts spans) :
    ((frag.marks spans).map Mark.styled).filterMap id = frag.letters spans := by
  rw [RichFrag.marks, RichFrag.letters, h.overlay, spanMarks]
  cases (spans.getD frag.si default).overlay with
  | true => rfl
  | false =>
    rw [if_neg Bool.false_ne_true, if_neg Bool.false_ne_true, List.map_map, List.filterMap_map]
    rw [← List.filterMap_eq_map]
    rfl

theorem Writes.letters (h : Writes fonts spans word richWord) :
    (word.2.map Mark.styled).filterMap id = richWord.letters spans := by
  rw [← h.marks, RichWord.letters]
  have hfrags := h.frags
  generalize richWord.frags = frags at hfrags
  induction frags with
  | nil => rfl
  | cons frag frags ih =>
    rw [List.forall_mem_cons] at hfrags
    rw [List.flatMap_cons, List.flatMap_cons, List.map_append, List.filterMap_append,
      hfrags.1.styled, ih hfrags.2]

theorem advance_letters (hover : frag.overlay = false) (text : List Char) :
    advanceStyled fonts text (spans.getD frag.si default).size (spans.getD frag.si default).bold =
      (((({ frag with text := text } : RichFrag).letters spans)).map (Styled.advance fonts)).sum := by
  rw [advanceStyled_eq, WordWrap.width, RichFrag.letters, hover, if_neg Bool.false_ne_true,
    List.map_map]
  rfl

theorem RichFrag.OfSpan.width_letters (h : frag.OfSpan fonts spans) (hover : frag.overlay = false) :
    frag.width = ((frag.letters spans).map (Styled.advance fonts)).sum := by
  rw [h.width hover, advance_letters hover]

theorem Writes.width (h : Writes fonts spans word richWord) (hsound : richWord.Sound) :
    richWord.width = ((richWord.letters spans).map (Styled.advance fonts)).sum := by
  rw [hsound.width, RichWord.letters]
  have hfrags := h.frags
  generalize richWord.frags = frags at hfrags
  induction frags with
  | nil => rfl
  | cons frag frags ih =>
    rw [List.forall_mem_cons] at hfrags
    rw [List.flatMap_cons, List.map_append, List.sum_append, ← ih hfrags.2]
    cases hover : frag.overlay with
    | true =>
      rw [List.filter_cons_of_neg (by simp [hover]), RichFrag.letters, hover, if_pos rfl]
      simp
    | false =>
      rw [List.filter_cons_of_pos (by simp [hover]), List.map_cons, List.sum_cons,
        hfrags.1.width_letters hover]

theorem Writes.letters_eq_nil_iff (h : Writes fonts spans word richWord) :
    richWord.letters spans = [] ↔ ¬ richWord.frags.any fun frag => !frag.overlay := by
  rw [RichWord.letters, List.flatMap_eq_nil_iff, List.any_eq_true]
  constructor
  · rintro hnil ⟨frag, hfrag, htext⟩
    have hover : frag.overlay = false := by simpa using htext
    have hletters := hnil frag hfrag
    rw [RichFrag.letters, hover, if_neg Bool.false_ne_true, List.map_eq_nil_iff] at hletters
    exact ((h.frags frag hfrag).letters hover).1 hletters
  · intro hnone frag hfrag
    cases hover : frag.overlay with
    | true => rw [RichFrag.letters, hover, if_pos rfl]
    | false => exact absurd ⟨frag, hfrag, by simp [hover]⟩ hnone

theorem Writes.head_letters (h : Writes fonts spans word richWord)
    (htext : richWord.frags.any fun frag => !frag.overlay) :
    ∃ c, (richWord.letters spans).head? = some ⟨c,
      (spans.getD richWord.lead.si default).size, (spans.getD richWord.lead.si default).bold⟩ := by
  obtain ⟨hfind, hover, hmem⟩ := find_text htext
  have hlead := ((h.frags _ hmem).letters hover).1
  generalize richWord.lead = lead at hfind hover hlead ⊢
  rw [RichWord.letters]
  generalize richWord.frags = frags at hfind
  induction frags with
  | nil => cases hfind
  | cons frag frags ih =>
    rw [List.flatMap_cons, RichFrag.letters]
    cases hfrag : frag.overlay with
    | true =>
      rw [List.find?_cons_of_neg (by simp [hfrag])] at hfind
      rw [if_pos rfl, List.nil_append]
      exact ih hfind
    | false =>
      rw [List.find?_cons_of_pos (by simp [hfrag])] at hfind
      obtain rfl := Option.some.inj hfind
      obtain ⟨c, text, hc⟩ := List.exists_cons_of_ne_nil hlead
      rw [if_neg Bool.false_ne_true, hc]
      exact ⟨c, rfl⟩

end Letters

structure Measures (s : Flow) (m : Lines ℚ) : Prop where
  done : s.lines.map (·.width) = m.done
  cur : s.cur.width = m.cur
  filled : m.filled = !s.cur.pieces.isEmpty
  hasText : s.hasText = true ↔ 0 < m.cur
  nonneg : ∀ piece ∈ s.cur.pieces, 0 ≤ piece.width
  curNonneg : 0 ≤ m.cur

section Steps

variable {fonts : Fonts} {spans : List Span} {limit : WithTop ℚ} {s : Flow} {m : Lines ℚ}
  {frag : RichFrag} {word : Bool × List Mark} {richWord : RichWord}

theorem Measures.flush (h : Measures s m) (curSpan : Option ℕ) :
    Measures { s.flush with curSpan := curSpan } ⟨m.done ++ [m.cur], 0, false⟩ where
  done := by
    rw [Flow.flush, ← h.done, ← h.cur]
    exact List.map_append
  cur := rfl
  filled := rfl
  hasText := by simp [Flow.flush, Flow.hasText]
  nonneg := by simp [Flow.flush]
  curNonneg := le_rfl

theorem Measures.longer (h : Measures s m) {s' : Flow} (hlines : s'.lines = s.lines)
    (hnonneg : ∀ piece ∈ s'.cur.pieces, 0 ≤ piece.width)
    (hpositive : ∃ piece ∈ s'.cur.pieces, 0 < piece.width) (hwidth : 0 < s'.cur.width) :
    Measures s' ⟨m.done, s'.cur.width, true⟩ where
  done := by rw [hlines, h.done]
  cur := rfl
  filled := by
    obtain ⟨piece, hpiece, -⟩ := hpositive
    simpa using List.ne_nil_of_mem hpiece
  hasText := by
    rw [Flow.hasText, List.any_eq_true]
    obtain ⟨piece, hpiece, hpositive⟩ := hpositive
    exact ⟨fun _ => hwidth, fun _ => ⟨piece, hpiece, by simpa using hpositive⟩⟩
  nonneg := hnonneg
  curNonneg := hwidth.le

theorem Measures.overlay (h : Measures s m) {pieces : List RichPiece} (hne : pieces ≠ [])
    (hzero : ∀ piece ∈ pieces, piece.width = 0) (curSpan : Option ℕ) :
    Measures ⟨s.lines, ⟨s.cur.pieces ++ pieces, s.cur.width⟩, curSpan⟩ { m with filled := true } where
  done := h.done
  cur := h.cur
  filled := by simp [hne]
  hasText := by
    rw [← h.hasText, Flow.hasText, Flow.hasText, List.any_append]
    have hnone : (pieces.any fun piece => 0 < piece.width) = false := by
      rw [List.any_eq_false]
      intro piece hpiece
      simp [hzero piece hpiece]
    rw [hnone, Bool.or_false]
  nonneg := by
    rw [List.forall_mem_append]
    exact ⟨h.nonneg, fun piece hpiece => (hzero piece hpiece).ge⟩
  curNonneg := h.curNonneg

theorem Measures.cut (h : Measures s m) (hpos : fonts.Positive) {chunk : List Char} (hne : chunk ≠ []) :
    Measures (s.cut fonts spans frag chunk) ⟨m.done, m.cur + advanceStyled fonts chunk
      (spans.getD frag.si default).size (spans.getD frag.si default).bold, true⟩ := by
  have hwidth := hpos.advanceStyled_pos hne (spans.getD frag.si default).size
    (spans.getD frag.si default).bold
  rw [← h.cur]
  refine h.longer (show (s.cut fonts spans frag chunk).lines = s.lines from rfl) ?_ ?_ ?_
  · rw [Flow.cut]
    dsimp only
    rw [List.forall_mem_append, List.forall_mem_singleton]
    exact ⟨h.nonneg, hwidth.le⟩
  · exact ⟨_, List.mem_append_right _ List.mem_cons_self, hwidth⟩
  · apply add_pos_of_nonneg_of_pos _ hwidth
    rw [h.cur]
    exact h.curNonneg

theorem Measures.cutFrag (h : Measures s m) (hpos : fonts.Positive) (hover : frag.overlay = false)
    (rest : List Char) :
    Measures (s.cutFrag fonts spans limit frag rest)
      (((({ frag with text := rest } : RichFrag).letters spans).map (Styled.advance fonts)).foldl
        (Lines.letter (full limit)) m) := by
  have hcons : ∀ text : List Char, ({ frag with text := text } : RichFrag).letters spans =
      text.map fun c => ⟨c, (spans.getD frag.si default).size, (spans.getD frag.si default).bold⟩ := by
    intro text
    rw [RichFrag.letters, hover, if_neg Bool.false_ne_true]
  generalize htarget : ((({ frag with text := rest } : RichFrag).letters spans).map
    (Styled.advance fonts)).foldl (Lines.letter (full limit)) m = target
  have hrun : ∃ m', Measures (s.cutFrag fonts spans limit frag rest) m' ∧
      ((({ frag with text := [] } : RichFrag).letters spans).map (Styled.advance fonts)).foldl
        (Lines.letter (full limit)) m' = target := by
    apply Flow.cutFrag_keeps (fun s rest => ∃ m', Measures s m' ∧
      ((({ frag with text := rest } : RichFrag).letters spans).map (Styled.advance fonts)).foldl
        (Lines.letter (full limit)) m' = target)
    · rintro s c rest htext hfull ⟨m, hm, hfold⟩
      refine ⟨_, hm.flush s.curSpan, ?_⟩
      rw [← hfold, hcons, List.map_cons, List.map_cons, List.foldl_cons, List.foldl_cons]
      congr 1
      rw [hm.cur] at hfull
      rw [Lines.letter, Lines.letter, if_neg (fun h => lt_irrefl 0 h.1),
        if_pos ⟨hm.hasText.mp htext, hfull⟩, zero_add]
    · rintro s chunk rest hne hroom ⟨m, hm, hfold⟩
      refine ⟨_, hm.cut hpos hne, ?_⟩
      rw [← hfold, hcons, hcons, List.map_append, List.map_append, List.foldl_append]
      congr 1
      rw [advance_letters hover, hcons]
      rcases hroom with ⟨⟨c, rfl⟩, htext⟩ | hroom
      · rw [List.map_singleton, List.map_singleton, List.foldl_cons, List.foldl_nil, Lines.letter,
          if_neg, List.sum_singleton]
        rintro ⟨hcur, -⟩
        rw [hm.hasText.mpr hcur] at htext
        cases htext
      · rw [advance_letters hover, hcons, hm.cur] at hroom
        rw [foldl_letter_of_room _ _ hroom]
        · intro w hw
          obtain ⟨c, -, rfl⟩ := List.mem_map.mp hw
          exact hpos.charAdvance _ _ _
        · simpa using hne
    · exact ⟨m, h, htarget⟩
  obtain ⟨m', hm, hfold⟩ := hrun
  rw [hcons] at hfold
  rw [← hfold]
  exact hm

theorem refill_foldl (letters : List ℚ) (m : Lines ℚ) (filled filled' : Bool) :
    { letters.foldl (Lines.letter (full limit)) { m with filled := filled } with filled := filled' } =
      { letters.foldl (Lines.letter (full limit)) m with filled := filled' } := by
  by_cases hne : letters = []
  · rw [hne]
    rfl
  · rw [← foldl_letter_filled hne m filled]

theorem Measures.addFrags (hpos : fonts.Positive) {frags : List RichFrag} {s : Flow} {m : Lines ℚ}
    (h : Measures s m) :
    ∃ filled, Measures (frags.foldl (Flow.addFrag fonts spans limit) s)
      { ((frags.flatMap (RichFrag.letters spans)).map (Styled.advance fonts)).foldl
        (Lines.letter (full limit)) m with filled := filled } := by
  induction frags generalizing s m with
  | nil => exact ⟨m.filled, h⟩
  | cons frag frags ih =>
    rw [List.foldl_cons, List.flatMap_cons, List.map_append, List.foldl_append, Flow.addFrag]
    cases hover : frag.overlay with
    | true =>
      have hoverlay := h.overlay (List.cons_ne_nil (pieceFor spans frag s.cur.width frag.text 0) [])
        (by simp [pieceFor]) s.curSpan
      obtain ⟨filled, hrest⟩ := ih hoverlay
      rw [refill_foldl] at hrest
      rw [if_pos rfl, RichFrag.letters, hover, if_pos rfl]
      exact ⟨filled, hrest⟩
    | false =>
      rw [if_neg Bool.false_ne_true]
      exact ih (h.cutFrag hpos hover frag.text)

theorem Measures.long (h : Measures s m) (hpos : fonts.Positive)
    (hne : richWord.letters spans ≠ []) :
    Measures { richWord.frags.foldl (Flow.addFrag fonts spans limit)
        (if s.hasText then s.flush else s) with curSpan := none }
      (m.long (full limit) ((richWord.letters spans).map (Styled.advance fonts))) := by
  have hstart : Measures (if s.hasText then s.flush else s)
      (if 0 < m.cur then ⟨m.done ++ [m.cur], 0, false⟩ else m) := by
    by_cases htext : s.hasText = true
    · rw [if_pos htext, if_pos (h.hasText.mp htext)]
      exact h.flush s.curSpan
    · rw [if_neg htext, if_neg (h.hasText.not.mp htext)]
      exact h
  obtain ⟨filled, hrun⟩ := @Measures.addFrags fonts spans limit hpos richWord.frags _ _ hstart
  rw [Lines.long]
  rw [← RichWord.letters] at hrun
  have hletters : (richWord.letters spans).map (Styled.advance fonts) ≠ [] := by simpa using hne
  have hfilled := @filled_foldl_letter ℚ _ _ (full limit) _
    (if 0 < m.cur then ⟨m.done ++ [m.cur], 0, false⟩ else m) (Or.inl hletters)
  have hpositive : ∀ w ∈ (richWord.letters spans).map (Styled.advance fonts), 0 < w := by
    intro w hw
    obtain ⟨c, -, rfl⟩ := List.mem_map.mp hw
    exact hpos.charAdvance _ _ _
  have hcur := @cur_foldl_letter ℚ _ _ (full limit)
    (if 0 < m.cur then ⟨m.done ++ [m.cur], 0, false⟩ else m) _ _ hpositive hstart.curNonneg
    (Or.inl hletters)
  generalize ((richWord.letters spans).map (Styled.advance fonts)).foldl _ _ = m' at *
  have hsome : filled = true := by
    have htext := hrun.hasText.mpr hcur
    have hpieces := hrun.filled
    rw [Flow.hasText, List.any_eq_true] at htext
    obtain ⟨piece, hpiece, -⟩ := htext
    rw [List.isEmpty_eq_false_iff.mpr (List.ne_nil_of_mem hpiece)] at hpieces
    exact hpieces
  have hsame : ({ m' with filled := filled } : Lines ℚ) = m' := by rw [hsome, ← hfilled]
  rw [hsame] at hrun
  exact ⟨hrun.done, hrun.cur, hrun.filled, hrun.hasText, hrun.nonneg, hrun.curNonneg⟩

theorem placed_widths (x : ℚ) (frags : List RichFrag) :
    (placed spans x frags).map (·.width) =
      frags.map fun frag => if frag.overlay then 0 else frag.width := by
  induction frags generalizing x with
  | nil => rfl
  | cons frag frags ih =>
    rw [placed, List.map_cons]
    cases frag.overlay with
    | true => rw [if_pos rfl, if_pos rfl, List.map_cons, ih, pieceFor]
    | false => rw [if_neg Bool.false_ne_true, if_neg Bool.false_ne_true, List.map_cons, ih, pieceFor]

theorem Writes.frag_pos (h : Writes fonts spans word richWord) (hpos : fonts.Positive)
    {frag : RichFrag} (hfrag : frag ∈ richWord.frags) (hover : frag.overlay = false) :
    0 < frag.width := by
  rw [(h.frags frag hfrag).width hover]
  exact hpos.advanceStyled_pos ((h.frags frag hfrag).letters hover).1 _ _

theorem Writes.width_pos (h : Writes fonts spans word richWord) (hpos : fonts.Positive)
    (hsound : richWord.Sound) (htext : richWord.frags.any fun frag => !frag.overlay) :
    0 < richWord.width := by
  rw [h.width hsound]
  apply List.sum_pos
  · intro w hw
    obtain ⟨c, -, rfl⟩ := List.mem_map.mp hw
    exact hpos.charAdvance _ _ _
  · rw [ne_eq, List.map_eq_nil_iff, h.letters_eq_nil_iff, not_not]
    exact htext

theorem Measures.put (h : Measures s m) (hpos : fonts.Positive)
    (hword : Writes fonts spans word richWord) (hsound : richWord.Sound)
    (htext : richWord.frags.any fun frag => !frag.overlay) :
    Measures (s.put fonts spans richWord)
      ⟨m.done, m.cur + s.spaceFor fonts spans richWord + richWord.width, true⟩ := by
  have hwidth := @Flow.put_width fonts spans s richWord hsound htext
  have hspace := @Flow.spaceFor_nonneg fonts spans s richWord hpos
  have hpositive := hword.width_pos hpos hsound htext
  have hcur := h.curNonneg
  rw [← h.cur] at hcur
  rw [← h.cur, ← hwidth]
  obtain ⟨-, hover, hlead⟩ := find_text htext
  have hleadPos := hword.frag_pos hpos hlead hover
  have hpieces : (∀ piece ∈ (s.put fonts spans richWord).cur.pieces, 0 ≤ piece.width) ∧
      ∃ piece ∈ (s.put fonts spans richWord).cur.pieces, 0 < piece.width := by
    rw [Flow.put]
    split
    · rename_i hmerged
      have hne : s.cur.pieces ≠ [] := by
        rw [Bool.and_eq_true] at hmerged
        simpa using hmerged.2
      obtain ⟨front, piece, hfront⟩ := (List.eq_nil_or_concat s.cur.pieces).resolve_left hne
      rw [List.concat_eq_append] at hfront
      have hnonneg := h.nonneg
      rw [hfront, List.forall_mem_append, List.forall_mem_singleton] at hnonneg
      rw [Flow.extend, hfront, List.getLast?_concat]
      dsimp only
      rw [List.dropLast_concat, List.forall_mem_append, List.forall_mem_singleton]
      have hgrown : 0 < piece.width + (s.spaceFor fonts spans richWord + richWord.lead.width) := by
        linarith [hnonneg.2]
      exact ⟨⟨hnonneg.1, hgrown.le⟩, _, List.mem_append_right _ List.mem_cons_self, hgrown⟩
    · rw [Flow.append_placed, List.forall_mem_append]
      have hwidths := @placed_widths spans (s.cur.width + s.spaceFor fonts spans richWord)
        richWord.frags
      constructor
      · refine ⟨h.nonneg, fun piece hpiece => ?_⟩
        have hmem := List.mem_map_of_mem (f := fun piece : RichPiece => piece.width) hpiece
        rw [hwidths] at hmem
        obtain ⟨frag, hfrag, hwidth⟩ := List.mem_map.mp hmem
        rw [← hwidth]
        split
        · exact le_rfl
        · exact hsound.nonneg frag hfrag
      · have hmem := List.mem_map_of_mem
          (f := fun frag : RichFrag => if frag.overlay then 0 else frag.width) hlead
        rw [← hwidths] at hmem
        obtain ⟨piece, hpiece, hwidth⟩ := List.mem_map.mp hmem
        rw [hover, if_neg Bool.false_ne_true] at hwidth
        exact ⟨piece, List.mem_append_right _ hpiece, hwidth ▸ hleadPos⟩
  apply h.longer Flow.put_lines hpieces.1 hpieces.2
  rw [hwidth]
  linarith

theorem Writes.markedWord (h : Writes fonts spans word richWord) :
    markedWord fonts word =
      (if richWord.spaceBefore then
          ((richWord.letters spans).head?.map (Styled.space fonts)).getD 0 else 0,
        (richWord.letters spans).map (Styled.advance fonts)) := by
  rw [Rich.markedWord, measured, h.letters, h.space]

theorem Measures.spaceFor (h : Measures s m) (hword : Writes fonts spans word richWord)
    (htext : richWord.frags.any fun frag => !frag.overlay) :
    s.spaceFor fonts spans richWord = if m.filled then (markedWord fonts word).1 else 0 := by
  obtain ⟨c, hhead⟩ := hword.head_letters htext
  rw [Flow.spaceFor, h.filled, hword.markedWord, hhead, Option.map_some, Option.getD_some,
    Styled.space]
  cases s.cur.pieces.isEmpty <;> cases richWord.spaceBefore <;> rfl

theorem Measures.short (h : Measures s m) (hpos : fonts.Positive)
    (hword : Writes fonts spans word richWord) (hsound : richWord.Sound)
    (htext : richWord.frags.any fun frag => !frag.overlay) :
    Measures ((s.roomFor fonts spans limit richWord).put fonts spans richWord)
      (m.short (full limit) (markedWord fonts word).1 richWord.width) := by
  rw [Lines.short, ← h.spaceFor hword htext, Flow.roomFor, ← h.filled, h.cur]
  have hif : (m.filled && decide (limit + wrapSlack <
      ↑(m.cur + s.spaceFor fonts spans richWord + richWord.width))) = true ↔ m.filled = true ∧
        full limit < ↑(m.cur + s.spaceFor fonts spans richWord + richWord.width) := by
    rw [Bool.and_eq_true, decide_eq_true_eq]
  by_cases hfull : m.filled = true ∧
      full limit < ↑(m.cur + s.spaceFor fonts spans richWord + richWord.width)
  · have hput := (h.flush none).put hpos hword hsound htext
    have hempty : Flow.spaceFor fonts spans { s.flush with curSpan := none } richWord = 0 := by
      simp [Flow.spaceFor, Flow.flush]
    rw [hempty, add_zero, zero_add] at hput
    rw [if_pos hfull, if_pos (hif.mpr hfull)]
    exact hput
  · rw [if_neg hfull, if_neg (hif.not.mpr hfull)]
    exact h.put hpos hword hsound htext

theorem Measures.addWord (h : Measures s m) (hpos : fonts.Positive)
    (hword : Writes fonts spans word richWord) (hsound : richWord.Sound)
    (hne : richWord.frags ≠ []) :
    Measures (s.addWord fonts spans limit richWord)
      (m.word (full limit) (markedWord fonts word)) := by
  have hletters : (markedWord fonts word).2 = (richWord.letters spans).map (Styled.advance fonts) := by
    rw [hword.markedWord]
  by_cases htext : richWord.frags.any fun frag => !frag.overlay
  · have hsome : richWord.letters spans ≠ [] := by
      rw [ne_eq, hword.letters_eq_nil_iff, not_not]
      exact htext
    have hne' : (markedWord fonts word).2 ≠ [] := by simpa [hletters] using hsome
    have hwidth := hword.width hsound
    rw [← hletters] at hwidth
    by_cases hlong : limit + wrapSlack < richWord.width
    · rw [Flow.addWord_long htext hlong, word_long hne' (by rw [← hwidth]; exact hlong), hletters]
      exact h.long hpos hsome
    · rw [Flow.addWord_short htext hlong, word_short hne' (by rw [← hwidth]; exact hlong), ← hwidth]
      exact h.short hpos hword hsound htext
  · have hnone : (markedWord fonts word).2 = [] := by
      rw [hletters, hword.letters_eq_nil_iff.mpr htext, List.map_nil]
    rw [Flow.addWord_overlays htext, Lines.word, if_pos hnone]
    exact h.overlay (by simpa using hne) (by simp [pieceFor]) none

theorem Measures.addWords (h : Measures s m) (hpos : fonts.Positive)
    {words : List (Bool × List Mark)} {richWords : List RichWord}
    (hwords : List.Forall₂ (Writes fonts spans) words richWords)
    (hsound : ∀ richWord ∈ richWords, richWord.Sound) (hne : ∀ word ∈ words, word.2 ≠ []) :
    Measures (richWords.foldl (Flow.addWord fonts spans limit) s)
      (m.words (full limit) (words.map (markedWord fonts))) := by
  induction hwords generalizing s m with
  | nil => exact h
  | cons hword hwords ih =>
    rw [List.forall_mem_cons] at hsound hne
    rw [List.foldl_cons, List.map_cons, Lines.words, List.foldl_cons]
    apply ih _ hsound.2 hne.2
    apply h.addWord hpos hword hsound.1
    rintro hnil
    have hmarks := hword.marks
    rw [hnil] at hmarks
    exact hne.1 hmarks.symm

end Steps

section Caret

variable {fonts : Fonts}

theorem Measures.closed {s : Flow} {m : Lines ℚ} (h : Measures s m) :
    s.closed.map (·.width) = m.widths := by
  rw [Flow.closed, Lines.widths, h.filled, ← h.done, ← h.cur]
  cases s.cur.pieces.isEmpty with
  | true =>
    cases s.lines with
    | nil => rfl
    | cons line lines => rfl
  | false =>
    have hne : s.lines ++ [s.cur] ≠ [] := by simp
    simp [hne]

def letterStream (spans : List Span) : List (Option Styled) := (marks spans).map Mark.styled

def streamBlank (c : Option Styled) : Bool := c.any Styled.blank

theorem widths_richLines (hpos : fonts.Positive) (spans : List Span) (maxWidth : Option ℚ) :
    (richLines fonts spans maxWidth).1.map (·.width) =
      (Lines.empty.words (full (limitOf maxWidth))
        ((build streamBlank (letterStream spans)).map (measured fonts))).widths := by
  have hstart : Measures ⟨[], ⟨[], 0⟩, none⟩ Lines.empty :=
    ⟨rfl, rfl, rfl, by simp [Flow.hasText, Lines.empty], by simp, le_rfl⟩
  have hrun := @Measures.addWords fonts spans (limitOf maxWidth) _ _ hstart hpos _ _
    (richWords_marks fonts spans) (fun word hword => sound_of_mem_richWords hpos hword)
    (fun word hword => (letters_of_mem_build hword).1)
  have hwords : (build streamBlank (letterStream spans)).map (measured fonts) =
      (build Mark.blank (marks spans)).map (markedWord fonts) := by
    have hblank : ∀ mark : Mark, streamBlank mark.styled = mark.blank := by
      intro mark
      rw [streamBlank, Mark.styled, Option.any_map]
      rfl
    rw [letterStream, build_map hblank, List.map_map]
    rfl
  rw [hwords, richLines_flowOf, flowOf, hrun.closed]

def styledText (spans : List Span) : List Styled :=
  spans.flatMap fun span => span.text.map fun c => ⟨c, span.size, span.bold⟩

theorem styledText_append (spans spans' : List Span) :
    styledText (spans ++ spans') = styledText spans ++ styledText spans' := List.flatMap_append

theorem letterStream_append (spans spans' : List Span) :
    letterStream (spans ++ spans') = letterStream spans ++ letterStream spans' := by
  have hstream : ∀ spans, letterStream spans =
      spans.flatMap fun span => (spanMarks 0 span span.text).map Mark.styled := by
    intro spans
    have hfst : spans = spans.zipIdx.map Prod.fst := by simp
    have hentry : ∀ entry : Span × ℕ, (spanMarks entry.2 entry.1 entry.1.text).map Mark.styled =
        (spanMarks 0 entry.1 entry.1.text).map Mark.styled := by
      intro entry
      rw [spanMarks, spanMarks]
      split
      · rfl
      · rw [List.map_map, List.map_map]
        rfl
    conv_rhs => rw [hfst, List.flatMap_map]
    rw [letterStream, marks, List.map_flatMap]
    simp only [hentry]
  rw [hstream, hstream, hstream, List.flatMap_append]

theorem letterStream_text {spans : List Span} (h : ∀ span ∈ spans, span.overlay = false) :
    letterStream spans = (styledText spans).map some := by
  induction spans with
  | nil => rfl
  | cons span spans ih =>
    rw [List.forall_mem_cons] at h
    rw [← List.singleton_append, letterStream_append, ih h.2, styledText_append, List.map_append]
    congr 1
    simp [letterStream, marks, spanMarks, h.1, styledText, Mark.styled]

theorem measured_overlay (space : Bool) (u v : List (Option Styled)) :
    measured fonts (space, u ++ none :: v) = measured fonts (space, u ++ v) := by
  rw [measured, measured, List.filterMap_append, List.filterMap_append,
    List.filterMap_cons_none rfl]

theorem solid_measured (hpos : fonts.Positive) (word : Bool × List (Option Styled)) :
    Solid (measured fonts word) := by
  constructor
  · rw [measured]
    cases word.1 with
    | false => exact le_rfl
    | true =>
      rw [if_pos rfl]
      cases (word.2.filterMap id).head? with
      | none => exact le_rfl
      | some c => exact hpos.advanceStyled_nonneg _ _ _
  · intro w hw
    obtain ⟨c, -, rfl⟩ := List.mem_map.mp hw
    exact hpos.charAdvance _ _ _

/-- An overlay here is a word of its own before all text, and the first word behind it has a blank
before it and the room of a line. -/
def Indents (fonts : Fonts) (maxWidth : Option ℚ) (before behind : List Styled) : Prop :=
  (∀ c ∈ before, c.blank = true) ∧ (∃ c ∈ behind.head?, c.blank = true) ∧
    leading Styled.blank behind ≠ [] ∧
    ¬ full (limitOf maxWidth) <
      ↑((leading Styled.blank behind).map (Styled.advance fonts)).sum

theorem widths_overlay_iff (hpos : fonts.Positive) (limit : WithTop ℚ) (before behind : List Styled) :
    (Lines.empty.words limit
        ((build streamBlank (before.map some ++ behind.map some)).map (measured fonts))).widths =
      (Lines.empty.words limit
        ((build streamBlank (before.map some ++ none :: behind.map some)).map
          (measured fonts))).widths ↔
      ¬ ((∀ c ∈ before, c.blank = true) ∧ (∃ c ∈ behind.head?, c.blank = true) ∧
        leading Styled.blank behind ≠ [] ∧
        ¬ limit < ↑((leading Styled.blank behind).map (Styled.advance fonts)).sum) := by
  have hblanks : (∀ c ∈ before.map some, streamBlank c = true) ↔ ∀ c ∈ before, c.blank = true := by
    rw [List.forall_mem_map]
    rfl
  have hhead : (∀ c ∈ (behind.map some).head?, streamBlank c = true) ↔
      ∀ c ∈ behind.head?, c.blank = true := by
    cases behind with
    | nil => simp
    | cons c behind => simp [streamBlank]
  rcases @build_insert _ streamBlank none rfl (before.map some) (behind.map some) with
    ⟨words, space, u, v, more, hbuild, hinsert, hnot⟩ | ⟨hback, hbuild, space, hinsert⟩
  · rw [hbuild, hinsert, List.map_append, List.map_append, List.map_cons, List.map_cons,
      measured_overlay]
    refine ⟨fun _ h => ?_, fun _ => rfl⟩
    obtain ⟨hbefore, ⟨c, hc, hcblank⟩, -⟩ := h
    apply hnot
    refine ⟨hblanks.mpr hbefore, hhead.mpr fun d hd => ?_⟩
    rw [← Option.mem_unique hc hd]
    exact hcblank
  · have hoverlay : measured fonts (space, [none]) = (0, []) := by
      cases space <;> rfl
    have hfront : (build streamBlank (before.map some)).map (measured fonts) = [] ↔
        ∀ c ∈ before, c.blank = true := by
      rw [List.map_eq_nil_iff, build_eq_nil_iff, hblanks]
    have hsolid : ∀ word ∈ (build streamBlank (behind.map some)).map (measured fonts), Solid word := by
      intro word hword
      obtain ⟨word, -, rfl⟩ := List.mem_map.mp hword
      exact solid_measured hpos word
    rw [hbuild, hinsert, List.map_append, List.map_append, List.map_cons, hoverlay]
    rw [hhead] at hback
    cases behind with
    | nil =>
      rw [widths_insert_iff hsolid (by rintro word ⟨⟩)]
      simp [build, Builder.all, Builder.empty]
    | cons c behind =>
      have hc := hback c rfl
      have hmapped : (build streamBlank ((c :: behind).map some)).map (measured fonts) =
          (build Styled.blank (c :: behind)).map fun word =>
            (if word.1 then (word.2.head?.map (Styled.space fonts)).getD 0 else 0,
              word.2.map (Styled.advance fonts)) := by
        rw [build_map (fun _ => rfl), List.map_map]
        apply List.map_congr_left
        intro word _
        simp [measured, List.filterMap_map]
      have hbehind := @build_blank_cons _ Styled.blank c hc behind
      have hfirst : ∃ d ∈ (c :: behind).head?, d.blank = true := ⟨c, rfl, hc⟩
      by_cases hleading : leading Styled.blank (c :: behind) = []
      · rw [if_pos hleading] at hbehind
        rw [hbehind] at hmapped
        rw [widths_insert_iff hsolid (by rw [hmapped]; rintro word ⟨⟩), hmapped]
        constructor
        · rintro - ⟨-, -, hne, -⟩
          exact hne hleading
        · rintro - ⟨-, word, hword, -⟩
          cases hword
      · rw [if_neg hleading] at hbehind
        rw [hbehind] at hmapped
        obtain ⟨d, word, hword⟩ := List.exists_cons_of_ne_nil hleading
        have hspace : 0 < d.space fonts :=
          hpos.advanceStyled_pos (List.cons_ne_nil _ _) d.size d.bold
        rw [widths_insert_iff hsolid, hfront, hmapped]
        · constructor
          · rintro hnot ⟨hbefore, -, -, hshort⟩
            exact hnot ⟨hbefore, _, rfl, hshort⟩
          · rintro hnot ⟨hbefore, word, hword, hshort⟩
            rw [← Option.some.inj hword] at hshort
            exact hnot ⟨hbefore, hfirst, hleading, hshort⟩
        · intro word' hword'
          rw [hmapped] at hword'
          rw [← Option.some.inj hword', hword]
          exact ⟨List.cons_ne_nil _ _, fun _ => hspace⟩

/-- A caret put into a text leaves the lines as they are, but where it indents the first word. -/
theorem caret_keeps_lines_iff (hpos : fonts.Positive) (maxWidth : Option ℚ) {front back : List Span}
    {span caret : Span} (hfront : ∀ span ∈ front, span.overlay = false)
    (hspan : span.overlay = false) (hback : ∀ span ∈ back, span.overlay = false)
    (hcaret : caret.overlay = true) (n : ℕ) :
    (richLines fonts (front ++ { span with text := span.text.take n } :: caret ::
        { span with text := span.text.drop n } :: back) maxWidth).1.map (·.width) =
      (richLines fonts (front ++ span :: back) maxWidth).1.map (·.width) ↔
    ¬ Indents fonts maxWidth (styledText (front ++ [{ span with text := span.text.take n }]))
      (styledText ({ span with text := span.text.drop n } :: back)) := by
  have hbefore := @letterStream_text (front ++ [{ span with text := span.text.take n }]) (by
    rw [List.forall_mem_append, List.forall_mem_singleton]
    exact ⟨hfront, hspan⟩)
  have hbehind := @letterStream_text ({ span with text := span.text.drop n } :: back) (by
    rw [List.forall_mem_cons]
    exact ⟨hspan, hback⟩)
  have hplain : letterStream (front ++ span :: back) =
      (styledText (front ++ [{ span with text := span.text.take n }])).map some ++
        (styledText ({ span with text := span.text.drop n } :: back)).map some := by
    rw [letterStream_text, ← List.map_append]
    · congr 1
      rw [styledText_append, styledText_append, List.append_assoc]
      congr 1
      simp only [styledText, List.flatMap_cons, List.flatMap_nil, List.append_nil]
      rw [← List.append_assoc, ← List.map_append, List.take_append_drop]
    · rw [List.forall_mem_append, List.forall_mem_cons]
      exact ⟨hfront, hspan, hback⟩
  have hmarked : letterStream (front ++ { span with text := span.text.take n } :: caret ::
        { span with text := span.text.drop n } :: back) =
      (styledText (front ++ [{ span with text := span.text.take n }])).map some ++
        none :: (styledText ({ span with text := span.text.drop n } :: back)).map some := by
    have hone : letterStream [caret] = [none] := by
      simp [letterStream, marks, spanMarks, hcaret, Mark.styled]
    have hcons : ∀ stream : List (Option Styled), none :: stream = letterStream [caret] ++ stream := by
      intro stream
      rw [hone, List.singleton_append]
    rw [← hbefore, ← hbehind, hcons, ← letterStream_append, ← letterStream_append, List.append_assoc,
      List.singleton_append, List.singleton_append]
  rw [widths_richLines hpos, widths_richLines hpos, hplain, hmarked, Indents, eq_comm]
  exact widths_overlay_iff hpos _ _ _

theorem caret_indents_blank :
    (richLines ⟨none, none⟩ [⟨" a".toList, 7, ⟨0, 0, 0, 1⟩, none, false, false, false⟩]
      (some 100)).1.map (·.width) = [6] ∧
    (richLines ⟨none, none⟩ [⟨[], 7, ⟨0, 0, 0, 1⟩, none, false, false, false⟩,
        ⟨['|'], 7, ⟨0, 0, 0, 1⟩, none, false, false, true⟩,
        ⟨" a".toList, 7, ⟨0, 0, 0, 1⟩, none, false, false, false⟩] (some 100)).1.map (·.width) =
      [12] := by
  rw [widths_richLines bitmap_positive, widths_richLines bitmap_positive]
  decide +kernel

theorem caret_keeps_lines_word :
    (richLines ⟨none, none⟩ [⟨['a'], 7, ⟨0, 0, 0, 1⟩, none, false, false, false⟩,
        ⟨['|'], 7, ⟨0, 0, 0, 1⟩, none, false, false, true⟩,
        ⟨['b'], 7, ⟨0, 0, 0, 1⟩, none, false, false, false⟩] (some 100)).1.map (·.width) =
      (richLines ⟨none, none⟩ [⟨['a', 'b'], 7, ⟨0, 0, 0, 1⟩, none, false, false, false⟩]
        (some 100)).1.map (·.width) := by
  refine (@caret_keeps_lines_iff _ bitmap_positive (some 100) [] []
    ⟨['a', 'b'], 7, ⟨0, 0, 0, 1⟩, none, false, false, false⟩ _ (by simp) rfl (by simp) rfl 1).mpr ?_
  rintro ⟨hbefore, -⟩
  have ha := hbefore ⟨'a', 7, false⟩ (by simp [styledText])
  exact absurd ha (by decide)

end Caret

end AtomVibe.Rich
