import AtomVibe.RichFlow
import Mathlib.Data.List.Induction

namespace AtomVibe.TextWrap

open Text WordWrap SpacedWords

def Fonts.Positive (fonts : Fonts) : Prop :=
  ∀ bold face, fonts.face bold = some face → ∀ c size, 0 < face.advance c size

def OneLine (fonts : Fonts) (content : List Char) (size : ℚ) : Prop :=
  advance fonts (joined (splitWhitespace content)) size ≤ advance fonts content size + wrapSlack

section Plain

variable {fonts : Fonts} {size x : ℚ} {content : List Char}

theorem Fonts.Positive.charAdvance (h : fonts.Positive) (c : Char) (size : ℚ) (bold : Bool) :
    0 < TextWrap.charAdvance fonts c size bold :=
  charAdvance_pos (fun face hface c => h bold face hface c size) c

theorem Fonts.Positive.advanceStyled_nonneg (h : fonts.Positive) (content : List Char) (size : ℚ)
    (bold : Bool) : 0 ≤ advanceStyled fonts content size bold := by
  rw [advanceStyled_eq, width]
  apply List.sum_nonneg
  intro w hw
  obtain ⟨c, -, rfl⟩ := List.mem_map.mp hw
  exact (h.charAdvance c size bold).le

theorem Fonts.Positive.advanceStyled_pos (h : fonts.Positive) {content : List Char}
    (hne : content ≠ []) (size : ℚ) (bold : Bool) : 0 < advanceStyled fonts content size bold := by
  rw [advanceStyled_eq]
  exact width_pos (fun c => h.charAdvance c size bold) hne

theorem advance_joined {line : List (List Char)} (h : line ≠ []) :
    advance fonts (joined line) size =
      lineWidth (letterWidth fonts size) (advance fonts [' '] size) line := by
  induction line using List.reverseRecOn with
  | nil => exact absurd rfl h
  | append_singleton front word ih =>
    by_cases hfront : front = []
    · subst hfront
      rw [List.nil_append, joined_singleton, lineWidth_singleton, advance_eq]
    · rw [joined_concat hfront, lineWidth_concat _ _ hfront, ← ih hfront,
        ← List.singleton_append, advance_eq, width_append, width_append, advance_eq, advance_eq,
        add_assoc]

theorem one_le_length_wrap (content : List Char) (size x : ℚ) :
    1 ≤ (wrap fonts content size x).length := by
  have hlines : ∀ lines : List (List Char), (if lines.isEmpty then [[]] else lines) ≠ [] := by
    intro lines
    cases lines <;> simp
  rw [Nat.one_le_iff_ne_zero, ne_eq, List.length_eq_zero_iff, wrap]
  split
  · exact List.cons_ne_nil _ _
  · exact hlines _

theorem wrap_one_line (hpos : fonts.Positive) (h : OneLine fonts content size)
    (hx : advance fonts content size ≤ x) : (wrap fonts content size x).length = 1 := by
  rcases le_or_gt x 0 with hnone | hwidth
  · rw [wrap, if_pos hnone]
    rfl
  · rw [wrap_eq hwidth, List.length_map, linesOf]
    by_cases hne : splitWhitespace content = []
    · rw [hne]
      rfl
    · have hfits : lineWidth (letterWidth fonts size) (advance fonts [' '] size)
          (splitWhitespace content) ≤ x + wrapSlack := by
        rw [← advance_joined hne]
        exact h.trans (by linarith)
      have hspace : 0 ≤ advance fonts [' '] size := hpos.advanceStyled_nonneg _ _ _
      have hwords : ∀ word ∈ splitWhitespace content,
          0 ≤ WordWrap.width (letterWidth fonts size) word := by
        intro word _
        rw [← advance_eq]
        exact hpos.advanceStyled_nonneg _ _ _
      rw [layout_of_fits hspace hwords hne hfits]
      rfl

end Plain

end AtomVibe.TextWrap

namespace AtomVibe.Rich

open Text TextWrap Ux

structure RichWord.Sound (word : RichWord) : Prop where
  width : word.width = ((word.frags.filter fun frag => !frag.overlay).map (·.width)).sum
  nonneg : ∀ frag ∈ word.frags, 0 ≤ frag.width

variable {fonts : Fonts} {spans : List Span}

theorem RichWord.Sound.width_nonneg {word : RichWord} (h : word.Sound) : 0 ≤ word.width := by
  rw [h.width]
  apply List.sum_nonneg
  intro w hw
  obtain ⟨frag, hfrag, rfl⟩ := List.mem_map.mp hw
  exact h.nonneg frag (List.mem_of_mem_filter hfrag)

section Words

variable {s : RichWords} {si : ℕ} {span : Span}

theorem RichWord.Sound.add {word : RichWord} (h : word.Sound) (frag : RichFrag)
    (hnonneg : 0 ≤ frag.width) :
    RichWord.Sound { word with
      frags := word.frags ++ [frag]
      width := if frag.overlay then word.width else word.width + frag.width } where
  width := by
    rw [List.filter_append, List.map_append, List.sum_append, ← h.width]
    cases hover : frag.overlay with
    | true => rw [List.filter_cons_of_neg (by simp [hover])]; simp
    | false => rw [List.filter_cons_of_pos (by simp [hover])]; simp
  nonneg := by
    intro other hother
    rcases List.mem_append.mp hother with hother | hother
    · exact h.nonneg other hother
    · rw [List.mem_singleton.mp hother]
      exact hnonneg

theorem RichWord.sound_empty (space : Bool) : RichWord.Sound ⟨space, [], 0⟩ where
  width := rfl
  nonneg := by simp

def RichWords.Sound (s : RichWords) : Prop := ∀ word ∈ s.words ++ s.opened.toList, word.Sound

theorem RichWords.Sound.opened (h : s.Sound) {word : RichWord} (hopened : s.opened = some word) :
    word.Sound := h word (List.mem_append_right _ (by simp [hopened]))

theorem RichWords.Sound.open (h : s.Sound) {word : RichWord} (hword : word.Sound) (pending : Bool) :
    RichWords.Sound ⟨s.words, some word, pending⟩ := by
  intro other hother
  rcases List.mem_append.mp hother with hother | hother
  · exact h other (List.mem_append_left _ hother)
  · rw [List.mem_singleton.mp hother]
    exact hword

theorem RichWords.Sound.addOverlay (h : s.Sound) : (s.addOverlay si span).Sound := by
  cases hopened : s.opened with
  | none =>
    rw [RichWords.addOverlay, hopened]
    exact h.open ((RichWord.sound_empty s.pendingSpace).add ⟨si, span.text, 0, true⟩ le_rfl) _
  | some word =>
    rw [RichWords.addOverlay, hopened]
    exact h.open ((h.opened hopened).add ⟨si, span.text, 0, true⟩ le_rfl) _

theorem RichWords.Sound.addRun (h : s.Sound) (hpos : fonts.Positive) (ws : Bool)
    (run : List Char) : (s.addRun fonts si span ws run).Sound := by
  cases ws with
  | true =>
    rw [RichWords.addRun, if_pos rfl]
    intro word hword
    rw [Option.toList_none, List.append_nil] at hword
    exact h word hword
  | false =>
    rw [RichWords.addRun, if_neg Bool.false_ne_true]
    have hword : (s.opened.getD ⟨s.pendingSpace, [], 0⟩).Sound := by
      cases hopened : s.opened with
      | none => exact RichWord.sound_empty _
      | some word => exact h.opened hopened
    exact h.open (hword.add ⟨si, run, _, false⟩ (hpos.advanceStyled_nonneg _ _ _)) _

theorem RichWords.Sound.addText (h : s.Sound) (hpos : fonts.Positive) (text : List Char) :
    (s.addText fonts si span text).Sound := by
  induction s, text using RichWords.addText.induct fonts si span with
  | case1 s =>
    rw [RichWords.addText]
    exact h
  | case2 s c rest ws ih =>
    rw [RichWords.addText]
    exact ih (h.addRun hpos _ _)

theorem sound_of_mem_richWords (hpos : fonts.Positive) {word : RichWord}
    (h : word ∈ richWords fonts spans) : word.Sound := by
  have hfold : ∀ (marked : List (Span × ℕ)) (s : RichWords), s.Sound →
      (marked.foldl (RichWords.addSpan fonts) s).Sound := by
    intro marked
    induction marked with
    | nil => exact fun s hs => hs
    | cons entry marked ih =>
      intro s hs
      obtain ⟨span, si⟩ := entry
      rw [List.foldl_cons, RichWords.addSpan]
      split
      · exact ih _ hs.addOverlay
      · exact ih _ (hs.addText hpos _)
  exact hfold _ _ (by simp [RichWords.Sound]) word h

end Words

section Flow

variable {s : Flow} {word : RichWord} {limit : WithTop ℚ}

def RichWord.lead (word : RichWord) : RichFrag :=
  (word.frags.find? fun frag => !frag.overlay).getD (word.frags.headD default)

def Flow.spaceFor (fonts : Fonts) (spans : List Span) (s : Flow) (word : RichWord) : ℚ :=
  if word.spaceBefore && !s.cur.pieces.isEmpty then
    advanceStyled fonts [' '] (spans.getD word.lead.si default).size
      (spans.getD word.lead.si default).bold
  else 0

def Flow.put (fonts : Fonts) (spans : List Span) (s : Flow) (word : RichWord) : Flow :=
  if word.frags.length == 1 && s.curSpan == some word.lead.si && !s.cur.pieces.isEmpty then
    s.extend (s.spaceFor fonts spans word) word.lead
  else s.append spans (s.spaceFor fonts spans word) word

theorem Flow.spaceFor_nonneg (hpos : fonts.Positive) : 0 ≤ s.spaceFor fonts spans word := by
  rw [Flow.spaceFor]
  split
  · exact hpos.advanceStyled_nonneg _ _ _
  · exact le_rfl

theorem Flow.addWord_of_room (htext : word.frags.any fun frag => !frag.overlay)
    (hword : ¬ limit + wrapSlack < word.width)
    (hroom : ¬ limit + wrapSlack < ↑(s.cur.width + s.spaceFor fonts spans word + word.width)) :
    s.addWord fonts spans limit word = s.put fonts spans word := by
  have hsome : (word.frags.find? fun frag => !frag.overlay).isNone = false := by
    rw [← Bool.not_eq_true, Option.isNone_iff_eq_none, List.find?_eq_none]
    simpa using htext
  rw [Flow.spaceFor, RichWord.lead] at hroom
  rw [Flow.addWord, Flow.put, Flow.spaceFor, RichWord.lead]
  simp only [hsome, hword, hroom, Bool.false_eq_true, if_false, decide_false, Bool.and_false]
  cases hempty : s.cur.pieces.isEmpty <;> simp

def placeFrag (spans : List Span) (placed : List RichPiece × ℚ) (frag : RichFrag) :
    List RichPiece × ℚ :=
  if frag.overlay then (placed.1 ++ [pieceFor spans frag placed.2 frag.text 0], placed.2)
  else (placed.1 ++ [pieceFor spans frag placed.2 frag.text frag.width], placed.2 + frag.width)

theorem foldl_placeFrag (frags : List RichFrag) (placed : List RichPiece × ℚ) :
    (frags.foldl (placeFrag spans) placed).1.length = placed.1.length + frags.length ∧
      (frags.foldl (placeFrag spans) placed).2 =
        placed.2 + ((frags.filter fun frag => !frag.overlay).map (·.width)).sum := by
  induction frags generalizing placed with
  | nil => simp
  | cons frag frags ih =>
    obtain ⟨hlength, hwidth⟩ := ih (placeFrag spans placed frag)
    rw [List.foldl_cons, hlength, hwidth, placeFrag, List.length_cons]
    cases hover : frag.overlay with
    | true =>
      rw [if_pos rfl, List.filter_cons_of_neg (by simp [hover]), List.length_append,
        List.length_singleton, add_assoc, add_comm 1]
      exact ⟨rfl, rfl⟩
    | false =>
      rw [if_neg Bool.false_ne_true, List.filter_cons_of_pos (by simp [hover]), List.map_cons,
        List.sum_cons, List.length_append, List.length_singleton, add_assoc, add_comm 1]
      exact ⟨rfl, add_assoc _ _ _⟩

theorem Flow.append_width (hword : word.Sound) (spaceW : ℚ) :
    (s.append spans spaceW word).cur.width = s.cur.width + spaceW + word.width := by
  rw [hword.width]
  exact (foldl_placeFrag word.frags (s.cur.pieces, s.cur.width + spaceW)).2

theorem Flow.put_lines : (s.put fonts spans word).lines = s.lines := by
  rw [Flow.put]
  split
  · rw [Flow.extend]
    split <;> rfl
  · rfl

theorem Flow.put_width (hword : word.Sound) (htext : word.frags.any fun frag => !frag.overlay) :
    (s.put fonts spans word).cur.width = s.cur.width + s.spaceFor fonts spans word + word.width := by
  rw [Flow.put]
  split
  · rename_i hone
    simp only [Bool.and_eq_true, beq_iff_eq, Bool.not_eq_true', List.isEmpty_eq_false_iff] at hone
    obtain ⟨⟨hlength, -⟩, hne⟩ := hone
    obtain ⟨frag, hfrag⟩ := List.length_eq_one_iff.mp hlength
    have hover : frag.overlay = false := by simpa [hfrag] using htext
    have hlead : word.lead = frag := by simp [RichWord.lead, hfrag, hover]
    have hwidth : word.width = frag.width := by
      rw [hword.width, hfrag, List.filter_cons_of_pos (by simp [hover])]
      simp
    rw [Flow.extend, List.getLast?_eq_some_getLast hne, hlead, hwidth, add_assoc]
  · exact Flow.append_width hword _

theorem Flow.addWord_overlay (htext : ¬ word.frags.any fun frag => !frag.overlay)
    (limit : WithTop ℚ) : s.addWord fonts spans limit word = s.addWord fonts spans ⊤ word ∧
      (s.addWord fonts spans limit word).lines = s.lines ∧
      (s.addWord fonts spans limit word).cur.width = s.cur.width := by
  have hnone : (word.frags.find? fun frag => !frag.overlay).isNone = true := by
    rw [Option.isNone_iff_eq_none, List.find?_eq_none]
    simpa using htext
  rw [Flow.addWord, Flow.addWord, if_pos hnone, if_pos hnone]
  exact ⟨rfl, rfl, rfl⟩

theorem not_unlimited_lt (x : WithTop ℚ) : ¬ (⊤ : WithTop ℚ) + wrapSlack < x := by
  rw [top_add]
  exact not_top_lt

theorem Flow.addWord_top (htext : word.frags.any fun frag => !frag.overlay) :
    s.addWord fonts spans ⊤ word = s.put fonts spans word :=
  Flow.addWord_of_room htext (not_unlimited_lt _) (not_unlimited_lt _)

theorem Flow.addWord_grows (hpos : fonts.Positive) (hword : word.Sound) :
    (s.addWord fonts spans ⊤ word).lines = s.lines ∧
      s.cur.width ≤ (s.addWord fonts spans ⊤ word).cur.width := by
  by_cases htext : word.frags.any fun frag => !frag.overlay
  · rw [Flow.addWord_top htext, Flow.put_lines, Flow.put_width hword htext]
    have hspace := @Flow.spaceFor_nonneg fonts spans s word hpos
    exact ⟨rfl, by linarith [hword.width_nonneg]⟩
  · obtain ⟨-, hlines, hwidth⟩ := @Flow.addWord_overlay fonts spans s word htext ⊤
    exact ⟨hlines, hwidth.ge⟩

theorem Flow.addWord_of_fits (hpos : fonts.Positive) (hword : word.Sound) {x : ℚ}
    (hcur : 0 ≤ s.cur.width) (hfits : (s.addWord fonts spans ⊤ word).cur.width ≤ x) :
    s.addWord fonts spans x word = s.addWord fonts spans ⊤ word := by
  by_cases htext : word.frags.any fun frag => !frag.overlay
  · rw [Flow.addWord_top htext, Flow.put_width hword htext] at hfits
    have hspace := @Flow.spaceFor_nonneg fonts spans s word hpos
    have hslack : (0 : ℚ) ≤ wrapSlack := by norm_num [wrapSlack]
    rw [Flow.addWord_top htext]
    apply Flow.addWord_of_room htext
    · rw [not_lt]
      exact_mod_cast (show word.width ≤ x + wrapSlack by linarith)
    · rw [not_lt]
      exact_mod_cast (show s.cur.width + s.spaceFor fonts spans word + word.width ≤ x + wrapSlack
        by linarith)
  · exact (Flow.addWord_overlay htext x).1

theorem Flow.append_pieces (spaceW : ℚ) :
    (s.append spans spaceW word).cur.pieces.length = s.cur.pieces.length + word.frags.length :=
  (foldl_placeFrag word.frags (s.cur.pieces, s.cur.width + spaceW)).1

theorem Flow.addWord_empty (h : s.cur.pieces = [] → s.cur.width = 0)
    (hempty : (s.addWord fonts spans ⊤ word).cur.pieces = []) :
    (s.addWord fonts spans ⊤ word).cur.width = 0 := by
  by_cases htext : word.frags.any fun frag => !frag.overlay
  · have hfrags : word.frags ≠ [] := by
      rintro hnil
      simp [hnil] at htext
    rw [Flow.addWord_top htext, Flow.put] at hempty
    split at hempty
    · rename_i hone
      simp only [Bool.and_eq_true, Bool.not_eq_true', List.isEmpty_eq_false_iff] at hone
      rw [Flow.extend, List.getLast?_eq_some_getLast hone.2] at hempty
      simp at hempty
    · have hlength := @Flow.append_pieces spans s word (s.spaceFor fonts spans word)
      rw [hempty, List.length_nil] at hlength
      have := List.length_pos_of_ne_nil hfrags
      omega
  · obtain ⟨-, -, hwidth⟩ := @Flow.addWord_overlay fonts spans s word htext ⊤
    rw [hwidth]
    apply h
    have hnone : (word.frags.find? fun frag => !frag.overlay).isNone = true := by
      rw [Option.isNone_iff_eq_none, List.find?_eq_none]
      simpa using htext
    rw [Flow.addWord, if_pos hnone] at hempty
    exact (List.append_eq_nil_iff.mp hempty).1

theorem foldl_addWord_grows (hpos : fonts.Positive) {words : List RichWord}
    (hwords : ∀ word ∈ words, word.Sound) (s : Flow) :
    (words.foldl (Flow.addWord fonts spans ⊤) s).lines = s.lines ∧
      s.cur.width ≤ (words.foldl (Flow.addWord fonts spans ⊤) s).cur.width := by
  induction words generalizing s with
  | nil => exact ⟨rfl, le_rfl⟩
  | cons word words ih =>
    rw [List.forall_mem_cons] at hwords
    obtain ⟨hlines, hwidth⟩ := ih hwords.2 (s.addWord fonts spans ⊤ word)
    obtain ⟨hline, hgrows⟩ := @Flow.addWord_grows fonts spans s word hpos hwords.1
    rw [List.foldl_cons]
    exact ⟨hlines.trans hline, hgrows.trans hwidth⟩

theorem foldl_addWord_of_fits (hpos : fonts.Positive) {words : List RichWord}
    (hwords : ∀ word ∈ words, word.Sound) {s : Flow} {x : ℚ} (hcur : 0 ≤ s.cur.width)
    (hfits : (words.foldl (Flow.addWord fonts spans ⊤) s).cur.width ≤ x) :
    words.foldl (Flow.addWord fonts spans x) s = words.foldl (Flow.addWord fonts spans ⊤) s := by
  induction words generalizing s with
  | nil => rfl
  | cons word words ih =>
    rw [List.forall_mem_cons] at hwords
    rw [List.foldl_cons] at hfits
    have hgrows := (@Flow.addWord_grows fonts spans s word hpos hwords.1).2
    have hrest := (@foldl_addWord_grows fonts spans hpos words hwords.2
      (s.addWord fonts spans ⊤ word)).2
    rw [List.foldl_cons, List.foldl_cons, Flow.addWord_of_fits hpos hwords.1 hcur
      (hrest.trans hfits)]
    exact ih hwords.2 (hcur.trans hgrows) hfits

end Flow

def unlimited (fonts : Fonts) (spans : List Span) : Flow :=
  (richWords fonts spans).foldl (Flow.addWord fonts spans ⊤) ⟨[], ⟨[], 0⟩, none⟩

theorem unlimited_lines (hpos : fonts.Positive) : (unlimited fonts spans).lines = [] :=
  (foldl_addWord_grows hpos (fun _ hword => sound_of_mem_richWords hpos hword) _).1

theorem unlimited_empty (h : (unlimited fonts spans).cur.pieces = []) :
    (unlimited fonts spans).cur.width = 0 := by
  have hfold : ∀ (words : List RichWord) (s : Flow), (s.cur.pieces = [] → s.cur.width = 0) →
      (words.foldl (Flow.addWord fonts spans ⊤) s).cur.pieces = [] →
      (words.foldl (Flow.addWord fonts spans ⊤) s).cur.width = 0 := by
    intro words
    induction words with
    | nil => exact fun s hs => hs
    | cons word words ih =>
      intro s hs
      rw [List.foldl_cons]
      exact ih _ (Flow.addWord_empty hs)
  exact hfold _ _ (fun _ => rfl) h

def Flow.closed (s : Flow) : List RichLine :=
  let lines := if s.cur.pieces.isEmpty then s.lines else s.lines ++ [s.cur]
  if lines.isEmpty then [⟨[], 0⟩] else lines

theorem richLines_none (hpos : fonts.Positive) : ∃ line : RichLine,
    (richLines fonts spans none).1 = [line] ∧ line.width = (unlimited fonts spans).cur.width := by
  have hclosed : (richLines fonts spans none).1 = (unlimited fonts spans).closed := rfl
  rw [hclosed, Flow.closed, unlimited_lines hpos]
  by_cases hempty : (unlimited fonts spans).cur.pieces = []
  · rw [if_pos (List.isEmpty_iff.mpr hempty)]
    exact ⟨⟨[], 0⟩, rfl, (unlimited_empty hempty).symm⟩
  · rw [if_neg (mt List.isEmpty_iff.mp hempty)]
    exact ⟨(unlimited fonts spans).cur, rfl, rfl⟩

theorem richLines_nonpos {x : ℚ} (hx : x ≤ 0) :
    richLines fonts spans (some x) = richLines fonts spans none := by
  have hfilter : (some x).filter (fun w => 0 < w) = none := by
    rw [Option.filter_eq_none_iff]
    simpa using hx
  rw [richLines, richLines, hfilter, Option.filter_none]

theorem richLines_of_fits (hpos : fonts.Positive) {x : ℚ}
    (hfits : (unlimited fonts spans).cur.width ≤ x) :
    richLines fonts spans (some x) = richLines fonts spans none := by
  rcases le_or_gt x 0 with hx | hx
  · exact richLines_nonpos hx
  · have hfold := foldl_addWord_of_fits hpos
      (fun _ hword => sound_of_mem_richWords hpos hword) (s := ⟨[], ⟨[], 0⟩, none⟩) le_rfl hfits
    have hfilter : (some x).filter (fun w => 0 < w) = some x := by
      rw [Option.filter_eq_some_iff]
      exact ⟨rfl, by simpa using hx⟩
    rw [richLines, richLines, hfilter, Option.filter_none]
    simp only [hfold]

end AtomVibe.Rich
