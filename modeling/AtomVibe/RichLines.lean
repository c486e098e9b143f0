import AtomVibe.RichFlow

namespace AtomVibe.Rich

open Text TextWrap WordWrap SpacedWords Ux

section Words

variable {fonts : Fonts} {si : ℕ} {span : Span} {s : RichWords}

theorem addText_nil : s.addText fonts si span [] = s := by
  rw [RichWords.addText]

theorem addText_run {ws : Bool} {run rest : List Char} (hrun : ∀ c ∈ run, isWhitespace c = ws)
    (hne : run ≠ []) (hends : ∀ c ∈ rest.head?, isWhitespace c = !ws) :
    s.addText fonts si span (run ++ rest) =
      (s.addRun fonts si span ws run).addText fonts si span rest := by
  cases run with
  | nil => exact absurd rfl hne
  | cons c run =>
    rw [List.forall_mem_cons] at hrun
    have hsame : ∀ d ∈ run, (isWhitespace d == isWhitespace c) = true := by
      intro d hd
      rw [hrun.2 d hd, hrun.1, beq_self_eq_true]
    have hstop : ∀ d ∈ rest.head?, (isWhitespace d == isWhitespace c) = false := by
      intro d hd
      rw [hends d hd, hrun.1]
      cases ws <;> rfl
    have htake : rest.takeWhile (fun d => isWhitespace d == isWhitespace c) = [] := by
      cases rest with
      | nil => rfl
      | cons d rest => rw [List.takeWhile_cons_of_neg (by simp [hstop d rfl])]
    have hdrop : rest.dropWhile (fun d => isWhitespace d == isWhitespace c) = rest := by
      cases rest with
      | nil => rfl
      | cons d rest => rw [List.dropWhile_cons_of_neg (by simp [hstop d rfl])]
    rw [List.cons_append, RichWords.addText, List.takeWhile_append_of_pos hsame, List.dropWhile_append_of_pos hsame, htake, hdrop,
      List.append_nil, hrun.1]

def plainWord (fonts : Fonts) (si : ℕ) (span : Span) (token : List Char × List Char) : RichWord :=
  ⟨!token.1.isEmpty, [⟨si, token.2, advanceStyled fonts token.2 span.size span.bold, false⟩],
    advanceStyled fonts token.2 span.size span.bold⟩

def RichWords.all (s : RichWords) : List RichWord := s.words ++ s.opened.toList

theorem addText_all {text : List Char} {tokens : List (List Char × List Char)}
    (h : Spaced isWhitespace text tokens) (hpending : s.pendingSpace = false)
    (hopened : s.opened.isSome → ∀ c ∈ text.head?, isWhitespace c = true) :
    (s.addText fonts si span text).all = s.all ++ tokens.map (plainWord fonts si span) := by
  induction h generalizing s with
  | @blanks gap hgap =>
    cases gap with
    | nil => rw [addText_nil, List.map_nil, List.append_nil]
    | cons c gap =>
      have hrun := @addText_run fonts si span s true (c :: gap) [] hgap (List.cons_ne_nil _ _) (by simp)
      rw [List.append_nil] at hrun
      rw [hrun, addText_nil, List.map_nil]
      rfl
  | @word gap word rest tokens hgap hword hne hends more ih =>
    have hstarts : ∀ c ∈ (word ++ rest).head?, isWhitespace c = !true := by
      intro c hc
      rw [List.head?_append_of_ne_nil _ hne] at hc
      exact hword c (List.mem_of_mem_head? hc)
    have hadd : ∀ s : RichWords, s.opened = none →
        (s.addRun fonts si span false word).all = s.all ++
          [⟨s.pendingSpace, [⟨si, word, advanceStyled fonts word span.size span.bold, false⟩],
            advanceStyled fonts word span.size span.bold⟩] := by
      intro s hnone
      simp [RichWords.addRun, RichWords.all, hnone]
    have hafter : ∀ s : RichWords, s.opened = none →
        (s.addRun fonts si span false word).pendingSpace = false := by
      intro s hnone
      simp [RichWords.addRun, hnone]
    have hrest : ∀ s : RichWords, s.opened = none →
        (s.addText fonts si span (word ++ rest)).all = s.all ++
          ⟨s.pendingSpace, [⟨si, word, advanceStyled fonts word span.size span.bold, false⟩],
            advanceStyled fonts word span.size span.bold⟩ ::
          tokens.map (plainWord fonts si span) := by
      intro s hnone
      rw [addText_run hword hne hends, ih (hafter s hnone) fun _ => hends, hadd s hnone,
        List.append_assoc, List.singleton_append]
    rw [List.map_cons, plainWord]
    by_cases hgapped : gap = []
    · subst hgapped
      have hnone : s.opened = none := by
        cases hsome : s.opened with
        | none => rfl
        | some opened =>
          obtain ⟨c, word, rfl⟩ := List.exists_cons_of_ne_nil hne
          have hblank := hopened (by rw [hsome]; rfl) c rfl
          rw [hword c List.mem_cons_self] at hblank
          cases hblank
      rw [List.nil_append, hrest s hnone, hpending]
      rfl
    · rw [addText_run hgap hgapped hstarts, hrest _ rfl]
      simp [RichWords.addRun, RichWords.all, hgapped]

theorem richWords_single (hover : span.overlay = false) {tokens : List (List Char × List Char)}
    (h : Spaced isWhitespace span.text tokens) :
    richWords fonts [span] = tokens.map (plainWord fonts 0 span) := by
  have hall := @addText_all fonts 0 span ⟨[], none, false⟩ _ _ h rfl (by simp)
  rw [richWords, List.zipIdx_singleton, List.foldl_cons, List.foldl_nil, RichWords.addSpan,
    if_neg (by simp [hover])]
  exact hall

end Words

section Lines

variable {fonts : Fonts} {span : Span} {maxWidth : ℚ}

def partLine (fonts : Fonts) (span : Span) (frag : RichFrag) (part : List Char) : RichLine :=
  ⟨[pieceFor [span] frag 0 part (width (letterWidth fonts span.size) part)],
    width (letterWidth fonts span.size) part⟩

theorem advanceStyled_plain (hbold : span.bold = false) (content : List Char) :
    advanceStyled fonts content span.size span.bold = width (letterWidth fonts span.size) content := by
  rw [hbold]
  exact advanceStyled_eq content

theorem fit_avail (hbold : span.bold = false) (used : ℚ) (rest : List Char) :
    fitCharsStyled fonts rest span.size span.bold
        ((maxWidth : WithTop ℚ).map fun (w : ℚ) => w - used) =
      fit (letterWidth fonts span.size) (maxWidth + wrapSlack - used) rest := by
  rw [hbold, WithTop.map_coe, fitCharsStyled_eq, add_sub_right_comm]

variable {frag : RichFrag} {rest : List Char} {lines : List RichLine} {curSpan : Option ℕ}

theorem cutFrag_start (hbold : span.bold = false) (hsi : frag.si = 0) (hne : rest ≠ []) :
    Flow.cutFrag fonts [span] maxWidth frag ⟨lines, ⟨[], 0⟩, curSpan⟩ rest =
      Flow.cutFrag fonts [span] maxWidth frag
        ⟨lines, partLine fonts span frag
          (rest.take (chunk (letterWidth fonts span.size) (maxWidth + wrapSlack) rest)), curSpan⟩
        (rest.drop (chunk (letterWidth fonts span.size) (maxWidth + wrapSlack) rest)) := by
  rw [Flow.cutFrag, if_neg (by simpa using hne)]
  simp only [hsi, List.getD_cons_zero, Flow.hasText, List.any_nil, Bool.and_false, fit_avail hbold,
    Bool.false_eq_true, if_false, dropBytes_charBoundary, takeBytes_charBoundary,
    advanceStyled_plain hbold, List.nil_append]
  simp only [sub_zero, zero_add]
  rfl

theorem cutFrag_full (hbold : span.bold = false) (hsi : frag.si = 0) (hne : rest ≠ [])
    {part : List Char} (hpart : 0 < width (letterWidth fonts span.size) part)
    (hfull : fit (letterWidth fonts span.size)
      (maxWidth + wrapSlack - width (letterWidth fonts span.size) part) rest = 0) :
    Flow.cutFrag fonts [span] maxWidth frag ⟨lines, partLine fonts span frag part, curSpan⟩ rest =
      Flow.cutFrag fonts [span] maxWidth frag
        ⟨lines ++ [partLine fonts span frag part], ⟨[], 0⟩, curSpan⟩ rest := by
  rw [Flow.cutFrag, if_neg (by simpa using hne)]
  simp only [hsi, List.getD_cons_zero, fit_avail hbold]
  rw [if_pos]
  · rfl
  · simp [partLine, pieceFor, Flow.hasText, hfull, hpart]

theorem cutFrag_eq (hbold : span.bold = false) (hsi : frag.si = 0)
    (hpos : ∀ c, 0 < letterWidth fonts span.size c) (hne : rest ≠ []) :
    ∃ parts last, breakUp (letterWidth fonts span.size) (maxWidth + wrapSlack) rest =
        parts ++ [last] ∧
      Flow.cutFrag fonts [span] maxWidth frag ⟨lines, ⟨[], 0⟩, curSpan⟩ rest =
        ⟨lines ++ parts.map (partLine fonts span frag), partLine fonts span frag last, curSpan⟩ := by
  induction hlength : rest.length using Nat.strong_induction_on generalizing rest lines with
  | _ n ih =>
    subst hlength
    have hchunk := one_le_chunk (letterWidth fonts span.size) (maxWidth + wrapSlack) rest
    have hrest := List.length_pos_of_ne_nil hne
    rw [cutFrag_start hbold hsi hne]
    by_cases hlast : rest.length ≤ chunk (letterWidth fonts span.size) (maxWidth + wrapSlack) rest
    · refine ⟨[], rest, breakUp_last hne hlast, ?_⟩
      rw [List.take_of_length_le hlast, List.drop_of_length_le hlast, Flow.cutFrag,
        if_pos List.isEmpty_nil, List.map_nil, List.append_nil]
    · have hdrop : rest.drop (chunk (letterWidth fonts span.size) (maxWidth + wrapSlack) rest) ≠ [] := by
        rw [ne_eq, List.drop_eq_nil_iff]
        exact hlast
      have htake : rest.take (chunk (letterWidth fonts span.size) (maxWidth + wrapSlack) rest) ≠ [] := by
        apply List.ne_nil_of_length_pos
        rw [List.length_take]
        omega
      rw [cutFrag_full hbold hsi hdrop (width_pos hpos htake) (fit_after_chunk hpos hne)]
      obtain ⟨parts, last, hparts, hcut⟩ := @ih _ (by rw [List.length_drop]; omega) _ _ hdrop rfl
      refine ⟨_ :: parts, last, by rw [breakUp_of_ne_nil hne, hparts, List.cons_append], ?_⟩
      rw [hcut, List.map_cons, List.append_assoc, List.singleton_append]

def lineWords (line : RichLine) : List (List Char) :=
  line.pieces.flatMap fun piece => splitWhitespace piece.text

structure Flows (fonts : Fonts) (span : Span) (page : Page Char) (s : Flow) : Prop where
  lines : s.lines.map lineWords = page.lines
  cur : lineWords s.cur = page.cur
  filled : s.cur.pieces = [] ↔ page.cur = []
  empty : page.cur = [] → s.cur.width = 0
  width : page.cur ≠ [] → s.cur.width =
    lineWidth (letterWidth fonts span.size) (advance fonts [' '] span.size) page.cur
  positive : ∀ piece ∈ s.cur.pieces, 0 < piece.width

variable {page : Page Char} {s : Flow} {word : List Char}

theorem Flows.hasText (h : Flows fonts span page s) : s.hasText = true ↔ page.cur ≠ [] := by
  rw [Flow.hasText, List.any_eq_true, ne_eq, ← h.filled]
  constructor
  · rintro ⟨piece, hpiece, -⟩ hnil
    rw [hnil] at hpiece
    cases hpiece
  · intro hne
    obtain ⟨piece, hpiece⟩ := List.exists_mem_of_ne_nil _ hne
    exact ⟨piece, hpiece, decide_eq_true (h.positive piece hpiece)⟩

theorem Flows.flush_all (h : Flows fonts span page s) :
    ∃ lines, (if s.hasText then s.flush else s) = ⟨lines, ⟨[], 0⟩, s.curSpan⟩ ∧
      lines.map lineWords = page.all := by
  rw [Page.all]
  by_cases hcur : page.cur = []
  · refine ⟨s.lines, ?_, by rw [if_pos hcur, h.lines]⟩
    have hpieces := h.filled.mpr hcur
    have hwidth := h.empty hcur
    rw [if_neg (h.hasText.not.mpr (not_not.mpr hcur)), ← hpieces, ← hwidth]
  · refine ⟨s.lines ++ [s.cur], by rw [if_pos (h.hasText.mpr hcur), Flow.flush], ?_⟩
    rw [if_neg hcur, List.map_append, h.lines, List.map_singleton, h.cur]

theorem lineWords_partLine {part : List Char} (hletters : ∀ c ∈ part, isWhitespace c = false)
    (hne : part ≠ []) : lineWords (partLine fonts span frag part) = [part] := by
  rw [lineWords, partLine, List.flatMap_singleton, pieceFor]
  exact words_word hletters hne

theorem lt_coe {x : ℚ} : (maxWidth : WithTop ℚ) + (wrapSlack : ℚ) < (x : ℚ) ↔
    maxWidth + wrapSlack < x := by
  rw [← WithTop.coe_add, WithTop.coe_lt_coe]

theorem addWord_plain (hbold : span.bold = false) (gap word : List Char) :
    s.addWord fonts [span] maxWidth (plainWord fonts 0 span (gap, word)) =
      let frag : RichFrag := ⟨0, word, WordWrap.width (letterWidth fonts span.size) word, false⟩
      let spaceW :=
        if !gap.isEmpty && !s.cur.pieces.isEmpty then advance fonts [' '] span.size else 0
      if maxWidth + wrapSlack < WordWrap.width (letterWidth fonts span.size) word then
        { (if s.hasText then s.flush else s).cutFrag fonts [span] maxWidth frag word with
          curSpan := none }
      else
        let s' :=
          if !s.cur.pieces.isEmpty && maxWidth + wrapSlack <
              s.cur.width + spaceW + WordWrap.width (letterWidth fonts span.size) word then
            { s.flush with curSpan := none }
          else s
        let spaceW := if s'.cur.pieces.isEmpty then 0 else spaceW
        if s'.curSpan == some 0 && !s'.cur.pieces.isEmpty then s'.extend spaceW frag
        else { s' with
          cur := ⟨s'.cur.pieces ++ [pieceFor [span] frag (s'.cur.width + spaceW) word
            (WordWrap.width (letterWidth fonts span.size) word)],
            s'.cur.width + spaceW + WordWrap.width (letterWidth fonts span.size) word⟩
          curSpan := some 0 } := by
  have hspace : advanceStyled fonts [' '] span.size span.bold = advance fonts [' '] span.size := by
    rw [hbold, advance]
  rw [Flow.addWord, plainWord]
  simp only [advanceStyled_plain hbold word, List.find?_cons, Bool.not_false, Option.getD_some,
    List.getD_cons_zero, Option.isNone_some, Bool.false_eq_true, if_false, lt_coe, List.foldl_cons,
    List.foldl_nil, Flow.addFrag, List.length_singleton, beq_self_eq_true, Bool.true_and, hspace,
    Flow.append]
  rfl

theorem Flows.long (h : Flows fonts span page s) (hbold : span.bold = false)
    (hpos : ∀ c, 0 < letterWidth fonts span.size c) (hword : ∀ c ∈ word, isWhitespace c = false)
    (hne : word ≠ []) (hlong : maxWidth + wrapSlack < WordWrap.width (letterWidth fonts span.size) word)
    (gap : List Char) :
    Flows fonts span (placeWord fonts span.size maxWidth page word)
      (s.addWord fonts [span] maxWidth (plainWord fonts 0 span (gap, word))) := by
  obtain ⟨lines, hflushed, hall⟩ := h.flush_all
  obtain ⟨parts, last, hparts, hcut⟩ := @cutFrag_eq fonts span maxWidth
    ⟨0, word, WordWrap.width (letterWidth fonts span.size) word, false⟩ word lines s.curSpan hbold rfl hpos
    hne
  have hmem : ∀ part ∈ parts ++ [last], (∀ c ∈ part, isWhitespace c = false) ∧ part ≠ [] := by
    intro part hpart
    rw [← hparts] at hpart
    refine ⟨fun c hc => hword c ?_, ne_nil_of_mem_breakUp hpart⟩
    rw [← @flatten_breakUp _ _ _ (letterWidth fonts span.size) _ (maxWidth + wrapSlack) word]
    exact List.mem_flatten_of_mem hpart hc
  rw [List.forall_mem_append, List.forall_mem_singleton] at hmem
  rw [addWord_plain hbold, if_pos hlong, hflushed, hcut, placeWord, Page.place, if_pos hlong, hparts,
    List.dropLast_concat, List.getLast?_concat, Option.toList_some]
  constructor
  · rw [List.map_append, hall, List.map_map]
    congr 1
    exact List.map_congr_left fun part hpart =>
      lineWords_partLine (hmem.1 part hpart).1 (hmem.1 part hpart).2
  · exact lineWords_partLine hmem.2.1 hmem.2.2
  · simp [partLine]
  · intro hnil
    cases hnil
  · intro _
    rw [lineWidth_singleton, partLine]
  · intro piece hpiece
    rw [partLine, List.mem_singleton] at hpiece
    rw [hpiece]
    exact width_pos hpos hmem.2.2

theorem Flows.first (hpos : ∀ c, 0 < letterWidth fonts span.size c)
    (hword : ∀ c ∈ word, isWhitespace c = false) (hne : word ≠ []) {lines : List RichLine}
    (hlines : lines.map lineWords = page.all) (curSpan : Option ℕ) :
    Flows fonts span ⟨page.all, [word]⟩ ⟨lines, partLine fonts span
      ⟨0, word, WordWrap.width (letterWidth fonts span.size) word, false⟩ word, curSpan⟩ where
  lines := hlines
  cur := lineWords_partLine hword hne
  filled := by simp [partLine]
  empty := fun hnil => absurd hnil (List.cons_ne_nil _ _)
  width := fun _ => by rw [lineWidth_singleton, partLine]
  positive := by
    intro piece hpiece
    rw [partLine, List.mem_singleton] at hpiece
    rw [hpiece]
    exact width_pos hpos hne

theorem lineWords_extend {pieces : List RichPiece} {piece : RichPiece} {x width width' : ℚ}
    (hword : ∀ c ∈ word, isWhitespace c = false) (hne : word ≠ []) :
    lineWords ⟨pieces ++ [{ piece with text := piece.text ++ [' '] ++ word, width := width }], width'⟩ =
      lineWords ⟨pieces ++ [piece], x⟩ ++ [word] := by
  have hends : ∀ c ∈ (' ' :: word).head?, isWhitespace c = true := by
    intro c hc
    rw [← Option.some.inj hc]
    decide
  rw [lineWords, lineWords, List.flatMap_append, List.flatMap_append, List.flatMap_singleton,
    List.flatMap_singleton, List.append_assoc, List.append_assoc, List.singleton_append,
    splitWhitespace, words_append hends, words_cons (by decide), words_word hword hne,
    splitWhitespace]

theorem Flows.next (h : Flows fonts span page s)
    (hpos : ∀ c, 0 < letterWidth fonts span.size c) (hword : ∀ c ∈ word, isWhitespace c = false)
    (hne : word ≠ []) (hcur : page.cur ≠ []) (s' : Flow)
    (hs' : s' = if s.curSpan == some 0 && !s.cur.pieces.isEmpty then
        s.extend (advance fonts [' '] span.size)
          ⟨0, word, WordWrap.width (letterWidth fonts span.size) word, false⟩
      else { s with
        cur := ⟨s.cur.pieces ++ [pieceFor [span]
          ⟨0, word, WordWrap.width (letterWidth fonts span.size) word, false⟩
          (s.cur.width + advance fonts [' '] span.size) word
          (WordWrap.width (letterWidth fonts span.size) word)],
          s.cur.width + advance fonts [' '] span.size +
            WordWrap.width (letterWidth fonts span.size) word⟩
        curSpan := some 0 }) :
    Flows fonts span ⟨page.lines, page.cur ++ [word]⟩ s' := by
  have hspace : 0 < advance fonts [' '] span.size := by
    rw [advance_eq]
    exact width_pos hpos (List.cons_ne_nil _ _)
  have hwidth := width_pos hpos hne
  have hpieces : s.cur.pieces ≠ [] := h.filled.not.mpr hcur
  obtain ⟨front, piece, hfront⟩ := (List.eq_nil_or_concat s.cur.pieces).resolve_left hpieces
  rw [List.concat_eq_append] at hfront
  have hpositive := h.positive
  rw [hfront, List.forall_mem_append, List.forall_mem_singleton] at hpositive
  have hlast : s.cur.pieces.getLast? = some piece := by rw [hfront, List.getLast?_concat]
  have hsum := (lineWidth_concat (letterWidth fonts span.size) (advance fonts [' '] span.size) hcur
    word).symm
  rw [← h.width hcur] at hsum
  by_cases hextend : (s.curSpan == some 0 && !s.cur.pieces.isEmpty) = true
  · rw [if_pos hextend, Flow.extend, hlast] at hs'
    dsimp only at hs'
    rw [if_pos hspace, hfront, List.dropLast_concat] at hs'
    rw [hs']
    constructor
    · exact h.lines
    · have hwords := h.cur
      rw [lineWords, hfront] at hwords
      rw [← hwords]
      exact @lineWords_extend _ front piece 0 _ _ hword hne
    · simp
    · simp
    · intro _
      dsimp only
      rw [← hsum, add_assoc]
    · rw [List.forall_mem_append, List.forall_mem_singleton]
      refine ⟨hpositive.1, ?_⟩
      have := hpositive.2
      dsimp only
      linarith
  · rw [if_neg hextend] at hs'
    rw [hs']
    constructor
    · exact h.lines
    · have hpiece : splitWhitespace word = [word] := words_word hword hne
      rw [← h.cur, lineWords, List.flatMap_append, List.flatMap_singleton, lineWords, pieceFor, hpiece]
    · simp
    · simp
    · exact fun _ => hsum
    · rw [List.forall_mem_append, List.forall_mem_singleton]
      exact ⟨h.positive, hwidth⟩

theorem Flows.addWord (h : Flows fonts span page s) (hbold : span.bold = false)
    (hpos : ∀ c, 0 < letterWidth fonts span.size c) (hword : ∀ c ∈ word, isWhitespace c = false)
    (hne : word ≠ []) {gap : List Char} (hparted : page.cur ≠ [] → gap ≠ []) :
    Flows fonts span (placeWord fonts span.size maxWidth page word)
      (s.addWord fonts [span] maxWidth (plainWord fonts 0 span (gap, word))) := by
  by_cases hlong : maxWidth + wrapSlack < WordWrap.width (letterWidth fonts span.size) word
  · exact h.long hbold hpos hword hne hlong gap
  · rw [addWord_plain hbold, if_neg hlong, placeWord, Page.place, if_neg hlong]
    dsimp only
    by_cases hcur : page.cur = []
    · have hpieces := h.filled.mpr hcur
      have hstart := h.empty hcur
      have hall : page.all = page.lines := by rw [Page.all, if_pos hcur]
      rw [if_pos (Or.inl hcur), hcur, ← hall]
      simp only [hpieces, List.isEmpty_nil, Bool.not_true, Bool.false_and, Bool.and_false,
        Bool.false_eq_true, if_false, if_true, hstart, add_zero, zero_add, List.nil_append]
      exact Flows.first hpos hword hne (h.lines.trans hall.symm) (some 0)
    · have hpieces : s.cur.pieces.isEmpty = false := by
        simpa using h.filled.not.mpr hcur
      have hgap : gap.isEmpty = false := by simpa using hparted hcur
      simp only [hpieces, hgap, Bool.not_false, Bool.true_and, if_true, h.width hcur,
        decide_eq_true_eq]
      by_cases hfits : lineWidth (letterWidth fonts span.size) (advance fonts [' '] span.size) page.cur +
          advance fonts [' '] span.size + WordWrap.width (letterWidth fonts span.size) word ≤
            maxWidth + wrapSlack
      · rw [if_pos (Or.inr hfits)]
        simp only [if_neg (not_lt.mpr hfits), hpieces, Bool.false_eq_true, if_false]
        exact h.next hpos hword hne hcur _ (by rw [hpieces])
      · have hlines : (s.lines ++ [s.cur]).map lineWords = page.all := by
          rw [Page.all, if_neg hcur, List.map_append, h.lines, List.map_singleton, h.cur]
        have hall : page.all = page.lines ++ [page.cur] := by rw [Page.all, if_neg hcur]
        rw [if_neg (not_or.mpr ⟨hcur, hfits⟩), ← hall]
        simp only [if_pos (not_le.mp hfits), Flow.flush, List.isEmpty_nil, if_true, Bool.not_true,
          Bool.and_false, Bool.false_eq_true, if_false, add_zero, zero_add, List.nil_append]
        exact Flows.first hpos hword hne hlines (some 0)

theorem flows_foldl (hbold : span.bold = false) (hpos : ∀ c, 0 < letterWidth fonts span.size c)
    {rest : List Char} {tokens : List (List Char × List Char)}
    (hspaced : Spaced isWhitespace rest tokens) (h : Flows fonts span page s)
    (hparted : page.cur ≠ [] → ∀ c ∈ rest.head?, isWhitespace c = true) :
    Flows fonts span ((tokens.map Prod.snd).foldl (placeWord fonts span.size maxWidth) page)
      ((tokens.map (plainWord fonts 0 span)).foldl (Flow.addWord fonts [span] maxWidth) s) := by
  induction hspaced generalizing page s with
  | blanks hgap => exact h
  | @word gap word rest tokens hgap hword hne hends more ih =>
    have hgapped : page.cur ≠ [] → gap ≠ [] := by
      intro hcur
      exact (Spaced.word hgap hword hne hends more).gap_ne_nil (hparted hcur)
    exact ih (h.addWord hbold hpos hword hne hgapped) fun _ => hends

theorem richLines_eq (hwidth : 0 < maxWidth) (hover : span.overlay = false)
    (hbold : span.bold = false) (hpos : ∀ c, 0 < letterWidth fonts span.size c) :
    (richLines fonts [span] (some maxWidth)).1.map lineWords =
      linesOf fonts span.size maxWidth (splitWhitespace span.text) := by
  obtain ⟨tokens, hspaced⟩ := exists_spaced isWhitespace span.text
  have hstart : Flows fonts span .empty ⟨[], ⟨[], 0⟩, none⟩ :=
    ⟨rfl, rfl, by simp [Page.empty], fun _ => rfl, fun hne => absurd rfl hne, by simp⟩
  have hflows := @flows_foldl fonts span maxWidth _ _ hbold hpos _ _ hspaced hstart
    fun hne => absurd rfl hne
  rw [richLines, richWords_single hover hspaced, splitWhitespace, hspaced.words_eq, linesOf, layout]
  simp only [Option.filter_some, hwidth, decide_true, if_true]
  generalize (tokens.map (plainWord fonts 0 span)).foldl _ _ = s at hflows ⊢
  generalize List.foldl _ Page.empty _ = page at hflows ⊢
  have hall : (if s.cur.pieces.isEmpty then s.lines else s.lines ++ [s.cur]).map lineWords =
      page.all := by
    rw [Page.all]
    by_cases hcur : page.cur = []
    · rw [if_pos hcur, if_pos (List.isEmpty_iff.mpr (hflows.filled.mpr hcur)), hflows.lines]
    · rw [if_neg hcur, if_neg (by simpa using hflows.filled.not.mpr hcur), List.map_append,
        hflows.lines, List.map_singleton, hflows.cur]
  rw [← hall, List.isEmpty_map]
  generalize (if s.cur.pieces.isEmpty then s.lines else s.lines ++ [s.cur]) = lines
  cases lines with
  | nil => rfl
  | cons line lines => rfl

end Lines

theorem words_joined {line : List (List Char)}
    (h : ∀ word ∈ line, word ≠ [] ∧ ∀ c ∈ word, isWhitespace c = false) :
    splitWhitespace (joined line) = line := by
  induction line with
  | nil => rfl
  | cons word line ih =>
    rw [List.forall_mem_cons] at h
    have hword : splitWhitespace word = [word] := words_word h.1.2 h.1.1
    cases line with
    | nil => rw [joined_singleton, hword]
    | cons next line =>
      have hends : ∀ c ∈ ([' '] ++ joined (next :: line)).head?, isWhitespace c = true := by
        intro c hc
        rw [← Option.some.inj hc]
        decide
      have hrest := ih h.2
      rw [splitWhitespace] at hword hrest
      rw [joined, List.intercalate_cons_cons, ← joined, List.append_assoc, splitWhitespace,
        words_append hends, List.singleton_append, words_cons (by decide), hword, hrest,
        List.singleton_append]

theorem splitWhitespace_joined {fonts : Fonts} {size maxWidth : ℚ} {content : List Char}
    {line : List (List Char)} (h : line ∈ linesOf fonts size maxWidth (splitWhitespace content)) :
    splitWhitespace (joined line) = line := by
  rw [linesOf] at h
  split at h
  · rw [List.mem_singleton.mp h]
    rfl
  · apply words_joined
    refine forall_layout _ _ _ (fun word => word ≠ [] ∧ ∀ c ∈ word, isWhitespace c = false)
      (fun word hword => letters_of_mem_words isWhitespace hword) (fun word hword part hpart => ?_) line h
    refine ⟨ne_nil_of_mem_breakUp hpart, fun c hc => ?_⟩
    apply (letters_of_mem_words isWhitespace hword).2
    rw [← @flatten_breakUp _ _ _ (letterWidth fonts size) _ (maxWidth + wrapSlack) word]
    exact List.mem_flatten_of_mem hpart hc

/-- A text has one division into lines: `wrap` builds it, `wrap_ranges` finds it in the text, and a
single plain span flows in it. -/
theorem wrappers_agree (fonts : Fonts) (content : List Char) (size maxWidth : ℚ) (color : Rgba)
    (hwidth : 0 < maxWidth)
    (hpos : ∀ face, fonts.regular = some face → ∀ c, 0 < face.advance c size) :
    List.Forall₂ (fun line range => collapse false (lineText content range) = line)
        (wrap fonts content size maxWidth) (wrapRanges fonts content size maxWidth) ∧
      (wrapRanges fonts content size maxWidth).Pairwise (fun a b => a.2 ≤ b.1) ∧
      (∀ range ∈ wrapRanges fonts content size maxWidth,
        range.1 ≤ range.2 ∧ range.2 ≤ content.length) ∧
      (∀ i c, content[i]? = some c → isWhitespace c = false →
        (wrapRanges fonts content size maxWidth).countP
          (fun range => range.1 ≤ i ∧ i < range.2) = 1) ∧
      (richLines fonts [.plain content size color] (some maxWidth)).1.map lineWords =
        (wrap fonts content size maxWidth).map splitWhitespace := by
  have hranged := @wrapRanges_ranged fonts size maxWidth hwidth content
  have hletters : ∀ c, 0 < letterWidth fonts size c := charAdvance_pos hpos
  have hrich := @richLines_eq fonts (.plain content size color) maxWidth hwidth rfl rfl hletters
  refine ⟨?_, hranged.ordered, fun range hrange => within_of_prints hranged.prints hrange,
    fun i c hi hc => hranged.covers_once hi hc, ?_⟩
  · rw [wrap_eq hwidth, List.forall₂_map_left_iff]
    exact hranged.prints.imp fun line range hprints => hprints.same
  · rw [hrich, wrap_eq hwidth, List.map_map]
    exact ((List.map_congr_left fun line hline => splitWhitespace_joined hline).trans
      (List.map_id _)).symm

theorem wrappers_agree_bitmap : wrapRanges ⟨none, none⟩ "ab cd".toList 7 15 = [(0, 2), (3, 5)] ∧
    (richLines ⟨none, none⟩ [.plain "ab cd".toList 7 ⟨0, 0, 0, 1⟩] (some 15)).1.map lineWords =
      (wrap ⟨none, none⟩ "ab cd".toList 7 15).map splitWhitespace := by
  refine ⟨by decide +kernel, ?_⟩
  exact (wrappers_agree ⟨none, none⟩ "ab cd".toList 7 15 ⟨0, 0, 0, 1⟩ (by decide)
    (fun face hface => by cases hface)).2.2.2.2

end AtomVibe.Rich
