import AtomVibe.SingleLines

namespace AtomVibe.Rich

open Text TextWrap WordStream Ux

structure Mark where
  si : ℕ
  span : Span
  ch : Option Char

namespace Mark

def blank (mark : Mark) : Bool := mark.ch.any isWhitespace

end Mark

def spanMarks (si : ℕ) (span : Span) (text : List Char) : List Mark :=
  if span.overlay then [⟨si, span, none⟩] else text.map fun c => ⟨si, span, some c⟩

def marks (spans : List Span) : List Mark :=
  spans.zipIdx.flatMap fun entry => spanMarks entry.2 entry.1 entry.1.text

section Words

variable (fonts : Fonts) (spans : List Span)

def RichFrag.marks (frag : RichFrag) : List Mark :=
  spanMarks frag.si (spans.getD frag.si default) frag.text

structure RichFrag.OfSpan (frag : RichFrag) : Prop where
  overlay : frag.overlay = (spans.getD frag.si default).overlay
  whole : frag.overlay = true → frag.text = (spans.getD frag.si default).text ∧ frag.width = 0
  letters : frag.overlay = false → frag.text ≠ [] ∧ ∀ c ∈ frag.text, isWhitespace c = false
  width : frag.overlay = false → frag.width = advanceStyled fonts frag.text
    (spans.getD frag.si default).size (spans.getD frag.si default).bold

structure Writes (word : Bool × List Mark) (richWord : RichWord) : Prop where
  space : richWord.spaceBefore = word.1
  marks : richWord.frags.flatMap (RichFrag.marks spans) = word.2
  frags : ∀ frag ∈ richWord.frags, frag.OfSpan fonts spans

structure Follows (b : Builder Mark) (s : RichWords) : Prop where
  words : List.Forall₂ (Writes fonts spans) b.words s.words
  opened : Option.Rel (Writes fonts spans) b.opened s.opened
  pending : s.pendingSpace = b.pending

variable {fonts spans}
variable {b : Builder Mark} {s : RichWords} {si : ℕ} {span : Span}

theorem Follows.all (h : Follows fonts spans b s) :
    List.Forall₂ (Writes fonts spans) b.all (s.words ++ s.opened.toList) := by
  have hopen := h.opened
  apply List.rel_append h.words
  generalize b.opened = bOpened at hopen
  generalize s.opened = sOpened at hopen
  cases hopen with
  | none => exact .nil
  | some hword => exact .cons hword .nil

theorem Writes.add {word : Bool × List Mark} {richWord : RichWord} (h : Writes fonts spans word richWord)
    {frag : RichFrag} (hfrag : frag.OfSpan fonts spans) (width : ℚ) :
    Writes fonts spans (word.1, word.2 ++ frag.marks spans)
      { richWord with frags := richWord.frags ++ [frag], width := width } where
  space := h.space
  marks := by
    rw [List.flatMap_append, h.marks, List.flatMap_singleton]
  frags := by
    rw [List.forall_mem_append, List.forall_mem_singleton]
    exact ⟨h.frags, hfrag⟩

theorem writes_singleton {space : Bool} {frag : RichFrag} (hfrag : frag.OfSpan fonts spans) (width : ℚ) :
    Writes fonts spans (space, frag.marks spans) ⟨space, [frag], width⟩ where
  space := rfl
  marks := List.flatMap_singleton _ _
  frags := by
    rw [List.forall_mem_singleton]
    exact hfrag

theorem Follows.addOverlay (h : Follows fonts spans b s) (hspan : spans.getD si default = span)
    (hover : span.overlay = true) :
    Follows fonts spans (b.add Mark.blank ⟨si, span, none⟩) (s.addOverlay si span) := by
  have hfrag : RichFrag.OfSpan fonts spans ⟨si, span.text, 0, true⟩ := by
    constructor
    · rw [hspan, hover]
    · rintro -
      rw [hspan]
      exact ⟨rfl, rfl⟩
    · intro hfalse
      cases hfalse
    · intro hfalse
      cases hfalse
  have hmarks : RichFrag.marks spans ⟨si, span.text, 0, true⟩ = [⟨si, span, none⟩] := by
    rw [RichFrag.marks, hspan, spanMarks, if_pos hover]
  have hletter : Mark.blank ⟨si, span, none⟩ = false := rfl
  have hopen := h.opened
  rw [RichWords.addOverlay]
  cases hrich : s.opened with
  | none =>
    rw [hrich] at hopen
    cases hb : b.opened with
    | some word =>
      rw [hb] at hopen
      cases hopen
    | none =>
      rw [add_closed hletter hb, ← hmarks, ← h.pending]
      exact ⟨h.words, .some (writes_singleton hfrag 0), rfl⟩
  | some word =>
    rw [hrich] at hopen
    cases hb : b.opened with
    | none =>
      rw [hb] at hopen
      cases hopen
    | some open' =>
      rw [hb] at hopen
      cases hopen with
      | some hword =>
        rw [add_opened hletter hb, ← hmarks]
        exact ⟨h.words, .some (hword.add hfrag word.width), h.pending⟩

theorem Follows.addRun (h : Follows fonts spans b s) (hspan : spans.getD si default = span)
    (hover : span.overlay = false) {ws : Bool} {run : List Char} (hne : run ≠ [])
    (hrun : ∀ c ∈ run, isWhitespace c = ws) :
    Follows fonts spans ((spanMarks si span run).foldl (Builder.add Mark.blank) b)
      (s.addRun fonts si span ws run) := by
  have hmarks : spanMarks si span run = run.map fun c => ⟨si, span, some c⟩ := by
    rw [spanMarks, if_neg (by rw [hover]; exact Bool.false_ne_true)]
  have hsome : spanMarks si span run ≠ [] := by
    rw [hmarks]
    simpa using hne
  have hkind : ∀ mark ∈ spanMarks si span run, mark.blank = ws := by
    intro mark hmark
    rw [hmarks] at hmark
    obtain ⟨c, hc, rfl⟩ := List.mem_map.mp hmark
    exact hrun c hc
  cases ws with
  | true =>
    rw [foldl_add_gap hkind hsome, RichWords.addRun, if_pos rfl]
    exact ⟨h.all, .none, rfl⟩
  | false =>
    have hfrag : RichFrag.OfSpan fonts spans
        ⟨si, run, advanceStyled fonts run span.size span.bold, false⟩ := by
      constructor
      · rw [hspan, hover]
      · intro hfalse
        cases hfalse
      · exact fun _ => ⟨hne, hrun⟩
      · rintro -
        rw [hspan]
    have hfragMarks : RichFrag.marks spans
        ⟨si, run, advanceStyled fonts run span.size span.bold, false⟩ = spanMarks si span run := by
      rw [RichFrag.marks, hspan]
    have hopen := h.opened
    rw [RichWords.addRun, if_neg Bool.false_ne_true]
    cases hrich : s.opened with
    | none =>
      rw [hrich] at hopen
      cases hb : b.opened with
      | some word =>
        rw [hb] at hopen
        cases hopen
      | none =>
        rw [foldl_add_closed hkind hsome hb, ← hfragMarks, ← h.pending]
        exact ⟨h.words, .some (writes_singleton hfrag _), rfl⟩
    | some word =>
      rw [hrich] at hopen
      cases hb : b.opened with
      | none =>
        rw [hb] at hopen
        cases hopen
      | some open' =>
        rw [hb] at hopen
        cases hopen with
        | some hword =>
          rw [foldl_add_opened hkind hb, ← hfragMarks]
          exact ⟨h.words, .some (hword.add hfrag _), h.pending⟩

theorem Follows.addText (hspan : spans.getD si default = span) (hover : span.overlay = false)
    (text : List Char) : ∀ b, Follows fonts spans b s →
      Follows fonts spans ((spanMarks si span text).foldl (Builder.add Mark.blank) b)
        (s.addText fonts si span text) := by
  induction s, text using RichWords.addText.induct fonts si span with
  | case1 s =>
    intro b h
    rw [RichWords.addText, spanMarks, if_neg (by rw [hover]; exact Bool.false_ne_true)]
    exact h
  | case2 s c rest ws ih =>
    intro b h
    have hsplit : spanMarks si span (c :: rest) =
        spanMarks si span (c :: rest.takeWhile fun d => isWhitespace d == isWhitespace c) ++
          spanMarks si span (rest.dropWhile fun d => isWhitespace d == isWhitespace c) := by
      simp only [spanMarks, hover, Bool.false_eq_true, if_false]
      rw [← List.map_append, List.cons_append, List.takeWhile_append_dropWhile]
    have hrun : ∀ d ∈ c :: rest.takeWhile (fun d => isWhitespace d == isWhitespace c),
        isWhitespace d = isWhitespace c := by
      rw [List.forall_mem_cons]
      refine ⟨rfl, fun d hd => ?_⟩
      simpa using List.mem_takeWhile_imp hd
    rw [RichWords.addText, hsplit, List.foldl_append]
    exact ih _ (h.addRun hspan hover (List.cons_ne_nil _ _) hrun)

theorem getD_of_mem_zipIdx {entry : Span × ℕ} (h : entry ∈ spans.zipIdx) :
    entry.2 < spans.length ∧ spans.getD entry.2 default = entry.1 := by
  have hentry := List.mk_mem_zipIdx_iff_getElem?.mp h
  refine ⟨(List.getElem?_eq_some_iff.mp hentry).1, ?_⟩
  rw [List.getD_eq_getElem?_getD, hentry, Option.getD_some]

theorem richWords_marks (fonts : Fonts) (spans : List Span) :
    List.Forall₂ (Writes fonts spans) (build Mark.blank (marks spans)) (richWords fonts spans) := by
  have hfold : ∀ (entries : List (Span × ℕ)) (b : Builder Mark) (s : RichWords),
      (∀ entry ∈ entries, spans.getD entry.2 default = entry.1) → Follows fonts spans b s →
      Follows fonts spans ((entries.flatMap fun entry => spanMarks entry.2 entry.1 entry.1.text).foldl
        (Builder.add Mark.blank) b) (entries.foldl (RichWords.addSpan fonts) s) := by
    intro entries
    induction entries with
    | nil => exact fun b s _ h => h
    | cons entry entries ih =>
      intro b s hentries h
      obtain ⟨span, si⟩ := entry
      rw [List.forall_mem_cons] at hentries
      rw [List.flatMap_cons, List.foldl_append, List.foldl_cons]
      apply ih _ _ hentries.2
      rw [RichWords.addSpan]
      cases hover : span.overlay with
      | true =>
        rw [if_pos rfl, spanMarks, if_pos hover]
        exact h.addOverlay hentries.1 hover
      | false =>
        rw [if_neg Bool.false_ne_true]
        exact Follows.addText hentries.1 hover span.text b h
  apply (hfold spans.zipIdx .empty _ (fun entry hentry => (getD_of_mem_zipIdx hentry).2) _).all
  exact ⟨.nil, .none, rfl⟩

end Words

section Flow

variable {fonts : Fonts} {spans : List Span} {s : Flow} {word : RichWord} {limit : WithTop ℚ}

theorem find_text (htext : word.frags.any fun frag => !frag.overlay) :
    (word.frags.find? fun frag => !frag.overlay) = some word.lead ∧ word.lead.overlay = false ∧
      word.lead ∈ word.frags := by
  obtain ⟨frag, hfrag⟩ : ∃ frag, (word.frags.find? fun frag => !frag.overlay) = some frag := by
    rw [← Option.isSome_iff_exists, List.find?_isSome]
    simpa using htext
  have hlead : word.lead = frag := by rw [RichWord.lead, hfrag, Option.getD_some]
  rw [hlead]
  exact ⟨hfrag, by simpa using List.find?_some hfrag, List.mem_of_find?_eq_some hfrag⟩

def Flow.roomFor (fonts : Fonts) (spans : List Span) (limit : WithTop ℚ) (s : Flow)
    (word : RichWord) : Flow :=
  if !s.cur.pieces.isEmpty && limit + wrapSlack <
      ↑(s.cur.width + s.spaceFor fonts spans word + word.width) then
    { s.flush with curSpan := none }
  else s

theorem Flow.addWord_short (htext : word.frags.any fun frag => !frag.overlay)
    (hshort : ¬ limit + wrapSlack < word.width) : s.addWord fonts spans limit word =
      (s.roomFor fonts spans limit word).put fonts spans word := by
  have hsome : (word.frags.find? fun frag => !frag.overlay).isNone = false := by
    rw [(find_text htext).1, Option.isNone_some]
  have haddWord : s.addWord fonts spans limit word =
      let s' := s.roomFor fonts spans limit word
      let spaceW := if s'.cur.pieces.isEmpty then 0 else s.spaceFor fonts spans word
      if word.frags.length == 1 && s'.curSpan == some word.lead.si && !s'.cur.pieces.isEmpty then
        s'.extend spaceW word.lead
      else s'.append spans spaceW word := by
    rw [Flow.addWord]
    simp only [hsome, hshort, Bool.false_eq_true, if_false]
    rfl
  have hspace : (if (s.roomFor fonts spans limit word).cur.pieces.isEmpty then 0
      else s.spaceFor fonts spans word) =
      (s.roomFor fonts spans limit word).spaceFor fonts spans word := by
    rw [Flow.roomFor]
    split
    · simp [Flow.flush, Flow.spaceFor]
    · rw [Flow.spaceFor]
      cases s.cur.pieces.isEmpty <;> simp
  rw [haddWord, Flow.put, ← hspace]

theorem Flow.addWord_long (htext : word.frags.any fun frag => !frag.overlay)
    (hlong : limit + wrapSlack < word.width) : s.addWord fonts spans limit word =
      { word.frags.foldl (Flow.addFrag fonts spans limit) (if s.hasText then s.flush else s) with
        curSpan := none } := by
  have hsome : (word.frags.find? fun frag => !frag.overlay).isNone = false := by
    rw [(find_text htext).1, Option.isNone_some]
  rw [Flow.addWord]
  simp only [hsome, hlong, Bool.false_eq_true, if_false, if_true]

theorem Flow.addWord_overlays (htext : ¬ word.frags.any fun frag => !frag.overlay) :
    s.addWord fonts spans limit word = { s with
      cur.pieces := s.cur.pieces ++ word.frags.map fun frag =>
        pieceFor spans frag (s.cur.width + s.spaceFor fonts spans word) frag.text 0
      curSpan := none } := by
  have hnone : (word.frags.find? fun frag => !frag.overlay).isNone = true := by
    rw [Option.isNone_iff_eq_none, List.find?_eq_none]
    simpa using htext
  rw [Flow.addWord, if_pos hnone, Flow.spaceFor, RichWord.lead]

def placed (spans : List Span) (x : ℚ) : List RichFrag → List RichPiece
  | [] => []
  | frag :: frags =>
    if frag.overlay then pieceFor spans frag x frag.text 0 :: placed spans x frags
    else pieceFor spans frag x frag.text frag.width :: placed spans (x + frag.width) frags

theorem foldl_placed (frags : List RichFrag) (pieces : List RichPiece) (x : ℚ) :
    (frags.foldl (placeFrag spans) (pieces, x)).1 = pieces ++ placed spans x frags := by
  induction frags generalizing pieces x with
  | nil => rw [List.foldl_nil, placed, List.append_nil]
  | cons frag frags ih =>
    rw [List.foldl_cons, placeFrag, placed]
    cases frag.overlay with
    | true =>
      rw [if_pos rfl, if_pos rfl, ih, List.append_assoc, List.singleton_append]
    | false =>
      rw [if_neg Bool.false_ne_true, if_neg Bool.false_ne_true, ih, List.append_assoc,
        List.singleton_append]

theorem Flow.append_placed (spaceW : ℚ) : (s.append spans spaceW word).cur.pieces =
    s.cur.pieces ++ placed spans (s.cur.width + spaceW) word.frags :=
  foldl_placed word.frags s.cur.pieces (s.cur.width + spaceW)

end Flow

theorem bitmap_positive : Fonts.Positive ⟨none, none⟩ := by
  intro bold face hface
  cases bold <;> cases hface

/-- The limit of a line: a width that is not positive is none. -/
def limitOf (maxWidth : Option ℚ) : WithTop ℚ :=
  match maxWidth.filter fun w => 0 < w with
  | some w => w
  | none => ⊤

def flowOf (fonts : Fonts) (spans : List Span) (limit : WithTop ℚ) : Flow :=
  (richWords fonts spans).foldl (Flow.addWord fonts spans limit) ⟨[], ⟨[], 0⟩, none⟩

theorem richLines_flowOf (fonts : Fonts) (spans : List Span) (maxWidth : Option ℚ) :
    (richLines fonts spans maxWidth).1 = (flowOf fonts spans (limitOf maxWidth)).closed := rfl

section Fit

variable {fonts : Fonts} {size used : ℚ} {bold : Bool} {limit : WithTop ℚ}

theorem fitChars_top (content : List Char) (used : ℚ) (count : ℕ) :
    fitChars fonts size bold ⊤ used count content = count + content.length := by
  induction content generalizing used count with
  | nil => rfl
  | cons c content ih =>
    rw [fitChars, if_neg (not_unlimited_lt _), ih, List.length_cons]
    omega

theorem room_of_fit {content : List Char}
    (h : 0 < fitCharsStyled fonts content size bold (limit.map (· - used))) :
    ¬ limit + wrapSlack < ↑(used + advanceStyled fonts
      (content.take (fitCharsStyled fonts content size bold (limit.map (· - used)))) size bold) := by
  cases limit with
  | top => exact not_unlimited_lt _
  | coe limit =>
    rw [WithTop.map_coe, fitCharsStyled_eq] at h ⊢
    have hwidth := WordWrap.width_fit_le h
    rw [advanceStyled_eq, ← WithTop.coe_add, WithTop.coe_lt_coe]
    linarith

theorem full_of_fit {c : Char} {content : List Char}
    (h : fitCharsStyled fonts (c :: content) size bold (limit.map (· - used)) = 0) :
    limit + wrapSlack < ↑(used + charAdvance fonts c size bold) := by
  cases limit with
  | top =>
    rw [WithTop.map_top, fitCharsStyled, fitChars_top, List.length_cons] at h
    omega
  | coe limit =>
    rw [WithTop.map_coe, fitCharsStyled_eq, WordWrap.fit] at h
    split at h
    · omega
    · rename_i hfull
      rw [← WithTop.coe_add, WithTop.coe_lt_coe]
      linarith

variable (fonts) in
def Flow.cut (spans : List Span) (frag : RichFrag) (s : Flow) (chunk : List Char) : Flow :=
  let chunkW := advanceStyled fonts chunk (spans.getD frag.si default).size
    (spans.getD frag.si default).bold
  { s with
    cur := ⟨s.cur.pieces ++ [pieceFor spans frag s.cur.width chunk chunkW], s.cur.width + chunkW⟩ }

theorem Flow.cutFrag_keeps {spans : List Span} {frag : RichFrag} (Q : Flow → List Char → Prop)
    (hflush : ∀ s c rest, s.hasText = true →
      limit + wrapSlack < ↑(s.cur.width + charAdvance fonts c (spans.getD frag.si default).size
        (spans.getD frag.si default).bold) →
      Q s (c :: rest) → Q s.flush (c :: rest))
    (hcut : ∀ s chunk rest, chunk ≠ [] →
      ((∃ c, chunk = [c]) ∧ s.hasText = false) ∨
        ¬ limit + wrapSlack < ↑(s.cur.width + advanceStyled fonts chunk
          (spans.getD frag.si default).size (spans.getD frag.si default).bold) →
      Q s (chunk ++ rest) → Q (s.cut fonts spans frag chunk) rest)
    (s : Flow) (rest : List Char) (h : Q s rest) : Q (s.cutFrag fonts spans limit frag rest) [] := by
  induction s, rest using Flow.cutFrag.induct fonts spans limit frag with
  | case1 s rest hempty =>
    rw [Flow.cutFrag, if_pos hempty, ← List.isEmpty_iff.mp hempty]
    exact h
  | case2 s rest hne span avail n hfull ih =>
    rw [Flow.cutFrag, if_neg hne, if_pos hfull]
    rw [Bool.and_eq_true, beq_iff_eq] at hfull
    obtain ⟨c, rest, rfl⟩ := List.exists_cons_of_ne_nil (by simpa using hne)
    exact ih (hflush s c rest hfull.2 (full_of_fit hfull.1) h)
  | case3 s rest hne span avail n hroom cut chunk chunkW ih =>
    rw [Flow.cutFrag, if_neg hne, if_neg hroom]
    have hrest : rest ≠ [] := by simpa using hne
    have hlength := List.length_pos_of_ne_nil hrest
    have hchunk : chunk = rest.take (max n 1) := takeBytes_charBoundary _ _
    have hdrop : dropBytes cut rest = rest.drop (max n 1) := dropBytes_charBoundary _ _
    have hsplit : chunk ++ dropBytes cut rest = rest := by
      rw [hchunk, hdrop, List.take_append_drop]
    apply ih
    apply hcut s chunk _ _ _ (by rw [hsplit]; exact h)
    · rw [hchunk]
      apply List.ne_nil_of_length_pos
      rw [List.length_take]
      omega
    · rcases Nat.eq_zero_or_pos n with hn | hn
      · left
        rw [Bool.and_eq_true, beq_iff_eq, not_and, Bool.not_eq_true] at hroom
        refine ⟨?_, hroom hn⟩
        obtain ⟨c, rest, rfl⟩ := List.exists_cons_of_ne_nil hrest
        refine ⟨c, ?_⟩
        rw [hchunk, hn]
        rfl
      · right
        have hfit := room_of_fit hn
        rw [hchunk, Nat.max_eq_left hn]
        exact hfit

end Fit

end AtomVibe.Rich
