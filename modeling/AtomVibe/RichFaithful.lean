import AtomVibe.RichLines
import AtomVibe.RichMarks

namespace AtomVibe.Rich

open Text TextWrap SpacedWords WordStream Ux

inductive Squeezed : List Mark → List Mark → Prop
  | nil : Squeezed [] []
  | keep {kept source : List Mark} (mark : Mark) (more : Squeezed kept source) :
      Squeezed (mark :: kept) (mark :: source)
  | leave {kept source : List Mark} {mark : Mark} (h : mark.blank = true)
      (more : Squeezed kept source) : Squeezed kept (mark :: source)
  | space {kept source : List Mark} {mark : Mark} (h : mark.blank = true)
      (more : Squeezed kept source) : Squeezed ({ mark with ch := some ' ' } :: kept) (mark :: source)

namespace Squeezed

theorem append {kept source kept' source' : List Mark} (h : Squeezed kept source)
    (h' : Squeezed kept' source') : Squeezed (kept ++ kept') (source ++ source') := by
  induction h with
  | nil => exact h'
  | keep mark more ih => exact .keep mark ih
  | leave hblank more ih => exact .leave hblank ih
  | space hblank more ih => exact .space hblank ih

theorem refl (source : List Mark) : Squeezed source source := by
  induction source with
  | nil => exact .nil
  | cons mark source ih => exact .keep mark ih

theorem gap {source : List Mark} (h : ∀ mark ∈ source, mark.blank = true) : Squeezed [] source := by
  induction source with
  | nil => exact .nil
  | cons mark source ih =>
    rw [List.forall_mem_cons] at h
    exact .leave h.1 (ih h.2)

theorem exists_source {kept source : List Mark} (h : Squeezed kept source) {mark : Mark}
    (hmark : mark ∈ kept) : ∃ origin ∈ source, origin.si = mark.si := by
  induction h with
  | nil => cases hmark
  | keep other more ih =>
    rcases List.mem_cons.mp hmark with rfl | hmore
    · exact ⟨mark, List.mem_cons_self, rfl⟩
    · obtain ⟨origin, horigin, hsi⟩ := ih hmore
      exact ⟨origin, List.mem_cons_of_mem _ horigin, hsi⟩
  | leave hblank more ih =>
    obtain ⟨origin, horigin, hsi⟩ := ih hmark
    exact ⟨origin, List.mem_cons_of_mem _ horigin, hsi⟩
  | @space kept source other hblank more ih =>
    rcases List.mem_cons.mp hmark with rfl | hmore
    · exact ⟨other, List.mem_cons_self, rfl⟩
    · obtain ⟨origin, horigin, hsi⟩ := ih hmore
      exact ⟨origin, List.mem_cons_of_mem _ horigin, hsi⟩

theorem letters {kept source : List Mark} (h : Squeezed kept source) :
    kept.filter (!·.blank) = source.filter (!·.blank) := by
  induction h with
  | nil => rfl
  | keep mark more ih => rw [List.filter_cons, List.filter_cons, ih]
  | leave hblank more ih => rw [List.filter_cons_of_neg (by simp [hblank]), ih]
  | @space kept source mark hblank more ih =>
    have hspace : ({ mark with ch := some ' ' } : Mark).blank = true := by
      show isWhitespace ' ' = true
      decide
    rw [List.filter_cons_of_neg (by simp [hspace]), List.filter_cons_of_neg (by simp [hblank]), ih]

theorem countP {kept source : List Mark} (h : Squeezed kept source) {p : Mark → Bool}
    (hp : ∀ mark, p mark = true → mark.blank = false) : kept.countP p = source.countP p := by
  have hfilter : ∀ list : List Mark, list.countP p = (list.filter (!·.blank)).countP p := by
    intro list
    rw [List.countP_filter]
    apply List.countP_congr
    intro mark _
    rw [Bool.and_eq_true]
    exact ⟨fun hmark => ⟨hmark, by simp [hp mark hmark]⟩, fun hmark => hmark.1⟩
  rw [hfilter kept, hfilter source, h.letters]

end Squeezed

section Pieces

variable (fonts : Fonts) (spans : List Span)

def shownMarks (entry : RichPiece × ℕ) : List Mark :=
  spanMarks entry.2 (spans.getD entry.2 default) entry.1.text

/-- The piece has the style of this span. It is all of an overlay, or words of a text with a space
between them. -/
structure Shows (piece : RichPiece) (si : ℕ) : Prop where
  within : si < spans.length
  style : (piece.size, piece.color, piece.background, piece.bold, piece.underline) =
    ((spans.getD si default).size, (spans.getD si default).color,
      (spans.getD si default).background, (spans.getD si default).bold,
      (spans.getD si default).underline)
  overlay : (spans.getD si default).overlay = true →
    piece.text = (spans.getD si default).text ∧ piece.width = 0
  text : (spans.getD si default).overlay = false →
    piece.text ≠ [] ∧ joined (splitWhitespace piece.text) = piece.text
  width : (spans.getD si default).overlay = false →
    piece.width = advanceStyled fonts piece.text piece.size piece.bold

def RichLine.SingleGlyph (line : RichLine) : Prop :=
  ∃ piece c, line.pieces.filter (fun piece => 0 < piece.width) = [piece] ∧ piece.text = [c]

/-- No piece begins before the end of a text before it, and a line is too long for one character
only. -/
structure RichLine.Fits (limit : WithTop ℚ) (line : RichLine) : Prop where
  ordered : line.pieces.Pairwise fun a b => 0 < a.width → a.x + a.width ≤ b.x
  within : ∀ piece ∈ line.pieces, 0 < piece.width → piece.x + piece.width ≤ line.width
  room : ↑line.width ≤ limit + wrapSlack ∨ line.SingleGlyph

variable (limit : WithTop ℚ)

structure Faithful (out : List Mark) (s : Flow) : Prop where
  shown : ∃ entries : List (RichPiece × ℕ),
    entries.map Prod.fst = s.lines.flatMap (·.pieces) ++ s.cur.pieces ∧
      (∀ entry ∈ entries, Shows fonts spans entry.1 entry.2) ∧
      entries.flatMap (shownMarks spans) = out
  lines : ∀ line ∈ s.lines, line.Fits limit
  cur : s.cur.Fits limit
  empty : s.cur.pieces = [] → s.cur.width = 0

end Pieces

section Steps

variable {fonts : Fonts} {spans : List Span} {limit : WithTop ℚ} {out : List Mark} {s : Flow}
  {lines : List RichLine} {pieces : List RichPiece} {x : ℚ} {curSpan : Option ℕ}

theorem fits_empty (hlimit : ((0 : ℚ) : WithTop ℚ) ≤ limit + wrapSlack) :
    RichLine.Fits limit ⟨[], 0⟩ where
  ordered := .nil
  within := by simp
  room := Or.inl hlimit

theorem Faithful.flush (h : Faithful fonts spans limit out s)
    (hlimit : ((0 : ℚ) : WithTop ℚ) ≤ limit + wrapSlack) (curSpan : Option ℕ) :
    Faithful fonts spans limit out { s.flush with curSpan := curSpan } where
  shown := by
    obtain ⟨entries, hentries, hshows, hout⟩ := h.shown
    refine ⟨entries, ?_, hshows, hout⟩
    rw [hentries, Flow.flush]
    simp
  lines := by
    rw [Flow.flush, List.forall_mem_append, List.forall_mem_singleton]
    exact ⟨h.lines, h.cur⟩
  cur := fits_empty hlimit
  empty := fun _ => rfl

theorem Faithful.respan (h : Faithful fonts spans limit out s) (curSpan : Option ℕ) :
    Faithful fonts spans limit out { s with curSpan := curSpan } := ⟨h.shown, h.lines, h.cur, h.empty⟩

theorem Faithful.widen (h : Faithful fonts spans limit out ⟨lines, ⟨pieces, x⟩, curSpan⟩) {x' : ℚ}
    (hx : x ≤ x') (hroom : (x' : WithTop ℚ) ≤ limit + wrapSlack) (hempty : pieces = [] → x' = x) :
    Faithful fonts spans limit out ⟨lines, ⟨pieces, x'⟩, curSpan⟩ where
  shown := h.shown
  lines := h.lines
  cur := ⟨h.cur.ordered, fun piece hpiece hpos => (h.cur.within piece hpiece hpos).trans hx,
    Or.inl hroom⟩
  empty := fun hnil => (hempty hnil).trans (h.empty hnil)

theorem Faithful.push (h : Faithful fonts spans limit out ⟨lines, ⟨pieces, x⟩, curSpan⟩)
    {piece : RichPiece} {si : ℕ} (hshows : Shows fonts spans piece si) {x' : ℚ} (hx : x ≤ x')
    (hpiece : x ≤ piece.x) (hend : 0 < piece.width → piece.x + piece.width ≤ x')
    (hroom : (x' : WithTop ℚ) ≤ limit + wrapSlack ∨
      RichLine.SingleGlyph ⟨pieces ++ [piece], x'⟩) :
    Faithful fonts spans limit (out ++ shownMarks spans (piece, si))
      ⟨lines, ⟨pieces ++ [piece], x'⟩, curSpan⟩ where
  shown := by
    obtain ⟨entries, hentries, hall, hout⟩ := h.shown
    refine ⟨entries ++ [(piece, si)], ?_, ?_, ?_⟩
    · rw [List.map_append, hentries, List.append_assoc]
      rfl
    · rw [List.forall_mem_append, List.forall_mem_singleton]
      exact ⟨hall, hshows⟩
    · rw [List.flatMap_append, hout, List.flatMap_singleton]
  lines := h.lines
  cur := by
    constructor
    · rw [List.pairwise_append]
      refine ⟨h.cur.ordered, List.pairwise_singleton _ _, fun before hbefore last hlast hpos => ?_⟩
      rw [List.mem_singleton.mp hlast]
      exact (h.cur.within before hbefore hpos).trans hpiece
    · rw [List.forall_mem_append, List.forall_mem_singleton]
      exact ⟨fun before hbefore hpos => (h.cur.within before hbefore hpos).trans hx, hend⟩
    · exact hroom
  empty := by simp

theorem Faithful.push_overlay (h : Faithful fonts spans limit out ⟨lines, ⟨pieces, x⟩, curSpan⟩)
    {piece : RichPiece} {si : ℕ} (hshows : Shows fonts spans piece si) (hpiece : x ≤ piece.x)
    (hzero : piece.width = 0) :
    Faithful fonts spans limit (out ++ shownMarks spans (piece, si))
      ⟨lines, ⟨pieces ++ [piece], x⟩, curSpan⟩ := by
  apply h.push hshows le_rfl hpiece
  · rw [hzero]
    exact fun hpos => absurd hpos (lt_irrefl 0)
  · apply h.cur.room.imp id
    rintro ⟨glyph, c, hfilter, hc⟩
    refine ⟨glyph, c, ?_, hc⟩
    rw [List.filter_append, List.filter_singleton, hzero]
    simpa using hfilter

variable {frag : RichFrag} {frags : List RichFrag}

theorem RichFrag.OfSpan.shows_overlay (h : frag.OfSpan fonts spans) (hsi : frag.si < spans.length)
    (hover : frag.overlay = true) (x : ℚ) :
    Shows fonts spans (pieceFor spans frag x frag.text 0) frag.si where
  within := hsi
  style := rfl
  overlay := fun _ => ⟨(h.whole hover).1, rfl⟩
  text := by
    rw [← h.overlay, hover]
    intro hfalse
    cases hfalse
  width := by
    rw [← h.overlay, hover]
    intro hfalse
    cases hfalse

theorem RichFrag.OfSpan.shows_part (h : frag.OfSpan fonts spans) (hsi : frag.si < spans.length)
    (hover : frag.overlay = false) {text : List Char} (hne : text ≠ [])
    (hletters : ∀ c ∈ text, isWhitespace c = false) (x : ℚ) :
    Shows fonts spans (pieceFor spans frag x text (advanceStyled fonts text
      (spans.getD frag.si default).size (spans.getD frag.si default).bold)) frag.si where
  within := hsi
  style := rfl
  overlay := by
    rw [← h.overlay, hover]
    intro hfalse
    cases hfalse
  text := by
    intro _
    refine ⟨hne, ?_⟩
    have hword : splitWhitespace text = [text] := words_word hletters hne
    rw [pieceFor, hword, joined_singleton]
  width := fun _ => rfl

theorem RichFrag.OfSpan.shows_text (h : frag.OfSpan fonts spans) (hsi : frag.si < spans.length)
    (hover : frag.overlay = false) (x : ℚ) :
    Shows fonts spans (pieceFor spans frag x frag.text frag.width) frag.si := by
  rw [h.width hover]
  exact h.shows_part hsi hover (h.letters hover).1 (h.letters hover).2 x

theorem Faithful.overlays (h : Faithful fonts spans limit out ⟨lines, ⟨pieces, x⟩, curSpan⟩)
    (hfrags : ∀ frag ∈ frags, frag.OfSpan fonts spans ∧ frag.si < spans.length ∧ frag.overlay = true)
    {place : ℚ} (hplace : x ≤ place) :
    Faithful fonts spans limit (out ++ frags.flatMap (RichFrag.marks spans))
      ⟨lines, ⟨pieces ++ frags.map fun frag => pieceFor spans frag place frag.text 0, x⟩, curSpan⟩ := by
  induction frags generalizing out pieces with
  | nil => simpa using h
  | cons frag frags ih =>
    rw [List.forall_mem_cons] at hfrags
    obtain ⟨hof, hsi, hover⟩ := hfrags.1
    have hpush := h.push_overlay (hof.shows_overlay hsi hover place) hplace rfl
    have hrest := ih hpush hfrags.2
    rw [List.append_assoc, List.append_assoc] at hrest
    exact hrest

theorem Faithful.placed (h : Faithful fonts spans limit out ⟨lines, ⟨pieces, x⟩, curSpan⟩)
    (hfrags : ∀ frag ∈ frags, frag.OfSpan fonts spans ∧ frag.si < spans.length ∧ 0 ≤ frag.width)
    (hroom : ((x + ((frags.filter fun frag => !frag.overlay).map (·.width)).sum : ℚ) : WithTop ℚ) ≤
      limit + wrapSlack) :
    Faithful fonts spans limit (out ++ frags.flatMap (RichFrag.marks spans))
      ⟨lines, ⟨pieces ++ placed spans x frags,
        x + ((frags.filter fun frag => !frag.overlay).map (·.width)).sum⟩, curSpan⟩ := by
  induction frags generalizing out pieces x with
  | nil => simpa [Rich.placed] using h
  | cons frag frags ih =>
    rw [List.forall_mem_cons] at hfrags
    obtain ⟨hof, hsi, hnonneg⟩ := hfrags.1
    rw [Rich.placed]
    cases hover : frag.overlay with
    | true =>
      rw [List.filter_cons_of_neg (by simp [hover])] at hroom ⊢
      have hpush := h.push_overlay (hof.shows_overlay hsi hover x) le_rfl rfl
      have hrest := ih hpush hfrags.2 hroom
      rw [List.append_assoc, List.append_assoc] at hrest
      exact hrest
    | false =>
      rw [List.filter_cons_of_pos (by simp [hover]), List.map_cons, List.sum_cons, ← add_assoc] at hroom ⊢
      have hsum : 0 ≤ ((frags.filter fun frag => !frag.overlay).map (·.width)).sum := by
        apply List.sum_nonneg
        intro w hw
        obtain ⟨other, hother, rfl⟩ := List.mem_map.mp hw
        exact (hfrags.2 other (List.mem_of_mem_filter hother)).2.2
      have hpush := @Faithful.push _ _ _ _ _ _ _ _ h _ _ (hof.shows_text hsi hover x)
        (x + frag.width) (le_add_of_nonneg_right hnonneg) le_rfl (fun _ => le_rfl) (Or.inl (le_trans (by
          rw [WithTop.coe_le_coe]
          exact le_add_of_nonneg_right hsum) hroom))
      have hrest := ih hpush hfrags.2 hroom
      rw [List.append_assoc, List.append_assoc] at hrest
      rw [if_neg Bool.false_ne_true]
      exact hrest

theorem spanMarks_text {si : ℕ} {span : Span} (hover : span.overlay = false) (text rest : List Char) :
    spanMarks si span (text ++ rest) = spanMarks si span text ++ spanMarks si span rest := by
  simp only [spanMarks, hover, Bool.false_eq_true, if_false, List.map_append]

theorem Faithful.cutFrag (h : Faithful fonts spans limit out s) (hpos : fonts.Positive)
    (hlimit : ((0 : ℚ) : WithTop ℚ) ≤ limit + wrapSlack) (hof : frag.OfSpan fonts spans)
    (hsi : frag.si < spans.length) (hover : frag.overlay = false) :
    Faithful fonts spans limit (out ++ frag.marks spans)
      (s.cutFrag fonts spans limit frag frag.text) := by
  have hspan : (spans.getD frag.si default).overlay = false := by rw [← hof.overlay, hover]
  have hrun : ∃ out', Faithful fonts spans limit out' (s.cutFrag fonts spans limit frag frag.text) ∧
      (∀ c ∈ ([] : List Char), isWhitespace c = false) ∧
      out' ++ spanMarks frag.si (spans.getD frag.si default) [] = out ++ frag.marks spans := by
    apply Flow.cutFrag_keeps (fun s rest => ∃ out', Faithful fonts spans limit out' s ∧
      (∀ c ∈ rest, isWhitespace c = false) ∧
      out' ++ spanMarks frag.si (spans.getD frag.si default) rest = out ++ frag.marks spans)
    · rintro s c rest - - ⟨out', hout, hletters, hmarks⟩
      exact ⟨out', hout.flush hlimit s.curSpan, hletters, hmarks⟩
    · rintro s chunk rest hne hroom ⟨out', hout, hletters, hmarks⟩
      rw [List.forall_mem_append] at hletters
      rw [spanMarks_text hspan, ← List.append_assoc] at hmarks
      have hshows := hof.shows_part hsi hover hne hletters.1 s.cur.width
      have hwidth := hpos.advanceStyled_pos hne (spans.getD frag.si default).size
        (spans.getD frag.si default).bold
      refine ⟨_, ?_, hletters.2, hmarks⟩
      apply hout.push hshows (le_add_of_nonneg_right hwidth.le) le_rfl (fun _ => le_rfl)
      rcases hroom with ⟨⟨c, hc⟩, htext⟩ | hroom
      · right
        refine ⟨pieceFor spans frag s.cur.width chunk (advanceStyled fonts chunk
          (spans.getD frag.si default).size (spans.getD frag.si default).bold), c, ?_, hc⟩
        rw [Flow.hasText, List.any_eq_false] at htext
        rw [List.filter_append, List.filter_eq_nil_iff.mpr htext,
          List.filter_cons_of_pos (by exact decide_eq_true hwidth), List.filter_nil, List.nil_append]
      · exact Or.inl (not_lt.mp hroom)
    · exact ⟨out, h, (hof.letters hover).2, rfl⟩
  obtain ⟨out', hout, -, hmarks⟩ := hrun
  rw [← hmarks, spanMarks, hspan, if_neg Bool.false_ne_true, List.map_nil, List.append_nil]
  exact hout

theorem Faithful.addFrags (h : Faithful fonts spans limit out s) (hpos : fonts.Positive)
    (hlimit : ((0 : ℚ) : WithTop ℚ) ≤ limit + wrapSlack)
    (hfrags : ∀ frag ∈ frags, frag.OfSpan fonts spans ∧ frag.si < spans.length) :
    Faithful fonts spans limit (out ++ frags.flatMap (RichFrag.marks spans))
      (frags.foldl (Flow.addFrag fonts spans limit) s) := by
  induction frags generalizing out s with
  | nil => simpa using h
  | cons frag frags ih =>
    rw [List.forall_mem_cons] at hfrags
    obtain ⟨hof, hsi⟩ := hfrags.1
    have hnext : Faithful fonts spans limit (out ++ frag.marks spans)
        (s.addFrag fonts spans limit frag) := by
      rw [Flow.addFrag]
      cases hover : frag.overlay with
      | true => exact h.push_overlay (hof.shows_overlay hsi hover s.cur.width) le_rfl rfl
      | false => exact h.cutFrag hpos hlimit hof hsi hover
    have hrest := ih hnext hfrags.2
    rw [List.append_assoc] at hrest
    exact hrest

theorem spaced_text {text word : List Char} (hne : text ≠ [])
    (htext : joined (splitWhitespace text) = text) (hletters : ∀ c ∈ word, isWhitespace c = false)
    (hword : word ≠ []) : joined (splitWhitespace (text ++ ' ' :: word)) = text ++ ' ' :: word := by
  have hends : ∀ c ∈ (' ' :: word).head?, isWhitespace c = true := by
    intro c hc
    rw [← Option.some.inj hc]
    decide
  have hsplit : splitWhitespace (text ++ ' ' :: word) = splitWhitespace text ++ [word] := by
    rw [splitWhitespace, words_append hends, words_cons (by decide), words_word hletters hword,
      splitWhitespace]
  have hsome : splitWhitespace text ≠ [] := by
    intro hnil
    rw [hnil] at htext
    exact hne htext.symm
  rw [hsplit, joined_concat hsome, htext]

def grown (spaceW : ℚ) (piece : RichPiece) (frag : RichFrag) : RichPiece :=
  { piece with
    text := piece.text ++ ' ' :: frag.text
    width := piece.width + (spaceW + frag.width) }

theorem Shows.grown {piece : RichPiece} (h : Shows fonts spans piece frag.si)
    (hof : frag.OfSpan fonts spans) (hover : frag.overlay = false) :
    Shows fonts spans (grown (advanceStyled fonts [' '] (spans.getD frag.si default).size
      (spans.getD frag.si default).bold) piece frag) frag.si := by
  have hspan : (spans.getD frag.si default).overlay = false := by rw [← hof.overlay, hover]
  obtain ⟨hne, htext⟩ := h.text hspan
  have hsize : piece.size = (spans.getD frag.si default).size := congrArg (·.1) h.style
  have hbold : piece.bold = (spans.getD frag.si default).bold := congrArg (·.2.2.2.1) h.style
  constructor
  · exact h.within
  · exact h.style
  · rw [hspan]
    intro hfalse
    cases hfalse
  · intro _
    exact ⟨by simp [Rich.grown],
      spaced_text hne htext (hof.letters hover).2 (hof.letters hover).1⟩
  · intro _
    have hcons : piece.text ++ ' ' :: frag.text = piece.text ++ ([' '] ++ frag.text) := rfl
    rw [Rich.grown]
    dsimp only
    rw [h.width hspan, hof.width hover, hsize, hbold, hcons, advanceStyled_eq, advanceStyled_eq,
      advanceStyled_eq, advanceStyled_eq, WordWrap.width_append, WordWrap.width_append]

theorem Faithful.extend {piece : RichPiece}
    (h : Faithful fonts spans limit out ⟨lines, ⟨pieces ++ [piece], x⟩, curSpan⟩)
    (hlast : ∃ mark ∈ out.getLast?, mark.si = frag.si) (hpos : fonts.Positive)
    (hof : frag.OfSpan fonts spans) (hover : frag.overlay = false) {spaceW : ℚ}
    (hspace : spaceW = advanceStyled fonts [' '] (spans.getD frag.si default).size
      (spans.getD frag.si default).bold)
    (hroom : ((x + (spaceW + frag.width) : ℚ) : WithTop ℚ) ≤ limit + wrapSlack) :
    Faithful fonts spans limit
      (out ++ ⟨frag.si, spans.getD frag.si default, some ' '⟩ :: frag.marks spans)
      ⟨lines, ⟨pieces ++ [grown spaceW piece frag], x + (spaceW + frag.width)⟩, curSpan⟩ := by
  have hspan : (spans.getD frag.si default).overlay = false := by rw [← hof.overlay, hover]
  have hspacePos : 0 < spaceW := hspace ▸ hpos.advanceStyled_pos (List.cons_ne_nil _ _) _ _
  have hfragPos : 0 < frag.width :=
    hof.width hover ▸ hpos.advanceStyled_pos (hof.letters hover).1 _ _
  obtain ⟨entries, hentries, hshows, hout⟩ := h.shown
  -- the last piece is the last entry, and its marks are the last ones
  obtain ⟨front, entry, rfl⟩ : ∃ front entry, entries = front ++ [entry] := by
    have hne : entries ≠ [] := by
      rintro rfl
      simp at hentries
    obtain ⟨front, entry, hfront⟩ := (List.eq_nil_or_concat entries).resolve_left hne
    exact ⟨front, entry, by rw [hfront, List.concat_eq_append]⟩
  rw [List.map_append, List.map_singleton, ← List.append_assoc] at hentries
  obtain ⟨hfront, hpiece⟩ := List.append_inj' hentries rfl
  obtain ⟨piece', si⟩ := entry
  obtain rfl : piece' = piece := by simpa using hpiece
  rw [List.forall_mem_append, List.forall_mem_singleton] at hshows
  rw [List.flatMap_append, List.flatMap_singleton] at hout
  have hsi : si = frag.si := by
    obtain ⟨mark, hmark, hmarkSi⟩ := hlast
    have hne : shownMarks spans (piece', si) ≠ [] := by
      rw [shownMarks, spanMarks]
      split
      · exact List.cons_ne_nil _ _
      · rename_i htext
        have := (hshows.2.text (by simpa using htext)).1
        simpa using this
    rw [← hout, List.getLast?_append_of_ne_nil _ hne] at hmark
    have hmem := List.mem_of_getLast? hmark
    rw [shownMarks, spanMarks] at hmem
    split at hmem
    · rw [← hmarkSi, List.mem_singleton.mp hmem]
    · obtain ⟨c, -, rfl⟩ := List.mem_map.mp hmem
      exact hmarkSi
  subst hsi
  have hgrown := hshows.2.grown hof hover
  rw [← hspace] at hgrown
  have hpieceWidth : 0 < piece'.width := by
    rw [hshows.2.width hspan]
    exact hpos.advanceStyled_pos (hshows.2.text hspan).1 _ _
  have hwithin := h.cur.within
  have hordered := h.cur.ordered
  rw [List.forall_mem_append, List.forall_mem_singleton] at hwithin
  rw [List.pairwise_append] at hordered
  constructor
  · refine ⟨front ++ [(grown spaceW piece' frag, frag.si)], ?_, ?_, ?_⟩
    · rw [List.map_append, hfront, List.append_assoc]
      rfl
    · rw [List.forall_mem_append, List.forall_mem_singleton]
      exact ⟨hshows.1, hgrown⟩
    · have hmarks : shownMarks spans (grown spaceW piece' frag, frag.si) =
          shownMarks spans (piece', frag.si) ++
            ⟨frag.si, spans.getD frag.si default, some ' '⟩ :: frag.marks spans := by
        simp only [shownMarks, RichFrag.marks, spanMarks, hspan, Bool.false_eq_true, if_false,
          Rich.grown, List.map_append, List.map_cons]
      rw [List.flatMap_append, List.flatMap_singleton, ← hout, hmarks, List.append_assoc]
  · exact h.lines
  · constructor
    · rw [List.pairwise_append]
      refine ⟨hordered.1, List.pairwise_singleton _ _, fun before hbefore last hlast => ?_⟩
      rw [List.mem_singleton.mp hlast]
      exact hordered.2.2 before hbefore piece' List.mem_cons_self
    · rw [List.forall_mem_append, List.forall_mem_singleton]
      constructor
      · intro before hbefore hbeforePos
        have := hwithin.1 before hbefore hbeforePos
        dsimp only at this ⊢
        linarith
      · intro _
        have := hwithin.2 hpieceWidth
        rw [Rich.grown]
        dsimp only at this ⊢
        linarith
    · exact Or.inl hroom
  · simp

variable {richWord : RichWord}

theorem Faithful.put (h : Faithful fonts spans limit out s) (hpos : fonts.Positive)
    (hsound : richWord.Sound) (htext : richWord.frags.any fun frag => !frag.overlay)
    (hfrags : ∀ frag ∈ richWord.frags, frag.OfSpan fonts spans ∧ frag.si < spans.length)
    (hspaced : s.cur.pieces ≠ [] → richWord.spaceBefore = true)
    (hlast : ∀ si, s.curSpan = some si → si = richWord.lead.si →
      ∃ mark ∈ out.getLast?, mark.si = si)
    (hroom : ((s.cur.width + s.spaceFor fonts spans richWord + richWord.width : ℚ) : WithTop ℚ) ≤
      limit + wrapSlack) :
    Faithful fonts spans limit
        (out ++ richWord.frags.flatMap (RichFrag.marks spans)) (s.put fonts spans richWord) ∨
      (s.cur.pieces ≠ [] ∧ s.curSpan = some richWord.lead.si ∧
        richWord.frags = [richWord.lead] ∧ Faithful fonts spans limit
          (out ++ ⟨richWord.lead.si, spans.getD richWord.lead.si default, some ' '⟩ ::
            richWord.frags.flatMap (RichFrag.marks spans)) (s.put fonts spans richWord)) := by
  obtain ⟨-, hover, hmem⟩ := find_text htext
  rw [Flow.put]
  split
  · rename_i hmerged
    right
    rw [Bool.and_eq_true, Bool.and_eq_true, beq_iff_eq, beq_iff_eq] at hmerged
    obtain ⟨⟨hlength, hspan⟩, hne⟩ := hmerged
    have hne : s.cur.pieces ≠ [] := by simpa using hne
    obtain ⟨frag, hfrag⟩ := List.length_eq_one_iff.mp hlength
    obtain rfl : richWord.lead = frag := by
      rw [hfrag] at hmem
      exact List.mem_singleton.mp hmem
    obtain ⟨front, piece, hfront⟩ := (List.eq_nil_or_concat s.cur.pieces).resolve_left hne
    rw [List.concat_eq_append] at hfront
    have hspace : s.spaceFor fonts spans richWord = advanceStyled fonts [' ']
        (spans.getD richWord.lead.si default).size (spans.getD richWord.lead.si default).bold := by
      rw [Flow.spaceFor, if_pos]
      simpa [hspaced hne] using hne
    have hspacePos : 0 < s.spaceFor fonts spans richWord := by
      rw [hspace]
      exact hpos.advanceStyled_pos (List.cons_ne_nil _ _) _ _
    have hwidth : richWord.width = richWord.lead.width := by
      rw [hsound.width, hfrag, List.filter_cons_of_pos (by simp [hover])]
      simp
    obtain ⟨lines, ⟨pieces, x⟩, curSpan⟩ := s
    dsimp only at hfront
    subst hfront
    have hextend := h.extend (hlast _ hspan rfl) hpos (hfrags _ hmem).1 hover hspace (by
      rw [← hwidth, ← add_assoc]
      exact hroom)
    refine ⟨hne, hspan, hfrag, ?_⟩
    rw [Flow.extend, hfrag, List.flatMap_singleton]
    dsimp only
    rw [List.getLast?_concat]
    dsimp only
    rw [if_pos hspacePos, List.dropLast_concat, List.append_assoc, List.singleton_append]
    exact hextend
  · left
    have hspace := @Flow.spaceFor_nonneg fonts spans s richWord hpos
    have hword := hsound.width_nonneg
    have hwide : ((s.cur.width + s.spaceFor fonts spans richWord : ℚ) : WithTop ℚ) ≤
        limit + wrapSlack := le_trans (by
      rw [WithTop.coe_le_coe]
      linarith) hroom
    have hstart := @Faithful.widen _ _ _ _ _ _ _ _ h
      (s.cur.width + s.spaceFor fonts spans richWord) (le_add_of_nonneg_right hspace) hwide (by
        intro hnil
        rw [Flow.spaceFor, hnil]
        simp)
    have hall : ∀ frag ∈ richWord.frags,
        frag.OfSpan fonts spans ∧ frag.si < spans.length ∧ 0 ≤ frag.width := fun frag hfrag =>
      ⟨(hfrags frag hfrag).1, (hfrags frag hfrag).2, hsound.nonneg frag hfrag⟩
    have hplaced := Faithful.placed hstart hall (by
      rw [← hsound.width]
      exact hroom)
    rw [← hsound.width] at hplaced
    have hcur : (s.append spans (s.spaceFor fonts spans richWord) richWord).cur =
        ⟨s.cur.pieces ++ Rich.placed spans (s.cur.width + s.spaceFor fonts spans richWord) richWord.frags,
          s.cur.width + s.spaceFor fonts spans richWord + richWord.width⟩ := by
      rw [← Flow.append_placed, ← Flow.append_width hsound]
    constructor
    · rw [hcur]
      exact hplaced.shown
    · exact hplaced.lines
    · rw [hcur]
      exact hplaced.cur
    · rw [hcur]
      exact hplaced.empty

theorem Shows.marks_ne_nil {piece : RichPiece} {si : ℕ} (h : Shows fonts spans piece si) :
    shownMarks spans (piece, si) ≠ [] := by
  rw [shownMarks, spanMarks]
  split
  · exact List.cons_ne_nil _ _
  · rename_i htext
    have := (h.text (by simpa using htext)).1
    simpa using this

theorem Faithful.out_ne_nil (h : Faithful fonts spans limit out s) (hne : s.cur.pieces ≠ []) :
    out ≠ [] := by
  obtain ⟨entries, hentries, hshows, hout⟩ := h.shown
  rw [← hout, ne_eq, List.flatMap_eq_nil_iff]
  intro hnil
  have hsome : entries ≠ [] := by
    rintro rfl
    rw [List.map_nil, eq_comm, List.append_eq_nil_iff] at hentries
    exact hne hentries.2
  obtain ⟨entry, hentry⟩ := List.exists_mem_of_ne_nil _ hsome
  exact (hshows entry hentry).marks_ne_nil (hnil entry hentry)

theorem exists_last_of_sorted {list : List Mark} (h : list.Pairwise (·.si ≤ ·.si)) {mark : Mark}
    (hmark : mark ∈ list) : ∃ last ∈ list.getLast?, mark.si ≤ last.si := by
  obtain ⟨front, last, rfl⟩ : ∃ front last, list = front ++ [last] := by
    obtain ⟨front, last, hfront⟩ := (List.eq_nil_or_concat list).resolve_left (List.ne_nil_of_mem hmark)
    exact ⟨front, last, by rw [hfront, List.concat_eq_append]⟩
  refine ⟨last, List.getLast?_concat, ?_⟩
  rcases List.mem_append.mp hmark with hfront | hlast
  · exact (List.pairwise_append.mp h).2.2 mark hfront last List.mem_cons_self
  · rw [List.mem_singleton.mp hlast]

theorem RichFrag.OfSpan.exists_mark (h : frag.OfSpan fonts spans) :
    ∃ mark ∈ frag.marks spans, mark.si = frag.si := by
  rw [RichFrag.marks, spanMarks, ← h.overlay]
  cases hover : frag.overlay with
  | true => exact ⟨_, List.mem_cons_self, rfl⟩
  | false =>
    obtain ⟨c, text, htext⟩ := List.exists_cons_of_ne_nil (h.letters hover).1
    rw [htext]
    exact ⟨_, List.mem_cons_self, rfl⟩

theorem put_curSpan (htext : richWord.frags.any fun frag => !frag.overlay) {si : ℕ}
    (h : (s.put fonts spans richWord).curSpan = some si) : ∃ frag ∈ richWord.frags, frag.si = si := by
  obtain ⟨-, -, hmem⟩ := find_text htext
  rw [Flow.put] at h
  split at h
  · rename_i hmerged
    rw [Bool.and_eq_true, Bool.and_eq_true, beq_iff_eq, beq_iff_eq] at hmerged
    have hspan : (s.extend (s.spaceFor fonts spans richWord) richWord.lead).curSpan = s.curSpan := by
      rw [Flow.extend]
      split <;> rfl
    rw [hspan, hmerged.1.2] at h
    exact ⟨richWord.lead, hmem, Option.some.inj h⟩
  · rw [Flow.append] at h
    obtain ⟨frag, hfrag, hsi⟩ := Option.map_eq_some_iff.mp h
    have hlast := List.mem_of_getLast? (Option.eq_some_of_filter_eq_some hfrag)
    exact ⟨frag, List.mem_of_mem_filter hlast, hsi⟩

def Sourced (spans : List Span) (mark : Mark) : Prop :=
  mark.si < spans.length ∧ mark.span = spans.getD mark.si default

def Trailing (out : List Mark) (s : Flow) : Prop :=
  ∀ si, s.curSpan = some si → ∃ mark ∈ out.getLast?, si ≤ mark.si

theorem Faithful.roomFor (h : Faithful fonts spans limit out s)
    (hlimit : ((0 : ℚ) : WithTop ℚ) ≤ limit + wrapSlack)
    (hshort : ¬ limit + wrapSlack < richWord.width)
    (hspaced : s.cur.pieces ≠ [] → richWord.spaceBefore = true) (htrailing : Trailing out s) :
    Faithful fonts spans limit out (s.roomFor fonts spans limit richWord) ∧
      ((s.roomFor fonts spans limit richWord).cur.pieces ≠ [] → richWord.spaceBefore = true) ∧
      Trailing out (s.roomFor fonts spans limit richWord) ∧
      (((s.roomFor fonts spans limit richWord).cur.width +
        (s.roomFor fonts spans limit richWord).spaceFor fonts spans richWord + richWord.width : ℚ) :
          WithTop ℚ) ≤ limit + wrapSlack := by
  rw [Flow.roomFor]
  split
  · refine ⟨h.flush hlimit none, fun hne => absurd rfl hne, ?_, ?_⟩
    · rintro si ⟨⟩
    · have hspace : Flow.spaceFor fonts spans { s.flush with curSpan := none } richWord = 0 := by
        simp [Flow.spaceFor, Flow.flush]
      rw [hspace, Flow.flush]
      dsimp only
      rw [add_zero, zero_add]
      exact not_lt.mp hshort
  · rename_i hroom
    refine ⟨h, hspaced, htrailing, ?_⟩
    by_cases hnil : s.cur.pieces = []
    · have hspace : s.spaceFor fonts spans richWord = 0 := by simp [Flow.spaceFor, hnil]
      rw [hspace, h.empty hnil, add_zero, zero_add]
      exact not_lt.mp hshort
    · rw [Bool.and_eq_true, decide_eq_true_eq, not_and] at hroom
      exact not_lt.mp (hroom (by simpa using hnil))

variable {source gap word : List Mark}

theorem Faithful.short (h : Faithful fonts spans limit out s) (hpos : fonts.Positive)
    (hlimit : ((0 : ℚ) : WithTop ℚ) ≤ limit + wrapSlack)
    (hword : Writes fonts spans (!gap.isEmpty, word) richWord) (hsound : richWord.Sound)
    (htext : richWord.frags.any fun frag => !frag.overlay)
    (hshort : ¬ limit + wrapSlack < richWord.width)
    (hfrags : ∀ frag ∈ richWord.frags, frag.OfSpan fonts spans ∧ frag.si < spans.length)
    (hgap : ∀ mark ∈ gap, mark.blank = true) (hgapped : out ≠ [] → gap ≠ [])
    (hsourced : ∀ mark ∈ gap, Sourced spans mark)
    (hsqueezed : Squeezed out source) (hsorted : (source ++ (gap ++ word)).Pairwise (·.si ≤ ·.si))
    (htrailing : Trailing out s) :
    ∃ out', Faithful fonts spans limit out' (s.addWord fonts spans limit richWord) ∧
      Squeezed out' (source ++ (gap ++ word)) ∧
      Trailing out' (s.addWord fonts spans limit richWord) := by
  obtain ⟨-, -, hlead⟩ := find_text htext
  have hmem : ∀ frag ∈ richWord.frags, ∃ mark ∈ word, mark.si = frag.si := by
    intro frag hfrag
    obtain ⟨mark, hmark, hsi⟩ := (hfrags frag hfrag).1.exists_mark
    refine ⟨mark, ?_, hsi⟩
    have hmarks : _ = word := hword.marks
    rw [← hmarks]
    exact List.mem_flatMap_of_mem hfrag hmark
  rw [List.pairwise_append, List.pairwise_append] at hsorted
  obtain ⟨-, ⟨-, hwordSorted, hgapBefore⟩, hsourceBefore⟩ := hsorted
  have hspaced : s.cur.pieces ≠ [] → richWord.spaceBefore = true := by
    intro hne
    rw [hword.space]
    simpa using hgapped (h.out_ne_nil hne)
  obtain ⟨hfaithful, hspaced, htrailing, hroom⟩ := h.roomFor hlimit hshort hspaced htrailing
  rw [Flow.addWord_short htext hshort]
  generalize s.roomFor fonts spans limit richWord = t at hfaithful hspaced htrailing hroom
  -- the last mark that is shown is from no span behind that of the word
  have hbefore : ∀ mark ∈ out.getLast?, ∀ later ∈ gap ++ word, mark.si ≤ later.si := by
    intro mark hmark later hlater
    obtain ⟨origin, horigin, hsi⟩ := hsqueezed.exists_source (List.mem_of_getLast? hmark)
    rw [← hsi]
    exact hsourceBefore origin horigin later hlater
  obtain ⟨leadMark, hleadMark, hleadSi⟩ := hmem _ hlead
  have hlast : ∀ si, t.curSpan = some si → si = richWord.lead.si →
      ∃ mark ∈ out.getLast?, mark.si = si := by
    intro si hsi hleadEq
    obtain ⟨mark, hmark, hle⟩ := htrailing si hsi
    have hge := hbefore mark hmark leadMark (List.mem_append_right _ hleadMark)
    rw [hleadSi, ← hleadEq] at hge
    exact ⟨mark, hmark, le_antisymm hge hle⟩
  have htail : ∀ front : List Mark, Trailing (front ++ word) (t.put fonts spans richWord) := by
    intro front si hsi
    obtain ⟨frag, hfrag, hfragSi⟩ := put_curSpan htext hsi
    obtain ⟨mark, hmark, hmarkSi⟩ := hmem frag hfrag
    obtain ⟨last, hlastMem, hle⟩ := exists_last_of_sorted hwordSorted hmark
    rw [List.getLast?_append_of_ne_nil _ (List.ne_nil_of_mem hmark)]
    exact ⟨last, hlastMem, by omega⟩
  have hmarks : richWord.frags.flatMap (RichFrag.marks spans) = word := hword.marks
  rcases hfaithful.put hpos hsound htext hfrags hspaced hlast hroom with
    hput | ⟨hne, hspan, -, hput⟩
  · rw [hmarks] at hput
    exact ⟨_, hput, hsqueezed.append ((Squeezed.gap hgap).append (Squeezed.refl word)), htail out⟩
  · rw [hmarks] at hput
    obtain ⟨blank, gap, rfl⟩ := List.exists_cons_of_ne_nil (hgapped (hfaithful.out_ne_nil hne))
    rw [List.forall_mem_cons] at hgap
    obtain ⟨mark, hmark, hmarkSi⟩ := hlast _ hspan rfl
    have hblankSi : blank.si = richWord.lead.si := by
      apply le_antisymm
      · rw [← hleadSi]
        exact hgapBefore blank List.mem_cons_self leadMark hleadMark
      · rw [← hmarkSi]
        exact hbefore mark hmark blank (List.mem_append_left _ List.mem_cons_self)
    have hblank : (⟨richWord.lead.si, spans.getD richWord.lead.si default, some ' '⟩ : Mark) =
        { blank with ch := some ' ' } := by
      rw [(hsourced blank List.mem_cons_self).2, hblankSi]
    rw [hblank] at hput
    refine ⟨_, hput, ?_, ?_⟩
    · exact hsqueezed.append (.space hgap.1 ((Squeezed.gap hgap.2).append (Squeezed.refl word)))
    · rw [← List.singleton_append, ← List.append_assoc]
      exact htail _

theorem Faithful.addWord (h : Faithful fonts spans limit out s) (hpos : fonts.Positive)
    (hlimit : ((0 : ℚ) : WithTop ℚ) ≤ limit + wrapSlack)
    (hword : Writes fonts spans (!gap.isEmpty, word) richWord) (hsound : richWord.Sound)
    (hgap : ∀ mark ∈ gap, mark.blank = true) (hgapped : out ≠ [] → gap ≠ [])
    (hsourced : ∀ mark ∈ gap ++ word, Sourced spans mark)
    (hsqueezed : Squeezed out source) (hsorted : (source ++ (gap ++ word)).Pairwise (·.si ≤ ·.si))
    (htrailing : Trailing out s) :
    ∃ out', Faithful fonts spans limit out' (s.addWord fonts spans limit richWord) ∧
      Squeezed out' (source ++ (gap ++ word)) ∧
      Trailing out' (s.addWord fonts spans limit richWord) := by
  have hmarks : richWord.frags.flatMap (RichFrag.marks spans) = word := hword.marks
  have hfrags : ∀ frag ∈ richWord.frags, frag.OfSpan fonts spans ∧ frag.si < spans.length := by
    intro frag hfrag
    obtain ⟨mark, hmark, hsi⟩ := (hword.frags frag hfrag).exists_mark
    have hmem : mark ∈ gap ++ word := by
      rw [← hmarks]
      exact List.mem_append_right _ (List.mem_flatMap_of_mem hfrag hmark)
    exact ⟨hword.frags frag hfrag, hsi ▸ (hsourced mark hmem).1⟩
  have hshown := hsqueezed.append ((Squeezed.gap hgap).append (Squeezed.refl word))
  by_cases htext : richWord.frags.any fun frag => !frag.overlay
  · by_cases hlong : limit + wrapSlack < richWord.width
    · have hstart : Faithful fonts spans limit out (if s.hasText then s.flush else s) := by
        split
        · exact h.flush hlimit s.curSpan
        · exact h
      have hrun := (hstart.addFrags hpos hlimit hfrags).respan none
      rw [hmarks] at hrun
      rw [Flow.addWord_long htext hlong]
      refine ⟨_, hrun, hshown, ?_⟩
      rintro si ⟨⟩
    · rw [List.forall_mem_append] at hsourced
      exact h.short hpos hlimit hword hsound htext hlong hfrags hgap hgapped hsourced.1 hsqueezed
        hsorted htrailing
  · have hover : ∀ frag ∈ richWord.frags,
        frag.OfSpan fonts spans ∧ frag.si < spans.length ∧ frag.overlay = true := by
      intro frag hfrag
      refine ⟨(hfrags frag hfrag).1, (hfrags frag hfrag).2, ?_⟩
      rw [List.any_eq_true, not_exists] at htext
      cases hfalse : frag.overlay with
      | true => rfl
      | false => exact absurd ⟨hfrag, by simp [hfalse]⟩ (htext frag)
    have hspace := @Flow.spaceFor_nonneg fonts spans s richWord hpos
    have hplace : s.cur.width ≤ s.cur.width + s.spaceFor fonts spans richWord :=
      le_add_of_nonneg_right hspace
    have hrun := (Faithful.overlays h hover hplace).respan none
    rw [hmarks] at hrun
    rw [Flow.addWord_overlays htext]
    refine ⟨_, hrun, hshown, ?_⟩
    rintro si ⟨⟩

theorem Faithful.addWords (hpos : fonts.Positive)
    (hlimit : ((0 : ℚ) : WithTop ℚ) ≤ limit + wrapSlack) {rest : List Mark}
    {tokens : List (List Mark × List Mark)} (hspaced : Spaced Mark.blank rest tokens)
    {richWords : List RichWord}
    (hwords : List.Forall₂ (Writes fonts spans) (tokens.map spacedWord) richWords)
    (hsound : ∀ richWord ∈ richWords, richWord.Sound) (h : Faithful fonts spans limit out s)
    (hgapped : out ≠ [] → ∀ mark ∈ rest.head?, mark.blank = true)
    (hsourced : ∀ mark ∈ rest, Sourced spans mark) (hsqueezed : Squeezed out source)
    (hsorted : (source ++ rest).Pairwise (·.si ≤ ·.si)) (htrailing : Trailing out s) :
    ∃ out', Faithful fonts spans limit out' (richWords.foldl (Flow.addWord fonts spans limit) s) ∧
      Squeezed out' (source ++ rest) := by
  induction hspaced generalizing out s source richWords with
  | blanks hgap =>
    rw [List.map_nil, List.forall₂_nil_left_iff] at hwords
    subst hwords
    have hshown := hsqueezed.append (Squeezed.gap hgap)
    rw [List.append_nil] at hshown
    exact ⟨out, h, hshown⟩
  | @word gap word rest tokens hgap hword hne hends more ih =>
    rw [List.map_cons, List.forall₂_cons_left_iff] at hwords
    obtain ⟨richWord, richWords, hwrites, hwords, rfl⟩ := hwords
    rw [List.forall_mem_cons] at hsound
    have hgapped : out ≠ [] → gap ≠ [] := by
      intro hout
      exact (Spaced.word hgap hword hne hends more).gap_ne_nil (hgapped hout)
    rw [← List.append_assoc gap, ← List.append_assoc source] at hsorted
    rw [← List.append_assoc gap, List.forall_mem_append] at hsourced
    obtain ⟨out', hnext, hsqueezed, htrailing⟩ := h.addWord hpos hlimit hwrites hsound.1 hgap hgapped
      hsourced.1 hsqueezed (List.pairwise_append.mp hsorted).1 htrailing
    have hrest := ih hwords hsound.2 hnext (fun _ => hends) hsourced.2 hsqueezed hsorted htrailing
    rw [List.append_assoc, List.append_assoc] at hrest
    exact hrest

end Steps

section Marks

variable {spans : List Span}

theorem mem_marks {mark : Mark} (h : mark ∈ marks spans) :
    ∃ entry ∈ spans.zipIdx, mark ∈ spanMarks entry.2 entry.1 entry.1.text ∧
      mark.si = entry.2 ∧ mark.span = entry.1 := by
  rw [marks, List.mem_flatMap] at h
  obtain ⟨entry, hentry, hmark⟩ := h
  refine ⟨entry, hentry, hmark, ?_⟩
  rw [spanMarks] at hmark
  split at hmark
  · rw [List.mem_singleton.mp hmark]
    exact ⟨rfl, rfl⟩
  · obtain ⟨c, -, rfl⟩ := List.mem_map.mp hmark
    exact ⟨rfl, rfl⟩

theorem sourced_marks {mark : Mark} (h : mark ∈ marks spans) : Sourced spans mark := by
  obtain ⟨entry, hentry, -, hsi, hspan⟩ := mem_marks h
  rw [Sourced, hsi, hspan]
  exact ⟨(getD_of_mem_zipIdx hentry).1, (getD_of_mem_zipIdx hentry).2.symm⟩

theorem sorted_marks (spans : List Span) : (marks spans).Pairwise (·.si ≤ ·.si) := by
  have hsi : ∀ (entry : Span × ℕ), ∀ mark ∈ spanMarks entry.2 entry.1 entry.1.text,
      mark.si = entry.2 := by
    intro entry mark hmark
    rw [spanMarks] at hmark
    split at hmark
    · rw [List.mem_singleton.mp hmark]
    · obtain ⟨c, -, rfl⟩ := List.mem_map.mp hmark
      rfl
  rw [marks, List.pairwise_flatMap]
  constructor
  · intro entry _
    apply List.pairwise_of_forall_mem_list
    intro a ha b hb
    rw [hsi entry a ha, hsi entry b hb]
  · have hindex : (spans.zipIdx.map Prod.snd).Pairwise (· < ·) := by
      rw [List.zipIdx_map_snd]
      exact List.pairwise_lt_range'
    rw [List.pairwise_map] at hindex
    apply hindex.imp
    intro entry later hlt a ha b hb
    rw [hsi entry a ha, hsi later b hb]
    exact hlt.le

theorem countP_spanMarks (si k : ℕ) (span : Span) (text : List Char) :
    (spanMarks k span text).countP (fun mark => mark.si = si ∧ mark.ch = none) =
      if span.overlay = true ∧ k = si then 1 else 0 := by
  rw [spanMarks]
  cases span.overlay with
  | true => by_cases hk : k = si <;> simp [hk]
  | false => simp [List.countP_map]

theorem countP_marks {si : ℕ} (hsi : si < spans.length)
    (hover : (spans.getD si default).overlay = true) :
    (marks spans).countP (fun mark => mark.si = si ∧ mark.ch = none) = 1 := by
  have hcount : ∀ entries : List (Span × ℕ),
      (∀ entry ∈ entries, spans.getD entry.2 default = entry.1) →
      (entries.flatMap fun entry => spanMarks entry.2 entry.1 entry.1.text).countP
        (fun mark => mark.si = si ∧ mark.ch = none) = (entries.map Prod.snd).count si := by
    intro entries
    induction entries with
    | nil => exact fun _ => rfl
    | cons entry entries ih =>
      intro hentries
      rw [List.forall_mem_cons] at hentries
      rw [List.flatMap_cons, List.countP_append, ih hentries.2, countP_spanMarks, List.map_cons,
        List.count_cons, Nat.add_comm]
      congr 1
      by_cases heq : entry.2 = si
      · rw [heq] at hentries
        rw [if_pos ⟨by rw [← hentries.1]; exact hover, heq⟩, heq, if_pos (beq_self_eq_true si)]
      · simp [heq]
  rw [marks, hcount _ fun entry hentry => (getD_of_mem_zipIdx hentry).2, List.zipIdx_map_snd]
  rw [List.Nodup.count List.nodup_range', if_pos]
  rw [List.mem_range'_1]
  omega

theorem countP_entries {entries : List (RichPiece × ℕ)} {si : ℕ}
    (hover : (spans.getD si default).overlay = true) :
    (entries.flatMap (shownMarks spans)).countP (fun mark => mark.si = si ∧ mark.ch = none) =
      entries.countP fun entry => entry.2 = si := by
  induction entries with
  | nil => rfl
  | cons entry entries ih =>
    rw [List.flatMap_cons, List.countP_append, ih, List.countP_cons, Nat.add_comm, shownMarks,
      countP_spanMarks]
    congr 1
    by_cases heq : entry.2 = si
    · rw [heq, hover]
      simp
    · simp [heq]

end Marks

section Lines

variable {fonts : Fonts} {spans : List Span}

theorem limitOf_pos (maxWidth : Option ℚ) : (0 : WithTop ℚ) < limitOf maxWidth := by
  rw [limitOf]
  split
  · rename_i w hw
    have hpos := (Option.filter_eq_some_iff.mp hw).2
    exact_mod_cast of_decide_eq_true hpos
  · exact WithTop.top_pos

theorem zero_le_limitOf (maxWidth : Option ℚ) :
    ((0 : ℚ) : WithTop ℚ) ≤ limitOf maxWidth + wrapSlack := by
  have hslack : (0 : ℚ) ≤ wrapSlack := by norm_num [wrapSlack]
  have hpos := limitOf_pos maxWidth
  generalize limitOf maxWidth = limit at hpos
  cases limit with
  | top =>
    rw [top_add]
    exact le_top
  | coe limit =>
    rw [← WithTop.coe_zero, WithTop.coe_lt_coe] at hpos
    rw [← WithTop.coe_add, WithTop.coe_le_coe]
    linarith

theorem Flow.closed_pieces (s : Flow) :
    s.closed.flatMap (·.pieces) = s.lines.flatMap (·.pieces) ++ s.cur.pieces := by
  have hlines : (if s.cur.pieces.isEmpty then s.lines else s.lines ++ [s.cur]).flatMap (·.pieces) =
      s.lines.flatMap (·.pieces) ++ s.cur.pieces := by
    split
    · rename_i hempty
      rw [List.isEmpty_iff.mp hempty, List.append_nil]
    · rw [List.flatMap_append, List.flatMap_singleton]
  rw [← hlines, Flow.closed]
  generalize (if s.cur.pieces.isEmpty then s.lines else s.lines ++ [s.cur]) = lines
  cases lines with
  | nil => rfl
  | cons line lines => rfl

theorem Faithful.closed {limit : WithTop ℚ} {out : List Mark} {s : Flow}
    (h : Faithful fonts spans limit out s) (hlimit : ((0 : ℚ) : WithTop ℚ) ≤ limit + wrapSlack) :
    ∀ line ∈ s.closed, line.Fits limit := by
  have hlines : ∀ line ∈ if s.cur.pieces.isEmpty then s.lines else s.lines ++ [s.cur],
      line.Fits limit := by
    split
    · exact h.lines
    · rw [List.forall_mem_append, List.forall_mem_singleton]
      exact ⟨h.lines, h.cur⟩
  rw [Flow.closed]
  generalize (if s.cur.pieces.isEmpty then s.lines else s.lines ++ [s.cur]) = lines at hlines
  cases lines with
  | nil => exact List.forall_mem_singleton.mpr (fits_empty hlimit)
  | cons line lines => exact hlines

/-- The pieces of the lines show the marks of the spans in order, each piece those of one span; of
the blanks they have one between two words of a piece, and no other. A line has the room it may
take, and its texts do not overlap. -/
theorem richLines_faithful (hpos : fonts.Positive) (spans : List Span) (maxWidth : Option ℚ) :
    ∃ entries : List (RichPiece × ℕ),
      entries.map Prod.fst = (richLines fonts spans maxWidth).1.flatMap (·.pieces) ∧
      (∀ entry ∈ entries, Shows fonts spans entry.1 entry.2) ∧
      Squeezed (entries.flatMap (shownMarks spans)) (marks spans) ∧
      (∀ si < spans.length, (spans.getD si default).overlay = true →
        entries.countP (fun entry => entry.2 = si) = 1) ∧
      ∀ line ∈ (richLines fonts spans maxWidth).1, line.Fits (limitOf maxWidth) := by
  have hlimit := zero_le_limitOf maxWidth
  obtain ⟨tokens, hspaced⟩ := exists_spaced Mark.blank (marks spans)
  have hwords := richWords_marks fonts spans
  rw [build_spaced hspaced] at hwords
  have hstart : Faithful fonts spans (limitOf maxWidth) [] ⟨[], ⟨[], 0⟩, none⟩ :=
    ⟨⟨[], rfl, by simp, rfl⟩, by simp, fits_empty hlimit, fun _ => rfl⟩
  obtain ⟨out, hfaithful, hsqueezed⟩ := Faithful.addWords hpos hlimit hspaced hwords
    (fun word hword => sound_of_mem_richWords hpos hword) hstart (fun hne => absurd rfl hne)
    (fun mark hmark => sourced_marks hmark) Squeezed.nil (sorted_marks spans)
    (by rintro si ⟨⟩)
  obtain ⟨entries, hentries, hshows, hout⟩ := hfaithful.shown
  rw [List.nil_append, ← hout] at hsqueezed
  rw [richLines_flowOf, flowOf]
  generalize (richWords fonts spans).foldl _ _ = s at hfaithful hentries ⊢
  refine ⟨entries, ?_, hshows, hsqueezed, ?_, hfaithful.closed hlimit⟩
  · rw [hentries, Flow.closed_pieces]
  · intro si hsi hover
    rw [← countP_entries hover, hsqueezed.countP, countP_marks hsi hover]
    intro mark hmark
    rw [decide_eq_true_eq] at hmark
    rw [Mark.blank, hmark.2]
    rfl

theorem richLines_faithful_narrow : ∃ entries : List (RichPiece × ℕ),
    entries.map Prod.fst = (richLines ⟨none, none⟩
      [⟨['a'], 7, ⟨0, 0, 0, 1⟩, none, false, false, false⟩,
        ⟨['b'], 7, ⟨0, 0, 0, 1⟩, none, true, false, false⟩] (some 5)).1.flatMap (·.pieces) ∧
      Squeezed (entries.flatMap (shownMarks
        [⟨['a'], 7, ⟨0, 0, 0, 1⟩, none, false, false, false⟩,
          ⟨['b'], 7, ⟨0, 0, 0, 1⟩, none, true, false, false⟩]))
        (marks [⟨['a'], 7, ⟨0, 0, 0, 1⟩, none, false, false, false⟩,
          ⟨['b'], 7, ⟨0, 0, 0, 1⟩, none, true, false, false⟩]) := by
  obtain ⟨entries, hentries, -, hsqueezed, -⟩ := richLines_faithful bitmap_positive
    [⟨['a'], 7, ⟨0, 0, 0, 1⟩, none, false, false, false⟩,
      ⟨['b'], 7, ⟨0, 0, 0, 1⟩, none, true, false, false⟩] (some 5)
  exact ⟨entries, hentries, hsqueezed⟩

theorem addText_whole {s : RichWords} {si : ℕ} {span : Span} {ws : Bool} {run : List Char}
    (hrun : ∀ c ∈ run, isWhitespace c = ws) (hne : run ≠ []) :
    s.addText fonts si span run = s.addRun fonts si span ws run := by
  have hadd := @addText_run fonts si span s ws run [] hrun hne (by simp)
  rw [List.append_nil, addText_nil] at hadd
  exact hadd

theorem overlay_behind_word :
    (richLines ⟨none, none⟩ [⟨['a'], 7, ⟨0, 0, 0, 1⟩, none, false, false, false⟩,
        ⟨[' '], 7, ⟨0, 0, 0, 1⟩, none, false, false, false⟩,
        ⟨['|'], 14, ⟨0, 0, 0, 1⟩, none, false, false, true⟩,
        ⟨[' '], 7, ⟨0, 0, 0, 1⟩, none, false, false, false⟩,
        ⟨['b'], 7, ⟨0, 0, 0, 1⟩, none, false, false, false⟩] (some 100)).1.map
      (fun line => line.pieces.map fun piece => (piece.x, piece.width)) =
      [[(0, 6), (18, 0), (12, 6)]] ∧ ¬ (18 + 0 : ℚ) ≤ 12 := by
  refine ⟨?_, by norm_num⟩
  have hletter : ∀ d ∈ ['a'], isWhitespace d = false :=
    List.forall_mem_singleton.mpr (by decide)
  have hletter' : ∀ d ∈ ['b'], isWhitespace d = false :=
    List.forall_mem_singleton.mpr (by decide)
  have hblank : ∀ d ∈ [' '], isWhitespace d = true :=
    List.forall_mem_singleton.mpr (by decide)
  simp only [richLines, richWords, List.zipIdx_cons, List.zipIdx_nil, List.foldl_cons,
    List.foldl_nil, RichWords.addSpan, Bool.false_eq_true, if_false, if_true]
  rw [addText_whole hletter (List.cons_ne_nil _ _), addText_whole hblank (List.cons_ne_nil _ _),
    addText_whole hblank (List.cons_ne_nil _ _), addText_whole hletter' (List.cons_ne_nil _ _)]
  decide +kernel

end Lines

end AtomVibe.Rich
