import AtomVibe.CascadeSplit
import AtomVibe.RichMarks

namespace AtomVibe.Html

open Text Ux Rich WordStream Overwrite
open SpacedWords (words words_append words_gap words_cons exists_spaced)

def flowWords (fonts : TextWrap.Fonts) (spans : List Span) : List (List Char) :=
  (richWords fonts spans).map fun word => word.frags.flatMap (·.text)

def spanText (spans : List Span) : List Char := spans.flatMap (·.text)

section FlowWords

variable {fonts : TextWrap.Fonts} {spans : List Span}

def letter (mark : Mark) : Char := mark.ch.getD '-'

theorem isWhitespace_letter (mark : Mark) : isWhitespace (letter mark) = mark.blank := by
  rw [letter, Mark.blank]
  cases mark.ch <;> rfl

theorem map_letter_spanMarks {span : Span} (hover : span.overlay = false) (si : ℕ) (text : List Char) :
    (spanMarks si span text).map letter = text := by
  rw [spanMarks, if_neg (by rw [hover]; exact Bool.false_ne_true), List.map_map]
  exact List.map_id text

theorem map_letter_marks (hover : ∀ span ∈ spans, span.overlay = false) :
    (marks spans).map letter = spanText spans := by
  have hzip : ∀ n, ((spans.zipIdx n).flatMap fun entry =>
      spanMarks entry.2 entry.1 entry.1.text).map letter = spanText spans := by
    induction spans with
    | nil => exact fun n => rfl
    | cons span spans ih =>
      intro n
      rw [List.forall_mem_cons] at hover
      rw [List.zipIdx_cons, List.flatMap_cons, List.map_append, map_letter_spanMarks hover.1,
        ih hover.2, spanText, spanText, List.flatMap_cons]
  exact hzip 0

theorem build_snd (text : List Char) :
    (build isWhitespace text).map (·.2) = words isWhitespace text := by
  obtain ⟨tokens, hspaced⟩ := exists_spaced isWhitespace text
  rw [build_spaced hspaced, hspaced.words_eq, List.map_map]
  rfl

theorem overlay_getD (hover : ∀ span ∈ spans, span.overlay = false) (si : ℕ) :
    (spans.getD si default).overlay = false := by
  rw [List.getD_eq_getElem?_getD]
  cases hspan : spans[si]? with
  | none => rfl
  | some span => exact hover span (List.mem_of_getElem? hspan)

theorem frags_text (hover : ∀ span ∈ spans, span.overlay = false) {word : Bool × List Mark}
    {richWord : RichWord} (h : Writes fonts spans word richWord) :
    richWord.frags.flatMap (·.text) = word.2.map letter := by
  rw [← h.marks, List.map_flatMap]
  apply List.flatMap_congr
  intro frag _
  rw [RichFrag.marks, map_letter_spanMarks (overlay_getD hover frag.si)]

theorem flowWords_eq (hover : ∀ span ∈ spans, span.overlay = false) :
    flowWords fonts spans = words isWhitespace (spanText spans) := by
  have hwords : ∀ {built : List (Bool × List Mark)} {rich : List RichWord},
      List.Forall₂ (Writes fonts spans) built rich →
      rich.map (fun word => word.frags.flatMap (·.text)) = built.map fun word => word.2.map letter := by
    intro built rich h
    induction h with
    | nil => rfl
    | cons hword _ ih => rw [List.map_cons, List.map_cons, frags_text hover hword, ih]
  rw [flowWords, hwords (richWords_marks fonts spans), ← map_letter_marks hover, ← build_snd,
    build_map isWhitespace_letter, List.map_map]
  rfl

end FlowWords

def bulletText : List Char := "• ".toList

inductive Seen (fonts : TextWrap.Fonts) : List UxNode → List (List Char) → Prop
  | nil : Seen fonts [] []
  | flow {nodes : List UxNode} {more : List (List Char)} (spans : List Span) (align : Align)
      (rest : Seen fonts nodes more) :
      Seen fonts (.rich spans align :: nodes) (flowWords fonts spans ++ more)
  | item {nodes : List UxNode} {more : List (List Char)} {bullet : Span} {spans : List Span}
      (align : Align) (htext : bullet.text = bulletText)
      (hwords : flowWords fonts (bullet :: spans) = "•".toList :: flowWords fonts spans)
      (rest : Seen fonts nodes more) :
      Seen fonts (.rich (bullet :: spans) align :: nodes) (flowWords fonts spans ++ more)
  | box {kids nodes : List UxNode} {inner more : List (List Char)} (style : Style)
      (hkids : Seen fonts kids inner) (rest : Seen fonts nodes more) :
      Seen fonts (.box style kids :: nodes) (inner ++ more)

section Seen

variable {fonts : TextWrap.Fonts} {front back : List UxNode} {before behind : List (List Char)}

theorem Seen.append (hfront : Seen fonts front before) (hback : Seen fonts back behind) :
    Seen fonts (front ++ back) (before ++ behind) := by
  induction hfront with
  | nil => exact hback
  | flow spans align _ ih =>
    rw [List.append_assoc]
    exact .flow spans align ih
  | item align htext hwords _ ih =>
    rw [List.append_assoc]
    exact .item align htext hwords ih
  | box style hkids _ _ ih =>
    rw [List.append_assoc]
    exact .box style hkids ih

end Seen

section Documents

def apart (flexRow : Bool) : List Char := if flexRow then [' '] else []

-- `row` says which boxes keep their children apart.
variable (row : List Char → Attrs → Bool)

mutual

def nodeText (flexRow : Bool) : Dom → List Char
  | .text t => t ++ apart flexRow
  | .elem tag attrs kids =>
    if tag = "br".toList then [' ']
    else if isInline tag then nodesText false kids ++ apart flexRow
    else ' ' :: (nodesText (row tag attrs) kids ++ [' '])

def nodesText (flexRow : Bool) : List Dom → List Char
  | [] => []
  | kid :: kids => nodeText flexRow kid ++ nodesText flexRow kids

end

variable (rules : List CssRule)

def isRow (tag : List Char) (attrs : Attrs) : Bool :=
  last Declared.dir ((sheetsOf rules tag attrs).flatMap declsOf) = some .row

mutual

def InlineOnly : Dom → Prop
  | .text _ => True
  | .elem tag _ kids => isInline tag = true ∧ tag ≠ "br".toList ∧ InlineOnlyIn kids

def InlineOnlyIn : List Dom → Prop
  | [] => True
  | kid :: kids => InlineOnly kid ∧ InlineOnlyIn kids

end

mutual

def Supported : Dom → Prop
  | .text _ => True
  | .elem tag attrs kids =>
    if tag = "br".toList then kids = []
    else if isInline tag then InlineOnlyIn kids
    else isDropped tag = false ∧ (tag = "hr".toList → kids = []) ∧
      (sheetsOf rules tag attrs).any hides = false ∧ SupportedIn kids

def SupportedIn : List Dom → Prop
  | [] => True
  | kid :: kids => Supported kid ∧ SupportedIn kids

end

end Documents

section Inline

variable {readF32 : List Char → Option ℚ} {rules : List CssRule}

structure Spells (spans : List Span) (text : List Char) : Prop where
  plain : ∀ span ∈ spans, span.overlay = false
  text : spanText spans = text

theorem Spells.append {front back : List Span} {before behind : List Char}
    (hfront : Spells front before) (hback : Spells back behind) :
    Spells (front ++ back) (before ++ behind) where
  plain := List.forall_mem_append.mpr ⟨hfront.plain, hback.plain⟩
  text := by rw [spanText, List.flatMap_append, ← spanText, ← spanText, hfront.text, hback.text]

theorem spells_makeSpan (text : List Char) (inh : Inherited) : Spells [makeSpan text inh] text where
  plain := by simp [makeSpan]
  text := by simp [spanText, makeSpan]

theorem spells_inlineSpans {tag : List Char} {attrs : Attrs} {inh : Inherited} {text : List Char}
    {inner : Inherited → Option (List Span)} {spans : List Span}
    (h : inlineSpans readF32 rules tag attrs inh inner = some spans)
    (hinner : ∀ inh, inner inh = some spans → Spells spans text) : Spells spans text := by
  obtain ⟨inh', -, hspans⟩ := Option.bind_eq_some_iff.mp h
  exact hinner inh' hspans

mutual

theorem spells_inlineNode (row : List Char → Attrs → Bool) : ∀ (node : Dom) (inh : Inherited)
    (spans : List Span), InlineOnly node → inlineNode readF32 rules inh node = some spans →
    Spells spans (nodeText row false node)
  | .text t, inh, spans, _, h => by
    rw [inlineNode] at h
    rw [← Option.some.inj h, nodeText, apart, if_neg Bool.false_ne_true, List.append_nil]
    exact spells_makeSpan t inh
  | .elem tag attrs kids, inh, spans, hinline, h => by
    rw [InlineOnly] at hinline
    obtain ⟨hinline, hbr, hkids⟩ := hinline
    rw [inlineNode, hinline, decide_eq_true hbr, Bool.and_true, if_pos rfl] at h
    rw [nodeText, if_neg hbr, if_pos hinline, apart, if_neg Bool.false_ne_true, List.append_nil]
    exact spells_inlineSpans h fun inh hspans => spells_inlineNodes row kids inh spans hkids hspans

theorem spells_inlineNodes (row : List Char → Attrs → Bool) : ∀ (kids : List Dom) (inh : Inherited)
    (spans : List Span), InlineOnlyIn kids → inlineNodes readF32 rules inh kids = some spans →
    Spells spans (nodesText row false kids)
  | [], inh, spans, _, h => by
    rw [inlineNodes] at h
    rw [← Option.some.inj h, nodesText]
    exact ⟨by simp, rfl⟩
  | kid :: kids, inh, spans, hinline, h => by
    rw [InlineOnlyIn] at hinline
    rw [inlineNodes] at h
    obtain ⟨front, hfront, h⟩ := Option.bind_eq_some_iff.mp h
    obtain ⟨back, hback, h⟩ := Option.bind_eq_some_iff.mp h
    rw [← Option.some.inj h, nodesText]
    exact (spells_inlineNode row kid inh front hinline.1 hfront).append
      (spells_inlineNodes row kids inh back hinline.2 hback)

end

end Inline

section Flows

variable {fonts : TextWrap.Fonts} {ctx : FlowContext} {s : Flow} {doc text : List Char}

structure SeenSoFar (fonts : TextWrap.Fonts) (s : Flow) (doc : List Char) : Prop where
  plain : ∀ span ∈ s.run, span.overlay = false
  seen : ∃ out, Seen fonts s.out out ∧ ∀ more,
    words isWhitespace (doc ++ more) = out ++ words isWhitespace (spanText s.run ++ more)

theorem seenSoFar_empty : SeenSoFar fonts {} [] where
  plain := by simp
  seen := ⟨[], .nil, fun _ => rfl⟩

theorem SeenSoFar.push (h : SeenSoFar fonts s doc) {spans : List Span} (hspans : Spells spans text) :
    SeenSoFar fonts { s with run := s.run ++ spans } (doc ++ text) where
  plain := List.forall_mem_append.mpr ⟨h.plain, hspans.plain⟩
  seen := by
    obtain ⟨out, hout, hwords⟩ := h.seen
    refine ⟨out, hout, fun more => ?_⟩
    rw [List.append_assoc, hwords, spanText, spanText, List.flatMap_append, List.append_assoc,
      ← spanText, ← spanText, hspans.text]

theorem words_blank (front back : List Char) :
    words isWhitespace (front ++ ' ' :: back) =
      words isWhitespace front ++ words isWhitespace back := by
  have hblank : isWhitespace ' ' = true := by decide
  rw [words_append (by simp [hblank]), words_cons hblank]

theorem blanks_of_trimChars {cs : List Char} (h : trimChars cs = []) :
    ∀ c ∈ cs, isWhitespace c = true := by
  rw [trimChars, List.reverse_eq_nil_iff, List.dropWhile_eq_nil_iff] at h
  intro c hc
  rw [← List.takeWhile_append_dropWhile (p := isWhitespace) (l := cs), List.mem_append] at hc
  rcases hc with hc | hc
  · exact List.mem_takeWhile_imp hc
  · exact h c (List.mem_reverse.mpr hc)

theorem words_of_no_content {run : List Span}
    (h : run.any (fun span => !(trimChars span.text).isEmpty) = false) :
    words isWhitespace (spanText run) = [] := by
  have hblanks : ∀ c ∈ spanText run, isWhitespace c = true := by
    intro c hc
    obtain ⟨span, hspan, hc⟩ := List.mem_flatMap.mp hc
    have hempty := List.any_eq_false.mp h span hspan
    rw [Bool.not_eq_true, Bool.not_eq_false', List.isEmpty_iff] at hempty
    exact blanks_of_trimChars hempty c hc
  have hgap := words_gap hblanks []
  rw [List.append_nil] at hgap
  exact hgap

theorem flowWords_bullet {bullet : Span} {spans : List Span} (htext : bullet.text = bulletText)
    (hbullet : bullet.overlay = false) (hplain : ∀ span ∈ spans, span.overlay = false) :
    flowWords fonts (bullet :: spans) = "•".toList :: flowWords fonts spans := by
  rw [flowWords_eq (List.forall_mem_cons.mpr ⟨hbullet, hplain⟩), flowWords_eq hplain, spanText,
    List.flatMap_cons, htext, ← spanText]
  exact words_blank "•".toList (spanText spans)

theorem seen_run {bullet : Option Span} {run : List Span} (align : Align)
    (hbullet : ∀ span ∈ bullet, span.text = bulletText ∧ span.overlay = false)
    (hplain : ∀ span ∈ run, span.overlay = false) :
    Seen fonts [.rich (bullet.toList ++ run) align] (words isWhitespace (spanText run)) := by
  rw [← flowWords_eq (@hplain), ← List.append_nil (flowWords fonts run)]
  cases bullet with
  | none => exact .flow run align .nil
  | some bullet =>
    obtain ⟨htext, hover⟩ := hbullet bullet rfl
    exact .item align htext (flowWords_bullet htext hover hplain) .nil

theorem run_flush (ctx : FlowContext) (s : Flow) : (flush ctx s).run = [] := by
  rw [flush]
  split <;> rfl

theorem SeenSoFar.flush (h : SeenSoFar fonts s doc) (hmark : ∀ mark ∈ ctx.liMark, mark = bulletText) :
    SeenSoFar fonts (flush ctx s) (doc ++ [' ']) := by
  obtain ⟨out, hout, hwords⟩ := h.seen
  have hbehind : ∀ more, words isWhitespace (doc ++ [' '] ++ more) =
      out ++ words isWhitespace (spanText s.run) ++ words isWhitespace more := by
    intro more
    rw [List.append_assoc, List.singleton_append, hwords, words_blank, List.append_assoc]
  constructor
  · rw [run_flush]
    exact fun span hspan => absurd hspan List.not_mem_nil
  · refine ⟨out ++ words isWhitespace (spanText s.run), ?_, fun more => by rw [run_flush, hbehind]; rfl⟩
    rw [Html.flush]
    cases hcontent : s.run.any fun span => !(trimChars span.text).isEmpty with
    | false =>
      rw [if_neg Bool.false_ne_true, words_of_no_content hcontent, List.append_nil]
      exact hout
    | true =>
      rw [if_pos rfl]
      refine hout.append (seen_run ctx.inh.textAlign (fun bullet hbullet => ?_) h.plain)
      split at hbullet
      · obtain ⟨mark, hmem, rfl⟩ := Option.mem_map.mp hbullet
        exact ⟨hmark mark hmem, rfl⟩
      · cases hbullet

theorem SeenSoFar.flushed (h : SeenSoFar fonts s doc)
    (hmark : ∀ mark ∈ ctx.liMark, mark = bulletText) :
    Seen fonts (Html.flush ctx s).out (words isWhitespace doc) := by
  obtain ⟨out, hout, hwords⟩ := (h.flush hmark).seen
  have hall := hwords []
  rw [run_flush, List.append_assoc, List.append_nil, words_blank] at hall
  have hnone : words isWhitespace ([] : List Char) = [] := rfl
  rw [spanText, List.flatMap_nil, List.append_nil, hnone, List.append_nil, List.append_nil] at hall
  rw [hall]
  exact hout

theorem SeenSoFar.pushSpans (h : SeenSoFar fonts s doc)
    (hmark : ∀ mark ∈ ctx.liMark, mark = bulletText) {spans : List Span} (hspans : Spells spans text) :
    SeenSoFar fonts (pushSpans ctx s spans) (doc ++ (text ++ apart ctx.flexRow)) := by
  have hpush := h.push hspans
  rw [Html.pushSpans]
  cases hrow : ctx.flexRow with
  | false =>
    change SeenSoFar fonts _ (doc ++ (text ++ []))
    rw [List.append_nil]
    exact hpush
  | true =>
    change SeenSoFar fonts _ (doc ++ (text ++ [' ']))
    rw [← List.append_assoc]
    exact hpush.flush hmark

theorem SeenSoFar.push_box (h : SeenSoFar fonts s doc) (hrun : s.run = []) {nodes : List UxNode}
    (hnodes : Seen fonts nodes (words isWhitespace text)) :
    SeenSoFar fonts { s with out := s.out ++ nodes } (doc ++ (text ++ [' '])) where
  plain := h.plain
  seen := by
    obtain ⟨out, hout, hwords⟩ := h.seen
    refine ⟨out ++ words isWhitespace text, hout.append hnodes, fun more => ?_⟩
    rw [List.append_assoc, hwords, hrun, List.append_assoc, List.append_assoc,
      List.singleton_append]
    change out ++ words isWhitespace (text ++ ' ' :: more) = _
    rw [words_blank]
    rfl

end Flows

section Blocks

variable {fonts : TextWrap.Fonts} {readF32 : List Char → Option ℚ} {rules : List CssRule}

theorem dir_tagDefaultStyle (tag : List Char) : (tagDefaultStyle tag).dir = .column := by
  rw [tagDefaultStyle]
  split <;> rfl

theorem dir_cascadeBlock {sheets : List (List Char)} {style style' : Style} {inh inh' : Inherited}
    (h : cascadeBlock readF32 sheets style inh = some (some (style', inh'))) :
    style'.dir = (last Declared.dir (sheets.flatMap declsOf)).getD style.dir := by
  induction sheets generalizing style inh with
  | nil =>
    cases h
    rfl
  | cons css sheets ih =>
    rw [cascadeBlock] at h
    obtain ⟨s, happly, h⟩ := Option.bind_eq_some_iff.mp h
    split at h
    · rw [ih h, (applyCss_declared happly).1, List.flatMap_cons, last_append, Option.getD_or]
      rfl
    · cases h

theorem isRow_cascadeBlock {tag : List Char} {attrs : Attrs} {style : Style} {inh inh' : Inherited}
    (h : cascadeBlock readF32 (sheetsOf rules tag attrs) (tagDefaultStyle tag) inh =
      some (some (style, inh'))) : decide (style.dir = .row) = isRow rules tag attrs := by
  rw [dir_cascadeBlock h, dir_tagDefaultStyle, isRow]
  cases last Declared.dir ((sheetsOf rules tag attrs).flatMap declsOf) with
  | none => rfl
  | some dir => simp

theorem bullet_of_li (tag : List Char) :
    ∀ mark ∈ if tag = "li".toList then some "• ".toList else none, mark = bulletText := by
  intro mark hmark
  split at hmark
  · exact (Option.some.inj hmark).symm
  · cases hmark

theorem seen_elemToUx {tag : List Char} {attrs : Attrs} {inh : Inherited} {kids : List Dom}
    {mark : Option (List Char)} {inner : FlowContext → Option Flow} {node : Option UxNode}
    (hmark : ∀ m ∈ mark, m = bulletText) (hdropped : isDropped tag = false)
    (hhr : tag = "hr".toList → kids = []) (hshown : (sheetsOf rules tag attrs).any hides = false)
    (hinner : ∀ ctx s, (∀ m ∈ ctx.liMark, m = bulletText) →
      ctx.flexRow = isRow rules tag attrs → inner ctx = some s →
      SeenSoFar fonts s (nodesText (isRow rules) (isRow rules tag attrs) kids))
    (h : elemToUx readF32 rules tag attrs inh mark inner = some node) :
    Seen fonts node.toList
      (words isWhitespace (nodesText (isRow rules) (isRow rules tag attrs) kids)) := by
  rw [elemToUx, if_neg (by rw [hdropped]; exact Bool.false_ne_true)] at h
  split at h
  · rename_i hrule
    rw [hhr hrule, ← Option.some.inj h, nodesText]
    exact .box _ .nil .nil
  · obtain ⟨cascaded, hcascade, h⟩ := Option.bind_eq_some_iff.mp h
    cases cascaded with
    | none =>
      rcases @cascadeBlock_cases readF32 (sheetsOf rules tag attrs) (tagDefaultStyle tag) _ with
        ⟨hstops, -⟩ | ⟨-, -, hhides⟩ | ⟨styled, hstyled, -⟩
      · rw [hcascade] at hstops
        cases hstops
      · rw [hshown] at hhides
        cases hhides
      · rw [hcascade] at hstyled
        cases hstyled
    | some styled =>
      obtain ⟨s, hs, h⟩ := Option.bind_eq_some_iff.mp h
      obtain ⟨style, inh'⟩ := styled
      have hinside := @SeenSoFar.flushed fonts ⟨inh', mark, style.dir = .row⟩ s _
        (hinner _ s hmark (isRow_cascadeBlock hcascade) hs) hmark
      rw [← Option.some.inj h, Option.toList_some,
        ← List.append_nil (words isWhitespace (nodesText _ _ kids))]
      exact .box style hinside .nil

mutual

theorem seen_nodeToUx : ∀ (node : Dom) (ctx : FlowContext) (s s' : Flow) (doc : List Char),
    Supported rules node → (∀ mark ∈ ctx.liMark, mark = bulletText) →
    nodeToUx readF32 rules ctx s node = some s' → SeenSoFar fonts s doc →
    SeenSoFar fonts s' (doc ++ nodeText (isRow rules) ctx.flexRow node)
  | .text t, ctx, s, s', doc, _, hmark, h, hseen => by
    rw [nodeToUx] at h
    rw [← Option.some.inj h, nodeText]
    exact hseen.pushSpans hmark (spells_makeSpan t ctx.inh)
  | .elem tag attrs kids, ctx, s, s', doc, hsupported, hmark, h, hseen => by
    rw [Supported] at hsupported
    rw [nodeToUx] at h
    rw [nodeText]
    split at h
    · rename_i hbr
      rw [if_pos hbr, ← Option.some.inj h]
      exact hseen.flush hmark
    rename_i hbr
    rw [if_neg hbr] at hsupported ⊢
    split at h
    · rename_i hinline
      rw [if_pos hinline] at hsupported ⊢
      obtain ⟨spans, hspans, h⟩ := Option.bind_eq_some_iff.mp h
      rw [← Option.some.inj h]
      exact hseen.pushSpans hmark (spells_inlineSpans hspans fun inh hinner =>
        spells_inlineNodes (isRow rules) kids inh spans hsupported hinner)
    · rename_i hinline
      rw [if_neg hinline] at hsupported ⊢
      obtain ⟨hdropped, hhr, hshown, hkids⟩ := hsupported
      obtain ⟨node, hnode, h⟩ := Option.bind_eq_some_iff.mp h
      rw [← Option.some.inj h]
      have hbox := seen_elemToUx (bullet_of_li tag) hdropped hhr hshown
        (fun ctx s hmark hrow hs => by
          rw [← hrow]
          exact seen_nodesToUx kids ctx {} s [] hkids hmark hs seenSoFar_empty) hnode
      have hflushed := (hseen.flush hmark).push_box (run_flush ctx s) hbox
      rw [List.append_assoc, List.singleton_append] at hflushed
      exact hflushed

theorem seen_nodesToUx : ∀ (kids : List Dom) (ctx : FlowContext) (s s' : Flow) (doc : List Char),
    SupportedIn rules kids → (∀ mark ∈ ctx.liMark, mark = bulletText) →
    nodesToUx readF32 rules ctx s kids = some s' → SeenSoFar fonts s doc →
    SeenSoFar fonts s' (doc ++ nodesText (isRow rules) ctx.flexRow kids)
  | [], ctx, s, s', doc, _, _, h, hseen => by
    rw [nodesToUx] at h
    rw [← Option.some.inj h, nodesText, List.append_nil]
    exact hseen
  | kid :: kids, ctx, s, s', doc, hsupported, hmark, h, hseen => by
    rw [SupportedIn] at hsupported
    rw [nodesToUx] at h
    obtain ⟨t, ht, h⟩ := Option.bind_eq_some_iff.mp h
    rw [nodesText, ← List.append_assoc]
    exact seen_nodesToUx kids ctx t s' _ hsupported.2 hmark h
      (seen_nodeToUx kid ctx s t doc hsupported.1 hmark ht hseen)

end

/-- The flows of a supported document have exactly its words, the children of a row apart. -/
theorem words_kept {kids : List Dom} {inh : Inherited} {nodes : List UxNode}
    (hsupported : SupportedIn rules kids)
    (h : childrenToUx readF32 rules kids ⟨inh, none, false⟩ = some nodes) :
    Seen fonts nodes (words isWhitespace (nodesText (isRow rules) false kids)) := by
  obtain ⟨s, hs, rfl⟩ := Option.map_eq_some_iff.mp h
  have hmark : ∀ mark ∈ (⟨inh, none, false⟩ : FlowContext).liMark, mark = bulletText :=
    fun mark hmark => absurd hmark (Option.not_mem_none mark)
  exact (seen_nodesToUx kids ⟨inh, none, false⟩ {} s [] hsupported hmark hs seenSoFar_empty).flushed
    hmark

end Blocks

mutual

def nodeFlows : UxNode → List (List Span)
  | .box _ kids => nodesFlows kids
  | .text _ _ _ => []
  | .rich spans _ => [spans]

def nodesFlows : List UxNode → List (List Span)
  | [] => []
  | node :: nodes => nodeFlows node ++ nodesFlows nodes

end

theorem Seen.eq_flows {fonts : TextWrap.Fonts} {nodes : List UxNode} {seen : List (List Char)}
    (h : Seen fonts nodes seen) (hbullets : ∀ spans ∈ nodesFlows nodes,
      ∀ bullet ∈ spans.head?, bullet.text ≠ bulletText) :
    seen = (nodesFlows nodes).flatMap (flowWords fonts) := by
  induction h with
  | nil => rfl
  | flow spans align _ ih =>
    rw [nodesFlows, nodeFlows, List.forall_mem_append] at hbullets
    rw [nodesFlows, nodeFlows, List.flatMap_append, List.flatMap_singleton, ih hbullets.2]
  | item align htext _ _ _ =>
    rw [nodesFlows, nodeFlows, List.forall_mem_append, List.forall_mem_singleton] at hbullets
    exact absurd htext (hbullets.1 _ rfl)
  | box style _ _ ihkids ih =>
    rw [nodesFlows, nodeFlows, List.forall_mem_append] at hbullets
    rw [nodesFlows, nodeFlows, List.flatMap_append, ihkids hbullets.1, ih hbullets.2]

def rowDocument : List Dom :=
  [.elem "div".toList ⟨none, none, some "display:flex".toList⟩
    [.text "a".toList, .elem "b".toList ⟨none, none, none⟩ [.text "b".toList]]]

def noNumber (_ : List Char) : Option ℚ := none

theorem rowDocument_supported : SupportedIn [] rowDocument := by
  simp only [rowDocument, SupportedIn, Supported, InlineOnlyIn, InlineOnly]
  decide

theorem rowDocument_flows :
    (childrenToUx noNumber [] rowDocument ⟨.default, none, false⟩).map nodesFlows =
      some [[makeSpan "a".toList .default],
        [makeSpan "b".toList { Inherited.default with bold := true }]] := by
  decide +kernel

theorem words_kept_row : ∃ nodes,
    childrenToUx noNumber [] rowDocument ⟨.default, none, false⟩ = some nodes ∧
      Seen ⟨none, none⟩ nodes (words isWhitespace (nodesText (isRow []) false rowDocument)) := by
  obtain ⟨nodes, hnodes, -⟩ := Option.map_eq_some_iff.mp rowDocument_flows
  exact ⟨nodes, hnodes, words_kept rowDocument_supported hnodes⟩

theorem row_parts_words : SupportedIn [] rowDocument ∧ ∃ nodes,
    childrenToUx noNumber [] rowDocument ⟨.default, none, false⟩ = some nodes ∧
      ¬Seen ⟨none, none⟩ nodes
        (words isWhitespace (nodesText (fun _ _ => false) false rowDocument)) := by
  obtain ⟨nodes, hnodes, hflows⟩ := Option.map_eq_some_iff.mp rowDocument_flows
  refine ⟨rowDocument_supported, nodes, hnodes, fun hseen => ?_⟩
  have heq := hseen.eq_flows (by rw [hflows]; decide)
  rw [hflows, List.flatMap_cons, List.flatMap_singleton, flowWords_eq (by decide),
    flowWords_eq (by decide)] at heq
  exact absurd heq (by decide)

end AtomVibe.Html
