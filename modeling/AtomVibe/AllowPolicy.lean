import AtomVibe.Text
import AtomVibe.GateSources

namespace AtomVibe.RustSource

open Text

def isBlankChar (c : Char) : Bool := isWhitespace c || c == '\u200e' || c == '\u200f'

def isWordChar (c : Char) : Bool :=
  isAsciiAlphanumeric c || c == '_' || (128 ≤ c.toNat && !isBlankChar c)

def blockEnd : ℕ → List Char → ℕ
  | 0, _ => 0
  | _ + 1, [] => 0
  | depth + 1, '*' :: '/' :: cs => 2 + blockEnd depth cs
  | depth + 1, '/' :: '*' :: cs => 2 + blockEnd (depth + 2) cs
  | depth + 1, _ :: cs => 1 + blockEnd (depth + 1) cs

def quotedEnd (quote : Char) : List Char → ℕ
  | [] => 0
  | '\\' :: _ :: cs => 2 + quotedEnd quote cs
  | c :: cs => if c = quote then 1 else 1 + quotedEnd quote cs

def rawEnd (hashes : ℕ) : List Char → ℕ
  | [] => 0
  | c :: cs =>
    if c = '"' ∧ cs.take hashes = List.replicate hashes '#' then 1 + hashes
    else 1 + rawEnd hashes cs

def wordLength (cs : List Char) : ℕ :=
  let word := cs.takeWhile isWordChar
  let rest := cs.drop word.length
  let hashes := (rest.takeWhile (· == '#')).length
  if word ∈ ["r".toList, "br".toList, "cr".toList] ∧ (rest.drop hashes).head? = some '"' then
    word.length + hashes + 1 + rawEnd hashes (rest.drop (hashes + 1))
  else word.length

def lexemeLength : List Char → ℕ
  | [] => 0
  | '/' :: '/' :: cs => 2 + (cs.takeWhile (· ≠ '\n')).length
  | '/' :: '*' :: cs => 2 + blockEnd 1 cs
  | '"' :: cs => 1 + quotedEnd '"' cs
  | '\'' :: '\\' :: cs => 1 + quotedEnd '\'' ('\\' :: cs)
  | '\'' :: _ :: '\'' :: _ => 3
  | '\'' :: cs => 1 + (cs.takeWhile isWordChar).length
  | c :: cs => if isWordChar c then wordLength (c :: cs) else 1

def startsComment : List Char → Bool
  | '/' :: '/' :: _ => true
  | '/' :: '*' :: _ => true
  | _ => false

inductive Lexed : List Char → List Char → Prop
  | refl (cs : List Char) : Lexed cs cs
  | lexeme {cs rest : List Char} : cs ≠ [] → Lexed (cs.drop (lexemeLength cs)) rest → Lexed cs rest

inductive Gap : List Char → List Char → Prop
  | nil (rest : List Char) : Gap [] rest
  | blank {c : Char} {gap rest : List Char} : isBlankChar c → Gap gap rest → Gap (c :: gap) rest
  | comment {body gap rest : List Char} : startsComment body →
    lexemeLength (body ++ (gap ++ rest)) = body.length → Gap gap rest → Gap (body ++ gap) rest

inductive Enclosed : ℕ → List Char → List Char → Prop
  | nil (rest : List Char) : Enclosed 0 [] rest
  | left {depth : ℕ} {cs rest : List Char} : Enclosed (depth + 1) cs rest →
    Enclosed depth ('(' :: cs) rest
  | right {depth : ℕ} {cs rest : List Char} : Enclosed depth cs rest →
    Enclosed (depth + 1) (')' :: cs) rest
  | lexeme {depth : ℕ} {c : Char} {piece cs rest : List Char} : c ≠ '(' → c ≠ ')' →
    lexemeLength (c :: piece ++ (cs ++ rest)) = (c :: piece).length → Enclosed depth cs rest →
      Enclosed depth (c :: piece ++ cs) rest

/-- A place of a source that reads `#[allow(lints)]`, or `#![allow(lints)]` with a bang, and the
gaps between the tokens. -/
structure AllowAttribute where
  before : List Char
  bang : Option (List Char)
  afterHash : List Char
  afterBracket : List Char
  afterName : List Char
  lints : List Char
  afterLints : List Char
  after : List Char

namespace AllowAttribute

variable (a : AllowAttribute)

def gaps : List (List Char) :=
  a.bang.toList ++ [a.afterHash, a.afterBracket, a.afterName, a.afterLints]

def bangText : List Char := (a.bang.map (· ++ ['!'])).getD []

def stem : List Char :=
  '#' :: (a.bangText ++ a.afterHash ++ '[' :: a.afterBracket ++ "allow".toList ++ a.afterName ++
    '(' :: a.lints ++ ')' :: a.afterLints)

def fromParen : List Char := '(' :: a.lints ++ ')' :: a.afterLints ++ ']' :: a.after

def fromBracket : List Char := '[' :: a.afterBracket ++ "allow".toList ++ a.afterName ++ a.fromParen

structure Occurs (source : List Char) : Prop where
  text : source = a.before ++ a.stem ++ ']' :: a.after
  code : Lexed source (a.stem ++ ']' :: a.after)
  bang : ∀ gap, a.bang = some gap → Gap gap ('!' :: a.afterHash ++ a.fromBracket)
  afterHash : Gap a.afterHash a.fromBracket
  afterBracket : Gap a.afterBracket ("allow".toList ++ a.afterName ++ a.fromParen)
  afterName : Gap a.afterName a.fromParen
  lints : Enclosed 0 a.lints (')' :: a.afterLints ++ ']' :: a.after)
  afterLints : Gap a.afterLints (']' :: a.after)

end AllowAttribute

def significant : ℕ → List Char → List Char
  | 0, _ => []
  | _ + 1, [] => []
  | fuel + 1, c :: cs =>
    let length := max 1 (lexemeLength (c :: cs))
    let rest := significant fuel ((c :: cs).drop length)
    if startsComment (c :: cs) then rest
    else ((c :: cs).take length).filter (fun d => !isBlankChar d) ++ rest

def AllowAttribute.lintNames (a : AllowAttribute) : List (List Char) :=
  (splitOn ',' (significant a.lints.length a.lints)).filter (· ≠ [])

def lastLine (cs : List Char) : List Char := (cs.reverse.takeWhile (· ≠ '\n')).reverse

def firstLine (cs : List Char) : List Char := cs.takeWhile (· ≠ '\n')

def AllowAttribute.line (a : AllowAttribute) : List Char :=
  lastLine (a.before ++ a.stem) ++ ']' :: firstLine a.after

end AtomVibe.RustSource

namespace AtomVibe.AllowPolicy

open Checked Text BuildProtocol SourceInspection GateSpec GateSources RustSource

def HasMarker (line : List Char) : Prop :=
  ∃ front consumer, line = front ++ "// COUPLE:".toList ++ consumer ∧
    ∃ c ∈ consumer, isWhitespace c = false

def permittedLints : List (List Char) := ["dead_code".toList, "unused".toList]

structure Complies (a : AllowAttribute) : Prop where
  outer : a.bang = none
  lints : ∀ name ∈ a.lintNames, name ∈ permittedLints
  marked : HasMarker a.line

def FollowsPolicy (source : String) : Prop :=
  ∀ a : AllowAttribute, a.Occurs source.toList → Complies a

def outerStart : List Char := "#[allow(".toList

/-- The attribute stands on one line, where no other text starts like an allow before it, with
nothing but blanks between its tokens. -/
structure Seen (a : AllowAttribute) : Prop where
  oneLine : '\n' ∉ a.stem
  first : ¬outerStart <:+: compact (lastLine a.before)
  blanks : ∀ gap ∈ a.gaps, ∀ c ∈ gap, isWhitespace c
  closed : ¬")]".toList <:+: compact a.lints

theorem linesFrom_within {c : Char} (hc : c ≠ '\r') (above line cs : List Char) :
    ∃ more others, more <+: above.reverse ++ firstLine cs ∧
      linesFrom (above ++ c :: line) cs = ((c :: line).reverse ++ more) :: others := by
  induction cs generalizing above with
  | nil =>
    refine ⟨above.reverse, [], ⟨[], by simp [firstLine]⟩, ?_⟩
    rw [linesFrom, if_neg (by simp)]
    simp
  | cons d cs ih =>
    by_cases hd : d = '\n'
    · subst hd
      have hfirst : firstLine ('\n' :: cs) = [] := rfl
      rw [hfirst, List.append_nil]
      cases above with
      | nil =>
        refine ⟨[], linesFrom [] cs, List.nil_prefix, ?_⟩
        rw [List.nil_append, List.append_nil, linesFrom.eq_3]
        intro kept heq
        exact absurd (List.cons.inj heq).1 hc
      | cons e above =>
        by_cases he : e = '\r'
        · subst he
          exact ⟨above.reverse, linesFrom [] cs, by simp, by simp [linesFrom]⟩
        · refine ⟨(e :: above).reverse, linesFrom [] cs, List.prefix_rfl, ?_⟩
          rw [List.cons_append, linesFrom.eq_3]
          · simp
          · intro kept heq
            exact absurd (List.cons.inj heq).1 he
    · rw [linesFrom_cons hd]
      obtain ⟨more, others, hmore, hlines⟩ := ih (d :: above)
      refine ⟨more, others, ?_, hlines⟩
      simpa [firstLine, List.takeWhile_cons, hd] using hmore

theorem lastLine_of_notMem {cs : List Char} (h : '\n' ∉ cs) : lastLine cs = cs := by
  rw [lastLine, List.takeWhile_eq_self_iff.mpr, List.reverse_reverse]
  intro c hc
  have hne : c ≠ '\n' := by
    rintro rfl
    exact h (List.mem_reverse.mp hc)
  simpa using hne

theorem lastLine_append {front cs : List Char} (h : '\n' ∉ cs) :
    lastLine (front ++ cs) = lastLine front ++ cs := by
  rw [lastLine, lastLine, List.reverse_append, List.takeWhile_append_of_pos, List.reverse_append,
    List.reverse_reverse]
  intro c hc
  have hne : c ≠ '\n' := by
    rintro rfl
    exact h (List.mem_reverse.mp hc)
  simpa using hne

theorem lastLine_break (front cs : List Char) : lastLine (front ++ '\n' :: cs) = lastLine cs := by
  induction cs using List.reverseRecOn with
  | nil => simp [lastLine]
  | append_singleton cs c ih =>
    by_cases hc : c = '\n'
    · subst hc
      simp [lastLine]
    · have hnot : '\n' ∉ [c] := by simpa using Ne.symm hc
      rw [← List.cons_append, ← List.append_assoc, lastLine_append hnot, lastLine_append hnot, ih]

theorem exists_line_at {c : Char} (hreturn : c ≠ '\r') (hnewline : c ≠ '\n')
    (line front back : List Char) (hline : '\n' ∉ line) :
    ∃ more, more <+: firstLine back ∧
      lastLine (line.reverse ++ front) ++ c :: more ∈ linesFrom line (front ++ c :: back) := by
  induction front generalizing line with
  | nil =>
    obtain ⟨more, others, hmore, hlines⟩ := linesFrom_within hreturn [] line back
    refine ⟨more, by simpa using hmore, ?_⟩
    rw [List.nil_append, linesFrom_cons hnewline, ← List.nil_append (c :: line), hlines,
      List.append_nil, lastLine_of_notMem (by simpa using hline)]
    simp
  | cons d front ih =>
    by_cases hd : d = '\n'
    · subst hd
      obtain ⟨read, hread⟩ := linesFrom_newline line
      obtain ⟨more, hmore, hin⟩ := ih [] (by simp)
      refine ⟨more, hmore, ?_⟩
      rw [lastLine_break, List.cons_append, hread]
      exact List.mem_cons_of_mem _ hin
    · obtain ⟨more, hmore, hin⟩ := ih (d :: line) (by simp [hline, Ne.symm hd])
      refine ⟨more, hmore, ?_⟩
      rw [List.cons_append, linesFrom_cons hd]
      rwa [List.reverse_cons, List.append_assoc, List.singleton_append] at hin

theorem findSub_eq {pattern cs front rest : List Char}
    (h : findSub pattern cs = some (front, rest)) : cs = front ++ pattern ++ rest := by
  induction cs generalizing front with
  | nil =>
    rw [findSub] at h
    split_ifs at h with hpattern
    obtain ⟨rfl, rfl⟩ := Prod.mk.inj (Option.some.inj h)
    simp [hpattern]
  | cons c cs ih =>
    rw [findSub] at h
    split_ifs at h with hprefix
    · obtain ⟨rfl, rfl⟩ := Prod.mk.inj (Option.some.inj h)
      obtain ⟨back, hback⟩ := List.isPrefixOf_iff_prefix.mp hprefix
      rw [← hback, List.drop_left, List.nil_append]
    · obtain ⟨⟨front', rest'⟩, hfound, heq⟩ := Option.map_eq_some_iff.mp h
      obtain ⟨rfl, rfl⟩ := Prod.mk.inj heq
      rw [ih hfound]
      rfl

theorem findSub_first {h : Char} {pattern front : List Char} (hhead : h ∉ pattern)
    (hfront : ¬(h :: pattern) <:+: front) (rest : List Char) :
    findSub (h :: pattern) (front ++ (h :: pattern) ++ rest) = some (front, rest) := by
  induction front with
  | nil =>
    rw [List.nil_append, List.cons_append, findSub, if_pos (by simp [List.isPrefixOf_iff_prefix])]
    simp
  | cons c front ih =>
    rw [List.infix_cons_iff, not_or] at hfront
    have hnot : ¬(h :: pattern).isPrefixOf (c :: (front ++ (h :: pattern) ++ rest)) = true := by
      rw [List.isPrefixOf_iff_prefix, List.append_assoc, ← List.cons_append]
      intro hprefix
      rcases List.prefix_or_prefix_of_prefix hprefix (List.prefix_append _ _) with hwhole | ⟨y, hy⟩
      · exact hfront.1 hwhole
      · rw [← hy, List.prefix_append_right_inj] at hprefix
        rw [List.cons_append, List.cons.injEq] at hy
        cases y with
        | nil => exact hfront.1 (by simp [hy.1, ← hy.2])
        | cons d y =>
          obtain ⟨back, hback⟩ := hprefix
          have hd : d = h := (List.cons.inj hback).1.trans hy.1
          apply hhead
          rw [← hy.2, hd]
          simp
    rw [List.cons_append, List.cons_append, findSub, if_neg hnot, ih hfront.2]
    rfl

theorem splitSecond_eq {pattern cs found : List Char} (h : splitSecond pattern cs = some found) :
    ∃ front back, cs = front ++ pattern ++ (found ++ back) := by
  rw [splitSecond] at h
  cases hfirst : findSub pattern cs with
  | none => simp [hfirst] at h
  | some first =>
    obtain ⟨front, rest⟩ := first
    simp only [hfirst] at h
    cases hsecond : findSub pattern rest with
    | none =>
      simp only [hsecond, Option.some.injEq] at h
      exact ⟨front, [], by rw [findSub_eq hfirst, h, List.append_nil]⟩
    | some second =>
      obtain ⟨piece, last⟩ := second
      simp only [hsecond, Option.some.injEq] at h
      subst h
      exact ⟨front, pattern ++ last,
        by rw [findSub_eq hfirst, findSub_eq hsecond, List.append_assoc piece]⟩

variable {a : AllowAttribute} {path : String} {line : ℕ}

theorem compact_append (xs ys : List Char) : compact (xs ++ ys) = compact xs ++ compact ys :=
  List.filter_append ..

theorem compact_cons {c : Char} (hc : isWhitespace c = false) (cs : List Char) :
    compact (c :: cs) = c :: compact cs :=
  List.filter_cons_of_pos (by simp [hc])

theorem compact_blank {cs : List Char} (h : ∀ c ∈ cs, isWhitespace c) : compact cs = [] :=
  List.filter_eq_nil_iff.mpr fun c hc => by simp [h c hc]

theorem compact_bangText (h : Seen a) :
    compact a.bangText = if a.bang = none then [] else ['!'] := by
  cases hbang : a.bang with
  | none => simp [AllowAttribute.bangText, hbang, compact]
  | some gap =>
    have hgap : compact gap = [] := compact_blank (h.blanks gap (by simp [AllowAttribute.gaps, hbang]))
    rw [AllowAttribute.bangText, hbang, Option.map_some, Option.getD_some, compact_append, hgap]
    rfl

theorem compact_stem (h : Seen a) : compact a.stem =
    '#' :: (if a.bang = none then [] else ['!']) ++ "[allow(".toList ++ compact a.lints ++ [')'] := by
  have hgap : ∀ gap ∈ [a.afterHash, a.afterBracket, a.afterName, a.afterLints],
      compact gap = [] :=
    fun gap hgap => compact_blank (h.blanks gap (List.mem_append_right _ hgap))
  simp only [List.mem_cons, List.not_mem_nil, or_false, forall_eq_or_imp, forall_eq] at hgap
  obtain ⟨hhash, hbracket, hname, hlints⟩ := hgap
  have hallow : compact "allow".toList = "allow".toList := by decide
  have hopen : "[allow(".toList = '[' :: ("allow".toList ++ ['(']) := by decide
  simp only [AllowAttribute.stem, compact_cons (show isWhitespace '#' = false by decide),
    compact_cons (show isWhitespace '[' = false by decide),
    compact_cons (show isWhitespace '(' = false by decide),
    compact_cons (show isWhitespace ')' = false by decide), compact_append, compact_bangText h,
    hhash, hbracket, hname, hlints, hallow, hopen]
  simp

theorem exists_line_of_seen {source : List Char} (hoccurs : a.Occurs source) (h : Seen a) :
    ∃ more, more <+: firstLine a.after ∧
      lastLine a.before ++ a.stem ++ ']' :: more ∈ linesFrom [] source := by
  obtain ⟨more, hmore, hin⟩ := exists_line_at (show ']' ≠ '\r' by decide)
    (show ']' ≠ '\n' by decide) [] (a.before ++ a.stem) a.after (by simp)
  refine ⟨more, hmore, ?_⟩
  rw [hoccurs.text]
  rwa [List.reverse_nil, List.nil_append, lastLine_append h.oneLine] at hin

theorem findSub_seen (h : Seen a) (houter : a.bang = none) (more : List Char) :
    findSub outerStart (compact (lastLine a.before ++ a.stem ++ ']' :: more)) =
      some (compact (lastLine a.before), compact a.lints ++ (")]".toList ++ compact more)) := by
  have hstart : outerStart = '#' :: "[allow(".toList := by decide
  have hclose : ")]".toList = [')', ']'] := by decide
  have hfirst := findSub_first (show '#' ∉ "[allow(".toList by decide) (hstart ▸ h.first)
    (compact a.lints ++ (")]".toList ++ compact more))
  rw [hstart, ← hfirst, compact_append, compact_append, compact_stem h, houter,
    compact_cons (show isWhitespace ']' = false by decide), hclose]
  simp

theorem inner_of_seen (h : Seen a) (hinner : a.bang ≠ none) (more : List Char) :
    "#![allow(".toList <:+: compact (lastLine a.before ++ a.stem ++ ']' :: more) := by
  have hstart : "#![allow(".toList = '#' :: '!' :: "[allow(".toList := by decide
  rw [compact_append, compact_append, compact_stem h, if_neg hinner, hstart]
  exact ⟨compact (lastLine a.before), compact a.lints ++ [')'] ++ compact (']' :: more), by simp⟩

theorem hasMarker_of_splitSecond {raw found back : List Char}
    (h : splitSecond "// COUPLE:".toList raw = some found) (hblank : trim (String.ofList found) ≠ "") :
    HasMarker (raw ++ back) := by
  obtain ⟨front, rest, rfl⟩ := splitSecond_eq h
  refine ⟨front, found ++ rest ++ back, by simp only [List.append_assoc], ?_⟩
  rw [ne_eq, trim_eq_empty_iff, isBlank, String.toList_ofList, List.all_eq_true] at hblank
  simp only [not_forall, Bool.not_eq_true, exists_prop] at hblank
  obtain ⟨c, hc, hvisible⟩ := hblank
  exact ⟨c, by simp [hc], hvisible⟩

theorem significant_eq_filter {fuel : ℕ} {cs : List Char} (hfuel : cs.length ≤ fuel)
    (hcs : '/' ∉ cs) : significant fuel cs = cs.filter fun c => !isBlankChar c := by
  induction fuel generalizing cs with
  | zero =>
    obtain rfl := List.length_eq_zero_iff.mp (Nat.le_zero.mp hfuel)
    rfl
  | succ fuel ih =>
    cases cs with
    | nil => rfl
    | cons c cs =>
      have hcomment : startsComment (c :: cs) = false := by
        rw [startsComment.eq_3]
        · rintro _ heq
          exact hcs ((List.cons.inj heq).1 ▸ List.mem_cons_self)
        · rintro _ heq
          exact hcs ((List.cons.inj heq).1 ▸ List.mem_cons_self)
      have hdropped : ((c :: cs).drop (max 1 (lexemeLength (c :: cs)))).length ≤ fuel := by
        rw [List.length_drop]
        simp only [List.length_cons] at hfuel ⊢
        omega
      have hrest := ih hdropped fun hmem => hcs (List.mem_of_mem_drop hmem)
      rw [significant, hcomment, if_neg Bool.false_ne_true, hrest, ← List.filter_append,
        List.take_append_drop]

theorem char_of_permitted {c : Char} (h : c = ',' ∨ ∃ name ∈ permittedLints, c ∈ name) :
    c ≠ '/' ∧ isBlankChar c = false := by
  have hall : (',' :: permittedLints.flatten).all (fun c => c != '/' && !isBlankChar c) = true := by
    decide +kernel
  suffices hc : c ∈ ',' :: permittedLints.flatten by simpa using List.all_eq_true.mp hall c hc
  rcases h with rfl | ⟨name, hname, hc⟩
  · exact List.mem_cons_self
  · exact List.mem_cons_of_mem _ (List.mem_flatten.mpr ⟨name, hname, hc⟩)

theorem lintNames_permitted (h : ∀ name ∈ splitOn ',' (compact a.lints), name ∈ permittedLints) :
    ∀ name ∈ a.lintNames, name ∈ permittedLints := by
  have hchar : ∀ c ∈ a.lints, isWhitespace c = false → c ≠ '/' ∧ isBlankChar c = false := by
    intro c hc hvisible
    apply char_of_permitted
    by_cases hcomma : c = ','
    · exact .inl hcomma
    · have hkept : c ∈ compact a.lints := by
        rw [compact, List.mem_filter, hvisible]
        exact ⟨hc, rfl⟩
      obtain ⟨name, hname, hin⟩ := exists_part hkept hcomma
      exact .inr ⟨name, h name hname, hin⟩
  have hslash : '/' ∉ a.lints := fun hmem => (hchar '/' hmem (by decide)).1 rfl
  have hsame : significant a.lints.length a.lints = compact a.lints := by
    rw [significant_eq_filter le_rfl hslash, compact]
    refine List.filter_congr fun c hc => ?_
    cases hblank : isWhitespace c with
    | true => simp [isBlankChar, hblank]
    | false => rw [(hchar c hc hblank).2]
  intro name hname
  rw [AllowAttribute.lintNames, hsame] at hname
  exact h name (List.mem_of_mem_filter hname)

theorem complies_of_seen {source : List Char} (hoccurs : a.Occurs source) (h : Seen a)
    (hlines : ∀ raw ∈ linesFrom [] source, ∃ number marker,
      inspectLine path number raw = .ok marker) : Complies a := by
  obtain ⟨more, ⟨back, hback⟩, hin⟩ := exists_line_of_seen hoccurs h
  obtain ⟨number, marker, hok⟩ := hlines _ hin
  obtain ⟨hinner, hallow⟩ := inspectLine_ok hok
  have houter : a.bang = none := by
    by_contra hbang
    exact hinner (inner_of_seen h hbang more)
  have hfirst := findSub_seen h houter more
  rcases hallow with ⟨hnone, -⟩ | ⟨front, rest, names, after, hfound, hclosed, heligible, -⟩
  · cases hnone.symm.trans hfirst
  obtain ⟨rfl, rfl⟩ := Prod.mk.inj (Option.some.inj (hfound.symm.trans hfirst))
  have hend := findSub_first (show ')' ∉ [']'] by decide) h.closed (compact more)
  rw [List.append_assoc] at hend
  obtain ⟨rfl, -⟩ := Prod.mk.inj (Option.some.inj (hclosed.symm.trans hend))
  obtain ⟨found, hsplit, hblank⟩ := heligible.marker
  refine ⟨houter, lintNames_permitted fun name hname => ?_, ?_⟩
  · rcases heligible.lints name hname with rfl | rfl
    · exact List.mem_cons_self
    · exact List.mem_cons_of_mem _ List.mem_cons_self
  · have hmarker := @hasMarker_of_splitSecond _ _ back hsplit hblank
    rw [AllowAttribute.line, lastLine_append h.oneLine, ← hback]
    simpa only [List.append_assoc, List.cons_append] using hmarker

theorem inspectLines_ok {raws : List (List Char)} {markers : List String}
    (h : inspectLines path line raws = .ok markers) :
    ∀ raw ∈ raws, ∃ number marker, inspectLine path number raw = .ok marker := by
  induction raws generalizing line markers with
  | nil => simp
  | cons raw raws ih =>
    simp only [inspectLines, bind_eq_ok] at h
    obtain ⟨marker, hmarker, rest, hrest, -⟩ := h
    exact List.forall_mem_cons.mpr ⟨⟨line, marker, hmarker⟩, ih hrest⟩

variable {fs : EvidenceFs} {root : String} {artifacts : List BuildArtifactRef}
  {allowCoupleMarkers : Bool} {markers : List String} {artifact : BuildArtifactRef}
  {source : String}

theorem lines_of_inspect
    (h : inspectRustSources fs root artifacts allowCoupleMarkers = .ok markers)
    (hmem : artifact ∈ artifacts) (hrust : isRust artifact)
    (hread : fs.readToString (join root (replaceChar '\\' '/' artifact.path)) = .ok source) :
    ∀ raw ∈ linesFrom [] source.toList, ∃ number marker,
      inspectLine artifact.path number raw = .ok marker := by
  rw [inspectRustSources, bind_eq_ok] at h
  obtain ⟨found, hfound, -⟩ := h
  obtain ⟨own, hown⟩ := forall₂_left (mapM_eq_ok_iff.mp hfound) artifact hmem
  unfold isRust at hrust
  simp only [inspectRustSource, hrust, Bool.not_true, Bool.false_eq_true, if_false, bind_eq_ok,
    mapError_eq_ok] at hown
  obtain ⟨same, hsame, hlines⟩ := hown
  obtain rfl : source = same := Except.ok.inj (hread.symm.trans hsame)
  split at hlines
  · cases hlines
  · exact inspectLines_ok hlines

/-- A source that passed the inspection keeps the policy exactly when the allow attributes that
the line scan does not see keep it. -/
theorem allow_policy_iff
    (h : inspectRustSources fs root artifacts allowCoupleMarkers = .ok markers)
    (hmem : artifact ∈ artifacts) (hrust : isRust artifact)
    (hread : fs.readToString (join root (replaceChar '\\' '/' artifact.path)) = .ok source) :
    FollowsPolicy source ↔
      ∀ a : AllowAttribute, a.Occurs source.toList → ¬Seen a → Complies a := by
  constructor
  · exact fun hpolicy a hoccurs _ => hpolicy a hoccurs
  · intro hunseen a hoccurs
    by_cases hseen : Seen a
    · exact complies_of_seen hoccurs hseen (lines_of_inspect h hmem hrust hread)
    · exact hunseen a hoccurs hseen

theorem allow_policy_iff_sample : FollowsPolicy sampleSource ↔
    ∀ a : AllowAttribute, a.Occurs sampleSource.toList → ¬Seen a → Complies a :=
  allow_policy_iff (inspectRustSources_sample ["rust-source"] true) List.mem_cons_self
    (by decide +kernel) (show sampleFs.readToString _ = .ok sampleSource by decide +kernel)

def brokenSource : String := "#[\nallow(unsafe_code)]\nfn run() {}\n"

def brokenFs : EvidenceFs where
  isDir _ := true
  canonicalize path := .ok path
  isFile _ := true
  read _ := .ok brokenSource.toByteArray

def brokenAllow : AllowAttribute where
  before := []
  bang := none
  afterHash := []
  afterBracket := ['\n']
  afterName := []
  lints := "unsafe_code".toList
  afterLints := []
  after := "\nfn run() {}\n".toList

theorem broken_allow_passes :
    inspectRustSources brokenFs "root" [sampleArtifact "rust-source"] false = .ok [] ∧
      brokenFs.readToString "root/state/src/lib.rs" = .ok brokenSource ∧
        ¬FollowsPolicy brokenSource := by
  have hread : brokenFs.readToString "root/state/src/lib.rs" = .ok brokenSource := by
    decide +kernel
  have hinspect : inspectRustSource brokenFs "root" (sampleArtifact "rust-source") = .ok [] := by
    have hrust : endsWith ".rs" (toAsciiLowercase "state/src/lib.rs") = true := by decide +kernel
    have hjoin : join "root" (replaceChar '\\' '/' "state/src/lib.rs") =
        "root/state/src/lib.rs" := by decide +kernel
    have hstub : firstStubMarker brokenSource = none := by decide +kernel
    have hlines : inspectLines "state/src/lib.rs" 1 (lines brokenSource) = .ok [] := by
      decide +kernel
    simp [inspectRustSource, sampleArtifact, hrust, hjoin, hread, hstub, hlines, Except.mapError,
      bind, Except.bind]
  refine ⟨?_, hread, fun hpolicy => ?_⟩
  · rw [inspectRustSources, List.mapM_cons, hinspect]
    rfl
  · have hoccurs : brokenAllow.Occurs brokenSource.toList := {
      text := by decide
      code := .refl _
      bang := by rintro _ ⟨⟩
      afterHash := .nil _
      afterBracket := .blank (by decide) (.nil _)
      afterName := .nil _
      lints := @Enclosed.lexeme 0 'u' "nsafe_code".toList [] _ (by decide) (by decide) (by decide)
        (.nil _)
      afterLints := .nil _ }
    have hlints := (hpolicy brokenAllow hoccurs).lints "unsafe_code".toList (by decide)
    exact absurd hlints (by decide)

end AtomVibe.AllowPolicy
