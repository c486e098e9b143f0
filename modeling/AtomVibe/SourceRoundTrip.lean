import AtomVibe.HtmlSource

namespace AtomVibe.Html

open Text

def Closed (text : List Char) : Prop :=
  ∀ rest, tagLength 0 (bytesOf text ++ rest) = utf8Len text + tagLength 0 rest

section Closed

variable {text more value : List Char}

theorem not_mem_bytesOf {c : Char} (hc : IsAscii c) (h : c ∉ text) : asciiByte c ∉ bytesOf text := by
  intro hmem
  obtain ⟨d, hd, hbyte⟩ := List.mem_flatMap.mp hmem
  rw [eq_of_asciiByte_mem hc hbyte] at hd
  exact h hd

theorem Closed.append (h : Closed text) (hmore : Closed more) : Closed (text ++ more) := by
  intro rest
  rw [bytesOf_append, List.append_assoc, h, hmore, utf8Len_append, Nat.add_assoc]

theorem closed_nil : Closed [] := fun rest => by
  rw [utf8Len_nil, Nat.zero_add]
  rfl

theorem closed_plain (hdouble : '"' ∉ text) (hsingle : '\'' ∉ text) (hgt : '>' ∉ text) :
    Closed text := by
  intro rest
  have hbytes : ∀ bytes : List UInt8, asciiByte '"' ∉ bytes → asciiByte '\'' ∉ bytes →
      asciiByte '>' ∉ bytes → tagLength 0 (bytes ++ rest) = bytes.length + tagLength 0 rest := by
    intro bytes
    induction bytes with
    | nil => exact fun _ _ _ => (Nat.zero_add _).symm
    | cons byte bytes ih =>
      intro hdouble hsingle hgt
      rw [List.mem_cons, not_or] at hdouble hsingle hgt
      rw [List.cons_append, tagLength, if_neg (by decide),
        if_neg (not_or.mpr ⟨Ne.symm hdouble.1, Ne.symm hsingle.1⟩), if_neg (Ne.symm hgt.1),
        ih hdouble.2 hsingle.2 hgt.2, List.length_cons]
      omega
  rw [hbytes _ (not_mem_bytesOf (by decide) hdouble) (not_mem_bytesOf (by decide) hsingle)
    (not_mem_bytesOf (by decide) hgt), length_bytesOf]

theorem closed_quoted (h : '"' ∉ value) : Closed ('"' :: (value ++ ['"'])) := by
  intro rest
  have hbytes : ∀ bytes : List UInt8, asciiByte '"' ∉ bytes → ∀ rest,
      tagLength (asciiByte '"') (bytes ++ rest) = bytes.length + tagLength (asciiByte '"') rest := by
    intro bytes
    induction bytes with
    | nil => exact fun _ rest => (Nat.zero_add _).symm
    | cons byte bytes ih =>
      intro hdouble rest
      rw [List.mem_cons, not_or] at hdouble
      rw [List.cons_append, tagLength, if_pos (by decide), if_neg (Ne.symm hdouble.1),
        ih hdouble.2, List.length_cons]
      omega
  have hsplit : bytesOf ('"' :: (value ++ ['"'])) ++ rest =
      asciiByte '"' :: (bytesOf value ++ asciiByte '"' :: rest) := by
    change bytesOf (['"'] ++ (value ++ ['"'])) ++ rest = _
    rw [bytesOf_append, bytesOf_append, List.append_assoc, List.append_assoc]
    rfl
  have hquote : utf8Len ('"' :: (value ++ ['"'])) = utf8Len value + 2 := by
    have hone : Char.utf8Size '"' = 1 := by decide
    rw [utf8Len_cons, utf8Len_append, utf8Len_cons, utf8Len_nil, hone]
    omega
  rw [hsplit, tagLength, if_neg (by decide), if_pos (.inl rfl),
    hbytes _ (not_mem_bytesOf (by decide) h), tagLength, if_pos (by decide), if_pos rfl, hquote,
    length_bytesOf]
  omega

theorem closed_pairText {pair : String × List Char} (h : PlainPair pair) :
    Closed (pairText pair) := by
  have hname : ∀ c ∈ ['=', '"', '\'', '>'], c ∉ pair.1.toList :=
    fun c hc hmem => (h.name.2 c hmem).1 hc
  have hfront : Closed (' ' :: (pair.1.toList ++ ['='])) := by
    apply closed_plain
    · simpa using hname '"' (by decide)
    · simpa using hname '\'' (by decide)
    · simpa using hname '>' (by decide)
  have hsplit : pairText pair =
      ' ' :: (pair.1.toList ++ ['=']) ++ '"' :: (pair.2 ++ ['"']) := by
    rw [pairText, List.cons_append, List.append_assoc, List.singleton_append]
  rw [hsplit]
  exact hfront.append (closed_quoted h.value)

theorem closed_inner {tag : List Char} {attrs : Attrs} (htag : PlainTag tag)
    (hattrs : PlainAttrs attrs) : Closed (tag ++ attrsText attrs) := by
  have hletter : ∀ c ∈ "<>/\"'!?".toList, c ∉ tag := fun c hc hmem => (htag.letters c hmem).2 hc
  have hpairs : ∀ pairs : List (String × List Char), (∀ pair ∈ pairs, PlainPair pair) →
      Closed (pairs.flatMap pairText) := by
    intro pairs hplain
    induction pairs with
    | nil => exact closed_nil
    | cons pair pairs ih =>
      rw [List.forall_mem_cons] at hplain
      rw [List.flatMap_cons]
      exact (closed_pairText hplain.1).append (ih hplain.2)
  apply Closed.append
  · exact closed_plain (hletter '"' (by decide)) (hletter '\'' (by decide)) (hletter '>' (by decide))
  · exact hpairs _ fun pair hpair => plainPair_of_mem hattrs hpair

end Closed

section Rounds

variable {src front inner rest text : List Char} {tag : List Char} {attrs : Attrs}

theorem drop_bytesOf (front rest : List Char) :
    (bytesOf (front ++ rest)).drop (utf8Len front) = bytesOf rest := by
  rw [bytesOf_append, List.drop_left' (length_bytesOf front)]

theorem getElem?_bytesOf (front : List Char) {c : Char} (hc : IsAscii c) (rest : List Char) :
    (bytesOf (front ++ c :: rest))[utf8Len front]? = some (asciiByte c) := by
  have hdrop := congrArg (·[0]?) (drop_bytesOf front (c :: rest))
  rw [List.getElem?_drop, Nat.add_zero] at hdrop
  rw [hdrop, bytesOf, List.flatMap_cons, utf8EncodeChar_of_ascii hc]
  rfl

theorem utf8Len_tag (front inner : List Char) : utf8Len (front ++ '<' :: (inner ++ ['>'])) =
    utf8Len front + 1 + utf8Len inner + 1 := by
  have hlt : Char.utf8Size '<' = 1 := by decide
  have hgt : Char.utf8Size '>' = 1 := by decide
  rw [utf8Len_append, utf8Len_cons, utf8Len_append, utf8Len_cons, utf8Len_nil, hlt, hgt]
  omega

theorem tag_place (hsrc : src = front ++ '<' :: (inner ++ '>' :: rest)) (hclosed : Closed inner) :
    tagLength 0 ((bytesOf src).drop (utf8Len front + 1)) = utf8Len inner ∧
      checkedSlice src (utf8Len front + 1)
        (min (utf8Len front + 1 + utf8Len inner) (bytesOf src).length) = some inner := by
  have hlt : utf8Len (front ++ ['<']) = utf8Len front + 1 := by
    have hone : Char.utf8Size '<' = 1 := by decide
    rw [utf8Len_append, utf8Len_cons, utf8Len_nil, hone]
  have hsplit : src = front ++ ['<'] ++ inner ++ '>' :: rest := by
    rw [hsrc]
    simp only [List.append_assoc, List.cons_append, List.nil_append]
  have hwithin : utf8Len (front ++ ['<']) + utf8Len inner ≤ (bytesOf src).length := by
    have hfront := utf8Len_append (front ++ ['<']) inner
    have hwhole := utf8Len_append (front ++ ['<'] ++ inner) ('>' :: rest)
    rw [length_bytesOf, hsplit]
    omega
  rw [hlt] at hwithin
  constructor
  · have hdrop := drop_bytesOf (front ++ ['<']) (inner ++ '>' :: rest)
    rw [← List.append_assoc, ← hsplit, hlt] at hdrop
    rw [hdrop, bytesOf_append, hclosed, bytesOf, List.flatMap_cons,
      utf8EncodeChar_of_ascii (by decide), List.singleton_append, tagLength, if_neg (by decide),
      if_neg (by decide), if_pos rfl, Nat.add_zero]
  · have hmiddle := checkedSlice_middle (front ++ ['<']) inner ('>' :: rest)
    rw [← hsplit, utf8Len_append (front ++ ['<']), hlt] at hmiddle
    rw [Nat.min_eq_left hwithin, hmiddle]

theorem dropWhile_self {p : Char → Bool} (h : ∀ c ∈ text.head?, p c = false) :
    text.dropWhile p = text := by
  cases text with
  | nil => rfl
  | cons c text => rw [List.dropWhile_cons_of_neg (by rw [h c rfl]; exact Bool.false_ne_true)]

theorem trimChars_self (hhead : ∀ c ∈ text.head?, isWhitespace c = false)
    (hlast : ∀ c ∈ text.getLast?, isWhitespace c = false) : trimChars text = text := by
  rw [trimChars, dropWhile_self hhead, dropWhile_self (by rwa [List.head?_reverse]),
    List.reverse_reverse]

theorem stripStart_slash (h : ∀ c ∈ text.head?, c ≠ '/') : stripStart "/" text = none := by
  cases text with
  | nil => rfl
  | cons c text =>
    have hc : ('/' == c) = false := beq_eq_false_iff_ne.mpr (Ne.symm (h c rfl))
    rw [stripStart, afterStart, if_neg]
    change ¬('/' == c && [].isPrefixOf text) = true
    rw [hc, Bool.false_and]
    exact Bool.false_ne_true

theorem stripEnd_slash (h : ∀ c ∈ text.getLast?, c ≠ '/') : stripEnd "/" text = none := by
  rw [stripEnd, beforeEnd, if_neg]
  intro hsuffix
  obtain ⟨before, rfl⟩ := List.isSuffixOf_iff_suffix.mp hsuffix
  exact h '/' (List.getLast?_concat) rfl

theorem trimEnd_self (h : ∀ c ∈ text.getLast?, c ≠ '/') : trimEnd '/' text = text := by
  rw [trimEnd, dropWhile_self, List.reverse_reverse]
  intro c hc
  rw [List.head?_reverse] at hc
  exact decide_eq_false (h c hc)

theorem attrsText_last (attrs : Attrs) : ∀ c ∈ (attrsText attrs).getLast?, c = '"' := by
  intro c hc
  rw [attrsText] at hc
  rcases List.eq_nil_or_concat (attrPairs attrs) with hnil | ⟨pairs, pair, hpairs⟩
  · rw [hnil] at hc
    cases hc
  · have hlast : (pairs ++ [pair]).flatMap pairText =
        pairs.flatMap pairText ++ ' ' :: (pair.1.toList ++ '=' :: '"' :: pair.2) ++ ['"'] := by
      rw [List.flatMap_append, List.flatMap_singleton, pairText]
      simp only [List.append_assoc, List.cons_append]
    rw [hpairs, List.concat_eq_append, hlast, List.getLast?_concat] at hc
    exact (Option.mem_some.mp hc).symm

theorem inner_ends (htag : PlainTag tag) :
    (∀ c ∈ (tag ++ attrsText attrs).head?, c ≠ '/' ∧ isWhitespace c = false) ∧
      ∀ c ∈ (tag ++ attrsText attrs).getLast?, c ≠ '/' ∧ isWhitespace c = false := by
  have hletter : ∀ c ∈ tag, c ≠ '/' ∧ isWhitespace c = false := by
    intro c hc
    obtain ⟨hblank, hsign⟩ := htag.letters c hc
    refine ⟨?_, hblank⟩
    rintro rfl
    exact hsign (by decide)
  constructor
  · intro c hc
    rw [List.head?_append_of_ne_nil _ htag.ne_nil] at hc
    exact hletter c (List.mem_of_mem_head? hc)
  · intro c hc
    by_cases hnil : attrsText attrs = []
    · rw [hnil, List.append_nil] at hc
      exact hletter c (List.mem_of_mem_getLast? hc)
    · rw [List.getLast?_append_of_ne_nil _ hnil] at hc
      rw [attrsText_last attrs c hc]
      decide

theorem readPiece_tag {d : Char} {more : List Char} (hsrc : src = front ++ '<' :: d :: more)
    (hd : d ≠ '!' ∧ d ≠ '?') : readPiece src (utf8Len front) = readTag src (utf8Len front) := by
  have hhere : sliceFrom src (utf8Len front) = some ('<' :: d :: more) := by
    have hboundary := isCharBoundary_front front ('<' :: d :: more) 0
    have hdrop := dropBytes_front front ('<' :: d :: more) 0
    rw [Nat.add_zero, ← hsrc] at hboundary hdrop
    rw [sliceFrom_eq (hboundary.trans rfl), hdrop]
    rfl
  have hbang : ('!' == d) = false := beq_eq_false_iff_ne.mpr (Ne.symm hd.1)
  have hquestion : ('?' == d) = false := beq_eq_false_iff_ne.mpr (Ne.symm hd.2)
  have hcomment : stripStart "<!--" ('<' :: d :: more) = none := by
    rw [stripStart, afterStart, if_neg]
    change ¬('<' == '<' && ('!' == d && _)) = true
    rw [hbang, Bool.false_and, Bool.and_false]
    exact Bool.false_ne_true
  have hdeclaration : stripStart "<!" ('<' :: d :: more) = none := by
    rw [stripStart, afterStart, if_neg]
    change ¬('<' == '<' && ('!' == d && _)) = true
    rw [hbang, Bool.false_and, Bool.and_false]
    exact Bool.false_ne_true
  have hprocessing : stripStart "<?" ('<' :: d :: more) = none := by
    rw [stripStart, afterStart, if_neg]
    change ¬('<' == '<' && ('?' == d && _)) = true
    rw [hquestion, Bool.false_and, Bool.and_false]
    exact Bool.false_ne_true
  have hbyte := getElem?_bytesOf front (by decide : IsAscii '<') (d :: more)
  rw [← hsrc] at hbyte
  rw [readPiece, if_pos hbyte, readMarkup]
  dsimp only
  rw [hhere, Option.bind_eq_bind, Option.bind_some, hcomment, hdeclaration, hprocessing]
  rfl

theorem readPiece_open (hsrc : src = front ++ '<' :: ((tag ++ attrsText attrs) ++ '>' :: rest))
    (htag : PlainTag tag) (hattrs : PlainAttrs attrs) :
    readPiece src (utf8Len front) = some ⟨utf8Len front,
      utf8Len (front ++ '<' :: ((tag ++ attrsText attrs) ++ ['>'])),
      .token (.openTag tag attrs false)⟩ := by
  obtain ⟨hfirst, hlast⟩ := @inner_ends tag attrs htag
  obtain ⟨hlength, hslice⟩ := tag_place hsrc (closed_inner htag hattrs)
  have htrim : trimChars (tag ++ attrsText attrs) = tag ++ attrsText attrs :=
    trimChars_self (fun c hc => (hfirst c hc).2) fun c hc => (hlast c hc).2
  have hread : readPiece src (utf8Len front) = readTag src (utf8Len front) := by
    obtain ⟨d, letters, htagEq⟩ := List.exists_cons_of_ne_nil htag.ne_nil
    have hd := (htag.letters d (by rw [htagEq]; exact List.mem_cons_self)).2
    rw [htagEq, List.cons_append, List.cons_append] at hsrc
    apply readPiece_tag hsrc
    constructor
    · rintro rfl
      exact hd (by decide)
    · rintro rfl
      exact hd (by decide)
  rw [hread, readTag]
  dsimp only
  rw [hlength, hslice, Option.bind_eq_bind, Option.bind_some, htrim,
    stripStart_slash fun c hc => (hfirst c hc).1]
  dsimp only
  rw [trimEnd_self fun c hc => (hlast c hc).1, htrim, parseOpen_plain htag hattrs,
    Option.bind_eq_bind, Option.bind_some, stripEnd_slash fun c hc => (hlast c hc).1]
  dsimp only
  rw [if_neg (not_or.mpr htag.raw), htag.void, utf8Len_tag]
  rfl

theorem readPiece_close (hsrc : src = front ++ '<' :: (('/' :: tag) ++ '>' :: rest))
    (htag : PlainTag tag) :
    readPiece src (utf8Len front) = some ⟨utf8Len front,
      utf8Len (front ++ '<' :: (('/' :: tag) ++ ['>'])), .token (.close tag)⟩ := by
  have hletter : ∀ c ∈ "<>/\"'!?".toList, c ∉ tag := fun c hc hmem => (htag.letters c hmem).2 hc
  have hclosed : Closed ('/' :: tag) := by
    apply closed_plain
    · simpa using hletter '"' (by decide)
    · simpa using hletter '\'' (by decide)
    · simpa using hletter '>' (by decide)
  obtain ⟨hlength, hslice⟩ := tag_place hsrc hclosed
  have hblank : ∀ c ∈ tag, isWhitespace c = false := fun c hc => (htag.letters c hc).1
  have htrim : trimChars tag = tag :=
    trimChars_self (fun c hc => hblank c (List.mem_of_mem_head? hc)) fun c hc =>
      hblank c (List.mem_of_mem_getLast? hc)
  have htrimSlash : trimChars ('/' :: tag) = '/' :: tag := by
    apply trimChars_self
    · intro c hc
      cases hc
      decide
    · intro c hc
      have hmem := List.mem_of_mem_getLast? hc
      rw [List.mem_cons] at hmem
      rcases hmem with rfl | hmem
      · decide
      · exact hblank c hmem
  have hstrip : stripStart "/" ('/' :: tag) = some tag := rfl
  rw [List.cons_append] at hsrc
  rw [readPiece_tag hsrc (by decide), readTag]
  dsimp only
  rw [hlength, hslice, Option.bind_eq_bind, Option.bind_some, htrimSlash, hstrip]
  dsimp only
  rw [htrim, htag.lower, utf8Len_tag]
  rfl

def Ends (rest : List Char) : Prop := ∀ c ∈ rest.head?, c = '<'

theorem takeWhile_bytesOf {c : Char} (hc : IsAscii c) (htext : c ∉ text)
    (hrest : ∀ d ∈ rest.head?, d = c) :
    (bytesOf (text ++ rest)).takeWhile (· ≠ asciiByte c) = bytesOf text := by
  have hinside : ∀ byte ∈ bytesOf text, decide (byte ≠ asciiByte c) = true := by
    intro byte hbyte
    rw [decide_eq_true_eq]
    rintro rfl
    exact not_mem_bytesOf hc htext hbyte
  rw [bytesOf_append, List.takeWhile_append_of_pos hinside]
  cases rest with
  | nil => exact List.append_nil _
  | cons d rest =>
    rw [hrest d rfl, bytesOf, bytesOf, List.flatMap_cons, utf8EncodeChar_of_ascii hc,
      List.singleton_append, List.takeWhile_cons_of_neg (by simp), List.append_nil]

theorem readPiece_text {decoded : List Char} (hsrc : src = front ++ (text ++ rest))
    (hne : text ≠ []) (htext : '<' ∉ text) (hrest : Ends rest)
    (hdecoded : decodeEntities (collapseWs text) = some decoded) :
    readPiece src (utf8Len front) = some ⟨utf8Len front, utf8Len (front ++ text),
      if decoded.isEmpty then .nothing else .token (.text decoded)⟩ := by
  have hdrop := drop_bytesOf front (text ++ rest)
  rw [← hsrc] at hdrop
  have hbyte : (bytesOf src)[utf8Len front]? ≠ some (asciiByte '<') := by
    intro hlt
    have hfirst := congrArg (·[0]?) hdrop
    rw [List.getElem?_drop, Nat.add_zero, hlt, bytesOf_append,
      List.getElem?_append_left] at hfirst
    · exact not_mem_bytesOf (by decide) htext (List.mem_of_getElem? hfirst.symm)
    · rw [length_bytesOf]
      exact Nat.pos_of_ne_zero (mt utf8Len_eq_zero.mp hne)
  have hslice := checkedSlice_middle front text rest
  rw [List.append_assoc, ← hsrc, utf8Len_append] at hslice
  rw [readPiece, if_neg hbyte, readText, hdrop, takeWhile_bytesOf (by decide) htext hrest, length_bytesOf, hslice,
    Option.bind_eq_bind, Option.bind_some, hdecoded, utf8Len_append]
  rfl

end Rounds

def pendingText (pending : List Char) : List Dom :=
  if pending = [] then [] else [.text (collapseWs pending)]

def Dom.text? : Dom → Option (List Char)
  | .text t => some t
  | .elem _ _ _ => none

mutual

def settledNode : Dom → Dom
  | .text t => .text t
  | .elem tag attrs kids => .elem tag attrs (settledIn kids [])

/-- The nodes as they are read: texts side by side are one, with their runs of whitespace collapsed,
and there are none without letters. -/
def settledIn : List Dom → List Char → List Dom
  | [], pending => pendingText pending
  | kid :: kids, pending =>
    match kid.text? with
    | some t => settledIn kids (pending ++ t)
    | none => pendingText pending ++ settledNode kid :: settledIn kids []

end

theorem settledIn_text (t : List Char) (kids : List Dom) (pending : List Char) :
    settledIn (.text t :: kids) pending = settledIn kids (pending ++ t) := rfl

theorem settledIn_elem (tag : List Char) (attrs : Attrs) (inner kids : List Dom)
    (pending : List Char) : settledIn (.elem tag attrs inner :: kids) pending =
      pendingText pending ++ .elem tag attrs (settledIn inner []) :: settledIn kids [] := rfl

def openText (tag : List Char) (attrs : Attrs) : List Char :=
  '<' :: ((tag ++ attrsText attrs) ++ ['>'])

def closeText (tag : List Char) : List Char := '<' :: (('/' :: tag) ++ ['>'])

mutual

def nodeSource : Dom → List Char
  | .text t => escape t
  | .elem tag attrs kids => openText tag attrs ++ (nodesSource kids ++ closeText tag)

def nodesSource : List Dom → List Char
  | [] => []
  | kid :: kids => nodeSource kid ++ nodesSource kids

end

mutual

def PlainNode : Dom → Prop
  | .text _ => True
  | .elem tag attrs kids => PlainTag tag ∧ PlainAttrs attrs ∧ PlainNodes kids

def PlainNodes : List Dom → Prop
  | [] => True
  | kid :: kids => PlainNode kid ∧ PlainNodes kids

end

section Source

variable {src front rest pending : List Char} {toks : List Tok} {piece : Piece} {i : ℕ}

def TokensFrom (src : List Char) (i : ℕ) (toks : List Tok) : Prop :=
  ∀ fuel out, utf8Len src < fuel + i → i ≤ utf8Len src →
    ∃ all, piecesFrom src fuel i out = some all ∧
      all.filterMap Piece.tok? = out.filterMap Piece.tok? ++ toks

theorem tokensFrom_end : TokensFrom src (utf8Len src) [] := by
  intro fuel out hfuel _
  cases fuel with
  | zero => omega
  | succ fuel =>
    refine ⟨out, ?_, (List.append_nil _).symm⟩
    rw [piecesFrom, if_pos le_rfl]

theorem TokensFrom.round (hpiece : readPiece src i = some piece) (hgrown : i < piece.next)
    (hwithin : piece.next ≤ utf8Len src) (h : TokensFrom src piece.next toks) :
    TokensFrom src i (piece.tok?.toList ++ toks) := by
  intro fuel out hfuel _
  cases fuel with
  | zero => omega
  | succ fuel =>
    obtain ⟨all, hall, htoks⟩ := h fuel (out ++ [piece]) (by omega) hwithin
    refine ⟨all, ?_, ?_⟩
    · rw [piecesFrom, if_neg (by omega), hpiece, Option.bind_eq_bind, Option.bind_some]
      exact hall
    · rw [htoks, List.filterMap_append, List.append_assoc, List.filterMap_cons, List.filterMap_nil]
      cases piece.tok? with
      | none => rfl
      | some tok => rfl

theorem lt_not_mem_escape (t : List Char) : '<' ∉ escape t := by
  intro hmem
  obtain ⟨c, -, hc⟩ := List.mem_flatMap.mp hmem
  rcases escapeChar_cases c with ⟨hplain, -, hlt⟩ | ⟨name, -, -, -, -, -, hletters⟩
  · rw [hplain, List.mem_singleton] at hc
    exact hlt hc.symm
  · exact (hletters '<' hc).2 rfl

theorem collapseWs_ne_nil {t : List Char} (h : t ≠ []) : collapseWs t ≠ [] := by
  cases t with
  | nil => exact absurd rfl h
  | cons c t =>
    rw [collapseWs, collapseFrom]
    split
    · rw [if_neg Bool.false_ne_true]
      exact List.cons_ne_nil _ _
    · exact List.cons_ne_nil _ _

theorem escape_ne_nil {t : List Char} (h : t ≠ []) : escape t ≠ [] := by
  cases t with
  | nil => exact absurd rfl h
  | cons c t =>
    rw [escape_cons]
    rcases escapeChar_cases c with ⟨hplain, -, -⟩ | ⟨name, hname, -⟩
    · rw [hplain]
      exact List.cons_ne_nil _ _
    · rw [hname]
      exact List.cons_ne_nil _ _

theorem tokensFrom_pending (hsrc : src = front ++ (escape pending ++ rest)) (hrest : Ends rest)
    (h : TokensFrom src (utf8Len (front ++ escape pending)) toks) :
    TokensFrom src (utf8Len front) (nodesToks (pendingText pending) ++ toks) := by
  by_cases hnil : pending = []
  · rw [hnil, escape, List.flatMap_nil, List.append_nil] at h
    rw [pendingText, if_pos hnil]
    exact h
  · have hdecoded : decodeEntities (collapseWs (escape pending)) = some (collapseWs pending) := by
      rw [collapseWs, collapseFrom_escape, decodeEntities_escape]
      rfl
    have hpiece := readPiece_text hsrc (escape_ne_nil hnil) (lt_not_mem_escape pending) hrest hdecoded
    have hletters : (collapseWs pending).isEmpty = false := by
      rw [List.isEmpty_eq_false_iff]
      exact collapseWs_ne_nil hnil
    rw [hletters] at hpiece
    have hsome := mt utf8Len_eq_zero.mp (escape_ne_nil hnil)
    have hlength := utf8Len_append front (escape pending)
    have hwithin := congrArg utf8Len hsrc
    rw [utf8Len_append, utf8Len_append] at hwithin
    have hround := TokensFrom.round hpiece (by dsimp only; omega) (by dsimp only; omega) h
    rw [pendingText, if_neg hnil]
    exact hround

theorem nodesToks_append (kids more : List Dom) :
    nodesToks (kids ++ more) = nodesToks kids ++ nodesToks more := by
  induction kids with
  | nil => rfl
  | cons kid kids ih => rw [List.cons_append, nodesToks, nodesToks, ih, List.append_assoc]

theorem tokensFrom_tag {tok : Tok} {tagText : List Char} (hsrc : src = front ++ (tagText ++ rest))
    (hne : tagText ≠ []) (hpiece : readPiece src (utf8Len front) =
      some ⟨utf8Len front, utf8Len (front ++ tagText), .token tok⟩)
    (h : TokensFrom src (utf8Len (front ++ tagText)) toks) :
    TokensFrom src (utf8Len front) (tok :: toks) := by
  have hsome := mt utf8Len_eq_zero.mp hne
  have hlength := utf8Len_append front tagText
  have hwithin := congrArg utf8Len hsrc
  rw [utf8Len_append, utf8Len_append] at hwithin
  exact TokensFrom.round hpiece (by dsimp only; omega) (by dsimp only; omega) h

theorem tokensFrom_open {tag : List Char} {attrs : Attrs}
    (hsrc : src = front ++ (openText tag attrs ++ rest)) (htag : PlainTag tag)
    (hattrs : PlainAttrs attrs) (h : TokensFrom src (utf8Len (front ++ openText tag attrs)) toks) :
    TokensFrom src (utf8Len front) (.openTag tag attrs false :: toks) := by
  have hpiece : readPiece src (utf8Len front) = some ⟨utf8Len front,
      utf8Len (front ++ openText tag attrs), .token (.openTag tag attrs false)⟩ := by
    rw [openText, List.cons_append, List.append_assoc, List.singleton_append] at hsrc
    exact readPiece_open hsrc htag hattrs
  exact tokensFrom_tag hsrc (List.cons_ne_nil _ _) hpiece h

theorem tokensFrom_close {tag : List Char} (hsrc : src = front ++ (closeText tag ++ rest))
    (htag : PlainTag tag) (h : TokensFrom src (utf8Len (front ++ closeText tag)) toks) :
    TokensFrom src (utf8Len front) (.close tag :: toks) := by
  have hpiece : readPiece src (utf8Len front) = some ⟨utf8Len front,
      utf8Len (front ++ closeText tag), .token (.close tag)⟩ := by
    rw [closeText, List.cons_append, List.append_assoc, List.singleton_append] at hsrc
    exact readPiece_close hsrc htag
  exact tokensFrom_tag hsrc (List.cons_ne_nil _ _) hpiece h

theorem ends_openText (tag : List Char) (attrs : Attrs) (rest : List Char) :
    Ends (openText tag attrs ++ rest) := fun _ hc => (Option.mem_some.mp hc).symm

theorem ends_closeText (tag rest : List Char) : Ends (closeText tag ++ rest) :=
  fun _ hc => (Option.mem_some.mp hc).symm

theorem tokensFrom_nodes : ∀ (kids : List Dom) {front pending rest : List Char} {toks : List Tok},
    src = front ++ (escape pending ++ (nodesSource kids ++ rest)) → PlainNodes kids → Ends rest →
    TokensFrom src (utf8Len (front ++ (escape pending ++ nodesSource kids))) toks →
    TokensFrom src (utf8Len front) (nodesToks (settledIn kids pending) ++ toks)
  | [], front, pending, rest, toks, hsrc, _, hrest, h => by
    rw [nodesSource, List.append_nil] at h
    rw [settledIn]
    exact tokensFrom_pending hsrc hrest h
  | .text t :: kids, front, pending, rest, toks, hsrc, hplain, hrest, h => by
    have hjoin : escape pending ++ nodesSource (.text t :: kids) =
        escape (pending ++ t) ++ nodesSource kids := by
      rw [nodesSource, nodeSource, ← List.append_assoc, escape, escape, escape, List.flatMap_append]
    rw [← List.append_assoc (escape pending), hjoin, List.append_assoc] at hsrc
    rw [hjoin] at h
    rw [settledIn_text]
    exact tokensFrom_nodes kids hsrc hplain.2 hrest h
  | .elem tag attrs inner :: kids, front, pending, rest, toks, hsrc, hplain, hrest, h => by
    obtain ⟨⟨htag, hattrs, hinner⟩, hkids⟩ := hplain
    rw [nodesSource, nodeSource] at hsrc h
    simp only [List.append_assoc] at hsrc
    simp only [← List.append_assoc] at h
    have hopenSrc : src = front ++ escape pending ++ (openText tag attrs ++ (nodesSource inner ++
        (closeText tag ++ (nodesSource kids ++ rest)))) := by
      rw [hsrc, List.append_assoc]
    have hinnerSrc : src = front ++ escape pending ++ openText tag attrs ++ (escape [] ++
        (nodesSource inner ++ (closeText tag ++ (nodesSource kids ++ rest)))) := by
      rw [hopenSrc, List.append_assoc _ (openText tag attrs)]
      rfl
    have hcloseSrc : src = front ++ escape pending ++ openText tag attrs ++ nodesSource inner ++
        (closeText tag ++ (nodesSource kids ++ rest)) := by
      rw [hinnerSrc, List.append_assoc _ (nodesSource inner)]
      rfl
    have hkidsSrc : src = front ++ escape pending ++ openText tag attrs ++ nodesSource inner ++
        closeText tag ++ (escape [] ++ (nodesSource kids ++ rest)) := by
      rw [hcloseSrc, List.append_assoc _ (closeText tag)]
      rfl
    -- Each part begins where the one in front of it ends.
    have hbehind := tokensFrom_nodes kids hkidsSrc hkids hrest h
    have hclose := tokensFrom_close hcloseSrc htag hbehind
    have hwithin := tokensFrom_nodes inner hinnerSrc hinner (ends_closeText tag _) hclose
    have hopen := tokensFrom_open hopenSrc htag hattrs hwithin
    have hfirst := tokensFrom_pending hsrc (ends_openText tag attrs _) hopen
    rw [settledIn_elem, nodesToks_append, nodesToks, nodeToks]
    simp only [List.append_assoc, List.cons_append, List.nil_append]
    exact hfirst

theorem tokenize_nodes {kids : List Dom} (hplain : PlainNodes kids) :
    tokenize (nodesSource kids) = some (nodesToks (settledIn kids [])) := by
  have hsrc : nodesSource kids = [] ++ (escape [] ++ (nodesSource kids ++ [])) := by
    rw [List.append_nil]
    rfl
  have hends : Ends [] := fun _ hc => by cases hc
  obtain ⟨all, hall, htoks⟩ := tokensFrom_nodes kids hsrc hplain hends tokensFrom_end
    (utf8Len (nodesSource kids) + 1) [] (Nat.lt_succ_self _) (Nat.zero_le _)
  rw [List.append_nil] at htoks
  rw [tokenize, pieces, ← utf8Len_nil, hall, Option.map_some, htoks]
  rfl

end Source

section Trees

variable {kids : List Dom}

theorem heightIn_append (leaf : ℕ) (kids more : List Dom) :
    heightIn leaf (kids ++ more) = max (heightIn leaf kids) (heightIn leaf more) := by
  induction kids with
  | nil => rw [List.nil_append, heightIn, Nat.zero_max]
  | cons kid kids ih => rw [List.cons_append, heightIn, heightIn, ih, Nat.max_assoc]

theorem heightIn_pendingText (pending : List Char) : heightIn 0 (pendingText pending) = 0 := by
  rw [pendingText]
  split <;> rfl

theorem heightIn_settledIn : ∀ (kids : List Dom) (pending : List Char),
    heightIn 0 (settledIn kids pending) = heightIn 0 kids
  | [], pending => by rw [settledIn, heightIn_pendingText, heightIn]
  | .text t :: kids, pending => by
    rw [settledIn_text, heightIn_settledIn kids, heightIn, height, Nat.zero_max]
  | .elem tag attrs inner :: kids, pending => by
    rw [settledIn_elem, heightIn_append, heightIn_pendingText, Nat.zero_max, heightIn, heightIn, height,
      height, heightIn_settledIn inner, heightIn_settledIn kids]

mutual

def collapsedNode : Dom → Dom
  | .text t => .text (collapseWs t)
  | .elem tag attrs kids => .elem tag attrs (collapsedIn kids)

def collapsedIn : List Dom → List Dom
  | [] => []
  | kid :: kids => collapsedNode kid :: collapsedIn kids

end

mutual

def ApartNode : Dom → Prop
  | .text t => t ≠ []
  | .elem _ _ kids => Apart kids

def Apart : List Dom → Prop
  | [] => True
  | kid :: kids => ApartNode kid ∧
    (∀ t more behind, kid = .text t → kids ≠ .text more :: behind) ∧ Apart kids

end

theorem settledIn_apart : ∀ kids : List Dom, Apart kids → settledIn kids [] = collapsedIn kids
  | [], _ => rfl
  | [.text t], hapart => by
    rw [settledIn_text, List.nil_append, settledIn, pendingText, if_neg hapart.1]
    rfl
  | .text t :: .text more :: kids, hapart => absurd rfl (hapart.2.1 t more kids rfl)
  | .text t :: .elem tag attrs inner :: kids, hapart => by
    have hkids := settledIn_apart (.elem tag attrs inner :: kids) hapart.2.2
    rw [settledIn_elem, pendingText, if_pos rfl, List.nil_append] at hkids
    rw [settledIn_text, List.nil_append, settledIn_elem, pendingText, if_neg hapart.1, hkids]
    rfl
  | .elem tag attrs inner :: kids, hapart => by
    rw [settledIn_elem, pendingText, if_pos rfl, List.nil_append,
      settledIn_apart inner hapart.1, settledIn_apart kids hapart.2.2]
    rfl

def readNodes (src : List Char) : Option (List Dom × List Tok) :=
  (tokenize src).bind fun toks => parseNodes (toks.length + 1) toks none 0

theorem readNodes_source (hplain : PlainNodes kids) (hheight : heightIn 0 kids ≤ maxDomDepth) :
    readNodes (nodesSource kids) = some (settledIn kids [], []) := by
  have hsettled : heightIn 0 (settledIn kids []) ≤ maxDomDepth := by
    rw [heightIn_settledIn]
    exact hheight
  rw [readNodes, tokenize_nodes hplain, Option.bind_some]
  exact parseNodes_tree hsettled

theorem parseNodes_root (toks : List Tok) : ∃ nodes,
    parseNodes (toks.length + 1) toks none 0 = some (nodes, []) ∧
      heightIn 1 nodes ≤ maxDomDepth + 1 ∧ itemsIn nodes = toks.filterMap Tok.item? := by
  obtain ⟨nodes, rest, hnodes, -⟩ := parseNodes_returns (Nat.lt_succ_self toks.length) none 0
  obtain ⟨hheight, ⟨read, hread, hitems⟩, hrest⟩ := parseNodes_structure (Nat.zero_le _) hnodes
  rw [hrest rfl, List.append_nil] at hread
  rw [hrest rfl] at hnodes
  rw [← hread] at hitems
  exact ⟨nodes, hnodes, hheight, hitems⟩

/-- All tokens are read, each into one node at most and in their order, and the source of a tree
is read back as the tree with its texts settled. -/
theorem dom_structure :
    (∀ toks, ∃ nodes, parseNodes (toks.length + 1) toks none 0 = some (nodes, []) ∧
      heightIn 1 nodes ≤ maxDomDepth + 1 ∧ itemsIn nodes = toks.filterMap Tok.item?) ∧
    ∀ kids, PlainNodes kids → heightIn 0 kids ≤ maxDomDepth →
      readNodes (nodesSource kids) = some (settledIn kids [], []) ∧
        (Apart kids → settledIn kids [] = collapsedIn kids) :=
  ⟨parseNodes_root, fun kids hplain hheight =>
    ⟨readNodes_source hplain hheight, settledIn_apart kids⟩⟩

def besideTexts : List Dom := [.elem "p".toList ⟨none, none, none⟩ [.text "a".toList, .text "b".toList]]

theorem plainNodes_besideTexts : PlainNodes besideTexts := by
  have htag : PlainTag "p".toList :=
    ⟨by decide, forall_of_all (by decide), by decide, by decide, by decide⟩
  refine ⟨⟨htag, ?_, trivial, trivial, trivial⟩, trivial⟩
  intro pair hpair
  cases hpair

theorem dom_structure_beside :
    readNodes (nodesSource besideTexts) = some (settledIn besideTexts [], []) :=
  (dom_structure.2 besideTexts plainNodes_besideTexts (by decide)).1

theorem beside_texts_join : ¬∀ kids, PlainNodes kids → heightIn 0 kids < maxDomDepth →
    readNodes (nodesSource kids) = some (collapsedIn kids, []) := by
  intro hback
  have hread := hback besideTexts plainNodes_besideTexts (by decide)
  rw [readNodes_source plainNodes_besideTexts (by decide), Option.some.injEq, Prod.mk.injEq] at hread
  have hitems := congrArg itemsIn hread.1
  exact absurd hitems (by decide)

end Trees

end AtomVibe.Html
