import AtomVibe.HtmlTokens

namespace AtomVibe.Html

open Text

section Bytes

variable {cs : List Char} {n : ℕ}

theorem takeBytes_append_dropBytes (n : ℕ) (cs : List Char) :
    takeBytes n cs ++ dropBytes n cs = cs := by
  induction cs generalizing n with
  | nil => rfl
  | cons c cs ih =>
    rw [takeBytes, dropBytes]
    split
    · rfl
    · rw [List.cons_append, ih]

theorem isCharBoundary_add {i : ℕ} (hi : isCharBoundary i cs = true) :
    isCharBoundary (i + n) cs = isCharBoundary n (dropBytes i cs) := by
  have hfront := isCharBoundary_front (takeBytes i cs) (dropBytes i cs) n
  rw [utf8Len_takeBytes hi, takeBytes_append_dropBytes] at hfront
  exact hfront

theorem bytesOf_append (xs ys : List Char) : bytesOf (xs ++ ys) = bytesOf xs ++ bytesOf ys :=
  List.flatMap_append

theorem bytesOf_dropBytes (h : isCharBoundary n cs = true) :
    bytesOf (dropBytes n cs) = (bytesOf cs).drop n := by
  have hsplit := congrArg bytesOf (takeBytes_append_dropBytes n cs)
  rw [bytesOf_append] at hsplit
  have hlength : (bytesOf (takeBytes n cs)).length = n := by
    rw [length_bytesOf, utf8Len_takeBytes h]
  rw [← hsplit, List.drop_left' hlength]

theorem sliceFrom_eq (h : isCharBoundary n cs = true) : sliceFrom cs n = some (dropBytes n cs) := by
  rw [sliceFrom, checkedSlice, if_pos ⟨le_of_isCharBoundary h, h, isCharBoundary_end cs⟩, slice,
    takeBytes_all (utf8Len_dropBytes h).le]

theorem checkedSlice_eq {stop : ℕ} (h : isCharBoundary n cs = true)
    (hstop : isCharBoundary stop cs = true) (hle : n ≤ stop) :
    checkedSlice cs n stop = some (slice n stop cs) := if_pos ⟨hle, h, hstop⟩

def IsAscii (c : Char) : Prop := c.toNat < 128

instance (c : Char) : Decidable (IsAscii c) := inferInstanceAs (Decidable (c.toNat < 128))

theorem utf8EncodeChar_of_ascii {c : Char} (h : IsAscii c) :
    String.utf8EncodeChar c = [asciiByte c] := by
  have hsmall : c.val.toNat ≤ 127 := Nat.le_of_lt_succ h
  rw [String.utf8EncodeChar, if_pos hsmall]
  rfl

theorem asciiByte_lt {c : Char} (h : IsAscii c) : asciiByte c < 0x80 := by
  rw [UInt8.lt_iff_toNat_lt]
  change c.toNat % 256 < 128
  have hsmall : c.toNat < 128 := h
  omega

theorem eq_of_asciiByte_mem {c d : Char} (hc : IsAscii c)
    (h : asciiByte c ∈ String.utf8EncodeChar d) : d = c := by
  have hone := length_of_ascii h (asciiByte_lt hc)
  rw [String.length_utf8EncodeChar, Char.utf8Size_eq_one_iff] at hone
  have hd : IsAscii d := by
    have hle := UInt32.le_iff_toNat_le.mp hone
    exact Nat.lt_succ_of_le hle
  rw [utf8EncodeChar_of_ascii hd, List.mem_singleton] at h
  have hnat : c.toNat % 256 = d.toNat % 256 := congrArg UInt8.toNat h
  have hcsmall : c.toNat < 128 := hc
  have hdsmall : d.toNat < 128 := hd
  apply Char.ext
  apply UInt32.toNat_inj.mp
  change d.toNat = c.toNat
  omega

theorem findChar_eq {c : Char} (hc : IsAscii c) (cs : List Char) :
    findChar c cs = (bytesOf cs).findIdx? (· = asciiByte c) := by
  induction cs with
  | nil => rfl
  | cons d cs ih =>
    rw [findChar] at ih
    rw [findChar, findWhere, bytesOf, List.flatMap_cons, ← bytesOf, List.findIdx?_append]
    by_cases hd : d = c
    · subst hd
      rw [utf8EncodeChar_of_ascii hc]
      simp
    · have hnone : (String.utf8EncodeChar d).findIdx? (· = asciiByte c) = none := by
        rw [List.findIdx?_eq_none_iff]
        intro byte hbyte
        rw [decide_eq_false_iff_not]
        rintro rfl
        exact hd (eq_of_asciiByte_mem hc hbyte)
      rw [hnone, ih, String.length_utf8EncodeChar]
      simp [hd]

theorem isCharBoundary_succ {byte : UInt8} (h : (bytesOf cs)[n]? = some byte) (hascii : byte < 0x80) :
    isCharBoundary (n + 1) cs = true := by
  have hstart := isCharBoundary_of_ascii h hascii
  rw [isCharBoundary_add hstart]
  have hrest := bytesOf_dropBytes hstart
  have hfirst : (bytesOf (dropBytes n cs))[0]? = some byte := by
    rw [hrest, List.getElem?_drop, Nat.add_zero, h]
  cases hdrop : dropBytes n cs with
  | nil =>
    rw [hdrop] at hfirst
    cases hfirst
  | cons c rest =>
    rw [hdrop, bytesOf, List.flatMap_cons] at hfirst
    have hpos := c.utf8Size_pos
    rw [List.getElem?_append_left (by rw [String.length_utf8EncodeChar]; exact hpos)] at hfirst
    have hone := length_of_ascii (List.mem_of_getElem? hfirst) hascii
    rw [String.length_utf8EncodeChar] at hone
    rw [isCharBoundary, hone]
    simp [isCharBoundary_zero]

theorem findStr_spec {pattern : List Char} {offset : ℕ} (h : findStr pattern cs = some offset) :
    ∃ front rest, cs = front ++ (pattern ++ rest) ∧ utf8Len front = offset := by
  induction cs generalizing offset with
  | nil =>
    rw [findStr] at h
    split_ifs at h with hempty
    rw [List.isEmpty_iff.mp hempty, ← Option.some.inj h]
    exact ⟨[], [], rfl, rfl⟩
  | cons c cs ih =>
    rw [findStr] at h
    split at h
    · rename_i hpre
      obtain ⟨rest, hrest⟩ := List.isPrefixOf_iff_prefix.mp hpre
      rw [← Option.some.inj h]
      exact ⟨[], rest, hrest.symm, rfl⟩
    · obtain ⟨k, hk, rfl⟩ := Option.map_eq_some_iff.mp h
      obtain ⟨front, rest, rfl, rfl⟩ := ih hk
      refine ⟨c :: front, rest, rfl, ?_⟩
      rw [utf8Len_cons, Nat.add_comm]

end Bytes

section Matches

variable {hay needle : List UInt8} {start n : ℕ}

theorem matchesAt_length (h : matchesAt hay needle n = true) : n + needle.length ≤ hay.length ∨
    needle = [] := by
  have hlength := congrArg List.length (of_decide_eq_true h)
  rw [List.length_map, List.length_map, List.length_take, List.length_drop] at hlength
  by_cases hempty : needle = []
  · exact .inr hempty
  · have hpos := List.length_pos_iff.mpr hempty
    left
    omega

theorem findAsciiCi_some (h : findAsciiCi hay start needle = some n) :
    start ≤ n ∧ matchesAt hay needle n = true ∧
      ∀ m, start ≤ m → m < n → matchesAt hay needle m = false := by
  rw [findAsciiCi] at h
  split_ifs at h
  obtain ⟨hmatch, hmem, hfirst⟩ := List.find?_range'_eq_some.mp h
  refine ⟨(List.mem_range'_1.mp hmem).1, hmatch, fun m hm hlt => ?_⟩
  have hnot := hfirst m hm hlt
  rwa [Bool.not_eq_true'] at hnot

theorem findAsciiCi_none (hne : needle ≠ []) (h : findAsciiCi hay start needle = none) (m : ℕ)
    (hm : start ≤ m) : matchesAt hay needle m = false := by
  by_contra hmatch
  rw [Bool.not_eq_false] at hmatch
  have hlength := (matchesAt_length hmatch).resolve_right hne
  rw [findAsciiCi, if_neg] at h
  · have hnot := List.find?_range'_eq_none.mp h m hm (by omega)
    rw [hmatch] at hnot
    cases hnot
  · simp only [List.isEmpty_iff, hne, Bool.or_eq_true, decide_eq_true_eq, false_or, not_lt]
    omega

theorem lowerByte_eq_lt (byte : UInt8) : lowerByte byte = asciiByte '<' ↔ byte = asciiByte '<' := by
  have hall : ∀ n < 256, lowerByte (UInt8.ofNat n) = asciiByte '<' ↔
      UInt8.ofNat n = asciiByte '<' := by decide +kernel
  have hbyte := hall byte.toNat byte.toNat_lt
  rwa [UInt8.ofNat_toNat] at hbyte

theorem getElem?_of_matchesAt (h : matchesAt hay (asciiByte '<' :: needle) n = true) :
    hay[n]? = some (asciiByte '<') := by
  have hmap := of_decide_eq_true h
  cases hdrop : hay.drop n with
  | nil =>
    rw [hdrop] at hmap
    cases hmap
  | cons byte rest =>
    rw [hdrop, List.length_cons, List.take_succ_cons, List.map_cons, List.map_cons] at hmap
    have hbyte := (List.cons.inj hmap).1
    have hlow : lowerByte (asciiByte '<') = asciiByte '<' := by decide
    rw [hlow, lowerByte_eq_lt] at hbyte
    rw [← hbyte, ← Nat.add_zero n, ← List.getElem?_drop, hdrop]
    rfl

end Matches

def Stands (src : List Char) (i : ℕ) : Prop := isCharBoundary i src = true ∨ utf8Len src < i

structure Reads (src : List Char) (i : ℕ) (piece : Piece) : Prop where
  start : piece.start = i
  lt_next : i < piece.next
  stands : Stands src piece.next
  ends : (∀ q, i ≤ q → q < piece.next → (bytesOf src)[q]? ≠ some (asciiByte '<')) ∨
    utf8Len src ≤ piece.next ∨ (bytesOf src)[piece.next - 1]? = some (asciiByte '>')
  skips : ∀ tag tagEnd close, piece.read = .skipped tag tagEnd close →
    i < tagEnd ∧ (tagEnd = utf8Len src ∨ (bytesOf src)[tagEnd]? = some (asciiByte '>')) ∧
      skipContent src (tagEnd + 1) tag = some (close, piece.next)

section Rounds

variable {src : List Char} {i : ℕ}

theorem length_takeWhile_ne (b : List UInt8) (byte : UInt8) :
    (b.takeWhile (· ≠ byte)).length ≤ b.length ∧
      ((b.takeWhile (· ≠ byte)).length = b.length ∨
        b[(b.takeWhile (· ≠ byte)).length]? = some byte) := by
  induction b with
  | nil => simp
  | cons a b ih =>
    rw [List.takeWhile_cons]
    split
    · obtain ⟨hle, hend⟩ := ih
      rw [List.length_cons, List.length_cons, List.getElem?_cons_succ]
      exact ⟨by omega, hend.imp (by omega) id⟩
    · rename_i ha
      have hbyte : a = byte := by simpa using ha
      rw [hbyte]
      exact ⟨Nat.zero_le _, .inr rfl⟩

theorem tagLength_spec (quote : UInt8) (b : List UInt8) :
    tagLength quote b ≤ b.length ∧
      (tagLength quote b = b.length ∨ b[tagLength quote b]? = some (asciiByte '>')) := by
  induction b generalizing quote with
  | nil => simp [tagLength]
  | cons c b ih =>
    have hmore (q : UInt8) : tagLength q b + 1 ≤ (c :: b).length ∧
        (tagLength q b + 1 = (c :: b).length ∨
          (c :: b)[tagLength q b + 1]? = some (asciiByte '>')) := by
      obtain ⟨hle, hend⟩ := ih q
      rw [List.length_cons, List.getElem?_cons_succ]
      exact ⟨by omega, hend.imp (by omega) id⟩
    rw [tagLength]
    by_cases hquote : quote ≠ 0
    · rw [if_pos hquote]
      exact hmore _
    · rw [if_neg hquote]
      split
      · exact hmore c
      · split
        · rename_i hc
          rw [hc]
          exact ⟨Nat.zero_le _, .inr rfl⟩
        · exact hmore 0

theorem place_ahead {byte : UInt8} (hascii : byte < 0x80) {k : ℕ} (hi : i ≤ utf8Len src)
    (h : k ≤ ((bytesOf src).drop i).length ∧
      (k = ((bytesOf src).drop i).length ∨ ((bytesOf src).drop i)[k]? = some byte)) :
    i + k ≤ utf8Len src ∧ isCharBoundary (i + k) src = true ∧ Stands src (i + k + 1) ∧
      (i + k = utf8Len src ∨ (bytesOf src)[i + k]? = some byte) := by
  obtain ⟨hle, hend⟩ := h
  rw [List.length_drop, length_bytesOf] at hle hend
  rw [List.getElem?_drop] at hend
  obtain hend | hbyte := hend
  · have hplace : i + k = utf8Len src := by omega
    rw [hplace]
    exact ⟨le_rfl, isCharBoundary_end src, .inr (Nat.lt_succ_self _), .inl rfl⟩
  · exact ⟨by omega, isCharBoundary_of_ascii hbyte hascii, .inl (isCharBoundary_succ hbyte hascii),
      .inr hbyte⟩

theorem byte_of_findChar (hi : isCharBoundary i src = true) {offset : ℕ}
    (h : findChar '>' (dropBytes i src) = some offset) :
    (bytesOf src)[i + offset]? = some (asciiByte '>') := by
  rw [findChar_eq (by decide), bytesOf_dropBytes hi] at h
  obtain ⟨hlt, hbyte, -⟩ := List.findIdx?_eq_some_iff_getElem.mp h
  rw [← List.getElem?_drop, List.getElem?_eq_getElem hlt, of_decide_eq_true hbyte]

theorem stands_afterGt (hi : isCharBoundary i src = true) {offset : ℕ}
    (h : findChar '>' (dropBytes i src) = some offset) :
    isCharBoundary (i + offset + 1) src = true :=
  isCharBoundary_succ (byte_of_findChar hi h) (by decide)

theorem readText_returns (hi : isCharBoundary i src = true) (hlt : i < utf8Len src)
    (hnot : (bytesOf src)[i]? ≠ some (asciiByte '<')) :
    ∃ piece, readText src i = some piece ∧ Reads src i piece := by
  obtain ⟨hle, hboundary, -, hend⟩ := place_ahead (by decide) (Nat.le_of_lt hlt)
    (length_takeWhile_ne ((bytesOf src).drop i) (asciiByte '<'))
  rw [readText]
  simp only [checkedSlice_eq hi hboundary (Nat.le_add_right _ _), Option.bind_eq_bind,
    Option.bind_some]
  obtain ⟨text, htext⟩ := decodeEntities_returns (collapseWs (slice i
    (i + (((bytesOf src).drop i).takeWhile (· ≠ asciiByte '<')).length) src))
  rw [htext]
  refine ⟨_, rfl, rfl, ?_, .inl hboundary, .inl ?_, ?_⟩
  · by_contra hsame
    have hzero : (((bytesOf src).drop i).takeWhile (· ≠ asciiByte '<')).length = 0 := by
      dsimp only at hsame
      omega
    rw [hzero, Nat.add_zero] at hend
    exact hend.elim (by omega) hnot
  · intro q hq hqlt hbyte
    dsimp only at hqlt
    have hinside : (((bytesOf src).drop i).takeWhile (· ≠ asciiByte '<'))[q - i]? =
        some (asciiByte '<') := by
      have hdrop : ((bytesOf src).drop i)[q - i]? = some (asciiByte '<') := by
        rw [List.getElem?_drop, Nat.add_sub_cancel' hq, hbyte]
      obtain ⟨more, hmore⟩ := List.takeWhile_prefix (l := (bytesOf src).drop i)
        (· ≠ asciiByte '<')
      rw [← hmore, List.getElem?_append_left (by omega)] at hdrop
      exact hdrop
    have hkept := List.mem_takeWhile_imp (List.mem_of_getElem? hinside)
    exact absurd hkept (by simp)
  · intro tag tagEnd close hread
    dsimp only at hread
    split at hread <;> cases hread

theorem isCharBoundary_of_match {needle : List UInt8} {start n : ℕ}
    (h : findAsciiCi (bytesOf src) start (asciiByte '<' :: needle) = some n) :
    isCharBoundary n src = true :=
  isCharBoundary_of_ascii (getElem?_of_matchesAt (findAsciiCi_some h).2.1) (by decide)

theorem skipContent_returns (start : ℕ) (tag : List Char) :
    ∃ close next, skipContent src start tag = some (close, next) ∧
      isCharBoundary next src = true ∧
      (close.elim (next = utf8Len src) fun close => start ≤ close ∧ close < next) ∧
      (utf8Len src ≤ next ∨ (bytesOf src)[next - 1]? = some (asciiByte '>')) := by
  have hlt : bytesOf ("</".toList ++ tag) = asciiByte '<' :: bytesOf ('/' :: tag) := by
    change bytesOf (['<'] ++ ('/' :: tag)) = _
    rw [bytesOf_append]
    rfl
  rw [skipContent]
  split
  · refine ⟨none, _, rfl, ?_, length_bytesOf src, .inl (length_bytesOf src).ge⟩
    rw [length_bytesOf]
    exact isCharBoundary_end src
  · rename_i close hclose
    have hspec := findAsciiCi_some hclose
    rw [hlt] at hclose
    have hboundary := isCharBoundary_of_match hclose
    have hbyte := getElem?_of_matchesAt (findAsciiCi_some hclose).2.1
    have hwithin := (List.getElem?_eq_some_iff.mp hbyte).1
    simp only [sliceFrom_eq hboundary, Option.bind_eq_bind, Option.bind_some]
    cases hgt : findChar '>' (dropBytes close src) with
    | none =>
      refine ⟨some close, _, rfl, ?_, ⟨hspec.1, hwithin⟩, .inl (length_bytesOf src).ge⟩
      dsimp only
      rw [length_bytesOf]
      exact isCharBoundary_end src
    | some offset =>
      refine ⟨some close, _, rfl, stands_afterGt hboundary hgt, ⟨hspec.1, ?_⟩,
        .inr (byte_of_findChar hboundary hgt)⟩
      dsimp only
      omega

theorem readTag_returns (hbyte : (bytesOf src)[i]? = some (asciiByte '<')) :
    ∃ piece, readTag src i = some piece ∧ Reads src i piece := by
  have hlt := (List.getElem?_eq_some_iff.mp hbyte).1
  rw [length_bytesOf] at hlt
  have hstart := isCharBoundary_succ hbyte (by decide)
  obtain ⟨hle, hboundary, hstands, hend⟩ := place_ahead (by decide) (Nat.succ_le_of_lt hlt)
    (tagLength_spec 0 ((bytesOf src).drop (i + 1)))
  have hmin : min (i + 1 + tagLength 0 ((bytesOf src).drop (i + 1))) (bytesOf src).length =
      i + 1 + tagLength 0 ((bytesOf src).drop (i + 1)) := by
    rw [length_bytesOf]
    exact Nat.min_eq_left hle
  rw [readTag]
  simp only [hmin, checkedSlice_eq hstart hboundary (Nat.le_add_right _ _), Option.bind_eq_bind,
    Option.bind_some]
  generalize hj : i + 1 + tagLength 0 ((bytesOf src).drop (i + 1)) = j at *
  have hij : i < j := by omega
  have hends : utf8Len src ≤ j + 1 ∨ (bytesOf src)[j + 1 - 1]? = some (asciiByte '>') :=
    hend.imp (by omega) id
  split
  · exact ⟨_, rfl, rfl, Nat.lt_succ_of_lt hij, hstands, .inr hends, by simp⟩
  · obtain ⟨tag, attrs, hopen, -⟩ := parseOpen_returns (trimChars (trimEnd '/' (trimChars
      (slice (i + 1) j src))))
    simp only [hopen, Option.bind_some]
    split
    · obtain ⟨close, next, hskip, hnext, hplace, hlast⟩ := @skipContent_returns src (j + 1) (lower tag)
      rw [hskip]
      refine ⟨_, rfl, rfl, ?_, .inl hnext, .inr hlast, ?_⟩
      · dsimp only
        cases close with
        | none =>
          have hend : next = utf8Len src := hplace
          omega
        | some close =>
          have hclose := hplace.1
          have hafter := hplace.2
          omega
      · intro tag' tagEnd close' hread
        obtain ⟨rfl, rfl, rfl⟩ := Read.skipped.inj hread
        exact ⟨hij, hend, hskip⟩
    · exact ⟨_, rfl, rfl, Nat.lt_succ_of_lt hij, hstands, .inr hends, by simp⟩

theorem isCharBoundary_of_start {pattern : String} (hi : isCharBoundary i src = true)
    (h : (stripStart pattern (dropBytes i src)).isSome = true) :
    isCharBoundary (i + utf8Len pattern.toList) src = true := by
  rw [stripStart, afterStart] at h
  split_ifs at h with hpre
  · obtain ⟨rest, hrest⟩ := List.isPrefixOf_iff_prefix.mp hpre
    rw [isCharBoundary_add hi, ← hrest]
    have hfront := isCharBoundary_front pattern.toList rest 0
    rw [Nat.add_zero] at hfront
    rw [hfront, isCharBoundary_zero]
  · cases h

theorem readMarkup_returns (hi : isCharBoundary i src = true)
    (hbyte : (bytesOf src)[i]? = some (asciiByte '<')) :
    ∃ piece, readMarkup src i = some piece ∧ Reads src i piece := by
  have hlt := (List.getElem?_eq_some_iff.mp hbyte).1
  rw [length_bytesOf] at hlt
  rw [readMarkup]
  simp only [sliceFrom_eq hi, Option.bind_eq_bind, Option.bind_some]
  split
  · rename_i hcomment
    have hinner : isCharBoundary (i + 4) src = true := isCharBoundary_of_start hi hcomment
    rw [sliceFrom_eq hinner, Option.bind_some]
    cases hfind : findStr "-->".toList (dropBytes (i + 4) src) with
    | none =>
      refine ⟨_, rfl, rfl, ?_, .inl ?_, .inr (.inl (length_bytesOf src).ge), by simp⟩
      · dsimp only
        rw [length_bytesOf]
        exact hlt
      · dsimp only
        rw [length_bytesOf]
        exact isCharBoundary_end src
    | some stop =>
      obtain ⟨front, rest, hsplit, rfl⟩ := findStr_spec hfind
      refine ⟨_, rfl, rfl, by dsimp only; omega, .inl ?_, .inr (.inr ?_), by simp⟩
      · have hfront := isCharBoundary_front (front ++ "-->".toList) rest 0
        rw [List.append_assoc, ← hsplit, isCharBoundary_zero, ← isCharBoundary_add hinner,
          utf8Len_append] at hfront
        exact hfront
      · have hbytes := bytesOf_dropBytes hinner
        have hlast : (bytesOf (front ++ ("-->".toList ++ rest)))[utf8Len front + 2]? =
            some (asciiByte '>') := by
          rw [bytesOf_append, List.getElem?_append_right (by rw [length_bytesOf]; omega),
            length_bytesOf, Nat.add_sub_cancel_left, bytesOf_append]
          rfl
        rw [← hsplit, hbytes, List.getElem?_drop] at hlast
        exact hlast
  · split
    · obtain ⟨-, -, hstands, hend⟩ := place_ahead (by decide) (Nat.succ_le_of_lt hlt)
        (length_takeWhile_ne ((bytesOf src).drop (i + 1)) (asciiByte '>'))
      exact ⟨_, rfl, rfl, by dsimp only; omega, hstands, .inr (hend.imp (fun h => by dsimp only; omega) id),
        by simp⟩
    · exact readTag_returns hbyte

theorem readPiece_returns (hi : isCharBoundary i src = true) (hlt : i < utf8Len src) :
    ∃ piece, readPiece src i = some piece ∧ Reads src i piece := by
  rw [readPiece]
  split
  · rename_i hbyte
    exact readMarkup_returns hi hbyte
  · rename_i hnot
    exact readText_returns hi hlt hnot

inductive PiecesFrom (src : List Char) : ℕ → List Piece → Prop
  | done {i : ℕ} (h : utf8Len src ≤ i) : PiecesFrom src i []
  | piece {i : ℕ} {piece : Piece} {more : List Piece} (hlt : i < utf8Len src)
    (hpiece : Reads src i piece) (hmore : PiecesFrom src piece.next more) :
    PiecesFrom src i (piece :: more)

theorem piecesFrom_returns {fuel : ℕ} (hfuel : utf8Len src < fuel + i) (hpos : 0 < fuel)
    (hi : Stands src i) (out : List Piece) :
    ∃ more, piecesFrom src fuel i out = some (out ++ more) ∧ PiecesFrom src i more := by
  induction fuel generalizing i out with
  | zero => omega
  | succ fuel ih =>
    rw [piecesFrom]
    split
    · rename_i hend
      exact ⟨[], by rw [List.append_nil], .done hend⟩
    · rename_i hlt
      rw [not_le] at hlt
      have hboundary := hi.resolve_right (by omega)
      obtain ⟨piece, hpiece, hreads⟩ := readPiece_returns hboundary hlt
      have hnext := hreads.lt_next
      obtain ⟨more, hmore, hfrom⟩ := ih (by omega) (by omega) hreads.stands (out ++ [piece])
      refine ⟨piece :: more, ?_, .piece hlt hreads hfrom⟩
      rw [hpiece, List.append_cons]
      exact hmore

theorem pieces_returns (src : List Char) :
    ∃ all, pieces src = some all ∧ PiecesFrom src 0 all := by
  obtain ⟨all, hall, hfrom⟩ := @piecesFrom_returns src 0 (utf8Len src + 1) (by omega) (by omega)
    (.inl (isCharBoundary_zero src)) []
  exact ⟨all, hall, hfrom⟩

theorem tokenize_returns (src : List Char) : ∃ toks, tokenize src = some toks := by
  obtain ⟨all, hall, -⟩ := pieces_returns src
  exact ⟨_, by rw [tokenize, hall]; rfl⟩

end Rounds

end AtomVibe.Html
