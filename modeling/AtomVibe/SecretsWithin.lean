import AtomVibe.Secrets
import AtomVibe.ByteOffsets

namespace AtomVibe.Secrets

open Text Hash

section Bytes

variable {before inside after : List UInt8} {p : UInt8 → Bool} {i : ℕ}

def quoteByte : UInt8 := 0x22

def enclose (before inside after : List UInt8) : List UInt8 :=
  before ++ quoteByte :: (inside ++ quoteByte :: after)

theorem drop_enclose (h : i ≤ inside.length) :
    (enclose before inside after).drop (before.length + 1 + i) =
      inside.drop i ++ quoteByte :: after := by
  rw [enclose, Nat.add_assoc, List.drop_length_add_append, Nat.add_comm 1 i, List.drop_succ_cons,
    List.drop_append_of_le_length h]

theorem take_enclose (h : i ≤ inside.length) :
    (enclose before inside after).take (before.length + 1 + i) =
      before ++ quoteByte :: inside.take i := by
  rw [enclose, Nat.add_assoc, List.take_length_add_append, Nat.add_comm 1 i, List.take_succ_cons,
    List.take_append_of_le_length h]

theorem getElem?_enclose (h : i < inside.length) :
    (enclose before inside after)[before.length + 1 + i]? = inside[i]? := by
  have hdrop := @drop_enclose before inside after i (Nat.le_of_lt h)
  rw [← Nat.add_zero (before.length + 1 + i), ← List.getElem?_drop, hdrop,
    List.getElem?_append_left (by rw [List.length_drop]; omega), List.getElem?_drop, Nat.add_zero]

theorem length_enclose : (enclose before inside after).length =
    before.length + 1 + inside.length + 1 + after.length := by
  simp only [enclose, List.length_append, List.length_cons]
  omega

theorem takeWhile_append_stop {α : Type} {p : α → Bool} {x : α} (h : p x = false)
    (xs ys : List α) : (xs ++ x :: ys).takeWhile p = xs.takeWhile p := by
  induction xs with
  | nil => simp [h]
  | cons a xs ih =>
    rw [List.cons_append, List.takeWhile_cons, List.takeWhile_cons, ih]

theorem scanForward_enclose (hp : p quoteByte = false) (h : i ≤ inside.length) :
    scanForward p (enclose before inside after) (before.length + 1 + i) =
      before.length + 1 + scanForward p inside i := by
  rw [scanForward, scanForward, drop_enclose h, takeWhile_append_stop hp]
  omega

theorem scanBackward_enclose (hp : p quoteByte = false) (h : i ≤ inside.length) :
    scanBackward p (enclose before inside after) (before.length + 1 + i) =
      before.length + 1 + scanBackward p inside i := by
  have hreverse : (before ++ quoteByte :: inside.take i).reverse =
      (inside.take i).reverse ++ quoteByte :: before.reverse := by simp
  have hlength : ((inside.take i).reverse.takeWhile p).length ≤ i := by
    apply (List.takeWhile_prefix p).length_le.trans
    rw [List.length_reverse, List.length_take]
    omega
  rw [scanBackward, scanBackward, take_enclose h, hreverse, takeWhile_append_stop hp]
  omega

theorem precededBy_enclose (hp : p quoteByte = false) (h : i ≤ inside.length) :
    precededBy p (enclose before inside after) (before.length + 1 + i) = precededBy p inside i := by
  cases i with
  | zero =>
    have hget : (enclose before inside after)[before.length]? = some quoteByte := by
      rw [enclose, List.getElem?_append_right (Nat.le_refl _), Nat.sub_self]
      rfl
    rw [precededBy, precededBy, Nat.add_zero, Nat.add_sub_cancel, hget, Option.any_some, hp]
    simp
  | succ i =>
    have hindex : before.length + 1 + (i + 1) - 1 = before.length + 1 + i := by omega
    have hpos : 0 < before.length + 1 + (i + 1) := by omega
    rw [precededBy, precededBy, hindex, getElem?_enclose (by omega), Nat.add_sub_cancel,
      decide_eq_true hpos, decide_eq_true (Nat.succ_pos i)]

theorem startsWith_enclose {needle : String} (hlength : (asciiBytes needle).length = needle.length)
    (hneedle : quoteByte ∉ (asciiBytes needle).map byteLowercase) (h : i ≤ inside.length) :
    startsWithIgnoreAsciiCase (enclose before inside after) (before.length + 1 + i) needle =
      startsWithIgnoreAsciiCase inside i needle := by
  rw [startsWithIgnoreAsciiCase, startsWithIgnoreAsciiCase, drop_enclose h]
  by_cases hfits : needle.length ≤ (inside.drop i).length
  · rw [List.take_append_of_le_length hfits]
  · have hshort : ((inside.drop i).take needle.length).map byteLowercase ≠
        (asciiBytes needle).map byteLowercase := by
      intro heq
      have hsame := congrArg List.length heq
      simp only [List.length_map, List.length_take, hlength] at hsame
      omega
    have hquote : ((inside.drop i ++ quoteByte :: after).take needle.length).map byteLowercase ≠
        (asciiBytes needle).map byteLowercase := by
      intro heq
      apply hneedle
      rw [← heq]
      have hmem : quoteByte ∈ (inside.drop i ++ quoteByte :: after).take needle.length := by
        rw [List.take_append, List.mem_append]
        right
        obtain ⟨n, hn⟩ : ∃ n, needle.length - (inside.drop i).length = n + 1 :=
          ⟨needle.length - (inside.drop i).length - 1, by omega⟩
        rw [hn, List.take_succ_cons]
        exact List.mem_cons_self
      exact List.mem_map_of_mem hmem
    rw [beq_eq_false_iff_ne.mpr hshort, beq_eq_false_iff_ne.mpr hquote]

theorem length_of_startsWith {bytes : List UInt8} {needle : String} {start : ℕ}
    (hlength : (asciiBytes needle).length = needle.length)
    (h : startsWithIgnoreAsciiCase bytes start needle = true) (hstart : start ≤ bytes.length) :
    start + needle.length ≤ bytes.length := by
  have hsame := congrArg List.length (beq_iff_eq.mp h)
  simp only [List.length_map, List.length_take, List.length_drop, hlength] at hsame
  omega

theorem any_enclose (hp : p quoteByte = false) (h : i ≤ inside.length) :
    ((enclose before inside after)[before.length + 1 + i]?).any p = (inside[i]?).any p := by
  by_cases hend : i = inside.length
  · have hdrop := @drop_enclose before inside after i h
    have hget : (enclose before inside after)[before.length + 1 + i]? = some quoteByte := by
      rw [← Nat.add_zero (before.length + 1 + i), ← List.getElem?_drop, hdrop, hend,
        List.drop_length]
      rfl
    rw [hget, hend, List.getElem?_eq_none (Nat.le_refl _)]
    simpa using hp
  · rw [getElem?_enclose (by omega)]

section Scan

variable {bytes : List UInt8} {start : ℕ}

theorem scanForward_le (h : start ≤ bytes.length) : scanForward p bytes start ≤ bytes.length := by
  have hlength := (List.takeWhile_prefix (l := bytes.drop start) p).length_le
  rw [List.length_drop] at hlength
  rw [scanForward]
  omega

theorem scanForward_stop (p : UInt8 → Bool) (bytes : List UInt8) (start : ℕ) :
    (bytes[scanForward p bytes start]?).any p = false := by
  rw [scanForward, ← List.getElem?_drop]
  generalize bytes.drop start = rest
  induction rest with
  | nil => simp
  | cons byte rest ih =>
    rw [List.takeWhile_cons]
    by_cases hp : p byte = true
    · rw [if_pos hp, List.length_cons, List.getElem?_cons_succ]
      exact ih
    · rw [if_neg hp]
      simpa using hp

theorem scanForward_all {k : ℕ} (hstart : start ≤ k) (hk : k < scanForward p bytes start) :
    (bytes[k]?).any p = true := by
  obtain ⟨n, rfl⟩ : ∃ n, k = start + n := ⟨k - start, by omega⟩
  rw [scanForward] at hk
  rw [← List.getElem?_drop]
  have hn : n < ((bytes.drop start).takeWhile p).length := by omega
  have hget := (List.takeWhile_prefix (l := bytes.drop start) p).getElem hn
  rw [List.getElem?_eq_getElem (by have := (List.takeWhile_prefix (l := bytes.drop start) p).length_le; omega),
    ← hget]
  simpa using List.mem_takeWhile_imp (List.getElem_mem hn)

theorem lt_scanForward (h : start < bytes.length) (hp : p bytes[start] = true) :
    start < scanForward p bytes start := by
  rw [scanForward, List.drop_eq_getElem_cons h, List.takeWhile_cons, if_pos hp, List.length_cons]
  omega

end Scan

end Bytes

section Tokens

variable {before inside after : List UInt8} {a b : ℕ}

theorem prefixes_plain : ∀ needle ∈ credentialPrefixes,
    (asciiBytes needle).length = needle.length ∧
      quoteByte ∉ (asciiBytes needle).map byteLowercase := by
  decide

theorem find?_congr {α : Type} {p q : α → Bool} {items : List α} (h : ∀ item ∈ items, p item = q item) :
    items.find? p = items.find? q := by
  induction items with
  | nil => rfl
  | cons item items ih =>
    rw [List.find?_cons, List.find?_cons, h item List.mem_cons_self,
      ih fun other hother => h other (List.mem_cons_of_mem _ hother)]

theorem prefixedTokens_enclose (h : (a, b) ∈ collectPrefixedTokens inside) :
    (before.length + 1 + a, before.length + 1 + b) ∈
      collectPrefixedTokens (enclose before inside after) := by
  obtain ⟨start, hstart, hspan⟩ := List.mem_filterMap.mp h
  have hle : start ≤ inside.length := Nat.le_of_lt (List.mem_range.mp hstart)
  have hfind : credentialPrefixes.find? (startsWithIgnoreAsciiCase (enclose before inside after)
      (before.length + 1 + start)) =
        credentialPrefixes.find? (startsWithIgnoreAsciiCase inside start) :=
    find?_congr fun needle hneedle =>
      startsWith_enclose (prefixes_plain needle hneedle).1 (prefixes_plain needle hneedle).2 hle
  apply List.mem_filterMap.mpr
  refine ⟨before.length + 1 + start, ?_, ?_⟩
  · rw [List.mem_range, length_enclose]
    rw [List.mem_range] at hstart
    omega
  · rw [precededBy_enclose (by decide) hle, hfind]
    split at hspan
    · exact absurd hspan (by simp)
    · rename_i hfree
      rw [if_neg hfree]
      cases hlead : credentialPrefixes.find? (startsWithIgnoreAsciiCase inside start) with
      | none =>
        rw [hlead] at hspan
        exact absurd hspan (by simp)
      | some needle =>
        rw [hlead] at hspan
        dsimp only at hspan ⊢
        have hmatch : startsWithIgnoreAsciiCase inside start needle = true :=
          List.find?_some hlead
        have hend : start + needle.length ≤ inside.length :=
          length_of_startsWith (prefixes_plain needle (List.mem_of_find?_eq_some hlead)).1 hmatch hle
        rw [Nat.add_assoc, scanForward_enclose (by decide) hend]
        split at hspan
        · rename_i hlong
          obtain ⟨rfl, rfl⟩ := Prod.mk.inj (Option.some.inj hspan)
          rw [if_pos (by omega)]
        · exact absurd hspan (by simp)

theorem bearerTokens_enclose (h : (a, b) ∈ collectBearerTokens inside) :
    (before.length + 1 + a, before.length + 1 + b) ∈
      collectBearerTokens (enclose before inside after) := by
  obtain ⟨start, hstart, hspan⟩ := List.mem_filterMap.mp h
  have hle : start ≤ inside.length := Nat.le_of_lt (List.mem_range.mp hstart)
  have hneedle : (asciiBytes "bearer").length = "bearer".length ∧
      quoteByte ∉ (asciiBytes "bearer").map byteLowercase := by decide
  apply List.mem_filterMap.mpr
  refine ⟨before.length + 1 + start, ?_, ?_⟩
  · rw [List.mem_range, length_enclose]
    rw [List.mem_range] at hstart
    omega
  · rw [startsWith_enclose hneedle.1 hneedle.2 hle, precededBy_enclose (by decide) hle]
    split at hspan
    · exact absurd hspan (by simp)
    · rename_i hfree
      have hmatch : startsWithIgnoreAsciiCase inside start "bearer" = true := by
        by_contra hno
        simp [hno] at hfree
      have hend := length_of_startsWith hneedle.1 hmatch hle
      have hnext : ((enclose before inside after)[before.length + 1 + start +
          "bearer".length]?).any isByteAlphanumeric =
            (inside[start + "bearer".length]?).any isByteAlphanumeric := by
        rw [Nat.add_assoc (before.length + 1)]
        exact any_enclose (by decide) hend
      have hskip : scanForward isByteWhitespace inside (start + "bearer".length) ≤ inside.length :=
        scanForward_le hend
      rw [if_neg hfree]
      dsimp only at hspan ⊢
      rw [hnext, Nat.add_assoc (before.length + 1), scanForward_enclose (by decide) hend,
        scanForward_enclose (by decide) hskip]
      split at hspan
      · exact absurd hspan (by simp)
      · rename_i hplain
        rw [if_neg hplain]
        split at hspan
        · rename_i hlong
          obtain ⟨rfl, rfl⟩ := Prod.mk.inj (Option.some.inj hspan)
          rw [if_pos (by omega)]
        · exact absurd hspan (by simp)

structure JwtAt (bytes : List UInt8) (a b : ℕ) : Prop where
  first : (bytes[a]?).any jwtChar = true
  start : precededBy jwtChar bytes a = false
  stop : b = scanForward jwtChar bytes a
  token : isJwt ((bytes.drop a).take (b - a)) = true

theorem jwtAt_of_mem {bytes : List UInt8} {fuel start : ℕ}
    (hstart : precededBy jwtChar bytes start = false ∨ (bytes[start]?).any jwtChar = false)
    (h : (a, b) ∈ collectJwts bytes fuel start) : JwtAt bytes a b := by
  induction fuel generalizing start with
  | zero => exact absurd h List.not_mem_nil
  | succ fuel ih =>
    rw [collectJwts] at h
    cases hbyte : bytes[start]? with
    | none =>
      rw [hbyte] at h
      exact absurd h List.not_mem_nil
    | some byte =>
      rw [hbyte] at h
      dsimp only at h
      by_cases hjwt : jwtChar byte = true
      · rw [if_pos hjwt] at h
        rcases List.mem_append.mp h with h | h
        · split at h
          · rename_i htoken
            obtain ⟨rfl, rfl⟩ := Prod.mk.inj (List.mem_singleton.mp h)
            refine ⟨by rw [hbyte]; exact hjwt, ?_, rfl, htoken⟩
            rcases hstart with hstart | hstart
            · exact hstart
            · rw [hbyte] at hstart
              exact absurd hjwt (by simpa using hstart)
          · exact absurd h List.not_mem_nil
        · exact ih (.inr (scanForward_stop jwtChar bytes start)) h
      · rw [if_neg hjwt] at h
        apply ih _ h
        left
        rw [precededBy, Nat.add_sub_cancel, hbyte]
        simpa using hjwt

theorem JwtAt.mem {bytes : List UInt8} (h : JwtAt bytes a b) {fuel start : ℕ}
    (hfuel : bytes.length < fuel + start) (hstart : start ≤ a) :
    (a, b) ∈ collectJwts bytes fuel start := by
  have ha : a < bytes.length := by
    by_contra hge
    have hfirst := h.first
    rw [List.getElem?_eq_none (by omega)] at hfirst
    exact absurd hfirst (by decide)
  induction fuel generalizing start with
  | zero => omega
  | succ fuel ih =>
    rw [collectJwts, List.getElem?_eq_getElem (by omega)]
    dsimp only
    by_cases hjwt : jwtChar bytes[start] = true
    · rw [if_pos hjwt, List.mem_append]
      by_cases hsame : start = a
      · left
        subst hsame
        rw [← h.stop, if_pos h.token]
        exact List.mem_singleton.mpr rfl
      · right
        have hpast := lt_scanForward (by omega) hjwt
        have hstop : scanForward jwtChar bytes start ≤ a := by
          by_contra hinside
          have hprevious := scanForward_all (show start ≤ a - 1 by omega)
            (show a - 1 < scanForward jwtChar bytes start by omega)
          have hedge := h.start
          rw [precededBy, hprevious, Bool.and_true, decide_eq_false_iff_not] at hedge
          omega
        exact ih (by omega) hstop
    · rw [if_neg hjwt]
      apply ih (by omega)
      have hne : start ≠ a := by
        rintro rfl
        have hfirst := h.first
        rw [List.getElem?_eq_getElem ha] at hfirst
        exact hjwt (by simpa using hfirst)
      omega

theorem jwts_enclose (h : (a, b) ∈ collectJwts inside (inside.length + 1) 0) :
    (before.length + 1 + a, before.length + 1 + b) ∈ collectJwts (enclose before inside after)
      ((enclose before inside after).length + 1) 0 := by
  have hat := jwtAt_of_mem (.inl (by simp [precededBy])) h
  have ha : a < inside.length := by
    by_contra hge
    have hfirst := hat.first
    rw [List.getElem?_eq_none (by omega)] at hfirst
    exact absurd hfirst (by decide)
  have hle : b ≤ inside.length := hat.stop ▸ scanForward_le (Nat.le_of_lt ha)
  apply JwtAt.mem _ (by omega) (Nat.zero_le _)
  constructor
  · rw [getElem?_enclose ha]
    exact hat.first
  · rw [precededBy_enclose (by decide) (Nat.le_of_lt ha)]
    exact hat.start
  · rw [scanForward_enclose (by decide) (Nat.le_of_lt ha), ← hat.stop]
  · rw [drop_enclose (Nat.le_of_lt ha), Nat.add_sub_add_left,
      List.take_append_of_le_length (by rw [List.length_drop]; omega)]
    exact hat.token

end Tokens

section Chars

variable {front cs rest : List Char} {n : ℕ}

theorem asBytes_ofList (cs : List Char) : asBytes (String.ofList cs) = bytesOf cs := by
  rw [asBytes, String.toByteArray_ofList, List.utf8Encode]
  simp [bytesOf]

theorem bytesOf_enclose (front cs rest : List Char) :
    bytesOf (front ++ '"' :: (cs ++ '"' :: rest)) =
      enclose (bytesOf front) (bytesOf cs) (bytesOf rest) := by
  have hquote : String.utf8EncodeChar '"' = [quoteByte] := by decide
  simp only [bytesOf, enclose, List.flatMap_append, List.flatMap_cons, hquote,
    List.singleton_append]

end Chars

section Quoted

variable {front cs rest : List Char} {i : ℕ}

def quoted (front cs rest : List Char) : List Char := front ++ '"' :: (cs ++ '"' :: rest)

theorem quoted_eq (front cs rest : List Char) :
    quoted front cs rest = (front ++ ['"']) ++ (cs ++ '"' :: rest) := by
  simp [quoted]

theorem utf8Len_front (front : List Char) : utf8Len (front ++ ['"']) = utf8Len front + 1 := by
  rw [utf8Len_append]
  rfl

theorem dropBytes_quoted (h : i ≤ utf8Len cs) :
    dropBytes (utf8Len front + 1 + i) (quoted front cs rest) = dropBytes i cs ++ '"' :: rest := by
  rw [quoted_eq, ← utf8Len_front, dropBytes_front, dropBytes_append h]

theorem isCharBoundary_quoted (h : i ≤ utf8Len cs) :
    isCharBoundary (utf8Len front + 1 + i) (quoted front cs rest) = isCharBoundary i cs := by
  rw [quoted_eq, ← utf8Len_front, isCharBoundary_front, isCharBoundary_append h]

theorem slice_quoted {a b : ℕ} (ha : isCharBoundary a cs = true) (hb : b ≤ utf8Len cs) :
    slice (utf8Len front + 1 + a) (utf8Len front + 1 + b) (quoted front cs rest) =
      slice a b cs := by
  rw [slice, slice, dropBytes_quoted (le_of_isCharBoundary ha), Nat.add_sub_add_left,
    takeBytes_append]
  rw [utf8Len_dropBytes ha]
  omega

theorem skipForward_quoted (h : i ≤ utf8Len cs) :
    skipForwardWhitespace (quoted front cs rest) (utf8Len front + 1 + i) =
      utf8Len front + 1 + skipForwardWhitespace cs i := by
  rw [skipForwardWhitespace, skipForwardWhitespace, dropBytes_quoted h,
    takeWhile_append_stop (by decide)]
  omega

theorem skipForward_le (h : i ≤ utf8Len cs) : skipForwardWhitespace cs i ≤ utf8Len cs := by
  have htake := utf8Len_mono (List.takeWhile_prefix (l := dropBytes i cs) isWhitespace)
  have hdrop := utf8Len_dropBytes_le i cs
  rw [skipForwardWhitespace]
  omega

theorem takeWhile_append_of_exists {α : Type} {p : α → Bool} {xs : List α} {x : α} (hx : x ∈ xs)
    (hp : p x = false) (ys : List α) : (xs ++ ys).takeWhile p = xs.takeWhile p := by
  induction xs with
  | nil => exact absurd hx List.not_mem_nil
  | cons a xs ih =>
    rw [List.cons_append, List.takeWhile_cons, List.takeWhile_cons]
    by_cases ha : p a = true
    · rw [if_pos ha, if_pos ha, ih]
      rcases List.mem_cons.mp hx with rfl | hx
      · exact absurd ha (by simp [hp])
      · exact hx
    · rw [if_neg ha, if_neg ha]

theorem skipBackward_quoted (h : isCharBoundary i cs = true)
    (hlabel : skipBackwardLabelSpacing cs i ≠ 0) :
    skipBackwardLabelSpacing (quoted front cs rest) (utf8Len front + 1 + i) =
      utf8Len front + 1 + skipBackwardLabelSpacing cs i := by
  have hle := le_of_isCharBoundary h
  have htake : takeBytes (utf8Len front + 1 + i) (quoted front cs rest) =
      (front ++ ['"']) ++ takeBytes i cs := by
    rw [quoted_eq, ← utf8Len_front, takeBytes_front, takeBytes_append hle]
  have hreverse : utf8Len (takeBytes i cs).reverse = i := by
    rw [utf8Len, List.map_reverse, List.sum_reverse, ← utf8Len, utf8Len_takeBytes h]
  have hlength := utf8Len_mono (List.takeWhile_prefix (l := (takeBytes i cs).reverse)
    fun c => isWhitespace c || isQuote c)
  rw [hreverse] at hlength
  by_cases hall : ∀ c ∈ (takeBytes i cs).reverse, (isWhitespace c || isQuote c) = true
  · exfalso
    apply hlabel
    rw [skipBackwardLabelSpacing, List.takeWhile_eq_self_iff.mpr hall, hreverse, Nat.sub_self]
  · simp only [not_forall, Bool.not_eq_true] at hall
    obtain ⟨c, hc, hstop⟩ := hall
    rw [skipBackwardLabelSpacing, skipBackwardLabelSpacing, htake, List.reverse_append,
      takeWhile_append_of_exists hc hstop]
    omega

end Quoted

section Values

theorem trim_eq (cs : List Char) : trim (String.ofList cs) = String.ofList (trimChars cs) := by
  rw [trim, trimChars, String.toList_ofList]

theorem trimChars_more {cs : List Char} (h : trimChars cs ≠ []) (more : List Char) :
    trimChars cs <+: trimChars (cs ++ '"' :: more) ∧ '"' ∈ trimChars (cs ++ '"' :: more) := by
  have hdrop : cs.dropWhile isWhitespace ≠ [] := by
    intro hnil
    apply h
    rw [trimChars, hnil]
    rfl
  obtain ⟨c, tail, htail⟩ := List.exists_cons_of_ne_nil hdrop
  have hc : isWhitespace c = false := by
    have hhead := List.head_dropWhile_not isWhitespace hdrop
    simpa [htail] using hhead
  have hcs : cs = cs.takeWhile isWhitespace ++ c :: tail := by
    rw [← htail, List.takeWhile_append_dropWhile]
  obtain ⟨kept, hkept⟩ := trimChars_start tail
    (fun b hb => List.mem_takeWhile_imp hb) hc (by decide : isWhitespace '"' = false) more
  have hmore : cs ++ '"' :: more = cs.takeWhile isWhitespace ++ c :: (tail ++ '"' :: more) := by
    rw [← List.cons_append, ← List.append_assoc, ← hcs]
  rw [hmore, hkept]
  refine ⟨?_, by simp⟩
  have hlead : trimChars cs <+: c :: tail := by
    rw [trimChars, htail, ← List.reverse_suffix, List.reverse_reverse]
    exact List.dropWhile_suffix _
  exact hlead.trans ⟨'"' :: kept, by simp⟩

def exemptValues : List String :=
  ["none", "null", "false", "true", "example", "placeholder", "redacted"]

theorem shouldRedact_iff (label : String) (cs : List Char) :
    shouldRedactAssignment label cs = true ↔ 5 ≤ utf8Len (trimChars cs) ∧
      (trimChars cs).all isAsciiDigit = false ∧
      exemptValues.contains (toAsciiLowercase (String.ofList (trimChars cs))) = false ∧
      (∀ start ∈ ["$\x7b", "\x7b\x7b", "["], start.toList.isPrefixOf (trimChars cs) = false) ∧
      (label = "key" → 16 ≤ utf8Len (trimChars cs)) := by
  rw [shouldRedactAssignment, trim_eq, utf8ByteSize_eq, String.toList_ofList, ← exemptValues]
  simp only [startsWith, String.toList_ofList, List.forall_mem_cons, List.not_mem_nil,
    false_imp_iff, implies_true, and_true]
  constructor
  · intro h
    split at h
    · exact absurd h (by decide)
    · rename_i hfree
      simp only [Bool.or_eq_true, not_or, decide_eq_true_eq, Bool.not_eq_true, not_lt] at hfree
      obtain ⟨⟨⟨⟨⟨hlength, hdigits⟩, hexempt⟩, hdollar⟩, hbrace⟩, hbracket⟩ := hfree
      refine ⟨hlength, hdigits, hexempt, ⟨hdollar, hbrace, hbracket⟩, fun hkey => ?_⟩
      rw [if_pos hkey, decide_eq_true_eq] at h
      exact h
  · rintro ⟨hlength, hdigits, hexempt, ⟨hdollar, hbrace, hbracket⟩, hkey⟩
    rw [if_neg]
    · split
      · rename_i hlabel
        exact decide_eq_true (hkey hlabel)
      · rfl
    · simp only [Bool.or_eq_true, not_or, decide_eq_true_eq, Bool.not_eq_true, not_lt]
      exact ⟨⟨⟨⟨⟨hlength, hdigits⟩, hexempt⟩, hdollar⟩, hbrace⟩, hbracket⟩

theorem two_le_length {cs : List Char} (h : 5 ≤ utf8Len cs) : 2 ≤ cs.length := by
  cases cs with
  | nil => simp at h
  | cons c cs =>
    cases cs with
    | nil =>
      have hsize := c.utf8Size_le_four
      rw [utf8Len_cons, utf8Len_nil] at h
      omega
    | cons d cs => simp

theorem shouldRedact_more {label : String} {cs : List Char}
    (h : shouldRedactAssignment label cs = true) (more : List Char) :
    shouldRedactAssignment label (cs ++ '"' :: more) = true := by
  rw [shouldRedact_iff] at h ⊢
  obtain ⟨hlength, -, -, hstarts, hkey⟩ := h
  have hne : trimChars cs ≠ [] := by
    intro hnil
    rw [hnil, utf8Len_nil] at hlength
    omega
  obtain ⟨hlead, hquote⟩ := trimChars_more hne more
  have hgrows := utf8Len_mono hlead
  refine ⟨by omega, ?_, ?_, ?_, fun hlabel => (hkey hlabel).trans hgrows⟩
  · rw [Bool.eq_false_iff]
    intro hall
    exact absurd (List.all_eq_true.mp hall _ hquote) (by decide)
  · rw [Bool.eq_false_iff]
    intro hexempt
    have hplain : ∀ value ∈ exemptValues, '"' ∉ value.toList := by decide
    apply hplain _ (List.contains_iff_mem.mp hexempt)
    rw [toAsciiLowercase, String.toList_ofList, String.toList_ofList]
    exact List.mem_map_of_mem (f := Char.toLower) hquote
  · intro start hstart
    rw [Bool.eq_false_iff, Ne, List.isPrefixOf_iff_prefix]
    intro hlong
    have hshort : start.toList <+: trimChars cs := by
      apply List.prefix_of_prefix_length_le hlong hlead
      have hsize : ∀ start ∈ ["$\x7b", "\x7b\x7b", "["], start.toList.length ≤ 2 := by decide
      exact (hsize start hstart).trans (two_le_length hlength)
    have hfree := hstarts start hstart
    rw [Bool.eq_false_iff, Ne, List.isPrefixOf_iff_prefix] at hfree
    exact hfree hshort

end Values

section Closing

variable {before inside after : List UInt8} {quote : UInt8} {start stop : ℕ}

theorem closingQuote_spec {bytes : List UInt8} {fuel : ℕ} (hfuel : bytes.length < fuel + stop)
    (hstop : stop ≤ bytes.length) : stop ≤ closingQuote quote bytes start fuel stop ∧
      (closingQuote quote bytes start fuel stop = bytes.length ∨
        bytes[closingQuote quote bytes start fuel stop]? = some quote) := by
  induction fuel generalizing stop with
  | zero => omega
  | succ fuel ih =>
    rw [closingQuote]
    cases hbyte : bytes[stop]? with
    | none =>
      have hend := List.getElem?_eq_none_iff.mp hbyte
      dsimp only
      exact ⟨Nat.le_refl _, .inl (by omega)⟩
    | some byte =>
      have hlt := (List.getElem?_eq_some_iff.mp hbyte).1
      dsimp only
      split
      · rename_i hclose
        rw [Bool.and_eq_true, decide_eq_true_eq] at hclose
        exact ⟨Nat.le_refl _, .inr (by rw [hbyte, hclose.1])⟩
      · obtain ⟨hle, hend⟩ := @ih (stop + 1) (by omega) (by omega)
        exact ⟨by omega, hend⟩

theorem closingQuote_enclose {fuel fuel' : ℕ} (hfuel : inside.length < fuel + stop)
    (hmore : (enclose before inside after).length < fuel' + (before.length + 1 + stop))
    (hstart : start ≤ stop) (hstop : stop ≤ inside.length) :
    closingQuote quote (enclose before inside after) (before.length + 1 + start) fuel'
        (before.length + 1 + stop) =
      before.length + 1 + closingQuote quote inside start fuel stop ∨
    closingQuote quote inside start fuel stop = inside.length ∧
      before.length + 1 + inside.length ≤ closingQuote quote (enclose before inside after)
        (before.length + 1 + start) fuel' (before.length + 1 + stop) := by
  induction fuel generalizing stop fuel' with
  | zero => omega
  | succ fuel ih =>
    have hwhole := @length_enclose before inside after
    cases hbyte : inside[stop]? with
    | none =>
      have hend := List.getElem?_eq_none_iff.mp hbyte
      have hsame : stop = inside.length := by omega
      right
      rw [closingQuote, hbyte]
      refine ⟨hsame, ?_⟩
      have hspec := @closingQuote_spec quote (before.length + 1 + start)
        (before.length + 1 + stop) (enclose before inside after) fuel' hmore (by omega)
      omega
    | some byte =>
      have hlt := (List.getElem?_eq_some_iff.mp hbyte).1
      obtain ⟨rest, rfl⟩ : ∃ rest, fuel' = rest + 1 := ⟨fuel' - 1, by omega⟩
      have hcondition : (byte = quote && (before.length + 1 + stop == before.length + 1 + start ||
          (enclose before inside after)[before.length + 1 + stop - 1]? !=
            some (UInt8.ofNat '\\'.toNat))) =
          (byte = quote && (stop == start ||
            inside[stop - 1]? != some (UInt8.ofNat '\\'.toNat))) := by
        by_cases hsame : stop = start
        · simp [hsame]
        · have hindex : before.length + 1 + stop - 1 = before.length + 1 + (stop - 1) := by omega
          have hshift : (before.length + 1 + stop == before.length + 1 + start) =
              (stop == start) := by
            rw [Bool.eq_iff_iff, beq_iff_eq, beq_iff_eq]
            omega
          rw [hindex, getElem?_enclose (by omega), hshift]
      rw [closingQuote, closingQuote, getElem?_enclose hlt, hbyte]
      dsimp only
      rw [hcondition]
      split
      · exact .inl rfl
      · exact @ih (stop + 1) rest (by omega) (by omega) (by omega) (by omega)

end Closing

section Assignments

variable (cs : List Char) (bytes : List UInt8) (separator : ℕ)

def labelStart : ℕ := scanBackward labelChar bytes (skipBackwardLabelSpacing cs separator)

def labelAt : String :=
  toAsciiLowercase (String.ofList
    (slice (labelStart cs bytes separator) (skipBackwardLabelSpacing cs separator) cs))

def openingQuote : Option UInt8 :=
  (bytes[skipForwardWhitespace cs (separator + 1)]?).filter fun byte => isQuote (charOf byte)

def pastQuote : ℕ :=
  if (openingQuote cs bytes separator).isSome then skipForwardWhitespace cs (separator + 1) + 1
  else skipForwardWhitespace cs (separator + 1)

def valueStart : ℕ :=
  if startsWithIgnoreAsciiCase bytes (pastQuote cs bytes separator) "bearer" then
    skipForwardWhitespace cs (pastQuote cs bytes separator + "bearer".length)
  else pastQuote cs bytes separator

def valueStop : ℕ :=
  match openingQuote cs bytes separator with
  | some quote => closingQuote quote bytes (valueStart cs bytes separator) (bytes.length + 1)
      (valueStart cs bytes separator)
  | none => scanForward (fun byte => !assignmentDelimiter byte) bytes
      (valueStart cs bytes separator)

variable {cs bytes separator} {a b : ℕ}

structure AssignmentAt (cs : List Char) (bytes : List UInt8) (separator a b : ℕ) : Prop where
  separates : (bytes[separator]?).any (fun byte => charOf byte == '=' || charOf byte == ':') = true
  labelled : labelStart cs bytes separator ≠ skipBackwardLabelSpacing cs separator
  sensitive : sensitiveLabel (labelAt cs bytes separator) = true
  start : a = valueStart cs bytes separator
  stop : b = valueStop cs bytes separator
  redacts : shouldRedactAssignment (labelAt cs bytes separator) (slice a b cs) = true

theorem collectAssignments_eq (cs : List Char) (bytes : List UInt8) :
    collectAssignments cs bytes = (List.range bytes.length).filterMap fun separator =>
      if !(bytes[separator]?).any (fun byte => charOf byte == '=' || charOf byte == ':') then none
      else if labelStart cs bytes separator = skipBackwardLabelSpacing cs separator ||
          !sensitiveLabel (labelAt cs bytes separator) then none
      else if shouldRedactAssignment (labelAt cs bytes separator)
          (slice (valueStart cs bytes separator) (valueStop cs bytes separator) cs) then
        some (valueStart cs bytes separator, valueStop cs bytes separator)
      else none := by
  rw [collectAssignments]
  apply List.filterMap_congr
  intro separator _
  simp only [labelStart, labelAt, valueStop, valueStart, pastQuote, openingQuote]
  rfl

theorem mem_collectAssignments : (a, b) ∈ collectAssignments cs bytes ↔
    ∃ separator, separator < bytes.length ∧ AssignmentAt cs bytes separator a b := by
  rw [collectAssignments_eq, List.mem_filterMap]
  apply exists_congr
  intro separator
  rw [List.mem_range]
  apply and_congr_right
  intro _
  constructor
  · intro h
    split at h
    · exact absurd h (by simp)
    · rename_i hseparates
      split at h
      · exact absurd h (by simp)
      · rename_i hlabel
        rw [Bool.or_eq_true, not_or, decide_eq_true_eq, Bool.not_eq_true'] at hlabel
        split at h
        · rename_i hredact
          obtain ⟨rfl, rfl⟩ := Prod.mk.inj (Option.some.inj h)
          exact ⟨by simpa using hseparates, hlabel.1, by simpa using hlabel.2, rfl, rfl, hredact⟩
        · exact absurd h (by simp)
  · intro h
    obtain ⟨hseparates, hlabelled, hsensitive, rfl, rfl, hredacts⟩ := h
    rw [hseparates, Bool.not_true, if_neg Bool.false_ne_true, if_neg, if_pos hredacts]
    rw [Bool.or_eq_true, not_or, decide_eq_true_eq]
    exact ⟨hlabelled, by simpa using hsensitive⟩

end Assignments

section Whole

variable {front cs rest : List Char} {a b : ℕ}

theorem toNat_charOf (byte : UInt8) : (charOf byte).toNat = byte.toNat := by
  have hvalid : byte.toNat.isValidChar := .inl (byte.toNat_lt.trans (by decide))
  rw [charOf, Char.ofNat, dif_pos hvalid]
  rfl

theorem ascii_of_charOf {byte : UInt8} (h : (charOf byte).toNat < 128) : byte < 0x80 := by
  rw [toNat_charOf] at h
  exact UInt8.lt_iff_toNat_lt.mpr h

theorem ascii_of_isQuote {byte : UInt8} (h : isQuote (charOf byte) = true) : byte < 0x80 := by
  apply ascii_of_charOf
  simp only [isQuote, Bool.or_eq_true, beq_iff_eq] at h
  rcases h with (h | h) | h <;> rw [h] <;> decide

theorem ascii_of_alphanumeric {c : Char} (h : isAsciiAlphanumeric c = true) : c.toNat < 128 := by
  simp only [isAsciiAlphanumeric, isAsciiDigit, isAsciiLowercase, isAsciiUppercase,
    Bool.or_eq_true, Bool.and_eq_true, decide_eq_true_eq, Char.le_def, UInt32.le_iff_toNat_le] at h
  have htop : c.toNat ≤ 122 := by
    rcases h with (⟨-, h⟩ | ⟨-, h⟩) | ⟨-, h⟩
    · exact h.trans (by decide)
    · exact h.trans (by decide)
    · exact h.trans (by decide)
  omega

theorem ascii_of_labelChar {byte : UInt8} (h : labelChar byte = true) : byte < 0x80 := by
  apply ascii_of_charOf
  simp only [labelChar, Bool.or_eq_true, beq_iff_eq] at h
  rcases h with (h | h) | h
  · exact ascii_of_alphanumeric h
  · rw [h]
    decide
  · rw [h]
    decide

theorem scanBackward_le {p : UInt8 → Bool} {bytes : List UInt8} {index : ℕ} :
    scanBackward p bytes index ≤ index := by
  rw [scanBackward]
  omega

theorem scanBackward_first {p : UInt8 → Bool} {bytes : List UInt8} {index : ℕ}
    (h : scanBackward p bytes index ≠ index) (hindex : index ≤ bytes.length) :
    (bytes[scanBackward p bytes index]?).any p = true := by
  have hlead := List.takeWhile_prefix (l := (bytes.take index).reverse) p
  have hlength := hlead.length_le
  rw [List.length_reverse, List.length_take, Nat.min_eq_left hindex] at hlength
  rw [scanBackward] at h ⊢
  generalize hrun : (bytes.take index).reverse.takeWhile p = run at *
  have hbound : run.length - 1 < run.length := by omega
  have hlast := hlead.getElem hbound
  have hp : p run[run.length - 1] = true := by
    have hall : ∀ byte ∈ run, p byte = true := by
      rw [← hrun]
      exact fun byte hbyte => List.mem_takeWhile_imp hbyte
    exact hall _ (List.getElem_mem hbound)
  rw [hlast, List.getElem_reverse, List.getElem_take] at hp
  have hplace : min index bytes.length - 1 - (run.length - 1) = index - run.length := by omega
  rw [List.getElem?_eq_getElem (by omega)]
  simpa [hplace] using hp

theorem labelSpacing_le (cs : List Char) (i : ℕ) : skipBackwardLabelSpacing cs i ≤ i := by
  rw [skipBackwardLabelSpacing]
  omega

theorem labelStart_enclose {separator : ℕ} (hboundary : isCharBoundary separator cs = true)
    (hlabel : skipBackwardLabelSpacing cs separator ≠ 0) :
    labelStart (quoted front cs rest) (bytesOf (quoted front cs rest))
        (utf8Len front + 1 + separator) =
      utf8Len front + 1 + labelStart cs (bytesOf cs) separator := by
  have hle := (labelSpacing_le cs separator).trans (le_of_isCharBoundary hboundary)
  rw [labelStart, labelStart, skipBackward_quoted hboundary hlabel, quoted, bytesOf_enclose,
    ← length_bytesOf front]
  apply scanBackward_enclose (by decide)
  rw [length_bytesOf]
  exact hle

theorem labelAt_enclose {separator : ℕ} (hboundary : isCharBoundary separator cs = true)
    (hlabel : labelStart cs (bytesOf cs) separator ≠ skipBackwardLabelSpacing cs separator) :
    labelAt (quoted front cs rest) (bytesOf (quoted front cs rest))
        (utf8Len front + 1 + separator) = labelAt cs (bytesOf cs) separator := by
  have hle := (labelSpacing_le cs separator).trans (le_of_isCharBoundary hboundary)
  have hstart : labelStart cs (bytesOf cs) separator ≤ skipBackwardLabelSpacing cs separator :=
    scanBackward_le
  have hne : skipBackwardLabelSpacing cs separator ≠ 0 := by omega
  have hascii : isCharBoundary (labelStart cs (bytesOf cs) separator) cs = true := by
    have hfirst := scanBackward_first (p := labelChar) hlabel (by rw [length_bytesOf]; exact hle)
    obtain ⟨byte, hbyte, hchar⟩ := (Option.any_eq_true _ _).mp hfirst
    exact isCharBoundary_of_ascii hbyte (ascii_of_labelChar hchar)
  rw [labelAt, labelAt, labelStart_enclose hboundary hne, skipBackward_quoted hboundary hne,
    slice_quoted hascii hle]

theorem bearer_plain : (asciiBytes "bearer").length = "bearer".length ∧
    quoteByte ∉ (asciiBytes "bearer").map byteLowercase := by
  decide

section Value

variable {separator : ℕ} (h : skipForwardWhitespace cs (separator + 1) < utf8Len cs)
include h

theorem openingQuote_enclose :
    openingQuote (quoted front cs rest) (bytesOf (quoted front cs rest))
        (utf8Len front + 1 + separator) = openingQuote cs (bytesOf cs) separator := by
  have hle : separator + 1 ≤ utf8Len cs := by
    rw [skipForwardWhitespace] at h
    omega
  rw [openingQuote, openingQuote, Nat.add_assoc _ separator, skipForward_quoted hle, quoted,
    bytesOf_enclose, ← length_bytesOf front, getElem?_enclose (by rw [length_bytesOf]; exact h)]

theorem pastQuote_enclose :
    pastQuote (quoted front cs rest) (bytesOf (quoted front cs rest))
        (utf8Len front + 1 + separator) =
      utf8Len front + 1 + pastQuote cs (bytesOf cs) separator := by
  have hle : separator + 1 ≤ utf8Len cs := by
    rw [skipForwardWhitespace] at h
    omega
  rw [pastQuote, pastQuote, openingQuote_enclose h, Nat.add_assoc _ separator,
    skipForward_quoted hle]
  split <;> omega

theorem pastQuote_le : pastQuote cs (bytesOf cs) separator ≤ utf8Len cs := by
  rw [pastQuote]
  split <;> omega

theorem valueStart_enclose :
    valueStart (quoted front cs rest) (bytesOf (quoted front cs rest))
        (utf8Len front + 1 + separator) =
      utf8Len front + 1 + valueStart cs (bytesOf cs) separator := by
  have hpast := pastQuote_le h
  have hbearer : startsWithIgnoreAsciiCase (bytesOf (quoted front cs rest))
      (utf8Len front + 1 + pastQuote cs (bytesOf cs) separator) "bearer" =
        startsWithIgnoreAsciiCase (bytesOf cs) (pastQuote cs (bytesOf cs) separator) "bearer" := by
    rw [quoted, bytesOf_enclose, ← length_bytesOf front]
    exact startsWith_enclose bearer_plain.1 bearer_plain.2 (by rw [length_bytesOf]; exact hpast)
  rw [valueStart, valueStart, pastQuote_enclose h, hbearer]
  split
  · rename_i hmatch
    have hend := length_of_startsWith bearer_plain.1 hmatch (by rw [length_bytesOf]; exact hpast)
    rw [length_bytesOf] at hend
    rw [Nat.add_assoc, skipForward_quoted hend]
  · rfl

theorem valueStart_le : valueStart cs (bytesOf cs) separator ≤ utf8Len cs := by
  have hpast := pastQuote_le h
  rw [valueStart]
  split
  · rename_i hmatch
    have hend := length_of_startsWith bearer_plain.1 hmatch (by rw [length_bytesOf]; exact hpast)
    rw [length_bytesOf] at hend
    exact skipForward_le hend
  · exact hpast

end Value

theorem follows_of_value {separator : ℕ} (hseparator : separator < utf8Len cs)
    (h : valueStart cs (bytesOf cs) separator < valueStop cs (bytesOf cs) separator) :
    skipForwardWhitespace cs (separator + 1) < utf8Len cs := by
  have hle : skipForwardWhitespace cs (separator + 1) ≤ utf8Len cs := skipForward_le hseparator
  by_contra hend
  have hskip : skipForwardWhitespace cs (separator + 1) = utf8Len cs := by omega
  have hlength := length_bytesOf cs
  have hnone : openingQuote cs (bytesOf cs) separator = none := by
    rw [openingQuote, hskip, List.getElem?_eq_none (by omega)]
    rfl
  have hpast : pastQuote cs (bytesOf cs) separator = utf8Len cs := by
    rw [pastQuote, hnone, hskip]
    rfl
  have hbearer : startsWithIgnoreAsciiCase (bytesOf cs) (utf8Len cs) "bearer" = false := by
    rw [Bool.eq_false_iff]
    intro hmatch
    have hfits := length_of_startsWith bearer_plain.1 hmatch (by omega)
    have hpos : 0 < "bearer".length := by decide
    omega
  have hstart : valueStart cs (bytesOf cs) separator = utf8Len cs := by
    rw [valueStart, hpast, hbearer]
    rfl
  have hstop : valueStop cs (bytesOf cs) separator = utf8Len cs := by
    have hscan : scanForward (fun byte => !assignmentDelimiter byte) (bytesOf cs) (utf8Len cs) ≤
        (bytesOf cs).length := scanForward_le (by omega)
    have hle : utf8Len cs ≤ scanForward (fun byte => !assignmentDelimiter byte) (bytesOf cs)
        (utf8Len cs) := Nat.le_add_right _ _
    rw [valueStop, hnone, hstart]
    dsimp only
    omega
  omega

theorem valueStop_enclose {separator : ℕ} (hseparator : separator < utf8Len cs)
    (h : valueStart cs (bytesOf cs) separator < valueStop cs (bytesOf cs) separator) :
    valueStop (quoted front cs rest) (bytesOf (quoted front cs rest))
        (utf8Len front + 1 + separator) =
      utf8Len front + 1 + valueStop cs (bytesOf cs) separator ∨
    valueStop cs (bytesOf cs) separator = utf8Len cs ∧
      utf8Len front + 1 + utf8Len cs < valueStop (quoted front cs rest)
        (bytesOf (quoted front cs rest)) (utf8Len front + 1 + separator) ∧
      isCharBoundary (valueStop (quoted front cs rest) (bytesOf (quoted front cs rest))
        (utf8Len front + 1 + separator)) (quoted front cs rest) = true := by
  have hfollows := follows_of_value hseparator h
  have hstart := valueStart_le hfollows
  have hlength := length_bytesOf cs
  have hwhole : bytesOf (quoted front cs rest) =
      enclose (bytesOf front) (bytesOf cs) (bytesOf rest) := by rw [quoted, bytesOf_enclose]
  have hsize := @length_enclose (bytesOf front) (bytesOf cs) (bytesOf rest)
  rw [valueStop, valueStop, openingQuote_enclose hfollows, valueStart_enclose hfollows]
  cases hopen : openingQuote cs (bytesOf cs) separator with
  | none =>
    left
    dsimp only
    rw [hwhole, ← length_bytesOf front]
    exact scanForward_enclose (by decide) (by omega)
  | some quote =>
    dsimp only
    obtain ⟨byte, hbyte⟩ : ∃ n, (bytesOf cs)[n]? = some quote ∧ isQuote (charOf quote) = true := by
      rw [openingQuote, Option.filter_eq_some_iff] at hopen
      exact ⟨_, hopen⟩
    have hfuel : (bytesOf cs).length <
        (bytesOf cs).length + 1 + valueStart cs (bytesOf cs) separator := by omega
    have hmore : (enclose (bytesOf front) (bytesOf cs) (bytesOf rest)).length <
        (bytesOf (quoted front cs rest)).length + 1 +
          ((bytesOf front).length + 1 + valueStart cs (bytesOf cs) separator) := by
      rw [hwhole]
      omega
    have hfind := @closingQuote_enclose (bytesOf front) (bytesOf cs) (bytesOf rest) quote
      (valueStart cs (bytesOf cs) separator) (valueStart cs (bytesOf cs) separator)
      ((bytesOf cs).length + 1) ((bytesOf (quoted front cs rest)).length + 1) hfuel hmore
      (Nat.le_refl _) (by omega)
    have hspec := @closingQuote_spec quote
      ((bytesOf front).length + 1 + valueStart cs (bytesOf cs) separator)
      ((bytesOf front).length + 1 + valueStart cs (bytesOf cs) separator)
      (bytesOf (quoted front cs rest)) ((bytesOf (quoted front cs rest)).length + 1)
      (by omega) (by rw [hwhole]; omega)
    rw [← hwhole] at hfind
    rw [length_bytesOf front] at hfind hspec
    generalize closingQuote quote (bytesOf (quoted front cs rest))
      (utf8Len front + 1 + valueStart cs (bytesOf cs) separator)
      ((bytesOf (quoted front cs rest)).length + 1)
      (utf8Len front + 1 + valueStart cs (bytesOf cs) separator) = found at hfind hspec ⊢
    rcases hfind with hsame | ⟨hend, hbeyond⟩
    · exact .inl hsame
    · rw [hend, hlength] at *
      by_cases hexact : found = utf8Len front + 1 + utf8Len cs
      · exact .inl hexact
      · right
        refine ⟨rfl, by omega, ?_⟩
        rcases hspec.2 with htotal | hclose
        · rw [htotal, length_bytesOf]
          exact isCharBoundary_end _
        · exact isCharBoundary_of_ascii hclose (ascii_of_isQuote hbyte.2)

theorem takeBytes_beyond {n : ℕ} (h : utf8Len cs < n) :
    ∃ more, takeBytes n (cs ++ '"' :: rest) = cs ++ '"' :: more := by
  induction cs generalizing n with
  | nil =>
    refine ⟨takeBytes (n - 1) rest, ?_⟩
    rw [List.nil_append, takeBytes, if_neg (by rw [utf8Len_nil] at h; omega)]
    rfl
  | cons c cs ih =>
    rw [utf8Len_cons] at h
    obtain ⟨more, hmore⟩ := @ih (n - c.utf8Size) (by omega)
    refine ⟨more, ?_⟩
    rw [List.cons_append, takeBytes, if_neg (by omega), hmore, List.cons_append]

theorem AssignmentAt.quoted {separator : ℕ} (h : AssignmentAt cs (bytesOf cs) separator a b)
    (hseparator : separator < utf8Len cs) (hab : a < b) (ha : isCharBoundary a cs = true)
    (hb : isCharBoundary b cs = true) : ∃ b', utf8Len front + 1 + b ≤ b' ∧
      isCharBoundary b' (quoted front cs rest) = true ∧
      AssignmentAt (quoted front cs rest) (bytesOf (quoted front cs rest))
        (utf8Len front + 1 + separator) (utf8Len front + 1 + a) b' := by
  have hbound := le_of_isCharBoundary hb
  have hle := le_of_isCharBoundary ha
  have hascii : isCharBoundary separator cs = true := by
    obtain ⟨byte, hbyte, hsign⟩ := (Option.any_eq_true _ _).mp h.separates
    apply isCharBoundary_of_ascii hbyte
    apply ascii_of_charOf
    rw [Bool.or_eq_true, beq_iff_eq, beq_iff_eq] at hsign
    rcases hsign with hsign | hsign <;> rw [hsign] <;> decide
  have hvalue : valueStart cs (bytesOf cs) separator < valueStop cs (bytesOf cs) separator := by
    rw [← h.start, ← h.stop]
    exact hab
  have hfollows := follows_of_value hseparator hvalue
  have hne : skipBackwardLabelSpacing cs separator ≠ 0 := by
    have hstart : labelStart cs (bytesOf cs) separator ≤ skipBackwardLabelSpacing cs separator :=
      scanBackward_le
    have hlabelled := h.labelled
    omega
  have hlabel := @labelAt_enclose front cs rest separator hascii h.labelled
  have hstop := @valueStop_enclose front cs rest separator hseparator hvalue
  rw [← h.stop] at hstop
  refine ⟨valueStop (Secrets.quoted front cs rest) (bytesOf (Secrets.quoted front cs rest))
    (utf8Len front + 1 + separator), ?_, ?_, ?_⟩
  · rcases hstop with hsame | ⟨hend, hbeyond, -⟩ <;> omega
  · rcases hstop with hsame | ⟨-, -, hboundary⟩
    · rw [hsame, isCharBoundary_quoted hbound]
      exact hb
    · exact hboundary
  · refine ⟨?_, ?_, ?_, ?_, rfl, ?_⟩
    · rw [Secrets.quoted, bytesOf_enclose, ← length_bytesOf front,
        getElem?_enclose (by rw [length_bytesOf]; exact hseparator)]
      exact h.separates
    · rw [labelStart_enclose hascii hne, skipBackward_quoted hascii hne]
      have hlabelled := h.labelled
      omega
    · rw [hlabel]
      exact h.sensitive
    · rw [valueStart_enclose hfollows, ← h.start]
    · rw [hlabel]
      rcases hstop with hsame | ⟨hend, hbeyond, -⟩
      · rw [hsame, slice_quoted ha hbound]
        exact h.redacts
      · have hrest : utf8Len (dropBytes a cs) = utf8Len cs - a := utf8Len_dropBytes ha
        have hvalueRest : slice a b cs = dropBytes a cs := by
          rw [slice]
          exact takeBytes_all (by omega)
        have hredacts := h.redacts
        rw [hvalueRest] at hredacts
        rw [slice, dropBytes_quoted hle]
        obtain ⟨more, hmore⟩ := @takeBytes_beyond (dropBytes a cs) rest
          (valueStop (Secrets.quoted front cs rest) (bytesOf (Secrets.quoted front cs rest))
            (utf8Len front + 1 + separator) - (utf8Len front + 1 + a)) (by omega)
        rw [hmore]
        exact shouldRedact_more hredacts more

def rawSpans (cs : List Char) : List Span :=
  collectPrefixedTokens (bytesOf cs) ++ collectJwts (bytesOf cs) ((bytesOf cs).length + 1) 0 ++
    collectBearerTokens (bytesOf cs) ++ collectAssignments cs (bytesOf cs)

structure Marks (cs : List Char) (a b : ℕ) : Prop where
  lt : a < b
  start : isCharBoundary a cs = true
  stop : isCharBoundary b cs = true

theorem foldl_mergeSpan_ne_nil (spans merged : List Span) :
    spans.foldl (mergeSpan cs) merged ≠ [] ↔
      merged ≠ [] ∨ ∃ span ∈ spans, Marks cs span.1 span.2 := by
  induction spans generalizing merged with
  | nil => simp
  | cons span spans ih =>
    rw [List.foldl_cons, ih, List.exists_mem_cons_iff, ← or_assoc]
    apply or_congr_left
    rw [mergeSpan.eq_def]
    split
    · rename_i hbad
      rw [Bool.or_eq_true, Bool.or_eq_true, decide_eq_true_eq, Bool.not_eq_true',
        Bool.not_eq_true'] at hbad
      constructor
      · exact .inl
      · rintro (hmerged | ⟨hlt, hstart, hstop⟩)
        · exact hmerged
        · simp only [hstart, hstop, Bool.true_eq_false, or_false] at hbad
          exact absurd hlt (Nat.not_lt.mpr hbad)
    · rename_i hgood
      rw [Bool.or_eq_true, Bool.or_eq_true, not_or, not_or, decide_eq_true_eq, not_le,
        Bool.not_eq_true', Bool.not_eq_false, Bool.not_eq_true', Bool.not_eq_false] at hgood
      have hmarks : Marks cs span.1 span.2 := ⟨hgood.1.1, hgood.1.2, hgood.2⟩
      constructor
      · exact fun _ => .inr hmarks
      · intro _
        cases merged with
        | nil => simp
        | cons last rest =>
          dsimp only
          split <;> simp

theorem contains_iff (cs : List Char) : containsCredentialMaterial (String.ofList cs) = true ↔
    ∃ span ∈ rawSpans cs, Marks cs span.1 span.2 := by
  rw [containsCredentialMaterial, bne_iff_ne, credentialSpans, asBytes_ofList,
    String.toList_ofList, ← rawSpans]
  rw [Ne, List.reverse_eq_nil_iff, ← Ne, foldl_mergeSpan_ne_nil]
  simp only [ne_eq, not_true_eq_false, false_or, List.mem_insertionSort]

theorem contains_of_quoted (h : containsCredentialMaterial (String.ofList cs) = true) :
    containsCredentialMaterial (String.ofList (quoted front cs rest)) = true := by
  rw [contains_iff] at h ⊢
  obtain ⟨⟨a, b⟩, hspan, hlt, ha, hb⟩ := h
  have hmarks : Marks (quoted front cs rest) (utf8Len front + 1 + a) (utf8Len front + 1 + b) := by
    refine ⟨by omega, ?_, ?_⟩
    · rw [isCharBoundary_quoted (le_of_isCharBoundary ha)]
      exact ha
    · rw [isCharBoundary_quoted (le_of_isCharBoundary hb)]
      exact hb
  have hwhole : bytesOf (quoted front cs rest) =
      enclose (bytesOf front) (bytesOf cs) (bytesOf rest) := by rw [quoted, bytesOf_enclose]
  rw [rawSpans, List.mem_append, List.mem_append, List.mem_append] at hspan
  rcases hspan with ((hprefixed | hjwt) | hbearer) | hassignment
  · refine ⟨(utf8Len front + 1 + a, utf8Len front + 1 + b), ?_, hmarks⟩
    rw [rawSpans, hwhole, ← length_bytesOf front]
    exact List.mem_append_left _ (List.mem_append_left _ (List.mem_append_left _
      (prefixedTokens_enclose hprefixed)))
  · refine ⟨(utf8Len front + 1 + a, utf8Len front + 1 + b), ?_, hmarks⟩
    rw [rawSpans, hwhole, ← length_bytesOf front]
    exact List.mem_append_left _ (List.mem_append_left _ (List.mem_append_right _
      (jwts_enclose hjwt)))
  · refine ⟨(utf8Len front + 1 + a, utf8Len front + 1 + b), ?_, hmarks⟩
    rw [rawSpans, hwhole, ← length_bytesOf front]
    exact List.mem_append_left _ (List.mem_append_right _ (bearerTokens_enclose hbearer))
  · obtain ⟨separator, hseparator, hat⟩ := mem_collectAssignments.mp hassignment
    rw [length_bytesOf] at hseparator
    obtain ⟨b', hlong, hboundary, hquoted⟩ := @AssignmentAt.quoted front cs rest a b separator
      hat hseparator hlt ha hb
    refine ⟨(utf8Len front + 1 + a, b'), ?_, ⟨by omega, hmarks.start, hboundary⟩⟩
    apply List.mem_append_right
    apply mem_collectAssignments.mpr
    refine ⟨_, ?_, hquoted⟩
    rw [length_bytesOf, quoted_eq, utf8Len_append, utf8Len_front, utf8Len_append]
    omega

end Whole

end AtomVibe.Secrets
