import AtomVibe.CoreCode

namespace AtomVibe.Core

open Text Html Quoted

section Slices

variable {text rest : List Char} {i n : ℕ}

theorem boundary_behind_char {c : Char} (hc : IsAscii c) (hi : isCharBoundary i text = true)
    {offset : ℕ} (h : findChar c (dropBytes i text) = some offset) :
    isCharBoundary (i + offset + 1) text = true := by
  rw [findChar_eq hc, bytesOf_dropBytes hi] at h
  obtain ⟨hlt, hbyte, -⟩ := List.findIdx?_eq_some_iff_getElem.mp h
  apply isCharBoundary_succ _ (asciiByte_lt hc)
  rw [← List.getElem?_drop, List.getElem?_eq_getElem hlt, of_decide_eq_true hbyte]

theorem boundary_behind_fence (hi : isCharBoundary i text = true) {offset : ℕ}
    (h : findStr codeFence (dropBytes i text) = some offset) :
    isCharBoundary (i + offset + 3) text = true := by
  obtain ⟨front, rest, hsplit, rfl⟩ := findStr_spec h
  have hfence : utf8Len (front ++ codeFence) = utf8Len front + 3 := by
    rw [utf8Len_append]
    rfl
  have hfront := isCharBoundary_front (front ++ codeFence) rest 0
  rw [Nat.add_zero, isCharBoundary_zero, List.append_assoc, ← hsplit, hfence] at hfront
  rw [Nat.add_assoc, isCharBoundary_add hi]
  exact hfront

theorem isAscii_of_isAsciiAlphanumeric {c : Char} (h : isAsciiAlphanumeric c = true) :
    IsAscii c := by
  simp only [isAsciiAlphanumeric, isAsciiLowercase, isAsciiUppercase, isAsciiDigit,
    Bool.or_eq_true, Bool.and_eq_true, decide_eq_true_eq, Char.le_def] at h
  rcases h with (⟨-, h⟩ | ⟨-, h⟩) | ⟨-, h⟩
  · exact lt_of_le_of_lt (UInt32.le_iff_toNat_le.mp h) (by decide)
  · exact lt_of_le_of_lt (UInt32.le_iff_toNat_le.mp h) (by decide)
  · exact lt_of_le_of_lt (UInt32.le_iff_toNat_le.mp h) (by decide)

theorem utf8Len_of_ascii {cs : List Char} (h : ∀ c ∈ cs, IsAscii c) : utf8Len cs = cs.length := by
  induction cs with
  | nil => rfl
  | cons c cs ih =>
    rw [List.forall_mem_cons] at h
    have hone : c.utf8Size = 1 := by
      rw [← String.length_utf8EncodeChar, utf8EncodeChar_of_ascii h.1]
      rfl
    rw [utf8Len_cons, ih h.2, hone, List.length_cons, Nat.add_comm]

theorem skipInlineLanguageTag_returns (rest : List Char) :
    ∃ n, skipInlineLanguageTag rest = some n ∧ isCharBoundary n rest = true := by
  rw [skipInlineLanguageTag]
  split
  · exact ⟨0, rfl, isCharBoundary_zero rest⟩
  · have hsplit := rest.takeWhile_append_dropWhile (p := isAsciiAlphanumeric)
    have hsize : (rest.takeWhile isAsciiAlphanumeric).length =
        utf8Len (rest.takeWhile isAsciiAlphanumeric) :=
      (utf8Len_of_ascii fun c hc =>
        isAscii_of_isAsciiAlphanumeric (List.mem_takeWhile_imp hc)).symm
    have hfront := isCharBoundary_front (rest.takeWhile isAsciiAlphanumeric)
      (rest.dropWhile isAsciiAlphanumeric)
    rw [hsplit, ← hsize] at hfront
    have hboundary := hfront 0
    rw [Nat.add_zero, isCharBoundary_zero] at hboundary
    have hbehind := dropBytes_front (rest.takeWhile isAsciiAlphanumeric)
      (rest.dropWhile isAsciiAlphanumeric) 0
    rw [hsplit, ← hsize, Nat.add_zero, dropBytes_zero] at hbehind
    rw [sliceFrom_eq hboundary, hbehind]
    cases hdrop : rest.dropWhile isAsciiAlphanumeric with
    | nil => exact ⟨0, rfl, isCharBoundary_zero rest⟩
    | cons ch more =>
      by_cases hblank : isWhitespace ch = true
      · refine ⟨(rest.takeWhile isAsciiAlphanumeric).length + ch.utf8Size, ?_, ?_⟩
        · simp only [Option.bind_eq_bind, Option.bind_some, List.head?_cons, if_pos hblank]
          rfl
        · rw [hfront, hdrop]
          have hone := isCharBoundary_front [ch] more 0
          rw [Nat.add_zero, isCharBoundary_zero] at hone
          exact hone
      · refine ⟨0, ?_, isCharBoundary_zero rest⟩
        simp only [Option.bind_eq_bind, Option.bind_some, List.head?_cons, if_neg hblank]
        rfl

theorem closingFenceFrom_spec {r : Reading} {bytes : List UInt8} {k : ℕ}
    (h : closingFenceFrom r i bytes = some k) : i ≤ k ∧ bytes[k - i]? = some (asciiByte '`') ∧
      bytes[k - i + 1]? = some (asciiByte '`') ∧ bytes[k - i + 2]? = some (asciiByte '`') := by
  induction bytes generalizing r i with
  | nil => cases h
  | cons b bytes ih =>
    rw [closingFenceFrom] at h
    split at h
    · rename_i hfence
      obtain ⟨-, rfl, hsecond, hthird⟩ := hfence
      obtain rfl := Option.some.inj h
      rw [Nat.sub_self]
      exact ⟨le_rfl, rfl, hsecond, hthird⟩
    · obtain ⟨hle, hfirst, hsecond, hthird⟩ := ih h
      have hshift : k - i = k - (i + 1) + 1 := by omega
      rw [hshift]
      exact ⟨by omega, hfirst, hsecond, hthird⟩

theorem findClosingFence_spec {start close : ℕ} (h : findClosingFence text start = some close) :
    start ≤ close ∧ isCharBoundary close text = true ∧ isCharBoundary (close + 3) text = true := by
  obtain ⟨hle, hfirst, -, hthird⟩ := closingFenceFrom_spec h
  rw [List.getElem?_drop, Nat.add_sub_cancel' hle] at hfirst
  have hplace : start + (close - start + 2) = close + 2 := by omega
  rw [List.getElem?_drop, hplace] at hthird
  exact ⟨hle, isCharBoundary_of_ascii hfirst (by decide), isCharBoundary_succ hthird (by decide)⟩

def Sliceable (text : List Char) (block : Option (ℕ × ℕ)) : Prop :=
  ∀ bounds ∈ block, bounds.1 ≤ bounds.2 ∧ isCharBoundary bounds.1 text = true ∧
    isCharBoundary bounds.2 text = true

def lastBehind (text : List Char) (fuel bodyStart : ℕ) (best : Option (ℕ × ℕ)) :
    Option (Option (ℕ × ℕ)) :=
  match findClosingFence text bodyStart with
  | some close => lastFenced text fuel (close + 3) (some (bodyStart, close))
  | none => some best

theorem lastFenced_returns {fuel cursor : ℕ} (hfuel : utf8Len text < fuel + cursor)
    (hcursor : isCharBoundary cursor text = true) {best : Option (ℕ × ℕ)}
    (hbest : Sliceable text best) :
    ∃ last, lastFenced text fuel cursor best = some last ∧ Sliceable text last := by
  induction fuel generalizing cursor best with
  | zero =>
    have hle := le_of_isCharBoundary hcursor
    omega
  | succ fuel ih =>
    rw [lastFenced, sliceFrom_eq hcursor]
    simp only [Option.bind_eq_bind, Option.bind_some]
    cases hopen : findStr codeFence (dropBytes cursor text) with
    | none => exact ⟨best, rfl, hbest⟩
    | some openRel =>
      have hafter := boundary_behind_fence hcursor hopen
      have hle := le_of_isCharBoundary hafter
      simp only [if_neg (Nat.not_lt.mpr hle), sliceFrom_eq hafter, Option.bind_some]
      have hclosing : ∀ bodyStart, isCharBoundary bodyStart text = true → cursor < bodyStart →
          ∃ last, lastBehind text fuel bodyStart best = some last ∧ Sliceable text last := by
        intro bodyStart hstart hahead
        rw [lastBehind]
        cases hclose : findClosingFence text bodyStart with
        | none => exact ⟨best, rfl, hbest⟩
        | some close =>
          obtain ⟨hle, hboundary, hbehind⟩ := findClosingFence_spec hclose
          apply ih (by omega) hbehind
          intro bounds hbounds
          obtain rfl := Option.some.inj hbounds
          exact ⟨hle, hstart, hboundary⟩
      cases hline : findChar '\n' (dropBytes (cursor + openRel + 3) text) with
      | some rel => exact hclosing _ (boundary_behind_char (by decide) hafter hline) (by omega)
      | none =>
        obtain ⟨n, hn, hboundary⟩ :=
          skipInlineLanguageTag_returns (dropBytes (cursor + openRel + 3) text)
        simp only [hn, Option.map_some, Option.bind_some]
        exact hclosing _ (by rwa [isCharBoundary_add hafter]) (by omega)

theorem extractFencedCode_returns (text : List Char) : ∃ fenced,
    extractFencedCode text = some fenced := by
  obtain ⟨last, hlast, hsliceable⟩ := @lastFenced_returns text (utf8Len text + 1) 0 (by omega)
    (isCharBoundary_zero text) none (fun bounds h => by cases h)
  rw [extractFencedCode, hlast]
  cases last with
  | none => exact ⟨none, rfl⟩
  | some bounds =>
    obtain ⟨hle, hstart, hstop⟩ := hsliceable bounds rfl
    simp only [Option.bind_eq_bind, Option.bind_some, checkedSlice_eq hstart hstop hle]
    exact ⟨_, rfl⟩

end Slices

section Fenced

variable {front code rest : List Char} {r : Reading} {i : ℕ}

def fencedResponse (prose code : List Char) : List Char :=
  prose ++ "```rust\n".toList ++ code ++ "\n```\n".toList

def endsOutside (code : List Char) : Bool := !(readFrom rustSigns {} (bytesOf code)).inString

theorem findStr_codeFence_front (h : '`' ∉ front) (rest : List Char) :
    findStr codeFence (front ++ codeFence ++ rest) = some (utf8Len front) := by
  induction front with
  | nil =>
    rw [List.nil_append, show codeFence = '`' :: "``".toList by decide, List.cons_append, findStr,
      if_pos]
    · rfl
    · rw [← List.cons_append, List.isPrefixOf_iff_prefix]
      exact List.prefix_append _ _
  | cons c front ih =>
    obtain ⟨hc, hfront⟩ := List.ne_and_not_mem_of_not_mem_cons h
    rw [List.cons_append, List.cons_append, findStr, if_neg, ih hfront, Option.map_some,
      utf8Len_cons, Nat.add_comm]
    rw [List.isPrefixOf_iff_prefix, show codeFence = '`' :: "``".toList by decide,
      List.cons_prefix_cons]
    exact fun heq => hc heq.1

theorem closingFenceFrom_bytes {bytes more : List UInt8} (h : ∀ b ∈ bytes, b ≠ asciiByte '`') :
    closingFenceFrom r i (bytes ++ more) =
      closingFenceFrom (readFrom rustSigns r bytes) (i + bytes.length) more := by
  induction bytes generalizing r i with
  | nil => rfl
  | cons b bytes ih =>
    rw [List.forall_mem_cons] at h
    rw [List.cons_append, closingFenceFrom, if_neg fun hfence => h.1 hfence.2.1, ih h.2,
      List.length_cons, Nat.add_right_comm, Nat.add_assoc]
    rfl

theorem eq_of_first_byte {cs : List Char} (h : (bytesOf cs)[0]? = some (asciiByte '`')) :
    ∃ more, cs = '`' :: more := by
  cases cs with
  | nil => cases h
  | cons c cs =>
    have hmem : asciiByte '`' ∈ String.utf8EncodeChar c := by
      have hpos : 0 < (String.utf8EncodeChar c).length := by
        rw [String.length_utf8EncodeChar]
        exact c.utf8Size_pos
      rw [bytesOf, List.flatMap_cons, List.getElem?_append_left hpos] at h
      exact List.mem_of_getElem? h
    exact ⟨cs, by rw [eq_of_asciiByte_mem (by decide) hmem]⟩

theorem bytesOf_tick (cs : List Char) : bytesOf ('`' :: cs) = asciiByte '`' :: bytesOf cs := by
  rw [bytesOf, List.flatMap_cons, utf8EncodeChar_of_ascii (by decide)]
  rfl

theorem closingFenceFrom_code (h : ¬codeFence <:+: code) (rest : List Char) :
    closingFenceFrom r i (bytesOf (code ++ '\n' :: rest)) =
      closingFenceFrom (readFrom rustSigns r (bytesOf code)) (i + utf8Len code)
        (bytesOf ('\n' :: rest)) := by
  induction code generalizing r i with
  | nil => rfl
  | cons c code ih =>
    have hcode : ¬codeFence <:+: code := fun hfence => h (List.infix_cons hfence)
    by_cases hc : c = '`'
    · subst hc
      have hnone : ¬((bytesOf (code ++ '\n' :: rest))[0]? = some (asciiByte '`') ∧
          (bytesOf (code ++ '\n' :: rest))[1]? = some (asciiByte '`')) := by
        rintro ⟨hfirst, hsecond⟩
        obtain ⟨more, hmore⟩ := eq_of_first_byte hfirst
        rw [hmore, bytesOf_tick, List.getElem?_cons_succ] at hsecond
        obtain ⟨others, rfl⟩ := eq_of_first_byte hsecond
        rcases code with _ | ⟨second, _ | ⟨third, code⟩⟩
        · cases hmore
        · cases hmore
        · obtain ⟨rfl, htail⟩ := List.cons.inj hmore
          obtain ⟨rfl, -⟩ := List.cons.inj htail
          exact h ⟨[], code, rfl⟩
      rw [List.cons_append, bytesOf_tick, closingFenceFrom, if_neg fun hfence => hnone hfence.2.2,
        ih hcode, bytesOf_tick, utf8Len_cons, ← Nat.add_assoc]
      rfl
    · have hbytes : ∀ b ∈ String.utf8EncodeChar c, b ≠ asciiByte '`' := by
        rintro b hb rfl
        exact hc (eq_of_asciiByte_mem (by decide) hb)
      have hread := @closingFenceFrom_bytes r i _ (bytesOf (code ++ '\n' :: rest)) hbytes
      rw [String.length_utf8EncodeChar] at hread
      rw [List.cons_append, bytesOf, List.flatMap_cons, ← bytesOf, hread, ih hcode, bytesOf.eq_1 (c :: code),
        List.flatMap_cons, ← bytesOf, readFrom_append, utf8Len_cons, Nat.add_assoc]

theorem closingFenceFrom_end (r : Reading) (i : ℕ) :
    closingFenceFrom r i (bytesOf "\n```\n".toList) =
      if r.inString = false then some (i + 1) else none := by
  have hbytes : bytesOf "\n```\n".toList = [10, 96, 96, 96, 10] := by decide
  rw [hbytes]
  rcases r with ⟨_ | _, _ | _⟩
  · rfl
  · rfl
  · rfl
  · rfl

theorem sliceFrom_front (front rest : List Char) :
    sliceFrom (front ++ rest) (utf8Len front) = some rest := by
  have hboundary := isCharBoundary_front front rest 0
  rw [Nat.add_zero, isCharBoundary_zero] at hboundary
  have hdrop := dropBytes_front front rest 0
  rw [Nat.add_zero, dropBytes_zero] at hdrop
  rw [sliceFrom_eq hboundary, hdrop]

theorem lastFenced_response (hprose : '`' ∉ front) (hcode : ¬codeFence <:+: code) (fuel : ℕ) :
    lastFenced (fencedResponse front code) (fuel + 2) 0 none =
      some (if endsOutside code = true then
        some (utf8Len (front ++ "```rust\n".toList),
          utf8Len (front ++ "```rust\n".toList ++ (code ++ ['\n'])))
      else none) := by
  have htext : fencedResponse front code =
      front ++ codeFence ++ ("rust\n".toList ++ (code ++ "\n```\n".toList)) := by
    simp only [fencedResponse, List.append_assoc]
    rfl
  have hbody : fencedResponse front code =
      front ++ "```rust\n".toList ++ (code ++ "\n```\n".toList) := by
    simp only [fencedResponse, List.append_assoc]
  have hend : fencedResponse front code =
      front ++ "```rust\n".toList ++ (code ++ ['\n']) ++ codeFence ++ ['\n'] := by
    simp only [fencedResponse, List.append_assoc]
    rfl
  have hwhole : sliceFrom (fencedResponse front code) 0 = some (fencedResponse front code) :=
    sliceFrom_front [] _
  have hopen : findStr codeFence (fencedResponse front code) = some (utf8Len front) := by
    rw [htext]
    exact findStr_codeFence_front hprose _
  have hafter : 0 + utf8Len front + 3 = utf8Len (front ++ codeFence) := by
    rw [Nat.zero_add, utf8Len_append]
    rfl
  have hrest : sliceFrom (fencedResponse front code) (utf8Len (front ++ codeFence)) =
      some ("rust\n".toList ++ (code ++ "\n```\n".toList)) := by
    rw [htext]
    exact sliceFrom_front _ _
  have hroom : ¬utf8Len (fencedResponse front code) < utf8Len (front ++ codeFence) := by
    rw [htext, utf8Len_append (front ++ codeFence)]
    omega
  have hline : findChar '\n' ("rust\n".toList ++ (code ++ "\n```\n".toList)) = some 4 := rfl
  have hstart : utf8Len (front ++ codeFence) + 4 + 1 = utf8Len (front ++ "```rust\n".toList) := by
    rw [utf8Len_append, utf8Len_append]
    rfl
  have hclose : findClosingFence (fencedResponse front code)
      (utf8Len (front ++ "```rust\n".toList)) = if endsOutside code = true then
        some (utf8Len (front ++ "```rust\n".toList ++ (code ++ ['\n']))) else none := by
    have hlength : (bytesOf (front ++ "```rust\n".toList)).length =
        utf8Len (front ++ "```rust\n".toList) := length_bytesOf _
    have hsize : utf8Len (front ++ "```rust\n".toList) + utf8Len code + 1 =
        utf8Len (front ++ "```rust\n".toList ++ (code ++ ['\n'])) := by
      rw [utf8Len_append _ (code ++ ['\n']), utf8Len_append code, Nat.add_assoc]
      rfl
    rw [findClosingFence, hbody, bytesOf_append, List.drop_left' hlength]
    have hread := @closingFenceFrom_code code {} (utf8Len (front ++ "```rust\n".toList)) hcode
      "```\n".toList
    rw [show '\n' :: "```\n".toList = "\n```\n".toList by decide, closingFenceFrom_end, hsize]
      at hread
    rw [hread, endsOutside]
    cases (readFrom rustSigns {} (bytesOf code)).inString with
    | false => rfl
    | true => rfl
  rw [lastFenced, hwhole]
  simp only [Option.bind_eq_bind, Option.bind_some, hopen, hafter, if_neg hroom, hrest, hline,
    hstart, hclose]
  cases endsOutside code with
  | false => rfl
  | true =>
    have hnext : utf8Len (front ++ "```rust\n".toList ++ (code ++ ['\n'])) + 3 =
        utf8Len (front ++ "```rust\n".toList ++ (code ++ ['\n']) ++ codeFence) := by
      rw [utf8Len_append _ codeFence]
      rfl
    have hlast : sliceFrom (fencedResponse front code)
        (utf8Len (front ++ "```rust\n".toList ++ (code ++ ['\n']) ++ codeFence)) = some ['\n'] := by
      rw [hend]
      exact sliceFrom_front _ _
    simp only [if_true]
    rw [lastFenced, hnext, hlast]
    rfl

theorem trimBreaks_concat (cs : List Char) : trimBreaks (cs ++ ['\n']) = trimBreaks cs := by
  rw [trimBreaks, List.reverse_append, List.reverse_singleton, List.singleton_append,
    List.dropWhile_cons_of_pos (by decide), trimBreaks]

theorem extractFencedCode_response (hprose : '`' ∉ front) (hcode : ¬codeFence <:+: code) :
    extractFencedCode (fencedResponse front code) =
      some (if endsOutside code = true then some (trimBreaks code) else none) := by
  obtain ⟨fuel, hfuel⟩ : ∃ fuel, utf8Len (fencedResponse front code) + 1 = fuel + 2 := by
    refine ⟨utf8Len (fencedResponse front code) - 1, ?_⟩
    have hlength : utf8Len "\n```\n".toList = 5 := by decide
    rw [fencedResponse, utf8Len_append _ "\n```\n".toList]
    omega
  have hslice : checkedSlice (fencedResponse front code) (utf8Len (front ++ "```rust\n".toList))
      (utf8Len (front ++ "```rust\n".toList ++ (code ++ ['\n']))) = some (code ++ ['\n']) := by
    have htext : fencedResponse front code =
        front ++ "```rust\n".toList ++ (code ++ ['\n']) ++ "```\n".toList := by
      simp only [fencedResponse, List.append_assoc]
      rfl
    rw [htext]
    exact checkedSlice_middle _ _ _
  rw [extractFencedCode, hfuel, lastFenced_response hprose hcode]
  cases endsOutside code with
  | false => rfl
  | true =>
    simp only [if_true, Option.bind_eq_bind, Option.bind_some, hslice, trimBreaks_concat]
    rfl

end Fenced

end AtomVibe.Core
