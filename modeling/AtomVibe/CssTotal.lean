import AtomVibe.HtmlCss
import AtomVibe.StyleBlocks

namespace AtomVibe.Html

open Text

section Searches

variable {cs front rest : List Char} {p : Char → Bool} {i offset : ℕ}

theorem boundary_of_split (hi : isCharBoundary i cs = true) (h : dropBytes i cs = front ++ rest) :
    isCharBoundary (i + utf8Len front) cs = true := by
  rw [isCharBoundary_add hi, h, ← Nat.add_zero (utf8Len front), isCharBoundary_front,
    isCharBoundary_zero]

theorem findWhere_spec (h : findWhere p cs = some offset) :
    ∃ front c rest, cs = front ++ c :: rest ∧ (∀ x ∈ front, p x = false) ∧ p c = true ∧
      utf8Len front = offset := by
  induction cs generalizing offset with
  | nil => cases h
  | cons c cs ih =>
    rw [findWhere] at h
    by_cases hc : p c = true
    · rw [if_pos hc] at h
      exact ⟨[], c, cs, rfl, by simp, hc, Option.some.inj h⟩
    · rw [if_neg hc] at h
      obtain ⟨k, hk, rfl⟩ := Option.map_eq_some_iff.mp h
      obtain ⟨front, d, rest, rfl, hfront, hd, rfl⟩ := ih hk
      refine ⟨c :: front, d, rest, rfl, ?_, hd, by rw [utf8Len_cons, Nat.add_comm]⟩
      rw [List.forall_mem_cons]
      exact ⟨Bool.eq_false_iff.mpr hc, hfront⟩

theorem boundaries_of_findChar {c : Char} (hc : c.utf8Size = 1) (hi : isCharBoundary i cs = true)
    (h : findChar c (dropBytes i cs) = some offset) :
    isCharBoundary (i + offset) cs = true ∧ isCharBoundary (i + offset + 1) cs = true := by
  obtain ⟨front, d, rest, hsplit, -, hd, rfl⟩ := findWhere_spec h
  obtain rfl : d = c := by simpa using hd
  have hbehind : dropBytes i cs = (front ++ [d]) ++ rest := by
    rw [hsplit, List.append_assoc, List.singleton_append]
  have hboundary := boundary_of_split hi hbehind
  rw [utf8Len_append, utf8Len_cons, utf8Len_nil, hc, Nat.add_zero, ← Nat.add_assoc] at hboundary
  exact ⟨boundary_of_split hi hsplit, hboundary⟩

theorem boundaries_of_findStr {pattern : List Char} (hi : isCharBoundary i cs = true)
    (h : findStr pattern (dropBytes i cs) = some offset) :
    isCharBoundary (i + offset) cs = true ∧
      isCharBoundary (i + offset + utf8Len pattern) cs = true := by
  obtain ⟨front, rest, hsplit, rfl⟩ := findStr_spec h
  have hbehind : dropBytes i cs = (front ++ pattern) ++ rest := by
    rw [hsplit, List.append_assoc]
  have hboundary := boundary_of_split hi hbehind
  rw [utf8Len_append, ← Nat.add_assoc] at hboundary
  exact ⟨boundary_of_split hi hsplit, hboundary⟩

end Searches

section Rules

variable {chars : List Char} {fuel i : ℕ}

theorem lt_skipWhile {p : Char → Bool} {c : Char} (hc : chars[i]? = some c) (hp : p c = true) :
    i < skipWhile p chars i := by
  obtain ⟨hlt, rfl⟩ := List.getElem?_eq_some_iff.mp hc
  rw [skipWhile, List.drop_eq_getElem_cons hlt, List.takeWhile_cons_of_pos hp, List.length_cons]
  omega

theorem selectorFrom_returns (hfuel : chars.length < fuel + i) (hpos : 0 < fuel)
    (selector : CssSelector) : ∃ read, selectorFrom chars fuel i selector = some read := by
  induction fuel generalizing i selector with
  | zero => omega
  | succ fuel ih =>
    rw [selectorFrom]
    cases hchar : chars[i]? with
    | none => exact ⟨_, rfl⟩
    | some c =>
      have hlt := (List.getElem?_eq_some_iff.mp hchar).1
      -- Behind the sign of an id or a class the name may be empty; then nothing is cut.
      have hle := le_skipWhile isSelectorIdent chars (i + 1)
      have hwithin := skipWhile_le isSelectorIdent (show i + 1 ≤ chars.length from hlt)
      dsimp only
      split
      · split
        · exact ⟨none, rfl⟩
        · rw [between_eq hle hwithin]
          exact ih (by omega) (by omega) _
      · split
        · split
          · exact ⟨none, rfl⟩
          · rw [between_eq hle hwithin]
            exact ih (by omega) (by omega) _
        · split
          · rename_i hident
            have hgrown := lt_skipWhile hchar hident
            split
            · exact ⟨none, rfl⟩
            · rw [between_eq hgrown.le (skipWhile_le isSelectorIdent hlt.le)]
              exact ih (by omega) (by omega) _
          · exact ⟨none, rfl⟩

theorem parseSelector_returns (raw : List Char) : ∃ read, parseSelector raw = some read := by
  rw [parseSelector]
  split
  · exact ⟨none, rfl⟩
  · exact selectorFrom_returns (by omega) (by omega) _

theorem mapM_returns {α β : Type} {f : α → Option β} (xs : List α)
    (h : ∀ x ∈ xs, ∃ y, f x = some y) : ∃ ys, xs.mapM f = some ys := by
  induction xs with
  | nil => exact ⟨[], rfl⟩
  | cons x xs ih =>
    rw [List.forall_mem_cons] at h
    obtain ⟨⟨y, hy⟩, hxs⟩ := h
    obtain ⟨ys, hys⟩ := ih hxs
    exact ⟨y :: ys, by rw [List.mapM_cons, hy, hys]; rfl⟩

variable {css : List Char}

theorem stripCommentsFrom_returns (hfuel : utf8Len css < fuel + i) (hpos : 0 < fuel)
    (hi : isCharBoundary i css = true) (out : List Char) :
    ∃ kept, stripCommentsFrom css fuel i out = some kept := by
  induction fuel generalizing i out with
  | zero => omega
  | succ fuel ih =>
    rw [stripCommentsFrom]
    split
    · exact ⟨out, rfl⟩
    · rw [sliceFrom_eq hi]
      simp only [Option.bind_eq_bind, Option.bind_some]
      cases hopen : findStr "/*".toList (dropBytes i css) with
      | none => exact ⟨_, rfl⟩
      | some offset =>
        obtain ⟨hstart, hinside⟩ := boundaries_of_findStr hi hopen
        have hsize : utf8Len "/*".toList = 2 := by decide
        rw [hsize] at hinside
        dsimp only
        rw [checkedSlice_eq hi hstart (Nat.le_add_right _ _), sliceFrom_eq hinside]
        simp only [Option.bind_some]
        cases hclose : findStr "*/".toList (dropBytes (i + offset + 2) css) with
        | none => exact ⟨_, rfl⟩
        | some more =>
          have hbehind := (boundaries_of_findStr hinside hclose).2
          have hsize : utf8Len "*/".toList = 2 := by decide
          rw [hsize] at hbehind
          exact ih (by omega) (by omega) hbehind _

theorem cssBlockFrom_returns (hfuel : utf8Len css < fuel + i) (hpos : 0 < fuel)
    (hi : isCharBoundary i css = true) (out : List CssRule) :
    ∃ rules, cssBlockFrom css fuel i out = some rules := by
  induction fuel generalizing i out with
  | zero => omega
  | succ fuel ih =>
    rw [cssBlockFrom]
    split
    · exact ⟨out, rfl⟩
    · rw [sliceFrom_eq hi]
      simp only [Option.bind_eq_bind, Option.bind_some]
      cases hopen : findChar '\x7b' (dropBytes i css) with
      | none => exact ⟨_, rfl⟩
      | some offset =>
        obtain ⟨hstart, hinside⟩ := boundaries_of_findChar (by decide) hi hopen
        dsimp only
        rw [sliceFrom_eq hinside]
        simp only [Option.bind_some]
        cases hclose : findChar '\x7d' (dropBytes (i + offset + 1) css) with
        | none => exact ⟨_, rfl⟩
        | some more =>
          obtain ⟨hstop, hbehind⟩ := boundaries_of_findChar (by decide) hinside hclose
          dsimp only
          rw [checkedSlice_eq hi hstart (Nat.le_add_right _ _),
            checkedSlice_eq hinside hstop (Nat.le_add_right _ _)]
          obtain ⟨selectors, hselectors⟩ := mapM_returns
            (splitOn ',' (slice i (i + offset) css)) fun raw _ => parseSelector_returns raw
          simp only [Option.bind_some, hselectors]
          exact ih (by omega) (by omega) hbehind _

theorem parseCssBlock_returns (block : List Char) : ∃ rules, parseCssBlock block = some rules := by
  obtain ⟨css, hcss⟩ := @stripCommentsFrom_returns (utf8Len block + 1) 0 block (by omega) (by omega)
    (isCharBoundary_zero block) []
  obtain ⟨rules, hrules⟩ := @cssBlockFrom_returns (utf8Len css + 1) 0 css (by omega) (by omega)
    (isCharBoundary_zero css) []
  rw [parseCssBlock, stripCssComments, hcss]
  exact ⟨rules, hrules⟩

theorem parseCssRules_returns (src : List Char) : ∃ rules, parseCssRules src = some rules := by
  obtain ⟨blocks, hblocks, -⟩ := styleBlocks_returns src
  obtain ⟨rules, hrules⟩ := mapM_returns blocks fun block _ => parseCssBlock_returns block.text
  rw [parseCssRules, hblocks]
  simp only [Option.bind_eq_bind, Option.bind_some, hrules]
  exact ⟨_, rfl⟩

end Rules

section Colors

theorem utf8Size_of_ascii {c : Char} (h : IsAscii c) : c.utf8Size = 1 := by
  rw [← String.length_utf8EncodeChar, utf8EncodeChar_of_ascii h, List.length_singleton]

theorem utf8Len_of_all_ascii {cs : List Char} (h : ∀ c ∈ cs, IsAscii c) :
    utf8Len cs = cs.length := by
  induction cs with
  | nil => rfl
  | cons c cs ih =>
    rw [List.forall_mem_cons] at h
    rw [utf8Len_cons, utf8Size_of_ascii h.1, ih h.2, List.length_cons, Nat.add_comm]

theorem isCharBoundary_of_all_ascii {cs : List Char} (h : ∀ c ∈ cs, IsAscii c) {n : ℕ}
    (hn : n ≤ utf8Len cs) : isCharBoundary n cs = true := by
  have htake := utf8Len_of_all_ascii fun c (hc : c ∈ cs.take n) => h c (List.mem_of_mem_take hc)
  rw [utf8Len_of_all_ascii h] at hn
  rw [List.length_take_of_le hn] at htake
  have hboundary := isCharBoundary_front (cs.take n) (cs.drop n) 0
  rw [htake, List.take_append_drop, isCharBoundary_zero] at hboundary
  exact hboundary

theorem hexChannels_returns {read : ℕ → Option (Option ℕ)} (is : List ℕ)
    (h : ∀ i ∈ is, ∃ channel, read i = some channel) :
    ∃ channels, hexChannels read is = some channels := by
  induction is with
  | nil => exact ⟨_, rfl⟩
  | cons i is ih =>
    rw [List.forall_mem_cons] at h
    obtain ⟨⟨channel, hchannel⟩, his⟩ := h
    obtain ⟨channels, hchannels⟩ := ih his
    rw [hexChannels, hchannel]
    cases channel with
    | none => exact ⟨none, rfl⟩
    | some channel =>
      simp only [Option.bind_eq_bind, Option.bind_some, hchannels]
      exact ⟨_, rfl⟩

theorem parseHex_returns (hex : List Char) : ∃ color, parseHex hex = some color := by
  rw [parseHex]
  cases hall : hex.all fun c => c.toNat < 128 with
  | false => exact ⟨none, rfl⟩
  | true =>
    have hascii : ∀ c ∈ hex, IsAscii c := fun c hc =>
      decide_eq_true_iff.mp (List.all_eq_true.mp hall c hc)
    have hcut : ∀ i k, i + k ≤ utf8Len hex → ∃ digits, checkedSlice hex i (i + k) = some digits :=
      fun i k hle => ⟨_, checkedSlice_eq (isCharBoundary_of_all_ascii hascii (by omega))
        (isCharBoundary_of_all_ascii hascii hle) (Nat.le_add_right i k)⟩
    have hdup : ∀ i, i + 1 ≤ utf8Len hex → ∃ channel, hexDup hex i = some channel := by
      intro i hle
      obtain ⟨digits, hdigits⟩ := hcut i 1 hle
      exact ⟨_, by rw [hexDup, hdigits]; rfl⟩
    have htwo : ∀ i, i + 2 ≤ utf8Len hex → ∃ channel, hexTwo hex i = some channel := by
      intro i hle
      obtain ⟨digits, hdigits⟩ := hcut i 2 hle
      exact ⟨_, by rw [hexTwo, hdigits]; rfl⟩
    have hread : ∀ read is, (∀ i ∈ is, ∃ channel, read i = some channel) →
        ∃ color, ((hexChannels read is).bind fun channels =>
          some (channels.bind rgbaOfChannels)) = some color := by
      intro read is his
      obtain ⟨channels, hchannels⟩ := hexChannels_returns is his
      exact ⟨_, by rw [hchannels, Option.bind_some]⟩
    simp only [Bool.not_true, Bool.false_eq_true, if_false, Option.pure_def, Option.bind_eq_bind]
    split
    · rename_i hlength
      apply hread
      simp [hlength, hdup]
    · rename_i hlength
      apply hread
      simp [hlength, hdup]
    · rename_i hlength
      apply hread
      simp [hlength, htwo]
    · rename_i hlength
      apply hread
      simp [hlength, htwo]
    · exact ⟨none, rfl⟩

theorem parseColor_returns (readF32 : List Char → Option ℚ) (s : List Char) :
    ∃ color, parseColor readF32 s = some color := by
  rw [parseColor]
  split
  · exact parseHex_returns _
  · split
    · exact ⟨_, rfl⟩
    · split
      · exact ⟨_, rfl⟩
      · exact ⟨_, rfl⟩

end Colors

end AtomVibe.Html
