import AtomVibe.CoreExtract

namespace AtomVibe.Core

open Text Html Quoted

/-- The depth of the braces stays an `i32`. -/
def InI32 (bytes : List UInt8) : Prop := Within rustSigns (-2 ^ 31) (2 ^ 31) bytes

namespace BraceScan

variable {s s' : BraceScan} {bytes more : List UInt8} {b : UInt8}

structure Reads (s : BraceScan) (bytes : List UInt8) : Prop where
  depth : s.depth = Quoted.depth rustSigns bytes
  reading : s.reading = readFrom rustSigns {} bytes
  opened : 0 < Quoted.depth rustSigns bytes → s.opened = true
  cut : LastClose rustSigns bytes s.cutAt
  within : InI32 bytes

theorem checkedI32_eq_some {n m : ℤ} : checkedI32 n = some m ↔
    (-2 ^ 31 ≤ n ∧ n < 2 ^ 31) ∧ n = m := by
  rw [checkedI32, Option.ite_none_right_eq_some, Option.some.injEq]

theorem reads_nil : Reads {} [] where
  depth := rfl
  reading := rfl
  opened h := absurd h (by rw [depth_nil]; decide)
  cut := lastClose_nil
  within := within_nil (by decide) (by decide)

theorem Reads.quiet (h : s.Reads bytes) (hreading : s'.reading = s.reading.step rustSigns b)
    (hweight : weight rustSigns s.reading b = 0) (hdepth : s'.depth = s.depth)
    (hopened : s'.opened = s.opened) (hcut : s'.cutAt = s.cutAt)
    (hclosing : ¬(b = rustSigns.closing ∧ s.reading.inString = false)) :
    s'.Reads (bytes ++ [b]) := by
  have hsame : Quoted.depth rustSigns (bytes ++ [b]) = Quoted.depth rustSigns bytes := by
    rw [depth_concat, ← h.reading, hweight, add_zero]
  refine ⟨?_, ?_, ?_, ?_, ?_⟩
  · rw [hdepth, h.depth, hsame]
  · rw [hreading, h.reading, readFrom_append]
    rfl
  · rw [hsame, hopened]
    exact h.opened
  · rw [hcut]
    apply h.cut.concat.2
    rw [closes_concat, ← h.reading]
    exact fun hcloses => hclosing ⟨hcloses.1, hcloses.2.1⟩
  · apply within_concat.mpr
    rw [hsame]
    have hlast := h.within bytes.length
    rw [List.take_length] at hlast
    exact ⟨h.within, hlast⟩

theorem Reads.opening (h : s.Reads bytes) (houtside : s.reading.inString = false)
    (hin : InI32 (bytes ++ [asciiByte '\x7b'])) :
    Reads { s with depth := s.depth + 1, opened := true } (bytes ++ [asciiByte '\x7b']) := by
  have hweight : weight rustSigns s.reading (asciiByte '\x7b') = 1 := by
    rw [weight, houtside]
    decide
  have hsame : s.reading.step rustSigns (asciiByte '\x7b') = s.reading := by
    rw [Reading.step, houtside]
    rfl
  refine ⟨?_, ?_, fun _ => rfl, ?_, hin⟩
  · rw [depth_concat, ← h.reading, ← h.depth, hweight]
  · rw [readFrom_append, ← h.reading]
    exact hsame.symm
  · apply h.cut.concat.2
    rw [closes_concat]
    exact fun hcloses => absurd hcloses.1 (by decide)

theorem Reads.closing (h : s.Reads bytes) (houtside : s.reading.inString = false)
    (hin : InI32 (bytes ++ [asciiByte '\x7d'])) :
    Reads { s with
      depth := s.depth - 1
      cutAt := if s.opened = true ∧ s.depth - 1 = 0 then some (bytes.length + 1) else s.cutAt }
      (bytes ++ [asciiByte '\x7d']) := by
  have hweight : weight rustSigns s.reading (asciiByte '\x7d') = -1 := by
    rw [weight, houtside]
    decide
  have hsame : s.reading.step rustSigns (asciiByte '\x7d') = s.reading := by
    rw [Reading.step, houtside]
    rfl
  have hdepth : Quoted.depth rustSigns (bytes ++ [asciiByte '\x7d']) = s.depth - 1 := by
    rw [depth_concat, ← h.reading, ← h.depth, hweight]
    rfl
  refine ⟨hdepth.symm, ?_, fun hpos => ?_, ?_, hin⟩
  · rw [readFrom_append, ← h.reading]
    exact hsame.symm
  · apply h.opened
    rw [← h.depth]
    omega
  · have hcloses : Closes rustSigns (bytes ++ [asciiByte '\x7d']) (bytes.length + 1) ↔
        s.opened = true ∧ s.depth - 1 = 0 := by
      rw [closes_concat, hdepth, ← h.reading]
      constructor
      · rintro ⟨-, -, hzero⟩
        refine ⟨h.opened ?_, hzero⟩
        rw [← h.depth]
        omega
      · exact fun hzero => ⟨rfl, houtside, hzero.2⟩
    by_cases hcut : s.opened = true ∧ s.depth - 1 = 0
    · rw [if_pos hcut]
      exact h.cut.concat.1 (hcloses.mpr hcut)
    · rw [if_neg hcut]
      exact h.cut.concat.2 fun hclose => hcut (hcloses.mp hclose)

theorem Reads.step (h : s.Reads bytes) (b : UInt8) :
    (∀ s', s.step bytes.length b = some s' → s'.Reads (bytes ++ [b])) ∧
      (InI32 (bytes ++ [b]) → (s.step bytes.length b).isSome = true) := by
  have hbounds : InI32 (bytes ++ [b]) ↔
      -2 ^ 31 ≤ s.depth + weight rustSigns s.reading b ∧
        s.depth + weight rustSigns s.reading b < 2 ^ 31 := by
    rw [InI32, within_concat, depth_concat, ← h.reading, ← h.depth]
    exact and_iff_right h.within
  rw [BraceScan.step]
  by_cases hstring : s.reading.inString = true
  · rw [if_pos hstring]
    refine ⟨fun s' hs' => ?_, fun _ => rfl⟩
    obtain rfl := Option.some.inj hs'
    exact h.quiet rfl (if_pos hstring) rfl rfl rfl (by simp [hstring])
  · have houtside : s.reading.inString = false := by simpa using hstring
    rw [if_neg hstring]
    by_cases hquote : b = asciiByte '"'
    · rw [if_pos hquote]
      refine ⟨fun s' hs' => ?_, fun _ => rfl⟩
      obtain rfl := Option.some.inj hs'
      subst hquote
      refine h.quiet rfl ?_ rfl rfl rfl ?_
      · rw [weight, houtside]
        decide
      · exact fun heq => absurd heq.1 (by decide)
    · rw [if_neg hquote]
      by_cases hopening : b = asciiByte '\x7b'
      · rw [if_pos hopening]
        subst hopening
        have hweight : weight rustSigns s.reading (asciiByte '\x7b') = 1 := by
          rw [weight, houtside]
          decide
        rw [hweight] at hbounds
        constructor
        · intro s' hs'
          obtain ⟨depth, hdepth, hmade⟩ := Option.bind_eq_some_iff.mp hs'
          obtain ⟨hin, rfl⟩ := checkedI32_eq_some.mp hdepth
          obtain rfl := Option.some.inj hmade
          exact h.opening houtside (hbounds.mpr hin)
        · intro hin
          rw [checkedI32_eq_some.mpr ⟨hbounds.mp hin, rfl⟩]
          rfl
      · rw [if_neg hopening]
        by_cases hclosing : b = asciiByte '\x7d'
        · rw [if_pos hclosing]
          subst hclosing
          have hweight : weight rustSigns s.reading (asciiByte '\x7d') = -1 := by
            rw [weight, houtside]
            decide
          rw [hweight, ← Int.sub_eq_add_neg] at hbounds
          constructor
          · intro s' hs'
            obtain ⟨depth, hdepth, hmade⟩ := Option.bind_eq_some_iff.mp hs'
            obtain ⟨hin, rfl⟩ := checkedI32_eq_some.mp hdepth
            obtain rfl := Option.some.inj hmade
            exact h.closing houtside (hbounds.mpr hin)
          · intro hin
            rw [checkedI32_eq_some.mpr ⟨hbounds.mp hin, rfl⟩]
            rfl
        · rw [if_neg hclosing]
          refine ⟨fun s' hs' => ?_, fun _ => rfl⟩
          obtain rfl := Option.some.inj hs'
          refine h.quiet ?_ ?_ rfl rfl rfl fun heq => hclosing heq.1
          · rw [Reading.step, if_neg hstring]
            exact (if_neg hquote).symm
          · rw [weight, if_neg hstring]
            exact (if_neg hopening).trans (if_neg hclosing)

theorem Reads.scan (h : s.Reads bytes) :
    (∀ s', scanBraces s bytes.length more = some s' → s'.Reads (bytes ++ more)) ∧
      (InI32 (bytes ++ more) → (scanBraces s bytes.length more).isSome = true) := by
  induction more generalizing s bytes with
  | nil =>
    rw [List.append_nil]
    refine ⟨fun s' hs' => ?_, fun _ => rfl⟩
    obtain rfl := Option.some.inj hs'
    exact h
  | cons b more ih =>
    have hsplit : bytes ++ b :: more = bytes ++ [b] ++ more := by simp
    have hlength : bytes.length + 1 = (bytes ++ [b]).length := by simp
    rw [scanBraces, hsplit, hlength]
    constructor
    · intro s' hs'
      obtain ⟨next, hnext, hrest⟩ := Option.bind_eq_some_iff.mp hs'
      exact (ih ((h.step b).1 next hnext)).1 s' hrest
    · intro hin
      obtain ⟨next, hnext⟩ := Option.isSome_iff_exists.mp ((h.step b).2 (within_of_append hin))
      rw [hnext]
      exact (ih ((h.step b).1 next hnext)).2 hin

end BraceScan

section Trimmed

variable {code kept items : List Char} {n : ℕ}

def EndsItem (items : List Char) : Prop :=
  ∃ front last, items = front ++ [last] ∧ (last = ';' ∨ last = '\x7d')

theorem solid_of_end {last : Char} (h : last = ';' ∨ last = '\x7d') : isWhitespace last = false := by
  rcases h with rfl | rfl
  · decide
  · decide

theorem boundary_of_closes (h : Closes rustSigns (bytesOf code) n) :
    isCharBoundary n code = true := by
  obtain ⟨front, hfront, hle, -⟩ := h
  have hlength : n = front.length + 1 := by
    have hsizes := congrArg List.length hfront
    rw [List.length_append, List.length_singleton, List.length_take, Nat.min_eq_left hle] at hsizes
    exact hsizes.symm
  have hbyte : (bytesOf code)[front.length]? = some (asciiByte '\x7d') := by
    have hlast := congrArg (·[front.length]?) hfront
    simp only [List.getElem?_concat_length] at hlast
    rw [List.getElem?_take_of_lt (by omega)] at hlast
    exact hlast.symm
  rw [hlength]
  exact isCharBoundary_succ hbyte (by decide)

theorem scanBraces_bytesOf (code : List Char) :
    (∀ s, scanBraces {} 0 (bytesOf code) = some s → s.Reads (bytesOf code)) ∧
      (InI32 (bytesOf code) → (scanBraces {} 0 (bytesOf code)).isSome = true) := by
  have h := @BraceScan.Reads.scan _ _ (bytesOf code) BraceScan.reads_nil
  rwa [List.nil_append] at h

theorem trimTrailingProse_spec (h : trimTrailingProse code = some kept) :
    ∃ cut, LastClose rustSigns (bytesOf code) cut ∧ InI32 (bytesOf code) ∧
      (kept = code ∧ (∀ n ∈ cut, trimChars (dropBytes n code) = []) ∨
        ∃ n ∈ cut, kept = takeBytes n code) := by
  obtain ⟨scan, hscan, hrest⟩ := Option.bind_eq_some_iff.mp h
  have hreads := (scanBraces_bytesOf code).1 scan hscan
  refine ⟨scan.cutAt, hreads.cut, hreads.within, ?_⟩
  cases hcut : scan.cutAt with
  | none =>
    rw [hcut] at hrest
    obtain rfl := Option.some.inj hrest
    exact .inl ⟨rfl, by simp⟩
  | some n =>
    have hboundary : isCharBoundary n code = true := by
      have hlast := hreads.cut
      rw [hcut] at hlast
      exact boundary_of_closes hlast.1
    rw [hcut] at hrest
    simp only [sliceFrom_eq hboundary, Option.bind_eq_bind, Option.bind_some] at hrest
    by_cases hblank : (trimChars (dropBytes n code)).isEmpty = true
    · rw [if_pos hblank] at hrest
      obtain rfl := Option.some.inj hrest
      refine .inl ⟨rfl, fun m hm => ?_⟩
      obtain rfl := Option.some.inj hm
      exact List.isEmpty_iff.mp hblank
    · rw [if_neg hblank, checkedSlice_eq (isCharBoundary_zero code) hboundary (Nat.zero_le n)]
        at hrest
      obtain rfl := Option.some.inj hrest
      refine .inr ⟨n, rfl, ?_⟩
      rw [slice, dropBytes_zero, Nat.sub_zero]

theorem trimTrailingProse_isSome : (trimTrailingProse code).isSome = true ↔ InI32 (bytesOf code) := by
  constructor
  · intro h
    obtain ⟨kept, hkept⟩ := Option.isSome_iff_exists.mp h
    obtain ⟨cut, -, hin, -⟩ := trimTrailingProse_spec hkept
    exact hin
  · intro hin
    obtain ⟨scan, hscan⟩ := Option.isSome_iff_exists.mp ((scanBraces_bytesOf code).2 hin)
    have hreads := (scanBraces_bytesOf code).1 scan hscan
    rw [trimTrailingProse, hscan]
    simp only [Option.bind_eq_bind, Option.bind_some]
    cases hcut : scan.cutAt with
    | none => rfl
    | some n =>
      have hboundary : isCharBoundary n code = true := by
        have hlast := hreads.cut
        rw [hcut] at hlast
        exact boundary_of_closes hlast.1
      simp only [sliceFrom_eq hboundary, Option.bind_some,
        checkedSlice_eq (isCharBoundary_zero code) hboundary (Nat.zero_le n)]
      split
      · rfl
      · rfl

theorem trimTrailingProse_isPrefix (h : trimTrailingProse code = some kept) : kept <+: code := by
  obtain ⟨cut, -, -, ⟨rfl, -⟩ | ⟨n, -, rfl⟩⟩ := trimTrailingProse_spec h
  · exact List.prefix_rfl
  · exact ⟨dropBytes n code, takeBytes_append_dropBytes n code⟩

theorem blank_of_trimChars {cs : List Char} (h : trimChars cs = []) :
    ∀ c ∈ cs, isWhitespace c = true := by
  rw [trimChars, List.reverse_eq_nil_iff, List.dropWhile_eq_nil_iff] at h
  intro c hc
  rw [← List.takeWhile_append_dropWhile (p := isWhitespace) (l := cs), List.mem_append] at hc
  rcases hc with hc | hc
  · exact List.mem_takeWhile_imp hc
  · exact h c (List.mem_reverse.mpr hc)

theorem isPrefix_of_utf8Len_le {xs ys cs : List Char} (hxs : xs <+: cs) (hys : ys <+: cs)
    (hle : utf8Len xs ≤ utf8Len ys) : xs <+: ys := by
  rcases List.prefix_or_prefix_of_prefix hxs hys with h | ⟨more, rfl⟩
  · exact h
  · rw [utf8Len_append] at hle
    obtain rfl : more = [] := utf8Len_eq_zero.mp (by omega)
    rw [List.append_nil]

theorem le_of_blank (hitems : items <+: code) (hends : EndsItem items)
    (hn : isCharBoundary n code = true) (hblank : trimChars (dropBytes n code) = []) :
    utf8Len items ≤ n := by
  obtain ⟨front, last, rfl, hsign⟩ := hends
  have hlast := solid_of_end hsign
  by_contra hlt
  have htaken : takeBytes n code <+: code :=
    ⟨dropBytes n code, takeBytes_append_dropBytes n code⟩
  have hsize := utf8Len_takeBytes hn
  have hbegin := isPrefix_of_utf8Len_le htaken hitems (by omega)
  rcases List.prefix_concat_iff.mp hbegin with heq | ⟨more, hmore⟩
  · rw [heq] at hsize
    omega
  · obtain ⟨rest, hrest⟩ := hitems
    have hbehind : dropBytes n code = more ++ [last] ++ rest := by
      apply @List.append_cancel_left _ (takeBytes n code)
      rw [takeBytes_append_dropBytes, ← List.append_assoc, ← List.append_assoc, hmore, hrest]
    have hmem : last ∈ dropBytes n code := by
      rw [hbehind]
      simp
    exact absurd (blank_of_trimChars hblank last hmem) (by rw [hlast]; decide)

theorem items_kept_iff (h : trimTrailingProse code = some kept) (hitems : items <+: code)
    (hends : EndsItem items) : items <+: kept ↔
      (∀ n, ¬Closes rustSigns (bytesOf code) n) ∨
        ∃ n, utf8Len items ≤ n ∧ Closes rustSigns (bytesOf code) n := by
  obtain ⟨cut, hlast, -, hkept⟩ := trimTrailingProse_spec h
  rw [← hlast.ahead]
  have hboundary : ∀ n ∈ cut, isCharBoundary n code = true := by
    rintro n rfl
    exact boundary_of_closes hlast.1
  rcases hkept with ⟨rfl, hblank⟩ | ⟨n, rfl, rfl⟩
  · exact iff_of_true hitems fun n hn => le_of_blank hitems hends (hboundary n hn) (hblank n hn)
  · have hsize := utf8Len_takeBytes (hboundary n rfl)
    constructor
    · intro hkept m hm
      obtain rfl := Option.some.inj hm
      rw [← hsize]
      exact utf8Len_mono hkept
    · intro hle
      apply isPrefix_of_utf8Len_le hitems (trimTrailingProse_isPrefix h)
      rw [hsize]
      exact hle n rfl

end Trimmed

section Begins

variable {text line word : List Char}

structure Keyword (word : List Char) : Prop where
  head : ∃ c more, word = c :: more ∧ isWhitespace c = false
  line : '\n' ∉ word ∧ '\r' ∉ word
  open_ended : ';' ∉ word ∧ '\x7d' ∉ word

theorem keywords : ∀ word ∈ declarations ++ ["#["], Keyword word.toList := by
  have hall : ∀ word ∈ declarations ++ ["#["], (word.toList.head?.any fun c => !isWhitespace c) ∧
      ('\n' ∉ word.toList ∧ '\r' ∉ word.toList) ∧ (';' ∉ word.toList ∧ '\x7d' ∉ word.toList) := by
    decide +kernel
  intro word hword
  obtain ⟨hhead, hline, hopen⟩ := hall word hword
  refine ⟨?_, hline, hopen⟩
  cases hchars : word.toList with
  | nil =>
    rw [hchars] at hhead
    cases hhead
  | cons c more =>
    rw [hchars] at hhead
    exact ⟨c, more, rfl, by simpa using hhead⟩

theorem beginsWith_iff {words : List String} :
    beginsWith words line = true ↔ ∃ word ∈ words, word.toList <+: trimStart line := by
  simp only [beginsWith, List.any_eq_true, List.isPrefixOf_iff_prefix]

theorem trimStart_blank {blanks : List Char} (h : ∀ c ∈ blanks, isWhitespace c = true)
    (cs : List Char) : trimStart (blanks ++ cs) = trimStart cs := by
  induction blanks with
  | nil => rfl
  | cons c blanks ih =>
    rw [List.forall_mem_cons] at h
    rw [List.cons_append, trimStart, List.dropWhile_cons_of_pos h.1]
    exact ih h.2

theorem trimStart_cons_of_not {c : Char} (h : isWhitespace c = false) (cs : List Char) :
    trimStart (c :: cs) = c :: cs :=
  List.dropWhile_cons_of_neg (by rw [h]; decide)

theorem linesFrom_blank {blanks : List Char} (h : ∀ c ∈ blanks, isWhitespace c = true)
    (cs : List Char) : ∃ read, (∀ c ∈ read, isWhitespace c = true) ∧
      linesFrom blanks ('\n' :: cs) = read :: linesFrom [] cs := by
  by_cases hreturn : ∃ kept, blanks = '\r' :: kept
  · obtain ⟨kept, rfl⟩ := hreturn
    exact ⟨kept.reverse, fun c hc => h c (List.mem_cons_of_mem _ (List.mem_reverse.mp hc)), rfl⟩
  · refine ⟨blanks.reverse, fun c hc => h c (List.mem_reverse.mp hc), ?_⟩
    rw [linesFrom.eq_3]
    exact fun kept heq => hreturn ⟨kept, heq⟩

theorem find_line (hword : Keyword word) (blanks : List Char)
    (hblanks : ∀ c ∈ blanks, isWhitespace c = true) (h : word <+: trimStart text) :
    ∃ found, (linesFrom blanks text).find? (fun line => !(trimStart line).isEmpty) = some found ∧
      word <+: trimStart found := by
  obtain ⟨first, others, hhead, hfirst⟩ := hword.head
  induction text generalizing blanks with
  | nil =>
    rw [hhead] at h
    exact absurd (List.prefix_nil.mp h) (by simp)
  | cons c text ih =>
    by_cases hc : isWhitespace c = true
    · have hrest : word <+: trimStart text := by
        rwa [trimStart, List.dropWhile_cons_of_pos hc] at h
      by_cases hbreak : c = '\n'
      · subst hbreak
        obtain ⟨read, hblank, hread⟩ := linesFrom_blank hblanks text
        have hempty : trimStart read = [] := List.dropWhile_eq_nil_iff.mpr hblank
        rw [hread, List.find?_cons_of_neg (by rw [hempty]; decide)]
        exact ih [] (by simp) hrest
      · rw [linesFrom_cons hbreak]
        exact ih (c :: blanks) (List.forall_mem_cons.mpr ⟨hc, hblanks⟩) hrest
    · have hsolid : isWhitespace c = false := by simpa using hc
      rw [trimStart_cons_of_not hsolid] at h
      obtain ⟨more, hmore⟩ := h
      obtain ⟨last, front, hlast⟩ : ∃ last front, word.reverse = last :: front :=
        List.exists_cons_of_ne_nil (by simp [hhead])
      have hreturn : last ≠ '\r' := by
        rintro rfl
        apply hword.line.2
        rw [← List.mem_reverse, hlast]
        exact List.mem_cons_self
      obtain ⟨behind, lines, hlines⟩ := linesFrom_kept hreturn [] (front ++ blanks) more
      have hfound : (last :: (front ++ blanks)).reverse = blanks.reverse ++ word := by
        rw [← List.cons_append, ← hlast, List.reverse_append, List.reverse_reverse]
      have htrim : trimStart (blanks.reverse ++ word ++ behind) = word ++ behind := by
        rw [List.append_assoc, trimStart_blank fun c hmem => hblanks c (List.mem_reverse.mp hmem),
          hhead, List.cons_append, trimStart_cons_of_not hfirst]
      rw [← hmore, linesFrom_append hword.line.1, hlast, List.cons_append]
      rw [List.nil_append, hfound] at hlines
      rw [hlines, List.find?_cons_of_pos (by rw [htrim, hhead]; rfl)]
      exact ⟨_, rfl, by rw [htrim]; exact List.prefix_append _ _⟩

theorem firstMeaningfulLineIsRust_of_begins {words : String} (hmem : words ∈ declarations ++ ["#["])
    (h : words.toList <+: trimStart text) : firstMeaningfulLineIsRust text = true := by
  obtain ⟨found, hfound, hbegins⟩ := find_line (keywords _ hmem) [] (by simp) h
  rw [firstMeaningfulLineIsRust, hfound]
  exact beginsWith_iff.mpr ⟨words, hmem, hbegins⟩

theorem trimStart_items {items : List Char} (h : items <+: text) (hends : EndsItem items) :
    trimStart items <+: trimStart text ∧ EndsItem (trimStart items) := by
  obtain ⟨rest, rfl⟩ := h
  obtain ⟨front, last, rfl, hsign⟩ := hends
  have hlast := solid_of_end hsign
  have hkept : ∀ more, trimStart (front ++ last :: more) = trimStart front ++ last :: more := by
    intro more
    rw [trimStart, List.dropWhile_append]
    split
    · rename_i hempty
      rw [trimStart, List.isEmpty_iff.mp hempty, List.nil_append]
      exact trimStart_cons_of_not hlast more
    · rfl
  rw [List.append_assoc, List.singleton_append, hkept, hkept]
  exact ⟨⟨rest, by simp⟩, trimStart front, last, rfl, hsign⟩

theorem slice_loses_items {items code : List Char} (hfirst : firstMeaningfulLineIsRust text = false)
    (h : sliceRustFromProse text = some (some code)) (hitems : items <+: text)
    (hends : EndsItem items) : ¬items <+: code := by
  intro hkept
  obtain ⟨line, lines, hdrop, htrim⟩ : ∃ line lines, (linesFrom [] text).dropWhile
      (fun line => !beginsWith (declarations ++ ["#["]) line) = line :: lines ∧
        trimTrailingProse (['\n'].intercalate (line :: lines)) = some code := by
    rw [sliceRustFromProse] at h
    split at h
    · cases h
    · rename_i line lines hdrop
      refine ⟨line, lines, hdrop, ?_⟩
      simp only at h
      split at h
      · obtain ⟨kept, hsome, hcode⟩ := Option.map_eq_some_iff.mp h
        rw [hsome, Option.some.inj hcode]
      · cases h
  obtain ⟨word, hmem, hword⟩ : ∃ word ∈ declarations ++ ["#["], word.toList <+: trimStart line := by
    have hhead := List.head?_dropWhile_not
      (fun line => !beginsWith (declarations ++ ["#["]) line) (linesFrom [] text)
    rw [hdrop] at hhead
    exact beginsWith_iff.mp (by simpa using hhead)
  have hkeyword := keywords word hmem
  obtain ⟨c, letters, hletters, -⟩ := hkeyword.head
  have htail : word.toList <+: trimStart (['\n'].intercalate (line :: lines)) := by
    obtain ⟨more, hmore⟩ : ∃ more, ['\n'].intercalate (line :: lines) = line ++ more := by
      cases lines with
      | nil => exact ⟨[], by simp [List.intercalate]⟩
      | cons next lines =>
        exact ⟨['\n'] ++ ['\n'].intercalate (next :: lines), by
          rw [List.intercalate_cons_cons, List.append_assoc]⟩
    have hsolid : (trimStart line).isEmpty = false := by
      obtain ⟨rest, hrest⟩ := hword
      rw [← hrest, hletters]
      rfl
    rw [hmore, trimStart, List.dropWhile_append, ← trimStart, hsolid]
    exact hword.trans (List.prefix_append _ _)
  obtain ⟨hbehind, -⟩ := trimStart_items (hkept.trans (trimTrailingProse_isPrefix htrim)) hends
  obtain ⟨hahead, front, last, hlast, hsign⟩ := trimStart_items hitems hends
  rcases List.prefix_or_prefix_of_prefix htail hbehind with hshort | hlong
  · rw [firstMeaningfulLineIsRust_of_begins hmem (hshort.trans hahead)] at hfirst
    cases hfirst
  · have hin : last ∈ word.toList := by
      apply hlong.subset
      rw [hlast]
      exact List.mem_append_right _ List.mem_cons_self
    rcases hsign with rfl | rfl
    · exact hkeyword.open_ended.1 hin
    · exact hkeyword.open_ended.2 hin

end Begins

section Responses

variable {text items fenced : List Char}

def TakenBlock (text fenced : List Char) : Prop :=
  extractFencedCode text = some (some fenced) ∧ looksLikeRustSource fenced = true

theorem extractCode_of_taken (h : TakenBlock text fenced) :
    extractCodeFromResponse text = some (some fenced) := by
  rw [extractCodeFromResponse, h.1]
  simp only [Option.bind_eq_bind, Option.bind_some]
  rw [if_pos h.2]
  rfl

theorem extractCode_of_not_taken (h : ∀ fenced, ¬TakenBlock text fenced) :
    extractCodeFromResponse text = extractUnfenced text := by
  obtain ⟨found, hfound⟩ := extractFencedCode_returns text
  rw [extractCodeFromResponse, hfound]
  cases found with
  | none => rfl
  | some fenced =>
    simp only [Option.bind_eq_bind, Option.bind_some]
    exact if_neg fun hlooks => h fenced ⟨hfound, hlooks⟩

def ReturnsItems (text items : List Char) : Prop :=
  ∃ code, extractCodeFromResponse text = some (some code) ∧ items <+: code

def ClosesBehind (text items : List Char) : Prop :=
  (∀ n, ¬Closes rustSigns (bytesOf text) n) ∨
    ∃ n, utf8Len items ≤ n ∧ Closes rustSigns (bytesOf text) n

theorem unfenced_returnsItems_iff (h : ∀ fenced, ¬TakenBlock text fenced) (hitems : items <+: text)
    (hends : EndsItem items) : ReturnsItems text items ↔
      firstMeaningfulLineIsRust text = true ∧ InI32 (bytesOf text) ∧ ClosesBehind text items := by
  rw [ReturnsItems, extractCode_of_not_taken h, extractUnfenced]
  cases hfirst : firstMeaningfulLineIsRust text with
  | true =>
    rw [if_pos rfl]
    constructor
    · rintro ⟨code, hcode, hkept⟩
      obtain ⟨kept, htrim, hsome⟩ := Option.map_eq_some_iff.mp hcode
      rw [Option.some.inj hsome] at htrim
      refine ⟨rfl, ?_, (items_kept_iff htrim hitems hends).mp hkept⟩
      exact trimTrailingProse_isSome.mp (by rw [htrim]; rfl)
    · rintro ⟨-, hin, hclose⟩
      obtain ⟨code, hcode⟩ := Option.isSome_iff_exists.mp (trimTrailingProse_isSome.mpr hin)
      refine ⟨code, by rw [hcode]; rfl, (items_kept_iff hcode hitems hends).mpr hclose⟩
  | false =>
    rw [if_neg (by decide)]
    refine iff_of_false ?_ (by simp)
    rintro ⟨code, hcode, hkept⟩
    exact slice_loses_items hfirst hcode hitems hends hkept

def scannedText (text : List Char) : Option (List Char) :=
  if firstMeaningfulLineIsRust text then some text
  else
    match (linesFrom [] text).dropWhile fun line => !beginsWith (declarations ++ ["#["]) line with
    | [] => none
    | line :: lines =>
      let tail := ['\n'].intercalate (line :: lines)
      if (linesFrom [] tail).any (beginsWith ["fn main"]) then some tail else none

theorem extractUnfenced_eq (text : List Char) : extractUnfenced text =
    (scannedText text).elim (some none) fun code => (trimTrailingProse code).map some := by
  rw [extractUnfenced, scannedText, sliceRustFromProse]
  split
  · rfl
  · cases (linesFrom [] text).dropWhile fun line => !beginsWith (declarations ++ ["#["]) line with
    | nil => rfl
    | cons line lines =>
      simp only
      split
      · rfl
      · rfl

theorem extractCode_isSome_iff : (extractCodeFromResponse text).isSome = true ↔
    (∃ fenced, TakenBlock text fenced) ∨ ∀ code ∈ scannedText text, InI32 (bytesOf code) := by
  by_cases htaken : ∃ fenced, TakenBlock text fenced
  · obtain ⟨fenced, hfenced⟩ := htaken
    rw [extractCode_of_taken hfenced]
    exact iff_of_true rfl (.inl ⟨fenced, hfenced⟩)
  · rw [or_iff_right htaken, extractCode_of_not_taken (not_exists.mp htaken), extractUnfenced_eq]
    cases scannedText text with
    | none => simp
    | some code =>
      rw [Option.elim_some, Option.isSome_map, trimTrailingProse_isSome]
      constructor
      · rintro hin other hother
        obtain rfl := Option.some.inj hother
        exact hin
      · exact fun hin => hin code rfl

/-- The code between fences is given back just where the scan for the closing one ends outside of a
string, and the items of a text just where no block inside it is taken in its place, its first line
is a known one and no brace closes it for the last time before they end. -/
theorem extracted_whole_iff (prose code text items : List Char) :
    ('`' ∉ prose → ¬codeFence <:+: code →
      (extractFencedCode (fencedResponse prose code) = some (some (trimBreaks code)) ↔
        endsOutside code = true)) ∧
    (items <+: text → EndsItem items →
      (ReturnsItems text items ↔
        (∃ fenced, TakenBlock text fenced ∧ items <+: fenced) ∨
          (∀ fenced, ¬TakenBlock text fenced) ∧ firstMeaningfulLineIsRust text = true ∧
            InI32 (bytesOf text) ∧ ClosesBehind text items)) ∧
    (extractFencedCode text).isSome = true ∧
    ((extractCodeFromResponse text).isSome = true ↔
      (∃ fenced, TakenBlock text fenced) ∨ ∀ code ∈ scannedText text, InI32 (bytesOf code)) := by
  refine ⟨fun hprose hcode => ?_, fun hitems hends => ?_, ?_, extractCode_isSome_iff⟩
  · rw [extractFencedCode_response hprose hcode]
    cases endsOutside code with
    | false => simp
    | true => simp
  · by_cases htaken : ∃ fenced, TakenBlock text fenced
    · obtain ⟨fenced, hfenced⟩ := htaken
      rw [ReturnsItems, extractCode_of_taken hfenced]
      constructor
      · rintro ⟨found, hfound, hkept⟩
        obtain rfl := Option.some.inj (Option.some.inj hfound)
        exact .inl ⟨fenced, hfenced, hkept⟩
      · rintro (⟨other, hother, hkept⟩ | ⟨hnone, -⟩)
        · obtain rfl := Option.some.inj (Option.some.inj (hother.1.symm.trans hfenced.1))
          exact ⟨other, rfl, hkept⟩
        · exact absurd hfenced (hnone fenced)
    · have hnone := not_exists.mp htaken
      rw [unfenced_returnsItems_iff hnone hitems hends]
      constructor
      · exact fun h => .inr ⟨hnone, h⟩
      · rintro (⟨fenced, hfenced, -⟩ | ⟨-, h⟩)
        · exact absurd hfenced (hnone fenced)
        · exact h
  · obtain ⟨fenced, hfenced⟩ := extractFencedCode_returns text
    rw [hfenced]
    rfl

theorem literals_and_items_lost :
    extractFencedCode (fencedResponse [] "fn main() \x7b let q = '\"'; \x7d".toList) = some none ∧
      ¬ReturnsItems "fn main() \x7b\x7d\nstruct A;".toList
        "fn main() \x7b\x7d\nstruct A;".toList := by
  refine ⟨by decide +kernel, ?_⟩
  rintro ⟨code, hcode, hkept⟩
  have hcut : extractCodeFromResponse "fn main() \x7b\x7d\nstruct A;".toList =
      some (some "fn main() \x7b\x7d".toList) := by decide +kernel
  obtain rfl := Option.some.inj (Option.some.inj (hcut.symm.trans hcode))
  exact absurd hkept (by decide +kernel)

end Responses

end AtomVibe.Core
