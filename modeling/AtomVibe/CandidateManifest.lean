import AtomVibe.CandidateModel
import AtomVibe.Foundations.Toml

namespace AtomVibe.Verification

open Checked Text Toml
open scoped Computability

def dependencyNames : List (List Char) :=
  ["dependencies".toList, "dev-dependencies".toList, "build-dependencies".toList]

def isBracketed (line : List Char) : Bool := line.head? == some '[' && line.getLast? == some ']'

def tableName (line : List Char) : List Char :=
  (trimChars (trimMatches (fun c => c == '[' || c == ']') line)).map Char.toLower

def isDependencyTable (table : List Char) : Bool :=
  dependencyNames.any (fun name => table == name) ||
    dependencyNames.any fun name => ('.' :: name).isSuffixOf table

def compact (line : List Char) : List Char := (line.filter (· != ' ')).map Char.toLower

def isSkipped (line : List Char) : Bool := line == [] || line.head? == some '#'

def scanLines (dependencyTable : Bool) : List (List Char) → Except VerificationError Unit
  | [] => .ok ()
  | raw :: rest =>
    let line := trimChars raw
    if isSkipped line = true then scanLines dependencyTable rest
    else if isBracketed line = true then scanLines (isDependencyTable (tableName line)) rest
    else do
      refuseIf (dependencyTable = true ∧ '=' ∈ line)
        (.unsupportedCandidate "generated candidates must remain dependency-free")
      refuseIf ("build=".toList.isPrefixOf (compact line) = true)
        (.unsupportedCandidate "generated build scripts are forbidden")
      scanLines dependencyTable rest

def validateDependencyFreeManifest (text : String) : Except VerificationError Unit :=
  scanLines false (lines text)

section Declared

inductive Declared (path : List Segment) (leaf : Leaf) : Prop
  | dependency {before after : List Segment} {name x : Segment} (known : name ∈ dependencyNames)
      (below : path = before ++ name :: x :: after) : Declared path leaf
  | build (name : path = ["package".toList, "build".toList]) (on : leaf ≠ .off) :
      Declared path leaf

def Declares (items : List Item) : Prop :=
  ∃ leaf ∈ pathsFrom [] items, Declared leaf.1 leaf.2

def CheckedSoundly (text : String) : Prop :=
  validateDependencyFreeManifest text = .ok () →
    ∀ items, Document text.toList items → ¬Declares items

end Declared

section Noticed

def trimmedLines (text : String) : List (List Char) := (lines text).map trimChars

def belowDependencies (dependencyTable : Bool) (before : List (List Char)) : Bool :=
  match (before.filter isBracketed).getLast? with
  | none => dependencyTable
  | some header => isDependencyTable (tableName header)

inductive Noticed (dependencyTable : Bool) (before : List (List Char)) (line : List Char) : Prop
  | dependency (entry : isSkipped line = false ∧ isBracketed line = false ∧ '=' ∈ line)
      (below : belowDependencies dependencyTable before = true) : Noticed dependencyTable before line
  | build (entry : "build=".toList <+: compact line) : Noticed dependencyTable before line

def HoldsNoticedLine (text : String) : Prop :=
  ∃ before line after, trimmedLines text = before ++ line :: after ∧ Noticed false before line

theorem belowDependencies_cons (flag : Bool) (line : List Char) (before : List (List Char)) :
    belowDependencies flag (line :: before) = belowDependencies
      (if isBracketed line = true then isDependencyTable (tableName line) else flag) before := by
  simp only [belowDependencies, List.filter_cons]
  by_cases h : isBracketed line = true
  · rw [if_pos h, if_pos h, List.getLast?_cons]
    cases (before.filter isBracketed).getLast? with
    | none => rfl
    | some header => rfl
  · rw [if_neg h, if_neg h]

theorem Noticed.shift {flag : Bool} {line : List Char} {before : List (List Char)}
    {other : List Char} : Noticed flag (line :: before) other ↔ Noticed
      (if isBracketed line = true then isDependencyTable (tableName line) else flag) before
        other := by
  constructor
  · rintro (⟨entry, below⟩ | entry)
    · exact .dependency entry (by rwa [← belowDependencies_cons])
    · exact .build entry
  · rintro (⟨entry, below⟩ | entry)
    · exact .dependency entry (by rwa [belowDependencies_cons])
    · exact .build entry

theorem head_trimChars {cs : List Char} {c : Char} (h : (trimChars cs).head? = some c) :
    isWhitespace c = false := by
  have hprefix : trimChars cs <+: cs.dropWhile isWhitespace := by
    rw [trimChars, ← List.reverse_suffix, List.reverse_reverse]
    exact List.dropWhile_suffix _
  obtain ⟨rest, hrest⟩ := hprefix
  have hhead : (cs.dropWhile isWhitespace).head? = some c := by
    rw [← hrest, List.head?_append, h]
    rfl
  exact List.head?_dropWhile_not isWhitespace cs |> fun hnot => by simpa [hhead] using hnot

theorem compact_build {cs : List Char} (h : "build=".toList <+: compact (trimChars cs)) :
    isSkipped (trimChars cs) = false ∧ isBracketed (trimChars cs) = false := by
  cases hline : trimChars cs with
  | nil => simp [hline, compact] at h
  | cons c line =>
    have hhead : (trimChars cs).head? = some c := by rw [hline, List.head?_cons]
    have hblank := head_trimChars hhead
    have hspace : c ≠ ' ' := by
      rintro rfl
      exact absurd hblank (by decide)
    have hc : c.toLower = 'b' := by
      obtain ⟨rest, hrest⟩ := h
      have hcompact : compact (c :: line) = c.toLower :: compact line := by
        simp [compact, hspace]
      rw [hline, hcompact] at hrest
      exact (List.cons.inj hrest).1.symm
    have hne : c ≠ '#' ∧ c ≠ '[' := by
      constructor <;> rintro rfl <;> exact absurd hc (by decide)
    simp [isSkipped, isBracketed, hne.1, hne.2]

theorem noticed_nil_iff (flag : Bool) (cs : List Char) : Noticed flag [] (trimChars cs) ↔
    isSkipped (trimChars cs) = false ∧ isBracketed (trimChars cs) = false ∧
      (flag = true ∧ '=' ∈ trimChars cs ∨ "build=".toList <+: compact (trimChars cs)) := by
  constructor
  · rintro (⟨⟨hskip, hbracket, hmem⟩, below⟩ | entry)
    · exact ⟨hskip, hbracket, .inl ⟨below, hmem⟩⟩
    · exact ⟨(compact_build entry).1, (compact_build entry).2, .inr entry⟩
  · rintro ⟨hskip, hbracket, ⟨hflag, hmem⟩ | entry⟩
    · exact .dependency ⟨hskip, hbracket, hmem⟩ hflag
    · exact .build entry

theorem scanLines_eq_ok {flag : Bool} {raws : List (List Char)} : scanLines flag raws = .ok () ↔
    ∀ before line after, raws.map trimChars = before ++ line :: after →
      ¬Noticed flag before line := by
  induction raws generalizing flag with
  | nil => simp [scanLines]
  | cons raw raws ih =>
    have hsplit : (∀ before line after, (raw :: raws).map trimChars = before ++ line :: after →
        ¬Noticed flag before line) ↔ ¬Noticed flag [] (trimChars raw) ∧
          ∀ before line after, raws.map trimChars = before ++ line :: after →
            ¬Noticed flag (trimChars raw :: before) line := by
      constructor
      · intro h
        exact ⟨h [] _ _ rfl, fun before line after heq => h (_ :: before) line after (by simp [heq])⟩
      · rintro ⟨hfirst, hrest⟩ before line after heq
        cases before with
        | nil =>
          obtain ⟨rfl, -⟩ := List.cons.inj heq
          exact hfirst
        | cons first before =>
          obtain ⟨rfl, hsame⟩ := List.cons.inj heq
          exact hrest before line after hsame
    rw [hsplit, noticed_nil_iff]
    simp only [Noticed.shift, ← ih, scanLines]
    by_cases hskip : isSkipped (trimChars raw) = true
    · have hbracket : isBracketed (trimChars raw) = false := by
        simp only [isSkipped, Bool.or_eq_true, beq_iff_eq] at hskip
        rcases hskip with h | h <;> simp [isBracketed, h]
      simp [hskip, hbracket]
    · by_cases hbracket : isBracketed (trimChars raw) = true
      · simp [hskip, hbracket]
      · rw [if_neg hskip, if_neg hbracket, if_neg hbracket]
        simp only [bind_eq_ok, refuseIf_eq_ok, List.isPrefixOf_iff_prefix, exists_const]
        simp only [Bool.not_eq_true] at hskip hbracket
        simp only [hskip, hbracket, true_and, not_or, and_assoc]

theorem validate_eq_ok_iff (text : String) :
    validateDependencyFreeManifest text = .ok () ↔ ¬HoldsNoticedLine text := by
  rw [validateDependencyFreeManifest, scanLines_eq_ok, HoldsNoticedLine, trimmedLines]
  simp only [not_exists, not_and]

end Noticed

section Plain

def namesDependencies (text : List Char) : Bool :=
  isBracketed (trimChars text) && isDependencyTable (tableName (trimChars text))

/-- Some entry is the first below such a header, or begins with `build=`. `known` is whether the
header above is such and no entry has followed it yet. -/
def plainFrom (known : Bool) : List Item → Bool
  | [] => false
  | .table text _ :: items | .tables text _ :: items => plainFrom (namesDependencies text) items
  | .entry text _ :: items =>
    known || "build=".toList.isPrefixOf (compact text) || plainFrom false items

variable {flag known : Bool} {cs ending : List Char} {items others : List Item}

theorem scanLines_append (flag : Bool) (raws rest : List (List Char)) :
    scanLines flag (raws ++ rest) ≠ .ok () ∨
      ∃ flag', scanLines flag (raws ++ rest) = scanLines flag' rest := by
  induction raws generalizing flag with
  | nil => exact .inr ⟨flag, rfl⟩
  | cons raw raws ih =>
    rw [List.cons_append, scanLines]
    by_cases hskip : isSkipped (trimChars raw) = true
    · rw [if_pos hskip]
      exact ih _
    · rw [if_neg hskip]
      by_cases hbracket : isBracketed (trimChars raw) = true
      · rw [if_pos hbracket]
        exact ih _
      · rw [if_neg hbracket]
        by_cases hdependency : flag = true ∧ '=' ∈ trimChars raw
        · left
          simp [refuseIf, hdependency, Bind.bind, Except.bind]
        · by_cases hbuild : "build=".toList.isPrefixOf (compact (trimChars raw)) = true
          · left
            simp only [ne_eq, bind_eq_ok, refuseIf_eq_ok]
            rintro ⟨-, -, -, hno, -⟩
            exact hno hbuild
          · simp only [refuseIf, if_neg hdependency, if_neg hbuild]
            exact ih _

theorem ending_cases (h : ending = [] ∨ ending ∈ newline) :
    ending = [] ∨ ending = ['\n'] ∨ ending = ['\r', '\n'] := by
  rcases h with h | h | h
  · exact .inl h
  · exact .inr (.inl h)
  · exact .inr (.inr h)

theorem linesFrom_single (hcs : '\n' ∉ cs) (h : ending = [] ∨ ending ∈ newline) :
    (linesFrom [] (cs ++ ending)).map trimChars = [trimChars cs] ∨
      cs = [] ∧ linesFrom [] (cs ++ ending) = [] := by
  rw [linesFrom_append hcs, List.append_nil]
  rcases ending_cases h with rfl | rfl | rfl
  · by_cases hempty : cs = []
    · exact .inr ⟨hempty, by simp [hempty, linesFrom]⟩
    · left
      rw [linesFrom, if_neg (by simpa using hempty)]
      simp
  · left
    cases hlast : cs.reverse with
    | nil =>
      have hnil : cs = [] := by simpa using hlast
      subst hnil
      rfl
    | cons c kept =>
      have hsplit : cs = kept.reverse ++ [c] := by
        rw [← List.reverse_reverse cs, hlast, List.reverse_cons]
      by_cases hc : c = '\r'
      · subst hc
        rw [linesFrom, hsplit, trimChars_blanks (by simp [isWhitespace])]
        rfl
      · rw [linesFrom.eq_3 _ _ (fun kept heq => hc (List.cons.inj heq).1), List.reverse_cons,
          ← hsplit]
        rfl
  · left
    rw [linesFrom_cons (by decide), linesFrom]
    simp [linesFrom]

theorem isWhitespace_of_blank {c : Char} (h : isSpace c = true) : isWhitespace c = true := by
  simp only [isSpace, Bool.or_eq_true, beq_iff_eq] at h
  rcases h with rfl | rfl <;> decide

theorem newline_not_space {c : Char} (h : isSpace c = true) : c ≠ '\n' := by
  rintro rfl
  exact absurd h (by decide)

theorem newline_not_printed {c : Char} (h : isPrinted c = true) : c ≠ '\n' := by
  rintro rfl
  exact absurd h (by decide)

def startsKey (c : Char) : Bool := isBare c || c == '"' || c == '\''

theorem startsKey_bounds {c : Char} (h : startsKey c = true) : 0x22 ≤ c.toNat ∧ c.toNat ≤ 0x7a := by
  simp only [startsKey, isBare, isDigit, Bool.or_eq_true, Bool.and_eq_true, decide_eq_true_eq,
    beq_iff_eq, Char.le_def, UInt32.le_iff_toNat_le] at h
  have hval : c.val.toNat = c.toNat := rfl
  rcases h with (((((h | h) | h) | rfl) | rfl) | rfl) | rfl
  · have h1 : 48 ≤ c.val.toNat ∧ c.val.toNat ≤ 57 := h
    omega
  · have h1 : 97 ≤ c.val.toNat ∧ c.val.toNat ≤ 122 := h
    omega
  · have h1 : 65 ≤ c.val.toNat ∧ c.val.toNat ≤ 90 := h
    omega
  all_goals decide

theorem not_isWhitespace_of_startsKey {c : Char} (h : startsKey c = true) :
    isWhitespace c = false := by
  obtain ⟨hlow, hhigh⟩ := startsKey_bounds h
  simp only [isWhitespace, Bool.or_eq_false_iff, Bool.and_eq_false_iff, decide_eq_false_iff_not,
    beq_eq_false_iff_ne, ne_eq]
  omega

theorem BasicChar.newline {c : Char} (h : BasicChar cs c) : '\n' ∉ cs := by
  cases h with
  | plain printed =>
    rw [List.mem_singleton]
    exact (newline_not_printed printed).symm
  | @escape letter c known =>
    have hletter : ∀ e ∈ escapes, e.1 ≠ '\n' := by decide
    simp [(hletter _ known).symm]
  | @unit letter digits hex size =>
    have hdigits : '\n' ∉ digits := fun hmem => absurd (hex _ hmem) (by decide)
    have hletter : letter ≠ '\n' := by
      rcases size with ⟨rfl, -⟩ | ⟨rfl, -⟩ <;> decide
    simp [hdigits, hletter.symm]

theorem BasicText.newline {out : List Char} (h : BasicText cs out) : '\n' ∉ cs := by
  induction h with
  | nil => simp
  | cons head tail ih =>
    rw [List.mem_append, not_or]
    exact ⟨BasicChar.newline head, ih⟩

theorem SimpleKey.start {k : Segment} (h : SimpleKey cs k) :
    '\n' ∉ cs ∧ ∃ c rest, cs = c :: rest ∧ startsKey c = true := by
  cases h with
  | bare nonempty bare =>
    obtain ⟨c, rest, rfl⟩ := List.exists_cons_of_ne_nil nonempty
    refine ⟨fun hmem => absurd (bare _ hmem) (by decide), c, rest, rfl, ?_⟩
    simp [startsKey, bare c List.mem_cons_self]
  | basic text =>
    refine ⟨?_, '"', _, rfl, by decide⟩
    simp [BasicText.newline text]
  | literal text =>
    refine ⟨?_, '\'', _, rfl, by decide⟩
    have hk : '\n' ∉ k := fun hmem => newline_not_printed (text _ hmem).1 rfl
    simp [hk]

theorem Blanks.newline (h : Blanks cs) : '\n' ∉ cs :=
  fun hmem => newline_not_space (h _ hmem) rfl

theorem Key.start {path : List Segment} (h : Key cs path) :
    '\n' ∉ cs ∧ ∃ c rest, cs = c :: rest ∧ startsKey c = true := by
  induction h with
  | one segment => exact SimpleKey.start segment
  | @dotted cs left right rest k ks segment before after others ih =>
    obtain ⟨hcs, c, tail, rfl, hc⟩ := SimpleKey.start segment
    refine ⟨?_, c, tail ++ (left ++ '.' :: (right ++ rest)), rfl, hc⟩
    simp only [List.mem_append, List.mem_cons, not_or] at hcs ⊢
    exact ⟨hcs, Blanks.newline before, by decide, Blanks.newline after, ih.1⟩

structure EntryStart (cs : List Char) (c : Char) (start rest : List Char) : Prop where
  text : cs = c :: (start ++ '=' :: rest)
  key : startsKey c = true
  newline : '\n' ∉ c :: start
  equals : '=' ∉ c :: start

theorem Member.start {leaves : Leaves} (h : Member cs leaves) :
    ∃ c start rest, EntryStart cs c start rest := by
  cases h with
  | @mk key left right value path leaves name before after text =>
    obtain ⟨hkey, c, tail, rfl, hc⟩ := Key.start name
    have hnewline : '\n' ∉ c :: tail ++ left ++ ['='] := by
      simp only [List.mem_append, not_or]
      exact ⟨⟨hkey, Blanks.newline before⟩, by decide⟩
    have hmem : '=' ∈ c :: tail ++ left ++ ['='] := by simp
    obtain ⟨start, rest, hsplit, hequals⟩ := List.eq_append_cons_of_mem hmem
    have htext : c :: tail ++ (left ++ '=' :: (right ++ value)) =
        start ++ '=' :: (rest ++ (right ++ value)) := by
      have hjoin := congrArg (· ++ (right ++ value)) hsplit
      simpa using hjoin
    rw [hsplit, List.mem_append, not_or] at hnewline
    cases start with
    | nil =>
      obtain rfl : c = '=' := by simpa using (List.cons.inj hsplit).1
      exact absurd hc (by decide)
    | cons d start =>
      obtain rfl : c = d := by simpa using (List.cons.inj hsplit).1
      exact ⟨c, start, rest ++ (right ++ value), htext, hc, hnewline.1, hequals⟩

theorem EntryStart.lines {before : List Char} {c : Char} {start rest : List Char}
    (h : EntryStart cs c start rest) (hbefore : Blanks before) (after : List Char) :
    ∃ first more kept, linesFrom [] (before ++ (cs ++ after)) = first :: more ∧
      trimChars first = c :: (start ++ '=' :: kept) := by
  have hc := not_isWhitespace_of_startsKey h.key
  have hnewline : '\n' ∉ before ++ (c :: start) := by
    rw [List.mem_append, not_or]
    exact ⟨Blanks.newline hbefore, h.newline⟩
  have htext : before ++ (cs ++ after) =
      (before ++ (c :: start)) ++ '=' :: (rest ++ after) := by
    rw [h.text]
    simp
  obtain ⟨more, others, hlines⟩ := linesFrom_kept (by decide : '=' ≠ '\r') []
    ((before ++ (c :: start)).reverse ++ []) (rest ++ after)
  obtain ⟨kept, hkept⟩ := trimChars_start start
    (fun b hb => isWhitespace_of_blank (hbefore b hb)) hc (by decide : isWhitespace '=' = false) more
  refine ⟨_, others, kept, ?_, hkept⟩
  rw [htext, linesFrom_append hnewline, linesFrom_cons (by decide)]
  rw [List.nil_append] at hlines
  rw [hlines]
  simp

theorem compact_append (cs rest : List Char) : compact (cs ++ rest) = compact cs ++ compact rest := by
  simp [compact]

theorem build_prefix_iff {start : List Char} (h : '=' ∉ start) (rest : List Char) :
    "build=".toList <+: compact (start ++ '=' :: rest) ↔ compact start = "build".toList := by
  have hsplit : compact (start ++ '=' :: rest) = compact start ++ '=' :: compact rest := by
    simp [compact]
  have hfree : '=' ∉ compact start := by
    rw [compact, List.mem_map]
    rintro ⟨c, hc, heq⟩
    have hne : c ≠ '=' := by
      rintro rfl
      exact h (List.mem_filter.mp hc).1
    exact toLower_ne (by decide) hne heq
  rw [hsplit]
  constructor
  · rintro ⟨tail, htail⟩
    have hword : "build".toList ++ '=' :: tail = compact start ++ '=' :: compact rest := htail
    exact (PrefixCode.append_terminator (by decide) hfree hword).1.symm
  · intro hword
    rw [hword]
    exact ⟨compact rest, rfl⟩

theorem scanLines_single (tail : List (List Char)) (hcs : '\n' ∉ cs) (h : ending = [] ∨ ending ∈ newline)
    (hskip : cs ≠ [] → isSkipped (trimChars cs) = true) :
    scanLines flag (linesFrom [] (cs ++ ending) ++ tail) = scanLines flag tail := by
  rcases linesFrom_single hcs h with hlines | ⟨-, hlines⟩
  · obtain ⟨raw, hraw, htrim⟩ := List.map_eq_singleton_iff.mp hlines
    have hskipped : isSkipped (trimChars raw) = true := by
      rw [htrim]
      by_cases hempty : cs = []
      · rw [hempty]
        rfl
      · exact hskip hempty
    rw [hraw, List.singleton_append, scanLines, if_pos hskipped]
  · rw [hlines, List.nil_append]

theorem scanLines_header (flag : Bool) (tail : List (List Char)) (hcs : '\n' ∉ cs) (hne : cs ≠ []) (h : ending = [] ∨ ending ∈ newline)
    (hskip : isSkipped (trimChars cs) = false) :
    scanLines flag (linesFrom [] (cs ++ ending) ++ tail) ≠ .ok () ∨
      ∃ flag', (namesDependencies cs = true → flag' = true) ∧
        scanLines flag (linesFrom [] (cs ++ ending) ++ tail) = scanLines flag' tail := by
  rcases linesFrom_single hcs h with hlines | ⟨hempty, -⟩
  · obtain ⟨raw, hraw, htrim⟩ := List.map_eq_singleton_iff.mp hlines
    by_cases hbracket : isBracketed (trimChars cs) = true
    · right
      refine ⟨isDependencyTable (tableName (trimChars cs)), ?_, ?_⟩
      · intro hnames
        exact (Bool.and_eq_true_iff.mp hnames).2
      · rw [hraw, List.singleton_append, scanLines, htrim, if_neg (by simp [hskip]),
          if_pos hbracket]
    · rcases scanLines_append flag (linesFrom [] (cs ++ ending)) tail with hstop | hgo
      · exact .inl hstop
      · obtain ⟨flag', hgo⟩ := hgo
        refine .inr ⟨flag', fun hnames => ?_, hgo⟩
        exact absurd (Bool.and_eq_true_iff.mp hnames).1 hbracket
  · exact absurd hempty hne

theorem scanLines_entry (tail : List (List Char)) {before after : List Char} {c : Char} {start rest : List Char}
    (h : EntryStart cs c start rest) (hbefore : Blanks before)
    (hplain : flag = true ∨ "build=".toList <+: compact (cs ++ after)) :
    scanLines flag (linesFrom [] (before ++ (cs ++ after)) ++ tail) ≠ .ok () := by
  obtain ⟨first, more, kept, hlines, htrim⟩ := h.lines hbefore after
  have hkey := h.key
  have hskip : isSkipped (trimChars first) = false := by
    have hne : c ≠ '#' := by
      rintro rfl
      exact absurd hkey (by decide)
    simp [htrim, isSkipped, hne]
  have hbracket : isBracketed (trimChars first) = false := by
    have hne : c ≠ '[' := by
      rintro rfl
      exact absurd hkey (by decide)
    simp [htrim, isBracketed, hne]
  have hequals : '=' ∈ trimChars first := by simp [htrim]
  rw [hlines, List.cons_append, scanLines, if_neg (by simp [hskip]), if_neg (by simp [hbracket])]
  simp only [ne_eq, bind_eq_ok, refuseIf_eq_ok]
  rintro ⟨-, hdependency, -, hbuild, -⟩
  rcases hplain with hflag | hentry
  · exact hdependency ⟨hflag, hequals⟩
  · apply hbuild
    rw [List.isPrefixOf_iff_prefix, htrim, ← List.cons_append, build_prefix_iff h.equals]
    have htext : cs ++ after = c :: start ++ '=' :: (rest ++ after) := by
      rw [h.text]
      simp
    rw [htext] at hentry
    exact (build_prefix_iff h.equals _).mp hentry

theorem trimChars_leading {before : List Char} (h : Blanks before) (cs : List Char) :
    trimChars (before ++ cs) = trimChars cs := by
  rw [trimChars, List.dropWhile_append_of_pos fun c hc => isWhitespace_of_blank (h c hc)]
  rfl

theorem namesDependencies_leading {before : List Char} (h : Blanks before) (cs : List Char) :
    namesDependencies (before ++ cs) = namesDependencies cs := by
  rw [namesDependencies, trimChars_leading h]
  rfl

theorem all_of_mem_star {p : Char → Bool} (h : cs ∈ (oneOf p)∗) : ∀ c ∈ cs, p c = true := by
  obtain ⟨words, rfl, hwords⟩ := Language.mem_kstar.mp h
  intro c hc
  obtain ⟨word, hword, hc⟩ := List.mem_flatten.mp hc
  obtain ⟨d, hd, rfl⟩ := hwords word hword
  rw [List.mem_singleton.mp hc]
  exact hd

theorem remark_cases (h : cs ∈ opt comment) :
    cs = [] ∨ ∃ body, cs = '#' :: body ∧ ∀ c ∈ body, isPrinted c = true := by
  rcases h with h | h
  · exact .inl h
  · obtain ⟨mark, hmark, body, hbody, rfl⟩ := Language.mem_mul.mp h
    obtain rfl : mark = "#".toList := hmark
    exact .inr ⟨body, rfl, all_of_mem_star hbody⟩

theorem remark_newline (h : cs ∈ opt comment) : '\n' ∉ cs := by
  rcases remark_cases h with rfl | ⟨body, rfl, hbody⟩
  · simp
  · have hmem : '\n' ∉ body := fun hmem => newline_not_printed (hbody _ hmem) rfl
    simp [hmem]

theorem head_trimChars_cons {c : Char} (hc : isWhitespace c = false) (cs : List Char) :
    (trimChars (c :: cs)).head? = some c := by
  rw [trimChars, List.dropWhile_cons_of_neg (by simp [hc]), List.reverse_cons,
    List.dropWhile_append]
  split
  · rw [List.dropWhile_cons_of_neg (by simp [hc])]
    rfl
  · simp

theorem remark_skipped (h : cs ∈ opt comment) : isSkipped (trimChars cs) = true := by
  rcases remark_cases h with rfl | ⟨body, rfl, -⟩
  · rfl
  · have htrim := head_trimChars_cons (by decide : isWhitespace '#' = false) body
    simp [isSkipped, htrim]

theorem bracket_not_skipped {before : List Char} (h : Blanks before) (cs : List Char) :
    isSkipped (trimChars (before ++ '[' :: cs)) = false := by
  have htrim := head_trimChars_cons (by decide : isWhitespace '[' = false) cs
  have hne : trimChars ('[' :: cs) ≠ [] := by
    intro hnil
    simp [hnil] at htrim
  rw [trimChars_leading h]
  simp [isSkipped, htrim, hne]

theorem lineEnd_newline (h : cs ∈ lineEnd) : '\n' ∉ cs := by
  obtain ⟨blanks, hblanks, remark, hremark, rfl⟩ := Language.mem_mul.mp h
  rw [List.mem_append, not_or]
  exact ⟨fun hmem => newline_not_space (all_of_mem_star hblanks _ hmem) rfl,
    remark_newline hremark⟩

theorem expression_scan (tail : List (List Char)) (h : Expression cs items) (hend : ending = [] ∨ ending ∈ newline)
    (hflag : known = true → flag = true) (hplain : plainFrom known (items ++ others) = true) :
    scanLines flag (linesFrom [] (cs ++ ending) ++ tail) ≠ .ok () ∨
      ∃ flag' known', (known' = true → flag' = true) ∧ plainFrom known' others = true ∧
        scanLines flag (linesFrom [] (cs ++ ending) ++ tail) = scanLines flag' tail := by
  cases h with
  | @empty before remark left right =>
    refine .inr ⟨flag, known, hflag, hplain, scanLines_single tail ?_ hend fun _ => ?_⟩
    · rw [List.mem_append, not_or]
      exact ⟨Blanks.newline left, remark_newline right⟩
    · rw [trimChars_leading left]
      exact remark_skipped right
  | @table before left key right after path blank leftBlank name rightBlank ends =>
    have hcs : '\n' ∉ before ++ '[' :: (left ++ (key ++ (right ++ ']' :: after))) := by
      simp only [List.mem_append, List.mem_cons, not_or]
      exact ⟨Blanks.newline blank, by decide, Blanks.newline leftBlank, (Key.start name).1,
        Blanks.newline rightBlank, by decide, lineEnd_newline ends⟩
    have hskip := bracket_not_skipped blank (left ++ (key ++ (right ++ ']' :: after)))
    rcases scanLines_header flag tail hcs (by simp) hend hskip
      with hstop | ⟨flag', hnames, hgo⟩
    · exact .inl hstop
    · rw [namesDependencies_leading blank] at hnames
      exact .inr ⟨flag', _, hnames, hplain, hgo⟩
  | @tables before left key right after path blank leftBlank name rightBlank ends =>
    have hcs : '\n' ∉ before ++ '[' :: '[' :: (left ++ (key ++ (right ++ ']' :: ']' :: after))) := by
      simp only [List.mem_append, List.mem_cons, not_or]
      exact ⟨Blanks.newline blank, by decide, by decide, Blanks.newline leftBlank,
        (Key.start name).1, Blanks.newline rightBlank, by decide, by decide, lineEnd_newline ends⟩
    have hskip := bracket_not_skipped blank ('[' :: (left ++ (key ++ (right ++ ']' :: ']' :: after))))
    rcases scanLines_header flag tail hcs (by simp) hend hskip
      with hstop | ⟨flag', hnames, hgo⟩
    · exact .inl hstop
    · rw [namesDependencies_leading blank] at hnames
      exact .inr ⟨flag', _, hnames, hplain, hgo⟩
  | @entry before text after leaves blank member ends =>
    obtain ⟨c, start, rest, hstart⟩ := Member.start member
    have htext : before ++ (text ++ after) ++ ending = before ++ (text ++ (after ++ ending)) := by
      simp
    rw [htext]
    simp only [List.singleton_append, plainFrom, Bool.or_eq_true] at hplain
    rcases hplain with (hknown | hbuild) | hplain
    · exact .inl (scanLines_entry tail hstart blank (.inl (hflag hknown)))
    · refine .inl (scanLines_entry tail hstart blank (.inr ?_))
      have hprefix : compact (text ++ after) <+: compact (text ++ (after ++ ending)) := by
        rw [← List.append_assoc, compact_append (text ++ after)]
        exact List.prefix_append _ _
      exact (List.isPrefixOf_iff_prefix.mp hbuild).trans hprefix
    · rcases scanLines_append flag (linesFrom [] (before ++ (text ++ (after ++ ending)))) tail
        with hstop | ⟨flag', hgo⟩
      · exact .inl hstop
      · exact .inr ⟨flag', false, by simp, hplain, hgo⟩

theorem document_refused (h : Document cs items) (hflag : known = true → flag = true)
    (hplain : plainFrom known items = true) : scanLines flag (linesFrom [] cs) ≠ .ok () := by
  induction h generalizing flag known with
  | @last cs items expression =>
    have hplain' : plainFrom known (items ++ []) = true := by rwa [List.append_nil]
    have hstep := expression_scan [] expression (.inl rfl) hflag hplain'
    rw [List.append_nil, List.append_nil] at hstep
    rcases hstep with hstop | ⟨flag', known', -, hrest, -⟩
    · exact hstop
    · exact absurd hrest (by simp [plainFrom])
  | @more cs ending rest items others expression separated tail ih =>
    have hlines : linesFrom [] (cs ++ (ending ++ rest)) =
        linesFrom [] (cs ++ ending) ++ linesFrom [] rest := by
      rcases ending_cases (.inr separated) with rfl | rfl | rfl
      · rcases separated with h | h <;> exact absurd h (List.cons_ne_nil _ _).symm
      · exact linesFrom_break [] cs rest
      · have hbreak := linesFrom_break [] (cs ++ ['\r']) rest
        simpa using hbreak
    rw [hlines]
    rcases expression_scan (linesFrom [] rest) expression (.inr separated) hflag hplain
      with hstop | ⟨flag', known', hflag', hrest, hgo⟩
    · exact hstop
    · rw [hgo]
      exact ih hflag' hrest

end Plain

/-- What the check accepts is free of dependencies and of a build script exactly when a document
that is not has a line the check looks for. A plain document has one. -/
theorem dependency_free_check_sound_iff (text : String) :
    (CheckedSoundly text ↔
      ((∃ items, Document text.toList items ∧ Declares items) → HoldsNoticedLine text)) ∧
      ∀ items, Document text.toList items → plainFrom false items = true →
        HoldsNoticedLine text := by
  constructor
  · rw [CheckedSoundly, validate_eq_ok_iff]
    constructor
    · rintro h ⟨items, hdocument, hdeclares⟩
      by_contra hnone
      exact h hnone items hdocument hdeclares
    · intro h hnone items hdocument hdeclares
      exact hnone (h ⟨items, hdocument, hdeclares⟩)
  · intro items hdocument hplain
    by_contra hnone
    have hok : scanLines false (lines text) = .ok () := (validate_eq_ok_iff text).mpr hnone
    exact document_refused hdocument (by simp) hplain hok

section Missed

theorem simpleKey_bare (cs : List Char) (nonempty : cs ≠ []) (bare : cs.all isBare = true) :
    SimpleKey cs cs :=
  .bare nonempty (List.all_eq_true.mp bare)

theorem key_bare (cs : List Char) (nonempty : cs ≠ []) (bare : cs.all isBare = true) :
    Key cs [cs] :=
  .one (simpleKey_bare cs nonempty bare)

theorem lineEnd_nil : [] ∈ lineEnd :=
  Language.mem_mul.mpr ⟨[], Language.nil_mem_kstar _, [], .inl rfl, rfl⟩

theorem expression_header {key : List Char} {path : List Segment} (name : Key key path) :
    Expression ('[' :: (key ++ [']'])) [.table ('[' :: (key ++ [']'])) path] := by
  exact .table blanks_nil blanks_nil name blanks_nil lineEnd_nil

def isPlainText (c : Char) : Bool := isPrinted c && c != '"' && c != '\\'

theorem mem_basicString {body : List Char} (h : body.all isPlainText = true) :
    '"' :: (body ++ ['"']) ∈ basicString := by
  have hbody : body ∈ basicChar∗ := by
    refine Language.mem_kstar.mpr ⟨body.map fun c => [c], ?_, fun word hword => ?_⟩
    · rw [← List.flatMap_def, List.flatMap_singleton']
    · obtain ⟨c, hc, rfl⟩ := List.mem_map.mp hword
      have hplain := List.all_eq_true.mp h c hc
      simp only [isPlainText, Bool.and_eq_true, bne_iff_ne] at hplain
      exact ⟨c, .plain hplain.1.1 ⟨hplain.1.2, hplain.2⟩⟩
  refine Language.mem_mul.mpr ⟨'"' :: body, ?_, ['"'], rfl, rfl⟩
  exact Language.mem_mul.mpr ⟨['"'], rfl, body, hbody, rfl⟩

theorem expression_text {key : List Char} (body : List Char) {path : List Segment} (name : Key key path)
    (h : body.all isPlainText = true) :
    Expression (key ++ (' ' :: '=' :: ' ' :: '"' :: (body ++ ['"'])))
      [.entry (key ++ (' ' :: '=' :: ' ' :: '"' :: (body ++ ['"']))) [(path, .other)]] := by
  have hspace : Blanks [' '] := by simp [Blanks, isSpace]
  have hvalue : ValueText ('"' :: (body ++ ['"'])) [([], .other)] :=
    .string (.inl (.inl (.inl (mem_basicString h))))
  have hmember := Member.mk name hspace hspace hvalue
  have hentry := Expression.entry blanks_nil hmember lineEnd_nil
  simpa using hentry

theorem document_line {cs rest : List Char} {items others : List Item} (h : Expression cs items)
    (hrest : Document rest others) : Document (cs ++ ('\n' :: rest)) (items ++ others) :=
  .more h (.inl rfl) hrest

theorem document_empty : Document [] [] := by
  exact .last (.empty blanks_nil (.inl rfl))

theorem check_misses_spellings :
    (validateDependencyFreeManifest
        "[package]\nname = \"a\"\n[dependencies.serde]\nversion = \"1\"\n" = .ok () ∧
      ∃ items, Document
          "[package]\nname = \"a\"\n[dependencies.serde]\nversion = \"1\"\n".toList items ∧
        Declares items) ∧
      validateDependencyFreeManifest "[package]\n\"build\" = \"x.rs\"\n" = .ok () ∧
        ∃ items, Document "[package]\n\"build\" = \"x.rs\"\n".toList items ∧ Declares items := by
  have hpackage := expression_header (key_bare "package".toList (by decide) (by decide))
  refine ⟨⟨by decide, ?_⟩, by decide, ?_⟩
  · have hname := expression_text ['a']
      (key_bare "name".toList (by decide) (by decide)) (by decide)
    have hfirst := simpleKey_bare "dependencies".toList (by decide) (by decide)
    have hserde : Key "dependencies.serde".toList ["dependencies".toList, "serde".toList] :=
      .dotted hfirst blanks_nil blanks_nil (key_bare "serde".toList (by decide) (by decide))
    have hversion := expression_text ['1']
      (key_bare "version".toList (by decide) (by decide)) (by decide)
    refine ⟨_, document_line hpackage (document_line hname
      (document_line (expression_header hserde) (document_line hversion document_empty))), ?_⟩
    refine ⟨(["dependencies".toList, "serde".toList], .other), by simp [pathsFrom], ?_⟩
    have hknown : "dependencies".toList ∈ dependencyNames := by decide
    exact .dependency hknown (List.nil_append _).symm
  · have hbuild : Key "\"build\"".toList ["build".toList] :=
      .one (.basic (.cons (.plain (by decide) (by decide)) (.cons (.plain (by decide) (by decide))
        (.cons (.plain (by decide) (by decide)) (.cons (.plain (by decide) (by decide))
          (.cons (.plain (by decide) (by decide)) .nil))))))
    have hentry := expression_text "x.rs".toList hbuild (by decide)
    refine ⟨_, document_line hpackage (document_line hentry document_empty), ?_⟩
    refine ⟨(["package".toList, "build".toList], .other), by simp [pathsFrom], ?_⟩
    exact .build rfl (by decide)

end Missed

end AtomVibe.Verification
