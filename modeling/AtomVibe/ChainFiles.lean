import AtomVibe.Foundations.Catalog
import AtomVibe.Hash

namespace AtomVibe.ChainFiles

open Text

abbrev Files := Catalog String ByteArray

def hasJsonExtension (name : String) : Bool := endsWith ".json" name && ".json".length < name.length

def jsonFiles (files : Files) : List (String × ByteArray) :=
  files.entries.filter fun file => hasJsonExtension file.1

def shortHash (hash : String) : String := String.ofList (slice 7 19 hash.toList)

def numberedName (n : ℕ) (hash : String) : String := padded 6 n ++ "-" ++ shortHash hash ++ ".json"

def writeNewAtomic {ε : Type} (conflict : ε) (files : Files) (name : String) (bytes : ByteArray) :
    Except ε Unit × Files :=
  match files.lookup name with
  | some existing => if existing = bytes then (.ok (), files) else (.error conflict, files)
  | none => (.ok (), files.insert name bytes)

def fixedDigits : ℕ → ℕ → List Char
  | 0, _ => []
  | width + 1, n => fixedDigits width (n / 10) ++ [Nat.digitChar (n % 10)]

@[simp]
theorem length_fixedDigits (width n : ℕ) : (fixedDigits width n).length = width := by
  induction width generalizing n with
  | zero => rfl
  | succ width ih => simp [fixedDigits, ih]

theorem fixedDigits_zero (width : ℕ) : fixedDigits width 0 = List.replicate width '0' := by
  induction width with
  | zero => rfl
  | succ width ih =>
    rw [fixedDigits, Nat.zero_div, ih, List.replicate_succ']
    rfl

theorem toList_padded {width n : ℕ} (hw : 0 < width) (hn : n < 10 ^ width) :
    (padded width n).toList = fixedDigits width n := by
  rw [padded, String.toList_ofList]
  induction width generalizing n with
  | zero => exact absurd hw (lt_irrefl 0)
  | succ width ih =>
    rcases Nat.lt_or_ge n 10 with h | h
    · rw [Nat.toDigits_of_lt_base h, fixedDigits, Nat.div_eq_of_lt h, fixedDigits_zero,
        Nat.mod_eq_of_lt h]
      rfl
    · have hw : 0 < width := by
        rcases Nat.eq_zero_or_pos width with rfl | h0
        · simp at hn
          omega
        · exact h0
      rw [Nat.toDigits_of_base_le (by decide) h, fixedDigits,
        ← ih hw (show n / 10 < 10 ^ width by rw [Nat.pow_succ] at hn; omega)]
      simp

theorem append_lt_append {xs ys : List Char} (s t : List Char) (hlen : xs.length = ys.length)
    (h : xs < ys) : xs ++ s < ys ++ t := by
  induction xs generalizing ys with
  | nil =>
    rw [List.length_eq_zero_iff.mp hlen.symm] at h
    exact absurd h (List.lt_irrefl _)
  | cons x xs ih =>
    cases ys with
    | nil => simp at hlen
    | cons y ys =>
      rw [List.cons_append, List.cons_append, List.cons_lt_cons_iff]
      rcases List.cons_lt_cons_iff.mp h with hxy | ⟨rfl, hxy⟩
      · exact .inl hxy
      · exact .inr ⟨rfl, ih (by simpa using hlen) hxy⟩

theorem append_lt_append_left (xs : List Char) {s t : List Char} (h : s < t) :
    xs ++ s < xs ++ t := by
  induction xs with
  | nil => exact h
  | cons x xs ih => exact List.cons_lt_cons_iff.mpr (.inr ⟨rfl, ih⟩)

theorem fixedDigits_lt {width m n : ℕ} (hmn : m < n) (hn : n < 10 ^ width) :
    fixedDigits width m < fixedDigits width n := by
  induction width generalizing m n with
  | zero => simp at hn; omega
  | succ width ih =>
    have hdigit : ∀ a < 10, ∀ b < 10, a < b → [Nat.digitChar a] < [Nat.digitChar b] := by decide
    rcases Nat.lt_or_ge (m / 10) (n / 10) with h | h
    · exact append_lt_append _ _ (by simp) (ih h (by rw [Nat.pow_succ] at hn; omega))
    · have heq : m / 10 = n / 10 := by omega
      rw [fixedDigits, fixedDigits, heq]
      exact append_lt_append_left _ (hdigit _ (by omega) _ (by omega) (by omega))

theorem numberedName_lt {m n : ℕ} (hmn : m < n) (hn : n < 10 ^ 6) (g h : String) :
    numberedName m g < numberedName n h := by
  rw [String.lt_iff_toList_lt]
  simp only [numberedName, String.toList_append, List.append_assoc,
    toList_padded (show 0 < 6 by decide) (lt_trans hmn hn),
    toList_padded (show 0 < 6 by decide) hn]
  exact append_lt_append _ _ (by simp) (fixedDigits_lt hmn hn)

theorem numberedName_million_lt (g h : String) :
    numberedName 1000000 h < numberedName 999999 g := by
  rw [String.lt_iff_toList_lt]
  simp only [numberedName, String.toList_append, List.append_assoc,
    show (padded 6 1000000).toList = '1' :: "000000".toList by decide,
    show (padded 6 999999).toList = '9' :: "99999".toList by decide, List.cons_append]
  exact List.cons_lt_cons_iff.mpr (.inl (by decide))

theorem numberedName_ne_million {n : ℕ} (hn : n < 10 ^ 6) (g h : String) :
    numberedName n g ≠ numberedName 1000000 h := by
  intro heq
  have hchars := congrArg String.toList heq
  simp only [numberedName, String.toList_append, List.append_assoc,
    toList_padded (show 0 < 6 by decide) hn,
    show (padded 6 1000000).toList = "100000".toList ++ ['0'] by decide] at hchars
  -- after six digits one name has its dash and the other a seventh digit
  have htail := (List.append_inj hchars (by simp)).2
  simp at htail

theorem sorted_jsonFiles (files : Files) : (jsonFiles files).Pairwise fun x y => x.1 < y.1 :=
  files.sorted.filter _

theorem length_jsonFiles_insert {files : Files} {name : String} (bytes : ByteArray)
    (hname : hasJsonExtension name = true) (hnew : ∀ file ∈ jsonFiles files, file.1 ≠ name) :
    files.lookup name = none ∧
      (jsonFiles (files.insert name bytes)).length = (jsonFiles files).length + 1 := by
  have hfree : ∀ file ∈ files.entries, file.1 ≠ name := fun file hf hk =>
    hnew file (List.mem_filter.mpr ⟨hf, by rw [hk]; exact hname⟩) hk
  refine ⟨Catalog.lookup_eq_none.mpr hfree, ?_⟩
  have hperm := (Catalog.insert_perm bytes hfree).filter fun file => hasJsonExtension file.1
  rw [jsonFiles, hperm.length_eq, List.filter_cons, if_pos hname]
  rfl

theorem hasJsonExtension_numberedName (n : ℕ) (hash : String) :
    hasJsonExtension (numberedName n hash) = true := by
  have hsuffix : ".json".toList <:+ (numberedName n hash).toList := by
    rw [numberedName, String.toList_append]
    exact List.suffix_append _ _
  have hlength : ".json".length < (numberedName n hash).length := by
    simp only [numberedName, String.length_append]
    have h1 : "-".length = 1 := by decide
    omega
  simp only [hasJsonExtension, endsWith, List.isSuffixOf_iff_suffix.mpr hsuffix, Bool.true_and,
    decide_eq_true_eq]
  exact hlength

theorem writeNewAtomic_new {ε : Type} (conflict : ε) {files : Files} {name : String}
    (bytes : ByteArray) (hname : hasJsonExtension name = true)
    (hlast : ∀ file ∈ jsonFiles files, file.1 < name) :
    writeNewAtomic conflict files name bytes = (.ok (), files.insert name bytes) ∧
      jsonFiles (files.insert name bytes) = jsonFiles files ++ [(name, bytes)] := by
  have hlt : ∀ file ∈ files.entries, hasJsonExtension file.1 = true → file.1 < name :=
    fun file hf hj => hlast file (List.mem_filter.mpr ⟨hf, hj⟩)
  refine ⟨?_, Catalog.filter_insert files bytes hname hlt⟩
  have hnone : files.lookup name = none := by
    refine Catalog.lookup_eq_none.mpr fun file hf hk => ?_
    exact absurd (hlt file hf (by rw [hk]; exact hname)) (by rw [hk]; exact lt_irrefl name)
  rw [writeNewAtomic, hnone]

end AtomVibe.ChainFiles
