import AtomVibe.CandidateModel
import AtomVibe.Foundations.FileTree
import AtomVibe.WorkExpanded
import Mathlib.Data.List.Nodup
import Mathlib.Data.List.Pairwise

namespace AtomVibe.Work

open Checked Text FileTree
open Verification (normalizePath)

def fileKey (file : WorkFile) : String := toAsciiLowercase (normalizePath file.path)

def segments (path : String) : List (List Char) := splitOn '/' path.toList

structure AcceptedFile (file : WorkFile) : Prop where
  trimmed : trim file.path = file.path
  nonempty : file.path ≠ ""
  short : file.path.utf8ByteSize ≤ 240
  rooted : startsWith "/" file.path = false ∧ startsWith "\\" file.path = false
  segments : ∀ part ∈ segments (normalizePath file.path), invalidSegment part = false
  ascii : isAscii file.path = true
  purpose : isBlank file.purpose = false
  acceptance : file.acceptance ≠ []

theorem validateFilesFrom_eq_ok {paths : List String} {files : List WorkFile} :
    validateFilesFrom paths files = .ok () ↔ (∀ file ∈ files, AcceptedFile file) ∧
      (files.map fileKey).Nodup ∧ ∀ file ∈ files, fileKey file ∉ paths := by
  induction files generalizing paths with
  | nil => simp [validateFilesFrom]
  | cons file files ih =>
    simp only [validateFilesFrom, bind_eq_ok, refuseIf_eq_ok, not_or, not_not, exists_const, not_lt,
      ih, Bool.not_eq_true, Bool.not_eq_false, List.any_eq_false, List.map_cons,
      List.nodup_cons, List.mem_cons, forall_eq_or_imp]
    constructor
    · rintro ⟨⟨htrim, hne, hshort, hslash, hback, hparts, hascii, hkey⟩, ⟨hpurpose, haccept⟩, hall,
        hnodup, hnew⟩
      rw [← htrim] at hne hshort hslash hback hparts hascii hkey
      refine ⟨⟨⟨htrim.symm, hne, hshort, ⟨hslash, hback⟩, hparts, hascii, hpurpose, haccept⟩, hall⟩,
        ⟨?_, hnodup⟩, hkey, fun other hother => (hnew other hother).2⟩
      intro hmem
      obtain ⟨other, hother, hsame⟩ := List.mem_map.mp hmem
      refine (hnew other hother).1 ?_
      rw [hsame, fileKey, ← htrim]
      rfl
    · rintro ⟨⟨hfile, hall⟩, ⟨hfirst, hnodup⟩, hkey, hnew⟩
      have htrim := hfile.trimmed
      rw [htrim]
      refine ⟨⟨rfl, hfile.nonempty, hfile.short, hfile.rooted.1, hfile.rooted.2, hfile.segments,
        hfile.ascii, hkey⟩, ⟨hfile.purpose, hfile.acceptance⟩, hall, hnodup, fun other hother =>
          ⟨fun hsame => hfirst ?_, hnew other hother⟩⟩
      exact List.mem_map.mpr ⟨other, hother, hsame⟩

structure StaysBelow (path : String) : Prop where
  unix : startsWith "/" path = false ∧ ['.', '.'] ∉ segments path
  windows : startsWith "/" (normalizePath path) = false ∧ ':' ∉ path.toList ∧
    ['.', '.'] ∉ segments (normalizePath path)

section Separators

variable {sep other : Char} {cs : List Char}

theorem mem_splitOn_replaced (hne : other ≠ sep) {part : List Char} (hpart : part ∈ splitOn sep cs)
    (hother : other ∉ part) :
    part ∈ splitOn sep (cs.map fun c => if c = other then sep else c) := by
  have hboth : ∀ first rest, splitOn sep cs = first :: rest → ∃ first' rest',
      splitOn sep (cs.map fun c => if c = other then sep else c) = first' :: rest' ∧
        (other ∉ first → first' = first) ∧ ∀ part ∈ rest, other ∉ part → part ∈ rest' := by
    clear hpart hother
    induction cs with
    | nil =>
      intro first rest h
      refine ⟨[], [], rfl, ?_⟩
      obtain ⟨rfl, rfl⟩ := List.cons.inj h
      simp
    | cons c cs ih =>
      intro first rest h
      obtain ⟨p, ps, hparts⟩ := List.exists_cons_of_ne_nil (splitOn_ne_nil sep cs)
      obtain ⟨p', ps', hmapped, hfirst, hrest⟩ := ih p ps hparts
      rw [List.map_cons]
      by_cases hsep : c = sep
      · rw [splitOn, if_pos hsep, hparts] at h
        obtain ⟨rfl, rfl⟩ := List.cons.inj h
        rw [if_neg (by rw [hsep]; exact hne.symm), splitOn, if_pos hsep, hmapped]
        refine ⟨[], p' :: ps', rfl, fun _ => rfl, fun part hpart hnone => ?_⟩
        rcases List.mem_cons.mp hpart with rfl | hpart
        · exact hfirst hnone ▸ List.mem_cons_self
        · exact List.mem_cons_of_mem _ (hrest part hpart hnone)
      · rw [splitOn, if_neg hsep, hparts] at h
        obtain ⟨rfl, rfl⟩ := List.cons.inj h
        by_cases hc : c = other
        · rw [if_pos hc, splitOn, if_pos rfl, hmapped]
          refine ⟨[], p' :: ps', rfl, fun hnone => ?_, fun part hpart hnone => ?_⟩
          · exact absurd (hc ▸ List.mem_cons_self) hnone
          · exact List.mem_cons_of_mem _ (hrest part hpart hnone)
        · rw [if_neg hc, splitOn, if_neg hsep, hmapped]
          refine ⟨c :: p', ps', rfl, fun hnone => ?_, hrest⟩
          rw [hfirst fun hmem => hnone (List.mem_cons_of_mem _ hmem)]
  obtain ⟨first, rest, hparts⟩ := List.exists_cons_of_ne_nil (splitOn_ne_nil sep cs)
  obtain ⟨first', rest', hmapped, hfirst, hrest⟩ := hboth first rest hparts
  rw [hparts] at hpart
  rw [hmapped]
  rcases List.mem_cons.mp hpart with rfl | hpart
  · exact hfirst hother ▸ List.mem_cons_self
  · exact List.mem_cons_of_mem _ (hrest part hpart hother)

theorem splitOn_isPrefix {cs ds : List Char} :
    splitOn sep cs <+: splitOn sep ds ↔ cs = ds ∨ cs ++ [sep] <+: ds := by
  constructor
  · rintro ⟨rest, hrest⟩
    have hds := @flatMap_splitOn _ _ sep ds
    rw [← hrest, List.flatMap_append, flatMap_splitOn] at hds
    rcases List.eq_nil_or_concat rest with rfl | ⟨parts, last, rfl⟩
    · rw [List.flatMap_nil, List.append_nil] at hds
      exact .inl (List.append_cancel_right hds)
    · rw [List.concat_eq_append, List.flatMap_append, List.flatMap_singleton, ← List.append_assoc,
        ← List.append_assoc] at hds
      have hcancel := List.append_cancel_right hds
      rw [List.append_assoc] at hcancel
      exact .inr ⟨_, hcancel⟩
  · rintro (rfl | ⟨rest, rfl⟩)
    · exact List.prefix_rfl
    · rw [List.append_assoc, List.singleton_append, splitOn_append_sep]
      exact List.prefix_append _ _

end Separators

section Accepted

variable {file : WorkFile}

theorem toList_normalizePath (path : String) :
    (normalizePath path).toList = path.toList.map fun c => if c = '\\' then '/' else c := by
  rw [normalizePath, replaceChar, String.toList_ofList]

theorem utf8ByteSize_normalizePath (path : String) :
    (normalizePath path).utf8ByteSize = path.utf8ByteSize := by
  rw [utf8ByteSize_eq, utf8ByteSize_eq, toList_normalizePath, utf8Len, utf8Len, List.map_map]
  congr 2
  funext c
  rw [Function.comp_apply]
  split_ifs with hc
  · rw [hc]
    decide
  · rfl

theorem startsWith_normalizePath (h : AcceptedFile file) :
    startsWith "/" (normalizePath file.path) = false := by
  obtain ⟨hslash, hback⟩ := h.rooted
  rw [startsWith] at hslash hback ⊢
  rw [toList_normalizePath]
  cases htext : file.path.toList with
  | nil => rfl
  | cons c cs =>
    rw [htext] at hslash hback
    have hc : c ≠ '/' ∧ c ≠ '\\' := by
      constructor
      · rintro rfl
        simp at hslash
      · rintro rfl
        simp at hback
    rw [List.map_cons, if_neg hc.2]
    simp [List.isPrefixOf, Ne.symm hc.1]

theorem AcceptedFile.colon (h : AcceptedFile file) : ':' ∉ (normalizePath file.path).toList := by
  intro hmem
  obtain ⟨part, hpart, hcolon⟩ := exists_part hmem (by decide : ':' ≠ '/')
  have hvalid := h.segments part hpart
  simp only [invalidSegment, Bool.or_eq_false_iff, List.any_eq_false] at hvalid
  exact hvalid.1.2 ':' hcolon rfl

theorem AcceptedFile.safePath (h : AcceptedFile file) : Verification.SafePath file.path where
  nonempty hempty := by
    have hlist := congrArg String.toList hempty
    rw [toList_normalizePath, String.toList_empty, List.map_eq_nil_iff] at hlist
    exact h.nonempty (String.toList_injective (by rw [hlist, String.toList_empty]))
  short := by
    rw [utf8ByteSize_normalizePath]
    exact h.short
  relative := startsWith_normalizePath h
  colons := h.colon
  parts part hpart := by
    have hvalid := h.segments part hpart
    simp only [invalidSegment, Bool.or_eq_false_iff, List.any_eq_false] at hvalid
    obtain ⟨⟨⟨⟨⟨hnil, hdot⟩, hdots⟩, -⟩, hchars⟩, -⟩ := hvalid
    simp only [Verification.unsafePart, Bool.or_eq_false_iff, List.any_eq_false]
    refine ⟨⟨⟨hnil, hdot⟩, hdots⟩, fun c hc hcontrol => hchars c hc ?_⟩
    simp [hcontrol]

theorem AcceptedFile.staysBelow (h : AcceptedFile file) : StaysBelow file.path := by
  have hwindows : ['.', '.'] ∉ Work.segments (normalizePath file.path) := by
    intro hmem
    exact absurd (h.segments _ hmem) (by decide)
  have hcolon : ':' ∉ file.path.toList := by
    intro hmem
    apply h.colon
    rw [toList_normalizePath, List.mem_map]
    exact ⟨':', hmem, rfl⟩
  refine ⟨⟨h.rooted.1, fun hmem => hwindows ?_⟩, startsWith_normalizePath h, hcolon, hwindows⟩
  rw [Work.segments, toList_normalizePath]
  exact mem_splitOn_replaced (by decide) hmem (by decide)

end Accepted

def Nests (a b : WorkFile) : Prop := (fileKey a).toList ++ ['/'] <+: (fileKey b).toList

/-- What a list of files is meant to have: relative paths that the verification accepts too, and a
place for each file beside the others, where the case of letters does not matter. -/
structure Materialisable (files : List WorkFile) : Prop where
  below : ∀ file ∈ files, StaysBelow file.path
  distinct : (files.map fileKey).Nodup
  created : (createAll bare (files.map fun file => segments (fileKey file))).isSome = true
  verified : ∀ file ∈ files, Verification.validateRelativePath file.path = .ok ()

theorem segments_apart {a b : String} (hne : a ≠ b) : Apart (segments a) (segments b) ↔
    ¬a.toList ++ ['/'] <+: b.toList ∧ ¬b.toList ++ ['/'] <+: a.toList := by
  rw [Apart, segments, segments, splitOn_isPrefix, splitOn_isPrefix,
    or_iff_right fun h => hne (String.toList_injective h),
    or_iff_right fun h => hne (String.toList_injective h).symm]

/-- The files of a list that is accepted can be created just where none of them is a directory on
the way to another. -/
theorem materialisable_iff {files : List WorkFile} (h : validateFiles files = .ok ()) :
    Materialisable files ↔ ∀ a ∈ files, ∀ b ∈ files, ¬Nests a b := by
  obtain ⟨hall, hnodup, -⟩ := validateFilesFrom_eq_ok.mp (validateFiles_length h).2.2
  have hcreated : (createAll bare (files.map fun file => segments (fileKey file))).isSome = true ↔
      ∀ a ∈ files, ∀ b ∈ files, ¬Nests a b := by
    rw [createAll_bare_isSome, List.pairwise_map]
    · rw [← List.pairwise_map (f := fileKey) (R := fun a b => Apart (segments a) (segments b))]
      constructor
      · intro hapart a ha b hb hnests
        have hne : fileKey a ≠ fileKey b := by
          intro heq
          have hlength := hnests.length_le
          rw [heq, List.length_append, List.length_singleton] at hlength
          omega
        have hsymm : Std.Symm fun a b : String => Apart (segments a) (segments b) :=
          ⟨fun _ _ hab => hab.symm⟩
        have hab := hapart.forall (List.mem_map_of_mem ha) (List.mem_map_of_mem hb) hne
        exact ((segments_apart hne).mp hab).1 hnests
      · intro hnests
        apply List.Nodup.pairwise_of_forall_ne hnodup
        intro a ha b hb hne
        obtain ⟨file, hfile, rfl⟩ := List.mem_map.mp ha
        obtain ⟨other, hother, rfl⟩ := List.mem_map.mp hb
        exact (segments_apart hne).mpr
          ⟨hnests file hfile other hother, hnests other hother file hfile⟩
    · intro path hpath
      obtain ⟨file, -, rfl⟩ := List.mem_map.mp hpath
      exact splitOn_ne_nil _ _
  rw [← hcreated]
  refine ⟨fun hfiles => hfiles.created, fun hmade => ⟨?_, hnodup, hmade, ?_⟩⟩
  · exact fun file hfile => (hall file hfile).staysBelow
  · exact fun file hfile =>
      Verification.validateRelativePath_eq_ok.mpr (hall file hfile).safePath

def sourceFile (path : String) : WorkFile := ⟨path, "entry", ["runs"]⟩

theorem nested_files : validateFiles [sourceFile "src/app", sourceFile "src/app/main.rs"] = .ok () ∧
    ¬Materialisable [sourceFile "src/app", sourceFile "src/app/main.rs"] := by
  refine ⟨by decide +kernel, fun h => ?_⟩
  exact absurd h.created (by decide +kernel)

theorem materialisable_beside : Materialisable [sourceFile "src/main.rs", sourceFile "src/main.r"] :=
  (materialisable_iff (by decide +kernel)).mpr (by
    simp only [List.forall_mem_cons, List.not_mem_nil, false_imp_iff, implies_true, and_true]
    unfold Nests
    decide +kernel)

end AtomVibe.Work
