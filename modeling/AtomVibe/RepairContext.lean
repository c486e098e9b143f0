import AtomVibe.WorkContext

namespace AtomVibe.Repair

open Text Work Verification

def maxRelatedContextBytes : ℕ := 24 * 1024

def truncateUtf8 (value : String) (limit : ℕ) : String :=
  if value.utf8ByteSize ≤ limit then value else String.ofList (truncated limit value.toList)

def header (file : CandidateFile) : String := "FILE: " ++ file.path ++ "\n"

/-- The loop of `related_context`. -/
def relatedFrom (target : ℕ) : String → List (CandidateFile × ℕ) → String
  | output, [] => output
  | output, (file, index) :: files =>
    if index = target ∨ maxRelatedContextBytes ≤ output.utf8ByteSize then
      relatedFrom target output files
    else if maxRelatedContextBytes - output.utf8ByteSize ≤ (header file).utf8ByteSize then output
    else
      let output := output ++ header file
      let remaining := maxRelatedContextBytes - output.utf8ByteSize
      relatedFrom target (output ++ truncateUtf8 file.content (min remaining (4 * 1024)) ++ "\n") files

def relatedContext (files : List CandidateFile) (target : ℕ) : String :=
  relatedFrom target "" files.zipIdx

def others (target : ℕ) (files : List (CandidateFile × ℕ)) : List CandidateFile :=
  (files.filter (·.2 ≠ target)).map Prod.fst

def block (shown : CandidateFile × String) : String := header shown.1 ++ shown.2 ++ "\n"

/-- A content is cut at 4 KiB, or where the context ends. -/
structure Kept (size : ℕ) (content kept : String) : Prop where
  front : kept.toList <+: content.toList
  bound : kept.utf8ByteSize ≤ 4 * 1024
  most : kept = content ∨ 4 * 1024 < kept.utf8ByteSize + 4 ∨ maxRelatedContextBytes ≤ size + 2

/-- The context shows the first of the other files, as many as there is room for. -/
structure Shows (files : List CandidateFile) (output context : String) : Prop where
  bound : context.utf8ByteSize ≤ maxRelatedContextBytes + 1
  shown : ∃ (shown : List (CandidateFile × String)) (rest : List CandidateFile),
    files = shown.map Prod.fst ++ rest ∧
    context = output ++ String.join (shown.map block) ∧ 
    (∀ p ∈ shown, Kept context.utf8ByteSize p.1.content p.2) ∧
    ∀ file ∈ rest.head?, maxRelatedContextBytes ≤ context.utf8ByteSize + (header file).utf8ByteSize

variable {value : String} {limit target : ℕ} {output : String}

theorem truncateUtf8_spec (value : String) (limit : ℕ) :
    (truncateUtf8 value limit).toList <+: value.toList ∧
      (truncateUtf8 value limit).utf8ByteSize ≤ limit ∧
      (truncateUtf8 value limit = value ∨ limit < (truncateUtf8 value limit).utf8ByteSize + 4) := by
  rw [truncateUtf8]
  split
  · next h => exact ⟨List.prefix_rfl, h, .inl rfl⟩
  · next h =>
    rw [utf8ByteSize_eq] at h
    rw [utf8ByteSize_eq, String.toList_ofList]
    exact ⟨truncated_isPrefix limit value.toList, utf8Len_truncated_le limit value.toList,
      .inr (lt_utf8Len_truncated (not_le.mp h))⟩

theorem shows_end {files : List CandidateFile} (hbound : output.utf8ByteSize ≤ maxRelatedContextBytes + 1)
    (hrest : ∀ file ∈ files.head?,
      maxRelatedContextBytes ≤ output.utf8ByteSize + (header file).utf8ByteSize) :
    Shows files output output :=
  ⟨hbound, [], files, rfl, (String.append_empty).symm, by simp, hrest⟩

theorem relatedFrom_full (h : maxRelatedContextBytes ≤ output.utf8ByteSize)
    (files : List (CandidateFile × ℕ)) : relatedFrom target output files = output := by
  induction files with
  | nil => rfl
  | cons file files ih => rw [relatedFrom, if_pos (.inr h), ih]

theorem relatedFrom_shows (files : List (CandidateFile × ℕ))
    (hbound : output.utf8ByteSize ≤ maxRelatedContextBytes + 1) :
    Shows (others target files) output (relatedFrom target output files) := by
  induction files generalizing output with
  | nil => exact shows_end hbound (by simp [others])
  | cons first files ih =>
    obtain ⟨file, index⟩ := first
    by_cases hfull : maxRelatedContextBytes ≤ output.utf8ByteSize
    · rw [relatedFrom_full hfull]
      exact shows_end hbound fun _ _ => by omega
    by_cases htarget : index = target
    · rw [relatedFrom, if_pos (.inl htarget), others, List.filter_cons_of_neg (by simpa using htarget)]
      exact ih hbound
    have hothers : others target ((file, index) :: files) = file :: others target files := by
      simp [others, htarget]
    rw [relatedFrom, if_neg (not_or.mpr ⟨htarget, hfull⟩), hothers]
    split
    · next hheader =>
      refine shows_end hbound fun other hother => ?_
      obtain rfl : file = other := by simpa using hother
      omega
    · next hheader =>
      have hsize := String.utf8ByteSize_append (s := output) (t := header file)
      set front := output ++ header file with hfront
      obtain ⟨hstart, hcut, hmost⟩ := truncateUtf8_spec file.content
        (min (maxRelatedContextBytes - front.utf8ByteSize) (4 * 1024))
      set kept := truncateUtf8 file.content _
      have hnext : (front ++ kept ++ "\n").utf8ByteSize = front.utf8ByteSize + kept.utf8ByteSize + 1 := by
        rw [String.utf8ByteSize_append, String.utf8ByteSize_append]
        rfl
      obtain ⟨hle, shown, rest, hfiles, hcontext, hkeeps, hrest⟩ :=
        ih (show (front ++ kept ++ "\n").utf8ByteSize ≤ maxRelatedContextBytes + 1 by omega)
      refine ⟨hle, (file, kept) :: shown, rest, by rw [hfiles]; rfl, ?_, ?_, hrest⟩
      · rw [hcontext, List.map_cons, String.join_cons, block, hfront]
        simp only [String.append_assoc]
      · have hgrown : (front ++ kept ++ "\n").utf8ByteSize ≤
            (relatedFrom target (front ++ kept ++ "\n") files).utf8ByteSize := by
          rw [hcontext]
          exact (Nat.le_add_right _ _).trans_eq String.utf8ByteSize_append.symm
        have hkept : Kept (relatedFrom target (front ++ kept ++ "\n") files).utf8ByteSize
            file.content kept := ⟨hstart, by omega, hmost.imp_right fun hshort => by omega⟩
        exact List.forall_mem_cons.mpr ⟨hkept, hkeeps⟩

/-- Whatever the files are, the context of a repair shows the first of those beside the target, each
with the front of its content, and ends only where the next has no room. -/
theorem relatedContext_shows (files : List CandidateFile) (target : ℕ) :
    Shows (others target files.zipIdx) "" (relatedContext files target) :=
  relatedFrom_shows _ (Nat.zero_le _)

end AtomVibe.Repair
