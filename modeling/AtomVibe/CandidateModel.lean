import AtomVibe.Foundations.Checked
import AtomVibe.Hash

namespace AtomVibe.Verification

open Checked Text Hash

structure CandidateFile where
  path : String
  content : String
  deriving DecidableEq

structure CandidateVerificationEvidence where
  manifestPath : String
  manifestHash : String
  bundleHash : String
  attempts : UInt32
  repairs : UInt32
  deriving DecidableEq

inductive VerificationError where
  | invalidPolicy (reason : String)
  | invalidCandidate (reason : String)
  | unsupportedCandidate (reason : String)
  | command (reason : String)
  | evidence (reason : String)
  | io (reason : String)
  deriving DecidableEq

def maxCandidateFiles : ℕ := 32

def maxVerificationAttempts : ℕ := 32

def maxCandidateFileBytes : ℕ := 128 * 1024

def normalizePath (path : String) : String := replaceChar '\\' '/' path

def unsafePart (part : List Char) : Bool :=
  part == [] || part == ['.'] || part == ['.', '.'] || part.any isControl

def validateRelativePath (value : String) : Except VerificationError Unit :=
  let normalized := normalizePath value
  refuseIf (normalized = "" ∨ 240 < normalized.utf8ByteSize ∨ startsWith "/" normalized = true ∨
      ':' ∈ normalized.toList ∨ (splitOn '/' normalized.toList).any unsafePart = true)
    (.invalidCandidate ("unsafe candidate path: " ++ value))

def CandidateFile.validate (file : CandidateFile) : Except VerificationError Unit := do
  validateRelativePath file.path
  refuseIf (file.content = "")
    (.invalidCandidate ("candidate file " ++ file.path ++ " is empty"))
  refuseIf (maxCandidateFileBytes < file.content.utf8ByteSize)
    (.invalidCandidate ("candidate file " ++ file.path ++ " exceeds " ++
      maxCandidateFileBytes.repr ++ " bytes"))

def pathKey (file : CandidateFile) : String := toAsciiLowercase (normalizePath file.path)

def validateFilesFrom : List String → List CandidateFile → Except VerificationError Unit
  | _, [] => .ok ()
  | paths, file :: files => do
    file.validate
    refuseIf (pathKey file ∈ paths)
      (.invalidCandidate ("duplicate candidate path: " ++ file.path))
    validateFilesFrom (pathKey file :: paths) files

def validateFiles (files : List CandidateFile) : Except VerificationError Unit := do
  refuseIf (files = [] ∨ maxCandidateFiles < files.length)
    (.invalidCandidate ("candidate requires 1 to " ++ maxCandidateFiles.repr ++ " files"))
  validateFilesFrom [] files

def fileText (file : CandidateFile) : String :=
  "FILE: " ++ normalizePath file.path ++ "\n" ++ file.content ++
    if endsWith "\n" file.content then "" else "\n"

def candidateOutput (files : List CandidateFile) : Except VerificationError String := do
  validateFiles files
  match files with
  | [file] => return file.content
  | files => return String.join (files.map fileText)

def bundleHash (files : List CandidateFile) : Except VerificationError String := do
  let output ← candidateOutput files
  return sha256Tagged (asBytes output)

structure SafePath (path : String) : Prop where
  nonempty : normalizePath path ≠ ""
  short : (normalizePath path).utf8ByteSize ≤ 240
  relative : startsWith "/" (normalizePath path) = false
  colons : ':' ∉ (normalizePath path).toList
  parts : ∀ part ∈ splitOn '/' (normalizePath path).toList, unsafePart part = false

theorem validateRelativePath_eq_ok {path : String} {u : Unit} :
    validateRelativePath path = .ok u ↔ SafePath path := by
  simp only [validateRelativePath, refuseIf_eq_ok, not_or, not_lt, Bool.not_eq_true,
    List.any_eq_false]
  constructor
  · rintro ⟨h1, h2, h3, h4, h5⟩
    exact ⟨h1, h2, h3, h4, h5⟩
  · rintro ⟨h1, h2, h3, h4, h5⟩
    exact ⟨h1, h2, h3, h4, h5⟩

structure ValidFile (file : CandidateFile) : Prop where
  path : SafePath file.path
  nonempty : file.content ≠ ""
  size : file.content.utf8ByteSize ≤ maxCandidateFileBytes

theorem CandidateFile.validate_eq_ok {file : CandidateFile} {u : Unit} :
    file.validate = .ok u ↔ ValidFile file := by
  simp only [CandidateFile.validate, bind_eq_ok, refuseIf_eq_ok, validateRelativePath_eq_ok,
    not_lt, exists_const]
  constructor
  · rintro ⟨h1, h2, h3⟩
    exact ⟨h1, h2, h3⟩
  · rintro ⟨h1, h2, h3⟩
    exact ⟨h1, h2, h3⟩

structure ValidFiles (files : List CandidateFile) : Prop where
  nonempty : files ≠ []
  few : files.length ≤ maxCandidateFiles
  valid : ∀ file ∈ files, ValidFile file
  distinct : (files.map pathKey).Nodup

theorem validateFilesFrom_eq_ok {paths : List String} {files : List CandidateFile} {u : Unit} :
    validateFilesFrom paths files = .ok u ↔ (∀ file ∈ files, ValidFile file) ∧
      (files.map pathKey).Nodup ∧ ∀ key ∈ files.map pathKey, key ∉ paths := by
  induction files generalizing paths with
  | nil => simp [validateFilesFrom]
  | cons file files ih =>
    simp only [validateFilesFrom, bind_eq_ok, refuseIf_eq_ok, CandidateFile.validate_eq_ok, ih,
      exists_const, List.map_cons, List.forall_mem_cons, List.nodup_cons]
    constructor
    · rintro ⟨hfile, hnew, hfiles, hnodup, hpaths⟩
      exact ⟨⟨hfile, hfiles⟩, ⟨fun hmem => hpaths _ hmem List.mem_cons_self, hnodup⟩, hnew,
        fun key hkey hmem => hpaths key hkey (List.mem_cons_of_mem _ hmem)⟩
    · rintro ⟨⟨hfile, hfiles⟩, ⟨hfresh, hnodup⟩, hnew, hpaths⟩
      refine ⟨hfile, hnew, hfiles, hnodup, fun key hkey hmem => ?_⟩
      rcases List.mem_cons.mp hmem with rfl | hmem
      · exact hfresh hkey
      · exact hpaths key hkey hmem

theorem validateFiles_eq_ok {files : List CandidateFile} {u : Unit} :
    validateFiles files = .ok u ↔ ValidFiles files := by
  simp only [validateFiles, bind_eq_ok, refuseIf_eq_ok, validateFilesFrom_eq_ok, not_or, not_lt,
    exists_const]
  constructor
  · rintro ⟨⟨hne, hfew⟩, hvalid, hnodup, -⟩
    exact ⟨hne, hfew, hvalid, hnodup⟩
  · rintro ⟨hne, hfew, hvalid, hnodup⟩
    exact ⟨⟨hne, hfew⟩, hvalid, hnodup, by simp⟩

theorem SafePath.newline {path : String} (h : SafePath path) :
    '\n' ∉ (normalizePath path).toList := by
  intro hmem
  obtain ⟨part, hpart, hin⟩ := exists_part hmem (by decide : '\n' ≠ '/')
  have hsafe := h.parts part hpart
  simp only [unsafePart, Bool.or_eq_false_iff, List.any_eq_false] at hsafe
  exact hsafe.2 _ hin (by decide)

end AtomVibe.Verification
