import AtomVibe.Foundations.Checked
import AtomVibe.GateModel

namespace AtomVibe.SourceInspection

open Checked Text Hash BuildProtocol GateModel

/-- The file system under an evidence root, as one gate evaluation sees it. An error is the text
of the I/O error. -/
structure EvidenceFs where
  isDir : String → Bool
  canonicalize : String → Except String String
  isFile : String → Bool
  read : String → Except String ByteArray

def EvidenceFs.readToString (fs : EvidenceFs) (path : String) : Except String String := do
  let bytes ← fs.read path
  match String.fromUTF8? bytes with
  | some text => .ok text
  | none => .error "stream did not contain valid UTF-8"

inductive SourceViolation
  | stub (path marker : String)
  | allow (path : String) (line : ℕ) (reason : String)
  deriving DecidableEq

/-- `root.join(path)` for the relative paths that the artifact contract lets through. -/
def join (root path : String) : String :=
  if endsWith "/" root then root ++ path else root ++ "/" ++ path

def isUnder (root path : String) : Bool := path == root || startsWith (join root "") path

def verifyArtifact (fs : EvidenceFs) (canonicalRoot : String) (artifact : BuildArtifactRef) :
    Except String Unit := do
  artifact.validate.mapError fun error => "artifact contract failed: " ++ error.display
  let path := join canonicalRoot (replaceChar '\\' '/' artifact.path)
  let canonical ← (fs.canonicalize path).mapError fun error =>
    "artifact " ++ artifact.path ++ " is unavailable: " ++ error
  refuseIf (!isUnder canonicalRoot canonical)
    ("artifact " ++ artifact.path ++ " resolves outside the evidence root")
  refuseIf (!fs.isFile canonical) ("artifact " ++ artifact.path ++ " is not a file")
  let bytes ← (fs.read canonical).mapError fun error =>
    "artifact " ++ artifact.path ++ " could not be read: " ++ error
  let actual := sha256Hex bytes.data.toList
  refuseIf (toAsciiLowercase actual ≠ toAsciiLowercase artifact.sha256Hex)
    ("artifact " ++ artifact.path ++ " hash does not recompute")

def verifyArtifacts (fs : EvidenceFs) (root : String) (artifacts : List BuildArtifactRef) :
    Except String String := do
  refuseIf (!fs.isDir root) ("evidence root is not a directory: " ++ root)
  let canonicalRoot ← (fs.canonicalize root).mapError fun error =>
    "could not canonicalize evidence root: " ++ error
  checkAll (verifyArtifact fs canonicalRoot) artifacts
  return canonicalRoot

def compact (cs : List Char) : List Char := cs.filter fun c => !isWhitespace c

def isBoundary (c : Option Char) : Bool := !c.any fun c => isAsciiAlphanumeric c || c == '_'

def containsWordFrom (needle : List Char) : ℕ → Option Char → List Char → Bool
  | 0, _, _ => false
  | fuel + 1, previous, cs =>
    match findSub needle cs with
    | none => false
    | some (skipped, rest) =>
      if isBoundary (skipped.getLast?.or previous) && isBoundary rest.head? then true
      else containsWordFrom needle fuel needle.getLast? rest

def containsWord (source needle : String) : Bool :=
  let lowered := (toAsciiLowercase source).toList
  containsWordFrom needle.toList (lowered.length + 1) none lowered

def firstStubMarker (source : String) : Option String :=
  let lowered := (compact source.toList).map Char.toLower
  let occurs := fun marker : String => Text.contains marker.toList lowered
  match ["todo!(", "unimplemented!("].find? occurs with
  | some marker => some marker
  | none =>
    if occurs "panic!(\"todo" || occurs "panic!(r#\"todo" || occurs "panic!(\"placeholder" then
      some "placeholder panic"
    else ["placeholder", "stub"].find? (containsWord source)

def inspectLine (path : String) (line : ℕ) (raw : List Char) :
    Except SourceViolation (Option String) :=
  let text := compact raw
  if Text.contains "#![allow(".toList text then
    .error (.allow path line "crate-level warning allow is forbidden")
  else
    match findSub "#[allow(".toList text with
    | none =>
      if Text.contains "COUPLE:".toList raw then
        .error (.allow path line "COUPLE marker is not attached to a scoped allow")
      else .ok none
    | some (_, rest) =>
      match findSub ")]".toList rest with
      | none => .error (.allow path line "warning allow attribute is malformed")
      | some (names, _) =>
        if (splitOn ',' names).any fun name =>
            name != "dead_code".toList && name != "unused".toList then
          .error (.allow path line "only scoped dead_code or unused allows are eligible")
        else
          match splitSecond "// COUPLE:".toList raw with
          | none => .error (.allow path line "eligible allow is missing a COUPLE consumer marker")
          | some marker =>
            let rawMarker := trim (String.ofList marker)
            if rawMarker = "" then .error (.allow path line "COUPLE marker has no consumer")
            else .ok (some (path ++ ":" ++ line.repr ++ ":" ++ rawMarker))

def inspectLines (path : String) : ℕ → List (List Char) → Except SourceViolation (List String)
  | _, [] => .ok []
  | line, raw :: rest => do
    let marker ← inspectLine path line raw
    let markers ← inspectLines path (line + 1) rest
    return marker.toList ++ markers

def inspectRustSource (fs : EvidenceFs) (root : String) (artifact : BuildArtifactRef) :
    Except SourceViolation (List String) := do
  if !endsWith ".rs" (toAsciiLowercase artifact.path) then .ok []
  else
    let path := join root (replaceChar '\\' '/' artifact.path)
    let source ← (fs.readToString path).mapError fun error =>
      SourceViolation.stub artifact.path ("unreadable UTF-8 source: " ++ error)
    match firstStubMarker source with
    | some marker => .error (.stub artifact.path marker)
    | none => inspectLines artifact.path 1 (lines source)

def sortDedup (values : List String) : List String :=
  (values.insertionSort (· ≤ ·)).destutter (· ≠ ·)

def inspectRustSources (fs : EvidenceFs) (root : String) (artifacts : List BuildArtifactRef)
    (allowCoupleMarkers : Bool) : Except SourceViolation (List String) := do
  let found ← artifacts.mapM (inspectRustSource fs root)
  let markers := sortDedup found.flatten
  match markers with
  | marker :: _ =>
    if allowCoupleMarkers then .ok markers
    else .error (.allow marker 0 "COUPLE marker survived beyond crate build")
  | [] => .ok []

theorem verifyArtifact_eq_ok {fs : EvidenceFs} {canonicalRoot : String}
    {artifact : BuildArtifactRef} :
    verifyArtifact fs canonicalRoot artifact = .ok () ↔ artifact.Valid ∧ ∃ canonical bytes,
      fs.canonicalize (join canonicalRoot (replaceChar '\\' '/' artifact.path)) = .ok canonical ∧
        isUnder canonicalRoot canonical = true ∧ fs.isFile canonical = true ∧
          fs.read canonical = .ok bytes ∧ toAsciiLowercase (sha256Hex bytes.data.toList) =
            toAsciiLowercase artifact.sha256Hex := by
  simp only [verifyArtifact, bind_eq_ok, mapError_eq_ok, refuseIf_eq_ok, Bool.not_eq_true',
    Bool.not_eq_false, ne_eq, not_not, BuildArtifactRef.Valid]
  constructor
  · rintro ⟨_, hvalid, canonical, hcanonical, _, hunder, _, hfile, bytes, hread, hhash⟩
    exact ⟨hvalid, canonical, bytes, hcanonical, hunder, hfile, hread, hhash⟩
  · rintro ⟨hvalid, canonical, bytes, hcanonical, hunder, hfile, hread, hhash⟩
    exact ⟨(), hvalid, canonical, hcanonical, (), hunder, (), hfile, bytes, hread, hhash⟩

theorem verifyArtifacts_eq_ok {fs : EvidenceFs} {root canonicalRoot : String}
    {artifacts : List BuildArtifactRef} :
    verifyArtifacts fs root artifacts = .ok canonicalRoot ↔ fs.isDir root = true ∧
      fs.canonicalize root = .ok canonicalRoot ∧
        ∀ artifact ∈ artifacts, verifyArtifact fs canonicalRoot artifact = .ok () := by
  simp only [verifyArtifacts, bind_eq_ok, mapError_eq_ok, refuseIf_eq_ok, pure_eq_ok,
    checkAll_eq_ok, Bool.not_eq_true', Bool.not_eq_false]
  constructor
  · rintro ⟨_, hdir, _, hroot, _, hall, rfl⟩
    exact ⟨hdir, hroot, hall⟩
  · rintro ⟨hdir, hroot, hall⟩
    exact ⟨(), hdir, canonicalRoot, hroot, (), hall, rfl⟩

theorem verifyArtifacts_valid {fs : EvidenceFs} {root canonicalRoot : String}
    {artifacts : List BuildArtifactRef}
    (h : verifyArtifacts fs root artifacts = .ok canonicalRoot) :
    ∀ artifact ∈ artifacts, artifact.Valid :=
  fun artifact ha => (verifyArtifact_eq_ok.mp ((verifyArtifacts_eq_ok.mp h).2.2 artifact ha)).1

example : (firstStubMarker "fn run() { todo!() }").isSome ∧ (firstStubMarker "// placeholder").isSome ∧
    firstStubMarker "struct StubConfig;" = none ∧
    firstStubMarker "let placeholder_count = 1;" = none := by decide

end AtomVibe.SourceInspection
