import AtomVibe.WorkModel

/-!
The expansion of a plan by the files of its manifest. The packets pushed so far are the state; a
computation that yields `none` is one the source does not return from.
-/

namespace AtomVibe.Work

open Checked Text

def isReserved (base : List Char) : Bool :=
  base == "CON".toList || base == "PRN".toList || base == "AUX".toList || base == "NUL".toList ||
    (utf8Len base == 4 && ("COM".toList.isPrefixOf base || "LPT".toList.isPrefixOf base) &&
      base[3]?.any fun c => '1' ≤ c && c ≤ '9')

def invalidSegment (part : List Char) : Bool :=
  let base := ((splitOn '.' part).headD []).map Char.toUpper
  part == [] || part == ['.'] || part == ['.', '.'] ||
    part.getLast?.any (fun c => c == '.' || c == ' ') ||
    part.any (fun c => isControl c || c == '<' || c == '>' || c == ':' || c == '"' || c == '|' ||
      c == '?' || c == '*') ||
    isReserved base

def isAscii (s : String) : Bool := s.toList.all fun c => c.toNat < 128

def validateFilesFrom : List String → List WorkFile → Except WorkError Unit
  | _, [] => .ok ()
  | paths, file :: files => do
    let rawPath := file.path
    let path := trim rawPath
    let normalized := replaceChar '\\' '/' path
    let normalizedKey := toAsciiLowercase normalized
    refuseIf (rawPath ≠ path ∨ path = "" ∨ 240 < path.utf8ByteSize ∨ startsWith "/" path = true ∨
        startsWith "\\" path = true ∨ (splitOn '/' normalized.toList).any invalidSegment = true ∨
        isAscii path = false ∨ normalizedKey ∈ paths)
      (.invalidManifest ("unsafe or duplicate path: " ++ path))
    refuseIf (isBlank file.purpose = true ∨ file.acceptance = [])
      (.invalidManifest ("file " ++ path ++ " is missing purpose or acceptance"))
    validateFilesFrom (normalizedKey :: paths) files

def validateFiles (files : List WorkFile) : Except WorkError Unit := do
  refuseIf (files = [] ∨ maxFilesPerPlan < files.length)
    (.invalidManifest ("file count must be between 1 and " ++ maxFilesPerPlan.repr))
  validateFilesFrom [] files

def chunksOfThree {α : Type} : List α → List (List α)
  | a :: b :: c :: rest => [a, b, c] :: chunksOfThree rest
  | [] => []
  | rest => [rest]

abbrev PacketLog := StateT (List WorkPacket) Option

def PacketSpec.packet (spec : PacketSpec) (planId : String) (ordinal : ℕ) : WorkPacket :=
  { id := packetId planId ordinal spec.stage spec.file
    ordinal := .ofNat ordinal
    stage := spec.stage
    contract := spec.contract
    objective := spec.objective
    acceptance := spec.acceptance
    dependencies := spec.dependencies
    file := spec.file
    maxOutputBytes := spec.maxOutputBytes }

def pushPacket (planId : String) (spec : PacketSpec) : PacketLog String := fun packets =>
  let packet := spec.packet planId packets.length
  some (packet.id, packets ++ [packet])

def pushPackets (planId : String) (specs : List PacketSpec) : PacketLog (List String) :=
  specs.mapM (pushPacket planId)

def groupSpec (stage : WorkStage) (objective : String) (acceptance dependencies : List String) :
    PacketSpec :=
  { stage
    contract := .envelope
    objective
    acceptance
    dependencies
    file := none
    maxOutputBytes := 8 * 1024 }

def productSpec (stage : WorkStage) (objective : String) (acceptance dependencies : List String) :
    PacketSpec :=
  { stage
    contract := .envelope
    objective
    acceptance
    dependencies
    file := none
    maxOutputBytes := 12 * 1024 }

def fileNoteSpec (file : WorkFile) (stage : WorkStage) (objective : String)
    (acceptance dependencies : List String) : PacketSpec :=
  { stage
    contract := .envelope
    objective
    acceptance
    dependencies
    file := some file
    maxOutputBytes := 12 * 1024 }

def fileArtifactSpec (file : WorkFile) (stage : WorkStage) (objective : String)
    (dependencies : List String) : PacketSpec :=
  { stage
    contract := .fileArtifact
    objective
    acceptance := file.acceptance
    dependencies
    file := some file
    maxOutputBytes := maxFileOutputBytes }

def pushGroups (planId : String) (inputs : List String)
    (spec : ℕ → List String → PacketSpec) : PacketLog (List String) :=
  pushPackets planId ((chunksOfThree inputs).zipIdx.map fun group => spec (group.2 + 1) group.1)

def summarizeToOne (planId : String) (stage : WorkStage) (objective : String)
    (acceptance : List String) : ℕ → ℕ → List String → PacketLog String
  | 0, _, _ => fun _ => none
  | fuel + 1, level, inputs => do
    let grouped ← pushGroups planId inputs fun group dependencies =>
      groupSpec stage (objective ++ " Level " ++ level.repr ++ ", group " ++ group.repr ++ ".")
        acceptance dependencies
    match grouped with
    | [root] => return root
    | inputs => summarizeToOne planId stage objective acceptance fuel (level + 1) inputs

def groupIntegration (planId : String) : ℕ → ℕ → List String → PacketLog (List String)
  | fuel, level, inputs =>
    if inputs.length ≤ 3 then return inputs
    else match fuel with
      | 0 => fun _ => none
      | fuel + 1 => do
        let grouped ← pushGroups planId inputs fun group dependencies =>
          groupSpec .integrationGroup
            ("Integrate level " ++ level.repr ++ " group " ++ group.repr ++
              " and summarize only cross-file contracts, defects, and evidence.")
            ["Every input file or group is accounted for.",
              "Cross-file API mismatches are explicit."] dependencies
        groupIntegration planId fuel (level + 1) grouped

structure BaseIds where
  manifest : String
  architecture : String
  functional : String
  quality : String

structure FileFlow where
  file : WorkFile
  contract : String
  correction : String

def pushFile (planId : String) (base : BaseIds) (prior : Option String) (file : WorkFile) :
    PacketLog FileFlow := do
  let contract ← pushPacket planId (fileNoteSpec file .fileContract
    ("Define the complete public and private contract for " ++ file.path ++ ".")
    file.acceptance ([base.manifest, base.architecture] ++ prior.toList))
  let implementation ← pushPacket planId (fileArtifactSpec file .fileImplementation
    ("Implement only " ++ file.path ++ " against its approved contract.")
    [contract, base.manifest, base.architecture])
  let review ← pushPacket planId (fileNoteSpec file .fileReview
    ("Adversarially review " ++ file.path ++ " against every owning requirement.")
    ["List concrete defects and missing evidence.",
      "A proof claim without executable evidence is a defect."]
    [contract, implementation, base.quality])
  let correction ← pushPacket planId (fileArtifactSpec file .fileCorrection
    ("Return a complete corrected " ++ file.path ++ " with every review defect resolved.")
    [contract, implementation, review])
  return { file, contract, correction }

def pushFiles (planId : String) (base : BaseIds) :
    Option String → List WorkFile → PacketLog (List FileFlow)
  | _, [] => return []
  | prior, file :: files => do
    let flow ← pushFile planId base prior file
    let flows ← pushFiles planId base (some flow.correction) files
    return flow :: flows

def pushIntegration (planId : String) (flows : List FileFlow) : PacketLog String := do
  let integrationInputs ← groupIntegration planId flows.length 1 (flows.map (·.correction))
  pushPacket planId (productSpec .integration
    "Check all corrected files as one product and identify cross-file contract failures."
    ["Every manifest file is present.", "Cross-file APIs agree."] integrationInputs)

def pushIntegrationCorrections (planId integration : String) (flows : List FileFlow) :
    PacketLog (List String) :=
  pushPackets planId (flows.map fun flow => fileArtifactSpec flow.file .integrationCorrection
    ("Return a complete integration-corrected " ++ flow.file.path ++ " that resolves every " ++
      "applicable cross-file defect without violating its authoritative file contract.")
    [flow.correction, flow.contract, integration])

structure Closing where
  integrationClosure : String
  verification : String
  adversarial : String

def pushClosing (planId : String) (base : BaseIds) (integration : String)
    (integrationCorrections : List String) : PacketLog Closing := do
  let closureRoot ← summarizeToOne planId .closureGroup
    "Validate integration-corrected file groups and reject every unresolved cross-file defect."
    ["Every input is accounted for.", "No known integration risk remains."]
    integrationCorrections.length 1 integrationCorrections
  let integrationClosure ← pushPacket planId (productSpec .integrationClosure
    "Close integration only after the corrected bundle satisfies all cross-file contracts."
    ["All integration defects are resolved.", "No known risk is deferred."]
    [closureRoot, integration, base.quality])
  let verification ← pushPacket planId (productSpec .verification
    "Define and evaluate real functional verification for the integrated product."
    ["Smoke checks alone cannot pass.", "Each requirement maps to evidence."]
    [integrationClosure, base.functional, base.quality])
  let adversarial ← pushPacket planId (productSpec .adversarialReview
    ("Perform a final hostile review for logic errors, insecure defaults, placeholders, and " ++
      "unverified claims.")
    ["False positives are acceptable; silent defects are not."]
    [verification, integrationClosure, base.architecture])
  return { integrationClosure, verification, adversarial }

def pushFinalCorrections (planId adversarial : String) (flows : List FileFlow)
    (integrationCorrections : List String) : PacketLog (List String) :=
  pushPackets planId ((flows.zip integrationCorrections).map fun (flow, integrationCorrection) =>
    fileArtifactSpec flow.file .finalCorrection
      ("Return the complete release candidate for " ++ flow.file.path ++ " with every " ++
        "applicable verification and adversarial defect resolved.")
      [integrationCorrection, flow.contract, adversarial])

def pushRelease (planId : String) (closing : Closing) (finalCorrections : List String) :
    PacketLog String := do
  let releaseRoot ← summarizeToOne planId .releaseGroup
    "Validate final-corrected file groups as release candidates and reject every unresolved defect."
    ["Every final file is accounted for.", "No known release risk remains."]
    finalCorrections.length 1 finalCorrections
  let releaseVerification ← pushPacket planId (productSpec .releaseVerification
    ("Re-evaluate the final corrected bundle against the verification and hostile-review " ++
      "findings before harness execution.")
    ["Every prior finding is resolved or disproved with concrete evidence.",
      "No smoke-only claim is accepted."]
    [releaseRoot, closing.verification, closing.adversarial])
  pushPacket planId (productSpec .finalization
    "Confirm the corrected file bundle is internally consistent and ready for harness execution."
    ["No known defect is deferred.", "No placeholder is accepted."]
    [releaseVerification, closing.integrationClosure, releaseRoot])

def pushFilePackets (planId : String) (base : BaseIds) (files : List WorkFile) :
    PacketLog String := do
  let flows ← pushFiles planId base none files
  let integration ← pushIntegration planId flows
  let integrationCorrections ← pushIntegrationCorrections planId integration flows
  let closing ← pushClosing planId base integration integrationCorrections
  let finalCorrections ← pushFinalCorrections planId closing.adversarial flows
    integrationCorrections
  pushRelease planId closing finalCorrections

/-- The indexing of the base packets; past the end it is a panic. -/
def baseIds (packets : List WorkPacket) (manifest : WorkPacket) : Option BaseIds := do
  let architecture ← packets[3]?
  let functional ← packets[1]?
  let quality ← packets[2]?
  return ⟨manifest.id, architecture.id, functional.id, quality.id⟩

namespace WorkPlan

def expandedFiles (plan : WorkPlan) : List WorkFile :=
  (plan.packets.filter fun packet => packet.stage = .fileContract).filterMap (·.file)

def withPackets (plan : WorkPlan) (packets : List WorkPacket) : WorkPlan :=
  { plan with packets, expanded := true }

def expandFiles (plan : WorkPlan) (files : List WorkFile) : Option (Except WorkError WorkPlan) :=
  match validateFiles files with
  | .error error => some (.error error)
  | .ok () =>
    if plan.expanded then
      if plan.expandedFiles = files then some (.ok plan)
      else some (.error (.invalidPlan "manifest expansion changed after packets were created"))
    else
      match plan.packets.getLast? with
      | none => some (.error (.invalidPlan "base packets are missing"))
      | some manifest => do
        let base ← baseIds plan.packets manifest
        let (_, packets) ← pushFilePackets plan.id base files plan.packets
        return (plan.withPackets packets).validate.map fun _ => plan.withPackets packets

end WorkPlan

def canonicalFromManifest (intentHash recipeId : String) (atomStack : List String)
    (fingerprintHash : String) (files : List WorkFile) : Option (Except WorkError WorkPlan) :=
  match fromIdentity "manifest-verification" recipeId atomStack "manifest-verification" intentHash
      fingerprintHash with
  | .error error => some (.error error)
  | .ok plan => plan.expandFiles files

end AtomVibe.Work
