import AtomVibe.GateEvaluation

namespace AtomVibe.GateSpec

open Checked Text Hash BuildProtocol GateModel SourceInspection GateEvaluation

variable {fs : EvidenceFs} {root : String} {checkedAt : UInt64} {input : GateInput}
  {details : List String}

def GateOutcome.evidence : GateOutcome → BuildGateEvidence
  | .pass evidence => evidence
  | .fail _ evidence => evidence
  | .deferred _ evidence => evidence

theorem evaluateGate_pass {evidence : BuildGateEvidence} :
    evaluateGate fs checkedAt input = .pass evidence ↔
      ∃ root details, verifyArtifacts fs input.evidenceRoot input.allArtifacts = .ok root ∧
        evaluateStep fs root input = .ok details ∧
          evidence = ⟨input.step.skillId ++ " gate passed", details, input.allArtifacts,
            checkedAt⟩ := by
  unfold evaluateGate
  cases hv : verifyArtifacts fs input.evidenceRoot input.allArtifacts with
  | error reason => simp [fail]
  | ok root =>
    cases hs : evaluateStep fs root input with
    | error failure => simp [fail, hs]
    | ok details => simp [hs, eq_comm]

theorem evaluateGate_not_deferred (fs : EvidenceFs) (checkedAt : UInt64) (input : GateInput)
    (reason : String) (evidence : BuildGateEvidence) :
    evaluateGate fs checkedAt input ≠ .deferred reason evidence := by
  unfold evaluateGate
  split
  · simp [fail]
  · split <;> simp [fail]

theorem evaluateGate_artifacts_valid (fs : EvidenceFs) (checkedAt : UInt64) (input : GateInput) :
    ∀ artifact ∈ (GateOutcome.evidence (evaluateGate fs checkedAt input)).artifacts,
      artifact.Valid := by
  unfold evaluateGate
  split
  · simp [fail, GateOutcome.evidence]
  · rename_i root hv
    split <;> exact verifyArtifacts_valid hv

theorem collectArtifacts_valid {evidence : BuildGateEvidence}
    (h : evaluateGate fs checkedAt input = .pass evidence) :
    ∀ artifact ∈ input.collectArtifacts, artifact.Valid := by
  obtain ⟨root, details, hv, -, -⟩ := evaluateGate_pass.mp h
  exact fun artifact ha =>
    verifyArtifacts_valid hv artifact ((mem_allArtifacts input artifact).mpr ha)

theorem requiredBlueprint_ok {blueprint : BlueprintRecord}
    (h : requiredBlueprint input = .ok blueprint) : input.blueprint = some blueprint := by
  simp only [requiredBlueprint, bind_eq_ok, okOr_eq_ok, pure_eq_ok] at h
  obtain ⟨b, hb, -, -, rfl⟩ := h
  exact hb

theorem evaluateIntake_ok (h : evaluateIntake input = .ok details) :
    input.requirements.isSome := by
  simp only [evaluateIntake, bind_eq_ok, okOr_eq_ok] at h
  obtain ⟨requirements, hr, -⟩ := h
  exact hr ▸ rfl

theorem evaluateBlueprint_ok (h : evaluateBlueprint input = .ok details) :
    input.requirements.isSome ∧ input.blueprint.isSome := by
  simp only [evaluateBlueprint, bind_eq_ok, okOr_eq_ok] at h
  obtain ⟨requirements, hr, -, -, blueprint, hb, -⟩ := h
  exact ⟨hr ▸ rfl, hb ▸ rfl⟩

theorem evaluateCrateBuild_ok (h : evaluateCrateBuild fs root input = .ok details) :
    input.blueprint.isSome := by
  simp only [evaluateCrateBuild, bind_eq_ok] at h
  obtain ⟨blueprint, hb, -⟩ := h
  exact requiredBlueprint_ok hb ▸ rfl

theorem wiringDebt_ok {wiring : WiringEvidence} {debt : Option String}
    (h : wiringDebt wiring = .ok debt) : debt = none ↔ wiring.status = .pass := by
  unfold wiringDebt at h
  cases hs : wiring.status with
  | pass =>
    simp only [hs] at h
    split_ifs at h
    simpa [eq_comm] using h
  | fail => simp [hs] at h
  | deferred =>
    simp only [hs] at h
    split_ifs at h
    rw [Except.ok.injEq] at h
    simp [← h]

theorem evaluateWiring_ok {contracts : List MessageContract} {expectedId : String}
    {wiring : WiringEvidence} {debt : Option String}
    (h : evaluateWiring contracts expectedId wiring = .ok debt) :
    debt = none ↔ wiring.status = .pass := by
  simp only [evaluateWiring, bind_eq_ok] at h
  obtain ⟨-, -, -, -, -, -, -, -, hdebt⟩ := h
  exact wiringDebt_ok hdebt

theorem sorted_eq_nil {values : List String} : sorted values = [] ↔ values = [] := by
  rw [← List.length_eq_zero_iff, sorted, List.length_insertionSort, List.length_eq_zero_iff]

theorem evaluateCrateCouple_ok (h : evaluateCrateCouple fs root input = .ok details) :
    input.blueprint.isSome ∧ input.coupleMarkers = [] ∧
      (input.deferredDebt = [] ↔ ∀ wiring ∈ input.wirings, wiring.status = .pass) := by
  simp only [evaluateCrateCouple, bind_eq_ok, refuseIf_eq_ok, Bool.not_eq_true',
    Bool.not_eq_false, List.isEmpty_iff, ne_eq, not_not, mapM_eq_ok_iff] at h
  obtain ⟨blueprint, hb, -, hmarkers, -, -, -, hlength, found, hfound, -, hdebt, -⟩ := h
  refine ⟨requiredBlueprint_ok hb ▸ rfl, hmarkers, ?_⟩
  rw [← sorted_eq_nil, ← hdebt, sorted_eq_nil, List.filterMap_eq_nil_iff]
  have hsnd : input.wirings = (blueprint.couplingOrder.zip input.wirings).map Prod.snd :=
    (List.map_snd_zip hlength.le).symm
  rw [hsnd, List.forall_mem_map]
  clear hdebt hsnd hlength
  generalize blueprint.couplingOrder.zip input.wirings = pairs at hfound ⊢
  induction hfound with
  | nil => simp
  | cons hw _ ih =>
    rw [List.forall_mem_cons, List.forall_mem_cons]
    exact and_congr (evaluateWiring_ok hw) ih

theorem evaluateBuildTest_ok (h : evaluateBuildTest fs root input = .ok details) :
    input.blueprint.isSome ∧ input.requirements.isSome ∧ input.deferredDebt = [] ∧
      input.coupleMarkers = [] := by
  simp only [evaluateBuildTest, bind_eq_ok, refuseIf_eq_ok, okOr_eq_ok, Bool.or_eq_true,
    Bool.not_eq_true', List.isEmpty_eq_false_iff, not_or, not_not] at h
  obtain ⟨blueprint, hb, -, ⟨hdebt, hmarkers⟩, -, -, -, -, requirements, hr, -⟩ := h
  exact ⟨requiredBlueprint_ok hb ▸ rfl, hr ▸ rfl, hdebt, hmarkers⟩

theorem evaluateLaunch_ok (h : evaluateLaunch fs root input = .ok details) :
    input.blueprint.isSome ∧ input.launch.isSome ∧ input.deferredDebt = [] ∧
      input.coupleMarkers = [] := by
  simp only [evaluateLaunch, bind_eq_ok, refuseIf_eq_ok, okOr_eq_ok, Bool.or_eq_true,
    Bool.not_eq_true', List.isEmpty_eq_false_iff, not_or, not_not] at h
  obtain ⟨blueprint, hb, -, ⟨hdebt, hmarkers⟩, -, -, launch, hl, -⟩ := h
  exact ⟨requiredBlueprint_ok hb ▸ rfl, hl ▸ rfl, hdebt, hmarkers⟩

def sampleSource : String := "pub fn run() {}\n"

def sampleFs : EvidenceFs where
  isDir _ := true
  canonicalize path := .ok path
  isFile _ := true
  read _ := .ok sampleSource.toByteArray

def sampleArtifact (role : String) : BuildArtifactRef :=
  ⟨"state/src/lib.rs", sha256Hex sampleSource.toByteArray.data.toList, role⟩

def sampleRequirements : RequirementsRecord where
  purpose := "Track inventory"
  userBehaviors := ["add and remove items"]
  uiDecision := "native dashboard"
  persistenceDecision := "persist locally"
  externalBoundaries := ["none"]
  executionSiting := "local"
  outOfScope := ["cloud sync"]
  definitionOfDone := ["item survives restart"]
  artifact := sampleArtifact "requirements"

def sampleReview : IndependentReview :=
  ⟨"sha256:author", "sha256:reviewer", true, [], true, [sampleArtifact "independent-review"]⟩

def sampleBlueprint (version : UInt32) : BlueprintRecord where
  version := version
  crates := [⟨"state", "own inventory state"⟩, ⟨"app", "orchestrate input and rendering"⟩]
  messageContracts := [⟨"state-to-app", "InventoryChanged", "state", ["app"], "fail closed"⟩]
  dependencyEdges := [⟨"state", "app"⟩]
  topologicalOrder := ["state", "app"]
  couplingOrder := ["state-to-app"]
  blueprintArtifact := sampleArtifact "blueprint"
  protocolArtifact := sampleArtifact "protocol"
  independentReview := sampleReview

def sampleCommand (name : String) : CommandEvidence :=
  ⟨name, 0, false, true, 0, true, sampleArtifact "command-stdout", sampleArtifact "command-stderr"⟩

def sampleCrate (name : String) : CrateEvidence :=
  ⟨name, [sampleArtifact "rust-source"], sampleCommand "check", sampleCommand "test"⟩

def sampleWiring (reason : Option String) : WiringEvidence where
  contractId := "state-to-app"
  producer := "state"
  consumer := "app"
  messageType := "InventoryChanged"
  status := if reason.isSome then .deferred else .pass
  messageEmitted := true
  messageHandled := true
  directSideChannel := false
  deferredReason := reason.getD ""
  evidence := [sampleArtifact "bus-flow"]

def sampleLaunch : LaunchEvidence where
  processStarted := true
  processStillRunning := true
  panicFree := true
  usableScreenObserved := true
  screenshot := sampleArtifact "screenshot"
  startupOutput := sampleArtifact "startup-output"
  roundTrip := ⟨"input-1", requiredLayers, "result-1", "before", "after",
    [sampleArtifact "ui-round-trip"]⟩
  definitionOfDoneSatisfied := true
  definitionOfDoneEvidence := [sampleArtifact "definition-of-done"]
  completionEnforcerClean := true

def sampleInput (version : UInt32) (step : BuildStep) : GateInput :=
  let base := { GateInput.new step "root" with requirements := some sampleRequirements }
  let planned := { base with blueprint := some (sampleBlueprint version) }
  let built := { planned with crates := [sampleCrate "state", sampleCrate "app"] }
  match step with
  | .intake => base
  | .blueprint => planned
  | .crateBuild => built
  | .crateCouple => { built with wirings := [sampleWiring none] }
  | .buildTest =>
    { built with
      commands := ["cargo-check", "cargo-test", "cargo-clippy"].map sampleCommand
      functionalCases := [⟨"item survives restart", true, false, true, true,
        [sampleArtifact "functional-workflow"]⟩]
      implementationReview := some sampleReview }
  | .launchProof => { built with launch := some sampleLaunch }

def deferredInput (version : UInt32) : GateInput :=
  { sampleInput version .crateCouple with
    wirings := [sampleWiring (some "awaiting round trip")]
    deferredDebt := ["state-to-app:awaiting round trip"] }

theorem isUnder_join (root path : String) : isUnder root (join root path) = true := by
  have hinit : (join root "").toList <+: (join root path).toList := by
    unfold join
    split_ifs <;> simp
  rw [isUnder, startsWith, List.isPrefixOf_iff_prefix.mpr hinit, Bool.or_true]

theorem artifact_verified {path role : String} (hpath : isSafeEvidencePath path = true)
    (hblank : isBlank role = false) (hsize : role.utf8ByteSize ≤ 96) :
    verifyArtifact sampleFs "root"
      ⟨path, sha256Hex sampleSource.toByteArray.data.toList, role⟩ = .ok () := by
  refine verifyArtifact_eq_ok.mpr ⟨?_, _, _, rfl, isUnder_join _ _, rfl, rfl, rfl⟩
  simp [BuildArtifactRef.Valid, BuildArtifactRef.validate, hpath, utf8ByteSize_sha256Hex,
    all_isAsciiHexdigit_sha256Hex, hblank, not_lt.mpr hsize]

theorem sampleArtifact_verified {role : String} (hblank : isBlank role = false)
    (hsize : role.utf8ByteSize ≤ 96) :
    verifyArtifact sampleFs "root" (sampleArtifact role) = .ok () :=
  artifact_verified (by decide +kernel) hblank hsize

theorem evaluateGate_sample {input : GateInput} {details : List String}
    (hroot : input.evidenceRoot = "root")
    (hartifacts : ∀ artifact ∈ input.collectArtifacts, ∃ role, isBlank role = false ∧
      role.utf8ByteSize ≤ 96 ∧ artifact = sampleArtifact role)
    (hstep : evaluateStep sampleFs "root" input = .ok details) (checkedAt : UInt64) :
    evaluateGate sampleFs checkedAt input =
      .pass ⟨input.step.skillId ++ " gate passed", details, input.allArtifacts, checkedAt⟩ := by
  refine evaluateGate_pass.mpr ⟨"root", details, ?_, hstep, rfl⟩
  rw [hroot]
  refine verifyArtifacts_eq_ok.mpr ⟨rfl, rfl, fun artifact ha => ?_⟩
  obtain ⟨role, hblank, hsize, rfl⟩ := hartifacts artifact ((mem_allArtifacts input artifact).mp ha)
  exact sampleArtifact_verified hblank hsize

theorem inspectRustSource_sample (role : String) :
    inspectRustSource sampleFs "root" (sampleArtifact role) = .ok [] := by
  have hread : sampleFs.readToString "root/state/src/lib.rs" = .ok sampleSource := by decide +kernel
  have hrust : endsWith ".rs" (toAsciiLowercase "state/src/lib.rs") = true := by decide +kernel
  have hjoin : join "root" (replaceChar '\\' '/' "state/src/lib.rs") = "root/state/src/lib.rs" := by
    decide +kernel
  have hstub : firstStubMarker sampleSource = none := by decide +kernel
  have hlines : inspectLines "state/src/lib.rs" 1 (lines sampleSource) = .ok [] := by decide +kernel
  simp [inspectRustSource, sampleArtifact, hrust, hjoin, hread, hstub, hlines, Except.mapError,
    bind, Except.bind]

theorem inspectRustSources_sample (roles : List String) (allowCoupleMarkers : Bool) :
    inspectRustSources sampleFs "root" (roles.map sampleArtifact) allowCoupleMarkers = .ok [] := by
  have hfound : (roles.map sampleArtifact).mapM (inspectRustSource sampleFs "root") =
      .ok (roles.map fun _ => []) :=
    mapM_ok roles fun role _ => inspectRustSource_sample role
  rw [inspectRustSources, hfound]
  simp [bind, Except.bind, sortDedup]

theorem validateBlueprint_sample {version : UInt32} (hversion : version ≠ 0) :
    validateBlueprint (sampleBlueprint version) = .ok () := by
  have hone : validateBlueprint (sampleBlueprint 1) = .ok () := by decide +kernel
  have hne : (version == 0) = false := beq_eq_false_iff_ne.mpr hversion
  rw [← hone]
  simp only [validateBlueprint, sampleBlueprint, hne]
  rfl

theorem evaluateCrate_sample (name : String) :
    evaluateCrate sampleFs "root" (sampleCrate name) = .ok [] := by
  have hsources := inspectRustSources_sample ["rust-source"] true
  have hcheck : ∀ command label, requireCommand (sampleCommand command) label = .ok () :=
    fun _ _ => rfl
  simp only [List.map_cons, List.map_nil] at hsources
  simp only [evaluateCrate, sampleCrate, hsources, hcheck, Except.mapError, bind, Except.bind]
  rfl

theorem requiredBlueprint_sample {version : UInt32} (hversion : version ≠ 0) {input : GateInput}
    (hinput : input.blueprint = some (sampleBlueprint version)) :
    requiredBlueprint input = .ok (sampleBlueprint version) := by
  rw [requiredBlueprint, hinput, okOr_some, ok_bind, validateBlueprint_sample hversion]
  rfl

theorem evaluateStep_sample {version : UInt32} (hversion : version ≠ 0) (step : BuildStep) :
    ∃ details, evaluateStep sampleFs "root" (sampleInput version step) = .ok details := by
  have hsources : ∀ input : GateInput,
      sourceArtifacts input = ["rust-source", "rust-source"].map sampleArtifact →
        inspectRustSources sampleFs "root" (sourceArtifacts input) false = .ok [] :=
    fun input h => h ▸ inspectRustSources_sample _ false
  cases step with
  | intake => exact ⟨_, rfl⟩
  | blueprint =>
    simp only [evaluateStep, sampleInput, evaluateBlueprint, okOr_some, ok_bind,
      validateBlueprint_sample hversion]
    exact ⟨_, rfl⟩
  | crateBuild =>
    rw [evaluateStep, sampleInput, evaluateCrateBuild, requiredBlueprint_sample hversion rfl]
    simp only [ok_bind, List.mapM_cons, List.mapM_nil, evaluateCrate_sample]
    exact ⟨_, rfl⟩
  | crateCouple =>
    rw [evaluateStep, sampleInput, evaluateCrateCouple, requiredBlueprint_sample hversion rfl,
      hsources _ rfl]
    exact ⟨_, rfl⟩
  | buildTest =>
    rw [evaluateStep, sampleInput, evaluateBuildTest, requiredBlueprint_sample hversion rfl,
      hsources _ rfl]
    exact ⟨_, rfl⟩
  | launchProof =>
    rw [evaluateStep, sampleInput, evaluateLaunch, requiredBlueprint_sample hversion rfl,
      hsources _ rfl]
    exact ⟨_, rfl⟩

theorem collectArtifacts_sample (version : UInt32) (step : BuildStep) :
    ∀ artifact ∈ (sampleInput version step).collectArtifacts, ∃ role, isBlank role = false ∧
      role.utf8ByteSize ≤ 96 ∧ artifact = sampleArtifact role := by
  have hsample : (sampleInput version step).collectArtifacts =
      ((sampleInput 1 step).collectArtifacts.map (·.role)).map sampleArtifact := by
    cases step <;> rfl
  have hroles : ∀ role ∈ (sampleInput 1 step).collectArtifacts.map (·.role),
      isBlank role = false ∧ role.utf8ByteSize ≤ 96 := by
    cases step <;> decide +kernel
  intro artifact ha
  rw [hsample] at ha
  obtain ⟨role, hrole, rfl⟩ := List.mem_map.mp ha
  exact ⟨role, (hroles role hrole).1, (hroles role hrole).2, rfl⟩

theorem evaluateGate_sampleInput {version : UInt32} (hversion : version ≠ 0) (step : BuildStep)
    (checkedAt : UInt64) : ∃ evidence,
      evaluateGate sampleFs checkedAt (sampleInput version step) = .pass evidence := by
  obtain ⟨details, hstep⟩ := evaluateStep_sample hversion step
  have hroot : (sampleInput version step).evidenceRoot = "root" := by cases step <;> rfl
  exact ⟨_, evaluateGate_sample hroot (collectArtifacts_sample version step) hstep checkedAt⟩

theorem evaluateGate_deferredInput {version : UInt32} (hversion : version ≠ 0)
    (checkedAt : UInt64) : ∃ evidence,
      evaluateGate sampleFs checkedAt (deferredInput version) = .pass evidence := by
  have hsources : inspectRustSources sampleFs "root" (sourceArtifacts (deferredInput version))
      false = .ok [] := inspectRustSources_sample ["rust-source", "rust-source"] false
  have hartifacts : ∀ artifact ∈ (deferredInput version).collectArtifacts, ∃ role,
      isBlank role = false ∧ role.utf8ByteSize ≤ 96 ∧ artifact = sampleArtifact role :=
    collectArtifacts_sample version .crateCouple
  have hstep : ∃ details, evaluateCrateCouple sampleFs "root" (deferredInput version) =
      .ok details := by
    rw [evaluateCrateCouple, requiredBlueprint_sample hversion rfl, hsources]
    exact ⟨_, rfl⟩
  obtain ⟨details, hstep⟩ := hstep
  exact ⟨_, evaluateGate_sample rfl hartifacts hstep checkedAt⟩

end AtomVibe.GateSpec
