import AtomVibe.GateCoverage
import AtomVibe.PhaseOrder

namespace AtomVibe.GateSources

open Transition Checked Text BuildProtocol GateModel SourceInspection GateEvaluation GateSpec
  GateBlueprint BuildPlanner PlannerSteps PlannerInvariant PassingRuns

variable {fs : EvidenceFs} {root : String} {checkedAt : UInt64} {input : GateInput}
  {details : List String} {evidence : BuildGateEvidence} {path : String} {line : ℕ}

def isRust (artifact : BuildArtifactRef) : Bool := endsWith ".rs" (toAsciiLowercase artifact.path)

def inspected (input : GateInput) : List BuildArtifactRef :=
  (sourceArtifacts input).filter isRust

def recordedFor (input : GateInput) (name : String) : List BuildArtifactRef :=
  (input.crates.filter fun item => item.crateName == name).flatMap (·.sourceArtifacts)

def inspectedFor (input : GateInput) (name : String) : List BuildArtifactRef :=
  (recordedFor input name).filter isRust

def Clean (fs : EvidenceFs) (root : String) (artifact : BuildArtifactRef) : Prop :=
  ∃ source, fs.readToString (join root (replaceChar '\\' '/' artifact.path)) = .ok source ∧
    firstStubMarker source = none ∧ ¬"COUPLE:".toList <:+: source.toList

def readsSources (step : BuildStep) : Prop :=
  step = .crateCouple ∨ step = .buildTest ∨ step = .launchProof

structure SourcesInspected (fs : EvidenceFs) (blueprint : BlueprintRecord) (input : GateInput) :
    Prop where
  each : ∀ name ∈ crateNames blueprint, inspectedFor input name ≠ []
  clean : ∀ root, fs.canonicalize input.evidenceRoot = .ok root →
    ∀ artifact ∈ inspected input, Clean fs root artifact

def CarriesSources (blueprint : BlueprintRecord) (input : GateInput) : Prop :=
  ∀ name ∈ blueprint.topologicalOrder, ∃ item ∈ input.crates,
    item.crateName = name ∧ item.sourceArtifacts.any isRust

theorem mem_inspected {artifact : BuildArtifactRef} :
    artifact ∈ inspected input ↔ artifact ∈ sourceArtifacts input ∧ isRust artifact :=
  List.mem_filter

theorem mem_recordedFor {name : String} {artifact : BuildArtifactRef} :
    artifact ∈ recordedFor input name ↔
      ∃ item ∈ input.crates, item.crateName = name ∧ artifact ∈ item.sourceArtifacts := by
  simp only [recordedFor, List.mem_flatMap, List.mem_filter, beq_iff_eq, and_assoc]

theorem mem_inspectedFor {name : String} {artifact : BuildArtifactRef} :
    artifact ∈ inspectedFor input name ↔ artifact ∈ recordedFor input name ∧ isRust artifact :=
  List.mem_filter

theorem inspectedFor_ne_nil {name : String} : inspectedFor input name ≠ [] ↔
    ∃ item ∈ input.crates, item.crateName = name ∧ item.sourceArtifacts.any isRust := by
  rw [ne_eq, List.eq_nil_iff_forall_not_mem, not_forall_not]
  simp only [mem_inspectedFor, mem_recordedFor, List.any_eq_true]
  constructor
  · rintro ⟨artifact, ⟨item, hitem, hname, hartifact⟩, hrust⟩
    exact ⟨item, hitem, hname, artifact, hartifact, hrust⟩
  · rintro ⟨item, hitem, hname, artifact, hartifact, hrust⟩
    exact ⟨artifact, ⟨item, hitem, hname, hartifact⟩, hrust⟩

structure EligibleAllow (raw names : List Char) : Prop where
  lints : ∀ name ∈ splitOn ',' names, name = "dead_code".toList ∨ name = "unused".toList
  marker : ∃ found, splitSecond "// COUPLE:".toList raw = some found ∧
    trim (String.ofList found) ≠ ""

theorem eq_of_not_any {names : List (List Char)} {a b : List Char}
    (h : ¬(names.any fun name => name != a && name != b) = true) :
    ∀ name ∈ names, name = a ∨ name = b := by
  simpa [List.any_eq_true, or_iff_not_imp_left] using h

theorem inspectLine_ok {raw : List Char} {marker : Option String}
    (h : inspectLine path line raw = .ok marker) :
    ¬"#![allow(".toList <:+: compact raw ∧
      ((findSub "#[allow(".toList (compact raw) = none ∧ ¬"COUPLE:".toList <:+: raw ∧
          marker = none) ∨
        ∃ front rest names after, findSub "#[allow(".toList (compact raw) = some (front, rest) ∧
          findSub ")]".toList rest = some (names, after) ∧ EligibleAllow raw names ∧
            marker.isSome) := by
  simp only [← contains_iff_infix]
  rw [inspectLine] at h
  by_cases hinner : Text.contains "#![allow(".toList (compact raw) = true
  · rw [if_pos hinner] at h
    cases h
  rw [if_neg hinner] at h
  refine ⟨hinner, ?_⟩
  cases hfirst : findSub "#[allow(".toList (compact raw) with
  | none =>
    rw [hfirst] at h
    dsimp only at h
    by_cases hcouple : Text.contains "COUPLE:".toList raw = true
    · rw [if_pos hcouple] at h
      cases h
    · rw [if_neg hcouple] at h
      exact .inl ⟨rfl, hcouple, (Except.ok.inj h).symm⟩
  | some found =>
    obtain ⟨front, rest⟩ := found
    rw [hfirst] at h
    dsimp only at h
    cases hend : findSub ")]".toList rest with
    | none =>
      rw [hend] at h
      cases h
    | some closed =>
      obtain ⟨names, after⟩ := closed
      rw [hend] at h
      dsimp only at h
      split at h
      · cases h
      rename_i hnames
      cases hmarker : splitSecond "// COUPLE:".toList raw with
      | none =>
        rw [hmarker] at h
        cases h
      | some consumer =>
        rw [hmarker] at h
        dsimp only at h
        split at h
        · cases h
        rename_i hblank
        refine .inr ⟨front, rest, names, after, rfl, hend,
          ⟨eq_of_not_any hnames, consumer, hmarker, hblank⟩, ?_⟩
        rw [← Except.ok.inj h]
        rfl

theorem inspectLine_none {raw : List Char} (h : inspectLine path line raw = .ok none) :
    ¬"COUPLE:".toList <:+: raw := by
  obtain ⟨-, ⟨-, hcouple, -⟩ | ⟨_, _, _, _, -, -, -, hsome⟩⟩ := inspectLine_ok h
  · exact hcouple
  · cases hsome

theorem inspectLines_nil {raws : List (List Char)} (h : inspectLines path line raws = .ok []) :
    ∀ raw ∈ raws, ∃ number, inspectLine path number raw = .ok none := by
  induction raws generalizing line with
  | nil => simp
  | cons raw raws ih =>
    simp only [inspectLines, bind_eq_ok, pure_eq_ok, List.append_eq_nil_iff,
      Option.toList_eq_nil_iff] at h
    obtain ⟨marker, hmarker, markers, hmarkers, rfl, rfl⟩ := h
    exact List.forall_mem_cons.mpr ⟨⟨line, hmarker⟩, ih hmarkers⟩

theorem clean_of_inspectRustSource {artifact : BuildArtifactRef} (hrust : isRust artifact)
    (h : inspectRustSource fs root artifact = .ok []) : Clean fs root artifact := by
  unfold isRust at hrust
  simp only [inspectRustSource, hrust, Bool.not_true, Bool.false_eq_true, if_false, bind_eq_ok,
    mapError_eq_ok] at h
  obtain ⟨source, hread, hlines⟩ := h
  split at hlines
  · cases hlines
  · rename_i hstub
    refine ⟨source, hread, hstub, fun hcouple => ?_⟩
    obtain ⟨raw, hraw, hin⟩ :=
      @exists_line_within [] _ _ (by decide) (by decide) (by decide) hcouple
    obtain ⟨number, hnone⟩ := inspectLines_nil hlines raw hraw
    exact inspectLine_none hnone hin

theorem mem_sortDedup {x : String} {values : List String} : x ∈ sortDedup values ↔ x ∈ values := by
  rw [sortDedup, mem_destutter_ne, List.mem_insertionSort]

theorem clean_of_inspect {artifacts : List BuildArtifactRef} {markers : List String}
    (h : inspectRustSources fs root artifacts false = .ok markers) :
    ∀ artifact ∈ artifacts, isRust artifact → Clean fs root artifact := by
  rw [inspectRustSources, bind_eq_ok] at h
  obtain ⟨found, hfound, hmarkers⟩ := h
  have hempty : found.flatten = [] := by
    apply List.eq_nil_iff_forall_not_mem.mpr
    intro marker hmarker
    have hmem := mem_sortDedup.mpr hmarker
    dsimp only at hmarkers
    split at hmarkers
    · cases hmarkers
    · rename_i hnil
      rw [hnil] at hmem
      cases hmem
  rw [mapM_eq_ok_iff] at hfound
  clear hmarkers
  induction hfound with
  | nil => simp
  | @cons artifact ys artifacts found hread _ ih =>
    rw [List.flatten_cons, List.append_eq_nil_iff] at hempty
    obtain ⟨rfl, hrest⟩ := hempty
    exact List.forall_mem_cons.mpr
      ⟨fun hrust => clean_of_inspectRustSource hrust hread, ih hrest⟩

theorem inspects_of_step (hstep : readsSources input.step)
    (h : evaluateStep fs root input = .ok details) :
    ∃ blueprint, input.blueprint = some blueprint ∧ Frozen blueprint ∧
      ∃ markers, inspectRustSources fs root (sourceArtifacts input) false = .ok markers := by
  unfold evaluateStep at h
  rcases hstep with hs | hs | hs
  all_goals
    simp only [hs, evaluateCrateCouple, evaluateBuildTest, evaluateLaunch, bind_eq_ok,
      mapError_eq_ok] at h
    obtain ⟨blueprint, hb, -, -, markers, hmarkers, -⟩ := h
    exact ⟨blueprint, requiredBlueprint_ok hb, frozen_of_required blueprint hb, markers, hmarkers⟩

theorem inspected_of_pass (hstep : readsSources input.step)
    (h : evaluateGate fs checkedAt input = .pass evidence) :
    ∃ blueprint, input.blueprint = some blueprint ∧ Frozen blueprint ∧
      ∀ root, fs.canonicalize input.evidenceRoot = .ok root →
        ∀ artifact ∈ inspected input, Clean fs root artifact := by
  obtain ⟨root, details, hverified, hok, -⟩ := evaluateGate_pass.mp h
  obtain ⟨blueprint, hb, hfrozen, markers, hmarkers⟩ := inspects_of_step hstep hok
  refine ⟨blueprint, hb, hfrozen, fun root' hroot artifact ha => ?_⟩
  obtain rfl : root = root' :=
    Except.ok.inj ((verifyArtifacts_eq_ok.mp hverified).2.1.symm.trans hroot)
  obtain ⟨hmem, hrust⟩ := mem_inspected.mp ha
  exact clean_of_inspect hmarkers artifact hmem hrust

theorem sourcesInspected_iff (hstep : readsSources input.step)
    (h : evaluateGate fs checkedAt input = .pass evidence) :
    ∃ blueprint, input.blueprint = some blueprint ∧
      (SourcesInspected fs blueprint input ↔ CarriesSources blueprint input) := by
  obtain ⟨blueprint, hb, hfrozen, hclean⟩ := inspected_of_pass hstep h
  refine ⟨blueprint, hb, fun hinspected name hname => ?_, fun hcarries => ⟨fun name hname => ?_,
    hclean⟩⟩
  · exact inspectedFor_ne_nil.mp (hinspected.each name (hfrozen.order.mem_iff.mp hname))
  · exact inspectedFor_ne_nil.mpr (hcarries name (hfrozen.order.mem_iff.mpr hname))

def KeepsAccepted (blueprint : BlueprintRecord) (built later : GateInput) : Prop :=
  ∀ name ∈ crateNames blueprint, ∀ artifact ∈ recordedFor built name,
    artifact ∈ inspectedFor later name

def CarriesAccepted (blueprint : BlueprintRecord) (built later : GateInput) : Prop :=
  ∀ name ∈ blueprint.topologicalOrder, ∀ item ∈ built.crates, item.crateName = name →
    ∀ artifact ∈ item.sourceArtifacts, isRust artifact ∧ artifact ∈ recordedFor later name

theorem keepsAccepted_iff {blueprint : BlueprintRecord} (hfrozen : Frozen blueprint)
    {built later : GateInput} :
    KeepsAccepted blueprint built later ↔ CarriesAccepted blueprint built later := by
  have hmem : ∀ name, name ∈ blueprint.topologicalOrder ↔ name ∈ crateNames blueprint :=
    fun name => hfrozen.order.mem_iff
  simp only [KeepsAccepted, CarriesAccepted, hmem, mem_inspectedFor]
  constructor
  · intro h name hname item hitem hitemName artifact hartifact
    exact (h name hname artifact (mem_recordedFor.mpr ⟨item, hitem, hitemName, hartifact⟩)).symm
  · intro h name hname artifact hartifact
    obtain ⟨item, hitem, hitemName, ha⟩ := mem_recordedFor.mp hartifact
    exact (h name hname item hitem hitemName artifact ha).symm

def BuiltBy (past : List Evaluation) (built : Evaluation) : Prop :=
  built ∈ past ∧ passes built = true ∧ built.input.input.step = .crateBuild

def Reinspected (past : List Evaluation) (later : Evaluation) : Prop :=
  ∃ blueprint, later.input.input.blueprint = some blueprint ∧
    SourcesInspected later.input.fs blueprint later.input.input ∧
    (∃ built, BuiltBy past built) ∧
    ∀ built, BuiltBy past built → KeepsAccepted blueprint built.input.input later.input.input

def Recarried (past : List Evaluation) (later : Evaluation) : Prop :=
  ∃ blueprint, later.input.input.blueprint = some blueprint ∧
    CarriesSources blueprint later.input.input ∧
    ∀ built, BuiltBy past built → CarriesAccepted blueprint built.input.input later.input.input

theorem passedInOrder_run {projectId : String} {autonomousCorrection : Bool}
    {retryLimit : UInt8} {now : UInt64} {pid : UInt32} {sequence : UInt64}
    {start : PlannerModel.BuildLedger}
    (h : new projectId autonomousCorrection retryLimit now pid sequence = .ok start)
    (calls : List Call) :
    PassedInOrder (trace evaluateAndHandle start calls) (final evaluateAndHandle start calls) :=
  run_induction PassedInOrder (passedInOrder_of_new h)
    (fun _ _ call hordered => passedInOrder_step hordered call) calls

theorem exists_builtBy {past : List Evaluation} {ledger : PlannerModel.BuildLedger}
    (h : PassedInOrder past ledger) {later : Evaluation} (hmem : later ∈ past)
    (hpasses : passes later = true) (hstep : readsSources later.input.input.step) :
    ∃ built, BuiltBy past built := by
  have hat := (List.getElem?_eq_some_iff.mp (h.input_at hmem hpasses)).1
  have hlate : 3 ≤ later.input.input.step.ordinal.toNat - 1 := by
    rcases hstep with hs | hs | hs <;> rw [hs] <;> decide
  obtain ⟨built, hbuilt, hp, -, hs⟩ := h.exists_at (n := 2) (by omega)
  exact ⟨built, hbuilt, hp, (Option.some.inj hs).symm⟩

theorem reinspected_iff {past : List Evaluation} {ledger : PlannerModel.BuildLedger}
    (h : PassedInOrder past ledger) {later : Evaluation} (hmem : later ∈ past)
    (hpasses : passes later = true) (hstep : readsSources later.input.input.step) :
    Reinspected past later ↔ Recarried past later := by
  obtain ⟨-, evidence, hpass⟩ := passes_iff.mp hpasses
  obtain ⟨blueprint, hb, hfrozen, -⟩ := inspected_of_pass hstep hpass
  obtain ⟨same, hsame, hsources⟩ := sourcesInspected_iff hstep hpass
  obtain rfl : same = blueprint := Option.some.inj (hsame.symm.trans hb)
  have hbuilt := exists_builtBy h hmem hpasses hstep
  constructor
  · rintro ⟨own, hown, hinspected, -, hkeeps⟩
    obtain rfl : own = same := Option.some.inj (hown.symm.trans hb)
    exact ⟨own, hb, hsources.mp hinspected,
      fun built hby => (keepsAccepted_iff hfrozen).mp (hkeeps built hby)⟩
  · rintro ⟨own, hown, hcarries, haccepted⟩
    obtain rfl : own = same := Option.some.inj (hown.symm.trans hb)
    exact ⟨own, hb, hsources.mpr hcarries, hbuilt,
      fun built hby => (keepsAccepted_iff hfrozen).mpr (haccepted built hby)⟩

/-- A passing gate past the crate build has read clean sources of every crate exactly when its
input lists them; in a run, they are those accepted at the crate build exactly when the input
lists these again. -/
theorem sources_inspected_iff {projectId : String} {autonomousCorrection : Bool}
    {retryLimit : UInt8} {now : UInt64} {pid : UInt32} {sequence : UInt64}
    {start : PlannerModel.BuildLedger}
    (h : new projectId autonomousCorrection retryLimit now pid sequence = .ok start)
    (calls : List Call) :
    (∀ fs checkedAt input evidence, readsSources input.step →
      evaluateGate fs checkedAt input = .pass evidence →
        ∃ blueprint, input.blueprint = some blueprint ∧
          (SourcesInspected fs blueprint input ↔ CarriesSources blueprint input)) ∧
      ∀ later ∈ trace evaluateAndHandle start calls, passes later = true →
        readsSources later.input.input.step →
          (Reinspected (trace evaluateAndHandle start calls) later ↔
            Recarried (trace evaluateAndHandle start calls) later) :=
  ⟨fun _ _ _ _ hstep hpass => sourcesInspected_iff hstep hpass,
    fun _ hmem hpasses hstep => reinspected_iff (passedInOrder_run h calls) hmem hpasses hstep⟩

theorem sources_inspected_iff_demo :
    (∀ fs checkedAt input evidence, readsSources input.step →
      evaluateGate fs checkedAt input = .pass evidence →
        ∃ blueprint, input.blueprint = some blueprint ∧
          (SourcesInspected fs blueprint input ↔ CarriesSources blueprint input)) ∧
      ∀ later ∈ trace evaluateAndHandle demoLedger (BuildStep.all.map passingCall),
        passes later = true → readsSources later.input.input.step →
          (Reinspected (trace evaluateAndHandle demoLedger (BuildStep.all.map passingCall)) later ↔
            Recarried (trace evaluateAndHandle demoLedger (BuildStep.all.map passingCall)) later) :=
  sources_inspected_iff new_demoLedger _

def uninspectedInput : GateInput := { sampleInput 1 .crateCouple with crates := [] }

theorem coupling_passes_uninspected :
    (∃ evidence, evaluateGate sampleFs 0 uninspectedInput = .pass evidence) ∧
      uninspectedInput.blueprint = some (sampleBlueprint 1) ∧
        ¬SourcesInspected sampleFs (sampleBlueprint 1) uninspectedInput := by
  have hartifacts : ∀ artifact ∈ uninspectedInput.collectArtifacts, ∃ role,
      isBlank role = false ∧ role.utf8ByteSize ≤ 96 ∧ artifact = sampleArtifact role := by
    intro artifact ha
    apply collectArtifacts_sample 1 .crateCouple artifact
    have hcollected : (sampleInput 1 .crateCouple).collectArtifacts =
        uninspectedInput.collectArtifacts.take 4 ++
          (sampleInput 1 .crateCouple).crates.flatMap (·.artifacts) ++
            uninspectedInput.collectArtifacts.drop 4 := rfl
    rw [hcollected, List.mem_append, List.mem_append]
    rw [← List.take_append_drop 4 uninspectedInput.collectArtifacts, List.mem_append] at ha
    exact ha.imp_left .inl
  have hstep : ∃ details, evaluateCrateCouple sampleFs "root" uninspectedInput = .ok details := by
    rw [evaluateCrateCouple, requiredBlueprint_sample (show (1 : UInt32) ≠ 0 by decide) rfl]
    exact ⟨_, rfl⟩
  obtain ⟨details, hstep⟩ := hstep
  refine ⟨⟨_, evaluateGate_sample rfl hartifacts hstep 0⟩, rfl, fun h => ?_⟩
  exact h.each "state" (by decide) rfl

end AtomVibe.GateSources
