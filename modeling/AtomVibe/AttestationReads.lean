import AtomVibe.Attestation

namespace AtomVibe.AttestationReads

open Checked Text Hash Json JsonText JsonRoundTrip JsonCodec Attestation

section RoundTrip

variable {attestation : HarnessAttestation}

def restated (attestation : HarnessAttestation) : HarnessAttestation :=
  { attestation with
    harnessId := sanitize attestation.harnessId
    gate := sanitize attestation.gate
    workPlanId := sanitize attestation.workPlanId
    providerModel := sanitize attestation.providerModel
    artifactPath := sanitize attestation.artifactPath
    artifactHash := sanitize attestation.artifactHash
    executablePath := sanitize attestation.executablePath
    executableHash := sanitize attestation.executableHash
    workingDirectory := sanitize attestation.workingDirectory
    command := sanitize attestation.command
    artifactEnv := sanitize attestation.artifactEnv
    expectedStdoutHash := sanitize attestation.expectedStdoutHash
    actualStdoutHash := sanitize attestation.actualStdoutHash
    stderrHash := sanitize attestation.stderrHash
    assertions := attestation.assertions.map sanitize }

def numbered (schema : UInt64) (attestation : HarnessAttestation) : JsonValue :=
  .object (("schema_version", numberDoc schema.toNat) ::
    (attestation.document.asObject.getD []).tail)

theorem fits_numbered (schema : UInt64) (hexit : attestation.exitCode = 0) :
    Fits (maxDepth + 1) (numbered schema attestation) := by
  have hzero : Fits maxDepth (.number attestation.exitCode.toInt.repr) := ⟨0, by rw [hexit]; rfl⟩
  apply fits_object
  · simp only [HarnessAttestation.document, JsonValue.asObject, Option.getD_some, List.tail_cons,
      List.map]
    exact ⟨by decide, by decide⟩
  · simp only [HarnessAttestation.document, JsonValue.asObject, Option.getD_some, List.tail_cons,
      List.forall_mem_cons, List.not_mem_nil, false_imp_iff, implies_true, and_true]
    exact ⟨fits_numberDoc _ _, trivial, fits_numberDoc _ _, trivial, trivial, trivial, trivial,
      trivial, trivial, trivial, trivial, trivial, trivial, hzero, trivial, trivial, trivial,
      fits_stringArrayDoc _ _⟩

theorem fromJson_numbered (schema : UInt64) (hexit : attestation.exitCode = 0) :
    fromJson (render (numbered schema attestation)) =
      .ok (restated { attestation with schemaVersion := schema.toUInt32 }) := by
  have hs : ∀ key value, (numbered schema attestation).get key = some (.string value) →
      string (clean (numbered schema attestation)) key = .ok (sanitize value) := by
    intro key value h
    rw [string, get_clean h, clean]
    rfl
  have hn : ∀ key (n : UInt64), (numbered schema attestation).get key = some (numberDoc n.toNat) →
      number (clean (numbered schema attestation)) key = .ok n := by
    intro key n h
    rw [number, get_clean h, clean_numberDoc, Option.bind_some, asU64_numberDoc, okOr_some]
  have hcode : ((clean (numbered schema attestation)).get "exit_code").bind JsonValue.asU64 =
      some 0 := by
    have hget : (numbered schema attestation).get "exit_code" =
        some (numberDoc (0 : UInt64).toNat) := by
      rw [numbered, HarnessAttestation.document, hexit]
      rfl
    rw [get_clean hget, clean_numberDoc, Option.bind_some, asU64_numberDoc]
  have hassertions : strings (clean (numbered schema attestation)) "assertions" =
      .ok (attestation.assertions.map sanitize) := by
    have hget : (numbered schema attestation).get "assertions" =
        some (stringArrayDoc attestation.assertions) := rfl
    rw [strings, get_clean hget]
    simp only [stringArrayDoc, clean, Option.bind_some, JsonValue.asArray, okOr_some, ok_bind,
      List.map_map]
    exact mapM_ok _ fun value _ => by simp [clean, JsonValue.asStr]
  have hobject : (clean (numbered schema attestation)).asObject = some
      ((numbered schema attestation).asObject.elim [] fun fields =>
        fields.map fun field => (field.1, clean field.2)) := by
    rw [numbered, HarnessAttestation.document, clean]
    rfl
  rw [fromJson, parse_render (fits_numbered schema hexit)]
  simp only [Except.mapError, ok_bind, hobject, okOr_some]
  rw [(refuseIf_eq_ok (u := ())).mpr, ok_bind, readFields, hn "schema_version" schema rfl,
    hs "harness_id" _ rfl, hn "timestamp_ms" _ rfl, hs "gate" _ rfl, hs "work_plan_id" _ rfl,
    hs "provider_model" _ rfl, hs "artifact_path" _ rfl, hs "artifact_hash" _ rfl,
    hs "executable_path" _ rfl, hs "executable_hash" _ rfl, hs "working_directory" _ rfl,
    hs "command" _ rfl, hs "artifact_env" _ rfl, hcode, hs "expected_stdout_hash" _ rfl,
    hs "actual_stdout_hash" _ rfl, hs "stderr_hash" _ rfl, hassertions]
  · simp [ok_bind, restated, pure, Except.pure, hexit, tryI32]
  · simp only [numbered, HarnessAttestation.document, JsonValue.asObject, Option.getD_some,
      List.tail_cons, Option.elim_some, List.map_cons, List.map_nil, List.forall_mem_cons]
    decide

theorem fromJson_toJson (hexit : attestation.exitCode = 0) :
    fromJson attestation.toJson = .ok (restated attestation) := by
  have hsame := fromJson_numbered attestation.schemaVersion.toUInt64 hexit
  rw [UInt32.toUInt32_toUInt64] at hsame
  exact hsame

theorem lossless_of_allowlisted {value : String} (h : allowlistedHarness value = true) :
    Lossless value := by
  have hall : ∀ id ∈ ["rust-console-exact-v1", "native-pmre-functional-v1",
      "design-upload-functional-v1", "provider-transport-functional-v1",
      "self-learning-restart-v1"], Lossless id := by decide +kernel
  exact hall value (by simpa [allowlistedHarness] using h)

theorem lossless_expectedArtifactEnv (harnessId : String) :
    Lossless ((expectedArtifactEnv harnessId).getD "") := by
  unfold expectedArtifactEnv
  split_ifs <;> decide +kernel

theorem exitCode_of_validate (h : attestation.validate = .ok ()) : attestation.exitCode = 0 := by
  rw [HarnessAttestation.validate, refuseIf_eq_ok] at h
  simp only [not_or, not_not] at h
  exact h.2.2.2.2.2.2.2.2.1

def freeTexts (attestation : HarnessAttestation) : List String :=
  [attestation.gate, attestation.workPlanId, attestation.providerModel, attestation.artifactPath,
    attestation.executablePath, attestation.workingDirectory]

theorem restated_eq_iff (h : attestation.validate = .ok ()) :
    restated attestation = attestation ↔ ∀ text ∈ freeTexts attestation, Lossless text := by
  rw [HarnessAttestation.validate, refuseIf_eq_ok] at h
  simp only [not_or, not_not, Bool.not_eq_false, HarnessAttestation.hashes] at h
  obtain ⟨-, hharness, -, -, -, -, hcommand, henv, -, -, hassertions, hhashes⟩ := h
  have htag : ∀ hash ∈ [attestation.artifactHash, attestation.executableHash,
      attestation.expectedStdoutHash, attestation.actualStdoutHash, attestation.stderrHash],
      sanitize hash = hash := by
    intro hash hmem
    apply (sanitize_eq_self_iff hash).mpr
    apply lossless_of_validSha256Tag
    by_contra hbad
    apply hhashes
    exact List.any_eq_true.mpr ⟨hash, hmem, by simpa using hbad⟩
  simp only [List.forall_mem_cons, List.not_mem_nil, false_imp_iff, implies_true, and_true] at htag
  obtain ⟨h1, h2, h3, h4, h5⟩ := htag
  have hid := (sanitize_eq_self_iff _).mpr (lossless_of_allowlisted hharness)
  have henv' := (sanitize_eq_self_iff _).mpr (lossless_expectedArtifactEnv attestation.harnessId)
  rw [← henv] at henv'
  have hfixed : attestation.assertions.map sanitize = attestation.assertions := by
    rw [hassertions]
    decide +kernel
  cases attestation with
  | mk _ _ _ _ _ _ _ _ _ _ _ command =>
    simp only at hcommand hid henv' h1 h2 h3 h4 h5 hfixed
    subst hcommand
    simp only [restated, freeTexts, HarnessAttestation.mk.injEq, hid, henv', h1, h2, h3, h4, h5,
      hfixed, true_and, and_true, List.forall_mem_cons, List.not_mem_nil, false_imp_iff,
      implies_true, sanitize_eq_self_iff]
    tauto

end RoundTrip

section Run

variable {spec : HarnessRunSpec} {machine : Machine} {attestation : HarnessAttestation}

structure Attested (spec : HarnessRunSpec) (machine : Machine) (attestation : HarnessAttestation)
    (executable workingDirectory artifact : OsPath) : Prop where
  foundExecutable : machine.start.canonicalize spec.executablePath = .ok executable
  foundDirectory : machine.start.canonicalize spec.workingDirectory = .ok workingDirectory
  foundArtifact : machine.ended.canonicalize spec.artifactPath = .ok artifact
  artifactHash : sha256File machine.ended artifact = .ok attestation.artifactHash
  executableHash : sha256File machine.ended executable = .ok attestation.executableHash
  valid : attestation.validate = .ok ()
  named : attestation.gate = spec.gate ∧ attestation.workPlanId = spec.workPlanId ∧
    attestation.providerModel = spec.providerModel
  placed : attestation.artifactPath = toStringLossy artifact ∧
    attestation.executablePath = toStringLossy executable ∧
    attestation.workingDirectory = toStringLossy workingDirectory

theorem attest_eq_ok (h : attest spec machine = .ok attestation) :
    ∃ executable workingDirectory artifact,
      Attested spec machine attestation executable workingDirectory artifact := by
  simp only [attest, bind_eq_ok, mapError_eq_ok] at h
  obtain ⟨-, -, -, -, executable, hexecutable, workingDirectory, hdirectory, -, -, ended, -, h⟩ := h
  cases ended with
  | waitFailed reason => exact absurd h (by simp)
  | timedOut => exact absurd h (by simp)
  | exited code stdout stderr =>
    simp only [bind_eq_ok, mapError_eq_ok, pure_eq_ok] at h
    obtain ⟨_, -, _, -, _, -, -, -, artifact, hartifact, _, hhash, _, hexecutableHash, _, hvalid,
      rfl⟩ := h
    exact ⟨executable, workingDirectory, artifact, hexecutable, hdirectory, hartifact, hhash,
      hexecutableHash, hvalid, ⟨rfl, rfl, rfl⟩, rfl, rfl, rfl⟩

theorem runHarness_eq_ok {written : WrittenAttestation} {after : Disk}
    (h : runHarness spec machine = .ok (written, after)) :
    ∃ attestation, attest spec machine = .ok attestation ∧
      after.read spec.attestationPath = .ok (asBytes attestation.toJson) ∧
      after.canonicalize spec.attestationPath = .ok written.path ∧
      written.hash = sha256Tagged (asBytes attestation.toJson) := by
  simp only [runHarness, writeImmutable, bind_eq_ok, mapError_eq_ok, pure_eq_ok, refuseIf_eq_ok,
    not_not] at h
  obtain ⟨attestation, hattest, _, ⟨-, -, -, -, disk, -, readback, hread, -, rfl, rfl⟩, path, hpath,
    hash, hhash, hwritten⟩ := h
  obtain ⟨rfl, rfl⟩ := Prod.mk.inj hwritten
  refine ⟨attestation, hattest, hread, hpath, ?_⟩
  rw [sha256File, hread] at hhash
  exact (Except.ok.inj hhash).symm

structure Unchanged (spec : HarnessRunSpec) (machine : Machine) (after later : Disk) : Prop where
  attestation : ∀ path, after.canonicalize spec.attestationPath = .ok path →
    later.canonicalize path = .ok path ∧ later.read path = after.read spec.attestationPath
  artifact : ∀ path, machine.ended.canonicalize spec.artifactPath = .ok path →
    later.canonicalize spec.artifactPath = .ok path ∧ later.canonicalize path = .ok path ∧
      later.read path = machine.ended.read path
  executable : ∀ path, machine.start.canonicalize spec.executablePath = .ok path →
    later.read path = machine.ended.read path

def expectationOf (spec : HarnessRunSpec) : HarnessExpectation :=
  ⟨spec.gate, spec.workPlanId, spec.providerModel, toStringLossy spec.artifactPath⟩

/-- The texts of the attestation are what they were once they are read back, and the texts of the
paths still lead to the same files. -/
structure Restatable (spec : HarnessRunSpec) (machine : Machine) (later : Disk) : Prop where
  named : ∀ text ∈ [spec.gate, spec.workPlanId, spec.providerModel], Lossless text
  workingDirectory : ∀ path, machine.start.canonicalize spec.workingDirectory = .ok path →
    Lossless (toStringLossy path)
  executable : ∀ path, machine.start.canonicalize spec.executablePath = .ok path →
    Lossless (toStringLossy path) ∧
      sha256File later (asBytes (toStringLossy path)) = sha256File machine.ended path
  artifact : ∀ path, machine.ended.canonicalize spec.artifactPath = .ok path →
    Lossless (toStringLossy path) ∧ ∃ found,
      later.canonicalize (asBytes (toStringLossy spec.artifactPath)) = .ok found ∧
      later.canonicalize (asBytes (toStringLossy path)) = .ok found ∧
      sha256File later found = sha256File machine.ended path

theorem readToString_of_read {disk : Disk} {path : OsPath} {text : String}
    (h : disk.read path = .ok (asBytes text)) : readToString disk path = .ok text := by
  rw [readToString, h]
  simp only [Except.mapError, ok_bind, fromUtf8, asBytes, Array.toArray_toList]
  rw [okOr_eq_ok]
  exact fromUTF8?_toByteArray text

theorem compareLive_eq_ok {disk : Disk} {expectation : HarnessExpectation}
    {attestedArtifact expectedArtifact : OsPath} :
    compareLive disk attestation expectation attestedArtifact expectedArtifact = .ok () ↔
      attestation.gate = expectation.gate ∧ attestation.workPlanId = expectation.workPlanId ∧
      attestation.providerModel = expectation.providerModel ∧
      attestedArtifact = expectedArtifact ∧
      sha256File disk attestedArtifact = .ok attestation.artifactHash ∧
      sha256File disk (asBytes attestation.executablePath) = .ok attestation.executableHash := by
  simp only [compareLive, bind_eq_ok, refuseIf_eq_ok, not_or, not_not]
  constructor
  · rintro ⟨_, ⟨hgate, hplan, hmodel, hsame⟩, _, hartifact, _, rfl, _, hexecutable, rfl⟩
    exact ⟨hgate, hplan, hmodel, hsame, hartifact, hexecutable⟩
  · rintro ⟨hgate, hplan, hmodel, hsame, hartifact, hexecutable⟩
    exact ⟨(), ⟨hgate, hplan, hmodel, hsame⟩, _, hartifact, (), rfl, _, hexecutable, rfl⟩

theorem verify_written {written : WrittenAttestation} {after later : Disk}
    (hattest : attest spec machine = .ok attestation)
    (hread : after.read spec.attestationPath = .ok (asBytes attestation.toJson))
    (hpath : after.canonicalize spec.attestationPath = .ok written.path)
    (hhash : written.hash = sha256Tagged (asBytes attestation.toJson))
    (hlater : Unchanged spec machine after later) :
    verifyHarnessAttestation later written.path written.hash (expectationOf spec) =
        .ok attestation ↔ Restatable spec machine later := by
  obtain ⟨executable, workingDirectory, artifact, hattested⟩ := attest_eq_ok hattest
  obtain ⟨hstays, hsame⟩ := hlater.attestation _ hpath
  rw [hread] at hsame
  have hexit := exitCode_of_validate hattested.valid
  have htext := readToString_of_read hsame
  have hverify : verifyHarnessAttestation later written.path written.hash (expectationOf spec) =
      (do
        (restated attestation).validate
        let expectedArtifact ← (later.canonicalize
          (asBytes (toStringLossy spec.artifactPath))).mapError AttestationError.io
        let attestedArtifact ← (later.canonicalize
          (asBytes (sanitize attestation.artifactPath))).mapError AttestationError.io
        compareLive later (restated attestation) (expectationOf spec) attestedArtifact
          expectedArtifact
        return restated attestation) := by
    have hhashed : sha256File later written.path = .ok written.hash := by
      rw [sha256File, hsame, hhash]
      rfl
    have hvalid : validSha256Tag written.hash ≠ false := by
      rw [hhash, validSha256Tag_sha256Tagged]
      decide
    rw [verifyHarnessAttestation, (refuseIf_eq_ok (u := ())).mpr hvalid, ok_bind, hstays]
    simp only [Except.mapError, ok_bind, hhashed]
    rw [(refuseIf_eq_ok (u := ())).mpr (not_not.mpr rfl), ok_bind, htext, ok_bind,
      fromJson_toJson hexit, ok_bind]
    rfl
  obtain ⟨hgate, hplan, hmodel⟩ := hattested.named
  obtain ⟨hartifact, hexecutable, hdirectory⟩ := hattested.placed
  rw [hverify]
  simp only [bind_eq_ok, mapError_eq_ok, pure_eq_ok]
  constructor
  · rintro ⟨_, -, expected, hexpected, attested, hattestedPath, _, hcompare, hrestated⟩
    have hclean := (restated_eq_iff hattested.valid).mp hrestated
    simp only [freeTexts, List.forall_mem_cons, hgate, hplan, hmodel, hartifact, hexecutable,
      hdirectory] at hclean
    obtain ⟨hgate', hplan', hmodel', hartifact', hexecutable', hdirectory', -⟩ := hclean
    rw [hrestated] at hcompare
    obtain ⟨-, -, -, rfl, hartifactHash, hexecutableHash⟩ := compareLive_eq_ok.mp hcompare
    rw [hartifact, (sanitize_eq_self_iff _).mpr hartifact'] at hattestedPath
    rw [hexecutable] at hexecutableHash
    constructor
    · simp only [List.forall_mem_cons, List.not_mem_nil, false_imp_iff, implies_true, and_true]
      exact ⟨hgate', hplan', hmodel'⟩
    · intro path hfound
      obtain rfl := Except.ok.inj (hattested.foundDirectory.symm.trans hfound)
      exact hdirectory'
    · intro path hfound
      obtain rfl := Except.ok.inj (hattested.foundExecutable.symm.trans hfound)
      exact ⟨hexecutable', hexecutableHash.trans hattested.executableHash.symm⟩
    · intro path hfound
      obtain rfl := Except.ok.inj (hattested.foundArtifact.symm.trans hfound)
      exact ⟨hartifact', attested, hexpected, hattestedPath,
        hartifactHash.trans hattested.artifactHash.symm⟩
  · rintro ⟨hnamed, hplaced, hlive, hartifactLive⟩
    obtain ⟨hartifact', found, hexpected, hattestedPath, hartifactHash⟩ :=
      hartifactLive _ hattested.foundArtifact
    obtain ⟨hexecutable', hexecutableHash⟩ := hlive _ hattested.foundExecutable
    have hdirectory' := hplaced _ hattested.foundDirectory
    simp only [List.forall_mem_cons] at hnamed
    have hrestated : restated attestation = attestation := by
      apply (restated_eq_iff hattested.valid).mpr
      simp only [freeTexts, List.forall_mem_cons, hgate, hplan, hmodel, hartifact, hexecutable,
        hdirectory]
      exact ⟨hnamed.1, hnamed.2.1, hnamed.2.2.1, hartifact', hexecutable', hdirectory', by simp⟩
    refine ⟨(), ?_, found, hexpected, found, ?_, (), ?_, hrestated⟩
    · rw [hrestated]
      exact hattested.valid
    · rw [hartifact, (sanitize_eq_self_iff _).mpr hartifact']
      exact hattestedPath
    · rw [hrestated]
      apply compareLive_eq_ok.mpr
      refine ⟨hgate, hplan, hmodel, rfl, ?_, ?_⟩
      · exact hartifactHash.trans hattested.artifactHash
      · rw [hexecutable]
        exact hexecutableHash.trans hattested.executableHash

theorem toStringLossy_asBytes (text : String) : toStringLossy (asBytes text) = text := by
  have hutf : fromUtf8 (asBytes text) = some text := by
    rw [fromUtf8, asBytes, Array.toArray_toList]
    exact fromUTF8?_toByteArray text
  rw [toStringLossy, hutf, Option.getD_some]

theorem restatable_of_texts {after later : Disk} {artifactPath artifact executable : String}
    (hlater : Unchanged spec machine after later)
    (hspec : spec.artifactPath = asBytes artifactPath)
    (hartifact : machine.ended.canonicalize spec.artifactPath = .ok (asBytes artifact))
    (hexecutable : machine.start.canonicalize spec.executablePath = .ok (asBytes executable)) :
    Restatable spec machine later ↔
      (∀ text ∈ [spec.gate, spec.workPlanId, spec.providerModel, artifact, executable],
        Lossless text) ∧
      ∀ path, machine.start.canonicalize spec.workingDirectory = .ok path →
        Lossless (toStringLossy path) := by
  obtain ⟨hspecPath, hpath, hread⟩ := hlater.artifact _ hartifact
  have hexecRead := hlater.executable _ hexecutable
  simp only [List.forall_mem_cons, List.not_mem_nil, false_imp_iff, implies_true, and_true]
  constructor
  · rintro ⟨hnamed, hplaced, hlive, hartifactLive⟩
    simp only [List.forall_mem_cons, List.not_mem_nil, false_imp_iff, implies_true,
      and_true] at hnamed
    have h1 := (hartifactLive _ hartifact).1
    have h2 := (hlive _ hexecutable).1
    rw [toStringLossy_asBytes] at h1 h2
    exact ⟨⟨hnamed.1, hnamed.2.1, hnamed.2.2, h1, h2⟩, hplaced⟩
  · rintro ⟨⟨h1, h2, h3, h4, h5⟩, hplaced⟩
    constructor
    · simp only [List.forall_mem_cons, List.not_mem_nil, false_imp_iff, implies_true, and_true]
      exact ⟨h1, h2, h3⟩
    · exact hplaced
    · intro path hfound
      obtain rfl := Except.ok.inj (hexecutable.symm.trans hfound)
      rw [toStringLossy_asBytes, sha256File, sha256File, hexecRead]
      exact ⟨h5, rfl⟩
    · intro path hfound
      obtain rfl := Except.ok.inj (hartifact.symm.trans hfound)
      rw [toStringLossy_asBytes, hspec, toStringLossy_asBytes]
      refine ⟨h4, _, ?_, hpath, ?_⟩
      · rw [← hspec]
        exact hspecPath
      · rw [sha256File, sha256File, hread]

end Run

section Documents

variable {input : String} {attestation : HarnessAttestation}

def StatesNumber (root : JsonValue) (key : String) (n : ℤ) : Prop :=
  ∃ value, (root.get key).bind JsonValue.asU64 = some value ∧ (value.toNat : ℤ) = n

def StatesText (root : JsonValue) (key value : String) : Prop :=
  (root.get key).bind JsonValue.asStr = some value

structure States (input : String) (attestation : HarnessAttestation) : Prop where
  root : ∃ root object, parse input = .ok root ∧ root.asObject = some object ∧
    (∀ key, key ∈ object.map Prod.fst ↔ key ∈ fields) ∧
    (∀ field ∈ [("schema_version", (attestation.schemaVersion.toNat : ℤ)),
      ("timestamp_ms", (attestation.timestampMs.toNat : ℤ)),
      ("exit_code", attestation.exitCode.toInt)], StatesNumber root field.1 field.2) ∧
    (∀ field ∈ [("harness_id", attestation.harnessId), ("gate", attestation.gate),
      ("work_plan_id", attestation.workPlanId), ("provider_model", attestation.providerModel),
      ("artifact_path", attestation.artifactPath), ("artifact_hash", attestation.artifactHash),
      ("executable_path", attestation.executablePath),
      ("executable_hash", attestation.executableHash),
      ("working_directory", attestation.workingDirectory), ("command", attestation.command),
      ("artifact_env", attestation.artifactEnv),
      ("expected_stdout_hash", attestation.expectedStdoutHash),
      ("actual_stdout_hash", attestation.actualStdoutHash),
      ("stderr_hash", attestation.stderrHash)], StatesText root field.1 field.2) ∧
    (root.get "assertions").bind JsonValue.asArray =
      some (attestation.assertions.map JsonValue.string)
  supported : attestation.schemaVersion = harnessSchemaVersion

def schemaNumber (input : String) : Option UInt64 :=
  (parse input).toOption.bind fun root => (root.get "schema_version").bind JsonValue.asU64

theorem asStr_eq_some {value : JsonValue} {s : String} (h : value.asStr = some s) :
    value = .string s := by
  cases value <;> simp_all [JsonValue.asStr]

theorem strings_eq_ok {root : JsonValue} {key : String} {texts : List String}
    (h : strings root key = .ok texts) :
    (root.get key).bind JsonValue.asArray = some (texts.map JsonValue.string) := by
  simp only [strings, bind_eq_ok, okOr_eq_ok] at h
  obtain ⟨values, hvalues, htexts⟩ := h
  have hall := mapM_eq_ok_iff.mp htexts
  rw [hvalues]
  congr 1
  clear hvalues htexts
  induction hall with
  | nil => rfl
  | cons hvalue _ ih =>
    rw [List.map_cons, ← ih, asStr_eq_some (okOr_eq_ok.mp hvalue)]

theorem tryI32_eq_some {value : UInt64} {code : Int32} (h : tryI32 value = some code) :
    (value.toNat : ℤ) = code.toInt := by
  unfold tryI32 at h
  split_ifs at h with hlt
  obtain rfl := Option.some.inj h
  exact (Int32.toInt_ofNat_of_lt hlt).symm

theorem states_iff (h : fromJson input = .ok attestation) (hvalid : attestation.validate = .ok ()) :
    States input attestation ↔ ∀ n, schemaNumber input = some n → n.toNat < 2 ^ 32 := by
  simp only [fromJson, bind_eq_ok, mapError_eq_ok, okOr_eq_ok, refuseIf_eq_ok, not_or, not_not] at h
  obtain ⟨root, hroot, object, hobject, _, ⟨hknown, hpresent⟩, hfields⟩ := h
  simp only [readFields, number, string, bind_eq_ok, okOr_eq_ok, pure_eq_ok] at hfields
  obtain ⟨schema, hschema, harness, hharness, timestamp, htimestamp, gate, hgate, plan, hplan,
    model, hmodel, artifact, hartifact, artifactHash, hartifactHash, executable, hexecutable,
    executableHash, hexecutableHash, directory, hdirectory, command, hcommand, env, henv,
    exit, hexit, expected, hexpected, actual, hactual, stderr, hstderr, texts, htexts, rfl⟩ := hfields
  have hnumber : schemaNumber input = some schema := by
    rw [schemaNumber, hroot]
    exact hschema
  simp only [hnumber, Option.some.injEq, forall_eq']
  have hcut : schema.toUInt32.toNat = schema.toNat % 2 ^ 32 := UInt64.toNat_toUInt32 schema
  constructor
  · rintro ⟨⟨root', object', hroot', -, -, hnumbers, -⟩, -⟩
    obtain rfl := Except.ok.inj (hroot.symm.trans hroot')
    obtain ⟨value, hvalue, hstated⟩ := (List.forall_mem_cons.mp hnumbers).1
    obtain rfl := Option.some.inj (hschema.symm.trans hvalue)
    simp only [hcut] at hstated
    omega
  · intro hlt
    refine ⟨⟨root, object, hroot, hobject, ?_, ?_, ?_, strings_eq_ok htexts⟩, ?_⟩
    · intro key
      constructor
      · intro hkey
        obtain ⟨field, hfield, rfl⟩ := List.mem_map.mp hkey
        exact hknown field hfield
      · exact hpresent key
    · simp only [List.forall_mem_cons, List.not_mem_nil, false_imp_iff, implies_true, and_true]
      obtain ⟨value, hvalue, hcode⟩ := Option.bind_eq_some_iff.mp hexit
      refine ⟨⟨schema, hschema, ?_⟩, ⟨timestamp, htimestamp, rfl⟩, value, hvalue,
        tryI32_eq_some hcode⟩
      rw [hcut, Nat.mod_eq_of_lt hlt]
    · simp only [List.forall_mem_cons, List.not_mem_nil, false_imp_iff, implies_true, and_true]
      exact ⟨hharness, hgate, hplan, hmodel, hartifact, hartifactHash, hexecutable, hexecutableHash,
        hdirectory, hcommand, henv, hexpected, hactual, hstderr⟩
    · rw [HarnessAttestation.validate, refuseIf_eq_ok] at hvalid
      simp only [not_or, not_not] at hvalid
      exact hvalid.1

end Documents

section Claims

/-- An attestation is verified with its own values exactly when it can be restated, and an accepted
document states what is read from it exactly when its schema number has 32 bits. -/
theorem attests_iff (spec : HarnessRunSpec) (machine : Machine) (later : Disk) (input : String) :
    (∀ written after, runHarness spec machine = .ok (written, after) →
      Unchanged spec machine after later →
        ((∃ attestation, attest spec machine = .ok attestation ∧
          verifyHarnessAttestation later written.path written.hash (expectationOf spec) =
            .ok attestation) ↔ Restatable spec machine later)) ∧
    (∀ attestation, fromJson input = .ok attestation → attestation.validate = .ok () →
      (States input attestation ↔ ∀ n, schemaNumber input = some n → n.toNat < 2 ^ 32)) := by
  refine ⟨?_, fun attestation => states_iff⟩
  intro written after hrun hlater
  obtain ⟨attestation, hattest, hread, hpath, hhash⟩ := runHarness_eq_ok hrun
  have hverify := verify_written hattest hread hpath hhash hlater
  rw [← hverify]
  constructor
  · rintro ⟨attestation', hattest', hverified⟩
    obtain rfl := Except.ok.inj (hattest.symm.trans hattest')
    exact hverified
  · intro hverified
    exact ⟨attestation, hattest, hverified⟩

def samplePath : OsPath := asBytes "/work/attestation.json"

def sampleSpec (gate : String) : HarnessRunSpec :=
  ⟨"rust-console-exact-v1", gate, "plan-1", "coder", asBytes "/work/app.rs", asBytes "/work/app",
    asBytes "/work", "ok", none, 60, samplePath⟩

def sampleDisk (document : Option (List UInt8)) : Disk where
  canonicalize path := .ok path
  read path := .ok (if path = samplePath then document.getD [] else path)
  exists_ path := path = samplePath && document.isSome

def sampleMachine : Machine :=
  ⟨sampleDisk none, fun _ _ _ => .ok (.exited (some 0) (.ok (asBytes "ok\n")) (.ok [])),
    sampleDisk none, 1, fun bytes => .ok (sampleDisk (some bytes))⟩

def sampleAttestation (gate : String) : HarnessAttestation :=
  ⟨1, "rust-console-exact-v1", 1, gate, "plan-1", "coder", "/work/app.rs",
    sha256Tagged (asBytes "/work/app.rs"), "/work/app", sha256Tagged (asBytes "/work/app"), "/work",
    "/work/app", "", 0, sha256Tagged (asBytes "ok"), sha256Tagged (asBytes "ok"), sha256Tagged [],
    assertions⟩

theorem validate_sample {gate : String} (h : isBlank gate = false) :
    (sampleAttestation gate).validate = .ok () := by
  rw [HarnessAttestation.validate, refuseIf_eq_ok]
  have hblank : isBlank "/work/app.rs" = false ∧ isBlank "/work/app" = false := by decide
  have hallowed : allowlistedHarness "rust-console-exact-v1" = true ∧
      expectedArtifactEnv "rust-console-exact-v1" = none := by decide
  simp [sampleAttestation, HarnessAttestation.hashes, validSha256Tag_sha256Tagged, h, hblank,
    hallowed, harnessSchemaVersion]

theorem canonicalize_sample (document : Option (List UInt8)) (path : OsPath) :
    (sampleDisk document).canonicalize path = .ok path := rfl

theorem attest_sample {gate : String} (h : isBlank gate = false) :
    attest (sampleSpec gate) sampleMachine = .ok (sampleAttestation gate) := by
  have hallowed : allowlistedHarness "rust-console-exact-v1" = true ∧
      expectedArtifactEnv "rust-console-exact-v1" = none ∧ isBlank "ok" = false := by decide
  have hprinted : fromUtf8 (asBytes "ok\n") = some "ok\n" ∧
      (asBytes "ok\n").length ≤ maxCaptureBytes ∧ canonicalStdout "ok\n" = "ok" ∧
      canonicalStdout "ok" = "ok" := by decide +kernel
  have happ : asBytes "/work/app" ≠ samplePath ∧ asBytes "/work/app.rs" ≠ samplePath := by
    decide +kernel
  have hexec : sha256File (sampleDisk none) (asBytes "/work/app") =
      .ok (sha256Tagged (asBytes "/work/app")) := by
    simp [sha256File, sampleDisk, happ, Except.mapError, Except.map]
  have hfile : sha256File (sampleDisk none) (asBytes "/work/app.rs") =
      .ok (sha256Tagged (asBytes "/work/app.rs")) := by
    simp [sha256File, sampleDisk, happ, Except.mapError, Except.map]
  have hstdout : readBounded (.ok (asBytes "ok\n")) = .ok (asBytes "ok\n") := by
    simp [readBounded, Except.mapError, refuseIf]
    rfl
  have hstderr : readBounded (.ok []) = .ok [] := by
    simp [readBounded, Except.mapError, refuseIf]
  have hvalid := validate_sample h
  simp only [sampleAttestation] at hvalid
  simp only [attest, sampleSpec, sampleMachine, hallowed, h]
  simp [refuseIf, Except.mapError, hstdout, hstderr, hprinted, canonicalize_sample, hexec, hfile,
    toStringLossy_asBytes, harnessSchemaVersion, hvalid, sampleAttestation]

theorem runHarness_sample {gate : String} (h : isBlank gate = false) :
    runHarness (sampleSpec gate) sampleMachine =
      .ok (⟨samplePath, sha256Tagged (asBytes (sampleAttestation gate).toJson)⟩,
        sampleDisk (some (asBytes (sampleAttestation gate).toJson))) := by
  have hparent : hasParent samplePath = true := by decide +kernel
  have hread : ∀ bytes, (sampleDisk (some bytes)).read samplePath = .ok bytes := by
    intro bytes
    simp [sampleDisk]
  have hnew : (sampleDisk none).exists_ samplePath = false := by simp [sampleDisk]
  rw [runHarness, attest_sample h, ok_bind]
  simp [writeImmutable, sampleSpec, sampleMachine, refuseIf, hnew, hparent, hread, Except.mapError,
    canonicalize_sample, sha256File, Except.map, pure, Except.pure]

theorem unchanged_sample (gate : String) (bytes : List UInt8) :
    Unchanged (sampleSpec gate) sampleMachine (sampleDisk (some bytes))
      (sampleDisk (some bytes)) where
  attestation path hpath := by
    obtain rfl := Except.ok.inj hpath
    exact ⟨rfl, rfl⟩
  artifact path hpath := by
    obtain rfl := Except.ok.inj hpath
    have happ : asBytes "/work/app.rs" ≠ samplePath := by decide +kernel
    exact ⟨rfl, rfl, by simp [sampleDisk, sampleMachine, sampleSpec, happ]⟩
  executable path hpath := by
    obtain rfl := Except.ok.inj hpath
    have happ : asBytes "/work/app" ≠ samplePath := by decide +kernel
    simp [sampleDisk, sampleMachine, sampleSpec, happ]

theorem attests_iff_sample :
    ∃ written after,
      runHarness (sampleSpec "cargo test") sampleMachine = .ok (written, after) ∧
      ∃ attestation, attest (sampleSpec "cargo test") sampleMachine = .ok attestation ∧
        verifyHarnessAttestation after written.path written.hash
          (expectationOf (sampleSpec "cargo test")) = .ok attestation := by
  have hrun := @runHarness_sample "cargo test" (by decide)
  have hlater := unchanged_sample "cargo test" (asBytes (sampleAttestation "cargo test").toJson)
  refine ⟨_, _, hrun, ((attests_iff _ _ _ "").1 _ _ hrun hlater).mpr ?_⟩
  apply (restatable_of_texts hlater rfl rfl rfl).mpr
  constructor
  · simp only [sampleSpec]
    decide
  · intro path hpath
    obtain rfl := Except.ok.inj hpath
    rw [sampleSpec, toStringLossy_asBytes]
    decide

theorem attests_not_every_run :
    (∃ written after,
      runHarness (sampleSpec "cargo\x07test") sampleMachine = .ok (written, after) ∧
      Unchanged (sampleSpec "cargo\x07test") sampleMachine after after ∧
      ¬∃ attestation, attest (sampleSpec "cargo\x07test") sampleMachine = .ok attestation ∧
        verifyHarnessAttestation after written.path written.hash
          (expectationOf (sampleSpec "cargo\x07test")) = .ok attestation) ∧
    (∃ input attestation, fromJson input = .ok attestation ∧ attestation.validate = .ok () ∧
      ¬States input attestation) := by
  constructor
  · have hrun := @runHarness_sample "cargo\x07test" (by decide)
    have hlater := unchanged_sample "cargo\x07test"
      (asBytes (sampleAttestation "cargo\x07test").toJson)
    refine ⟨_, _, hrun, hlater, ?_⟩
    rintro ⟨attestation, hattest, hverified⟩
    obtain ⟨attestation', hattest', hread, hpath, hhash⟩ := runHarness_eq_ok hrun
    obtain rfl := Except.ok.inj (hattest.symm.trans hattest')
    have hrestatable := (verify_written hattest hread hpath hhash hlater).mp hverified
    have hgate := hrestatable.named "cargo\x07test" (by simp [sampleSpec])
    exact absurd hgate (by decide)
  · have hvalid := @validate_sample "cargo test" (by decide)
    have hread : fromJson (render (numbered 4294967297 (sampleAttestation "cargo test"))) =
        .ok (restated (sampleAttestation "cargo test")) := fromJson_numbered 4294967297 rfl
    rw [(restated_eq_iff hvalid).mpr (by decide)] at hread
    refine ⟨_, _, hread, hvalid, fun hstates => ?_⟩
    have hnumber : schemaNumber (render (numbered 4294967297 (sampleAttestation "cargo test"))) =
        some 4294967297 := by
      have hget : (numbered 4294967297 (sampleAttestation "cargo test")).get "schema_version" =
          some (numberDoc (4294967297 : UInt64).toNat) := rfl
      rw [schemaNumber, parse_render (fits_numbered 4294967297 rfl)]
      simp only [Except.toOption, Option.bind_some]
      rw [get_clean hget, clean_numberDoc, Option.bind_some, asU64_numberDoc]
    exact absurd ((states_iff hread hvalid).mp hstates _ hnumber) (by decide)

end Claims

end AtomVibe.AttestationReads
