import AtomVibe.WorkRoundTrip

namespace AtomVibe.Work

open Checked Json JsonText JsonRoundTrip JsonCodec Hash EvidenceDisk

section Records

variable {rust : RustText} {disk : Disk} {planDir : Path} {planId model : String}
  {descriptors : List WorkPacket}

inductive RecordsChecked (rust : RustText) (disk : Disk) (planDir : Path) (planId model : String)
    (descriptors : List WorkPacket) :
    ℕ → List String → List WorkFile → List StoredPacket → List WorkFile → Prop
  | nil {ordinal : ℕ} {ids : List String} {files : List WorkFile} :
    RecordsChecked rust disk planDir planId model descriptors ordinal ids files [] files
  | cons {ordinal : ℕ} {ids : List String} {files next last : List WorkFile}
      {record : StoredPacket} {records : List StoredPacket} {descriptor : WorkPacket}
      {output : String} {validated : ValidatedPacketOutput}
      (known : descriptors[ordinal]? = some descriptor)
      (identity : RecordMatches planId model ordinal ids descriptor record)
      (stored : recordOutput disk planDir record = .ok output)
      (valid : validatePacketOutput rust descriptor output = .ok validated)
      (manifest : manifestFilesAfter descriptor validated files = .ok next)
      (rest : RecordsChecked rust disk planDir planId model descriptors (ordinal + 1)
        (ids ++ [record.packetId]) next records last) :
    RecordsChecked rust disk planDir planId model descriptors ordinal ids files
      (record :: records) last

theorem checkRecords_eq_ok {ordinal : ℕ} {ids : List String} {files : List WorkFile}
    {records : List StoredPacket} {result : List String × List WorkFile} :
    checkRecords rust disk planDir planId model descriptors ordinal ids files records =
        .ok result ↔
      RecordsChecked rust disk planDir planId model descriptors ordinal ids files records
        result.2 ∧ result.1 = ids ++ records.map (·.packetId) := by
  induction records generalizing ordinal ids files with
  | nil =>
    simp only [checkRecords, pure_eq_ok, List.map_nil, List.append_nil]
    constructor
    · rintro rfl
      exact ⟨.nil, rfl⟩
    · rintro ⟨h, hids⟩
      cases h
      rw [← hids]
  | cons record records ih =>
    simp only [checkRecords, bind_eq_ok, okOr_eq_ok, refuseIf_eq_ok, not_not, ih]
    constructor
    · rintro ⟨descriptor, hdescriptor, -, hmatches, output, houtput, validated, hvalidated, next,
        hnext, hrest, hids⟩
      exact ⟨.cons hdescriptor hmatches houtput hvalidated hnext hrest, by simp [hids]⟩
    · rintro ⟨h, hids⟩
      cases h with
      | cons hdescriptor hmatches houtput hvalidated hnext hrest =>
        exact ⟨_, hdescriptor, (), hmatches, _, houtput, _, hvalidated, _, hnext, hrest,
          by simp [hids]⟩

theorem RecordsChecked.files {ordinal : ℕ} {ids : List String} {files last : List WorkFile}
    {records : List StoredPacket}
    (h : RecordsChecked rust disk planDir planId model descriptors ordinal ids files records last)
    (hfiles : files ≠ [] → validateFiles files = .ok ()) :
    (last ≠ [] → validateFiles last = .ok ()) ∧
      (last ≠ [] ↔ files ≠ [] ∨ ∃ i < records.length, ∃ descriptor,
        descriptors[ordinal + i]? = some descriptor ∧ descriptor.contract = .fileManifest) := by
  induction h with
  | nil => exact ⟨hfiles, by simp⟩
  | @cons ordinal ids files next last record records descriptor output validated known _ _ _
      manifest _ ih =>
    have hsplit : (∃ i < (record :: records).length, ∃ d, descriptors[ordinal + i]? = some d ∧
        d.contract = .fileManifest) ↔ descriptor.contract = .fileManifest ∨
        ∃ i < records.length, ∃ d, descriptors[ordinal + 1 + i]? = some d ∧
          d.contract = .fileManifest := by
      constructor
      · rintro ⟨i, hi, d, hd, hcontract⟩
        cases i with
        | zero =>
          rw [Nat.add_zero, known, Option.some.injEq] at hd
          exact .inl (hd ▸ hcontract)
        | succ i =>
          rw [List.length_cons] at hi
          exact .inr ⟨i, by omega, d, by rwa [Nat.add_assoc, Nat.add_comm 1 i], hcontract⟩
      · rintro (hcontract | ⟨i, hi, d, hd, hcontract⟩)
        · exact ⟨0, by simp, descriptor, known, hcontract⟩
        · refine ⟨i + 1, by rw [List.length_cons]; omega, d, ?_, hcontract⟩
          rwa [Nat.add_comm i 1, ← Nat.add_assoc]
    by_cases hcontract : descriptor.contract = .fileManifest
    · simp only [manifestFilesAfter, if_pos hcontract, bind_eq_ok, pure_eq_ok] at manifest
      obtain ⟨_, hvalid, rfl⟩ := manifest
      obtain ⟨hlast, hiff⟩ := ih fun _ => hvalid
      have hne : validated.files ≠ [] := (validateFiles_length hvalid).1
      exact ⟨hlast, iff_of_true (hiff.mpr (.inl hne)) (.inr (hsplit.mpr (.inl hcontract)))⟩
    · simp only [manifestFilesAfter, if_neg hcontract, pure_eq_ok] at manifest
      subst manifest
      obtain ⟨hlast, hiff⟩ := ih hfiles
      refine ⟨hlast, hiff.trans (or_congr_right ?_)⟩
      rw [hsplit, or_iff_right hcontract]

end Records

variable {rust : RustText} {disk : Disk} {manifestPath planId : String} {count : ℕ}
  {evidence : WorkEvidence}

theorem length_of_mapM {ε α β : Type} {read : α → Except ε β} {xs : List α} {ys : List β}
    (h : xs.mapM read = .ok ys) : xs.length = ys.length :=
  (mapM_eq_ok_iff.mp h).length_eq

theorem readManifest_eq_ok {manifest : ReadManifest} :
    readManifest disk manifestPath planId count = .ok manifest ↔
      SafeId planId ∧ count ≠ 0 ∧ ∃ path, disk.canonicalize manifestPath = .ok path ∧
        path.getLast? = some "plan-expanded.json" ∧
        disk.canonicalize (pathText path.dropLast) = .ok manifest.planDir ∧
        ∃ text, disk.readToString path = .ok text ∧ Json.parse text = .ok manifest.value ∧
          checkManifest manifest.value planId count = .ok () ∧
          ∃ values, (manifest.value.get "packets").bind Json.JsonValue.asArray = some values ∧
            values.length = count ∧ values.mapM readDescriptor = .ok manifest.descriptors := by
  simp only [readManifest, ioError, bind_eq_ok, refuseIf_eq_ok, pure_eq_ok, mapError_eq_ok,
    okOr_eq_ok, not_not, exists_const, ← validateId_eq_ok]
  constructor
  · rintro ⟨_, hid, hcount, path, hpath, hname, dir, hdir, text, htext, value, hvalue, _, hcheck,
      values, hvalues, hlength, descriptors, hread, rfl⟩
    exact ⟨hid, hcount, path, hpath, hname, hdir, text, htext, hvalue, hcheck, values, hvalues,
      hlength, hread⟩
  · rintro ⟨hid, hcount, path, hpath, hname, hdir, text, htext, hvalue, hcheck, values, hvalues,
      hlength, hread⟩
    exact ⟨(), hid, hcount, path, hpath, hname, _, hdir, text, htext, _, hvalue, (), hcheck,
      values, hvalues, hlength, _, hread, rfl⟩

theorem readManifest_length {manifest : ReadManifest}
    (h : readManifest disk manifestPath planId count = .ok manifest) :
    manifest.descriptors.length = count := by
  obtain ⟨-, -, -, -, -, -, -, -, -, -, values, -, hlength, hread⟩ := readManifest_eq_ok.mp h
  rw [← length_of_mapM hread, hlength]

theorem readRecords_length {planDir : Path} {records : List StoredPacket}
    (h : readRecords disk planDir count = .ok records) : records.length = count := by
  simp only [readRecords, bind_eq_ok, refuseIf_eq_ok, pure_eq_ok, not_not] at h
  obtain ⟨-, -, found, -, -, hlength, rfl⟩ := h
  rw [List.length_mergeSort, hlength]

theorem readEvidence_eq_ok : readEvidence rust disk manifestPath planId count = .ok evidence ↔
    readManifest disk manifestPath planId count = .ok evidence.manifest ∧
      readRecords disk evidence.manifest.planDir count = .ok evidence.records ∧
      recordsModel evidence.records = .ok evidence.model ∧
      RecordsChecked rust disk evidence.manifest.planDir planId evidence.model
        evidence.manifest.descriptors 0 [] [] evidence.records evidence.files ∧
      evidence.packetIds = evidence.records.map (·.packetId) := by
  simp only [readEvidence, bind_eq_ok, pure_eq_ok, checkRecords_eq_ok, List.nil_append]
  constructor
  · rintro ⟨manifest, hmanifest, records, hrecords, model, hmodel, result, hresult, rfl⟩
    exact ⟨hmanifest, hrecords, hmodel, hresult⟩
  · rintro ⟨hmanifest, hrecords, hmodel, hresult⟩
    exact ⟨_, hmanifest, _, hrecords, _, hmodel, (_, _), hresult, rfl⟩

theorem evidence_files (h : readEvidence rust disk manifestPath planId count = .ok evidence) :
    (evidence.files ≠ [] → validateFiles evidence.files = .ok ()) ∧
      (evidence.files ≠ [] ↔
        ∃ packet ∈ evidence.manifest.descriptors, packet.contract = .fileManifest) := by
  obtain ⟨hmanifest, hrecords, -, hchecked, -⟩ := readEvidence_eq_ok.mp h
  obtain ⟨hvalid, hiff⟩ := hchecked.files (by simp)
  refine ⟨hvalid, hiff.trans ?_⟩
  have hlength : evidence.records.length = evidence.manifest.descriptors.length := by
    rw [readRecords_length hrecords, readManifest_length hmanifest]
  simp only [ne_eq, not_true_eq_false, false_or, Nat.zero_add, hlength]
  constructor
  · rintro ⟨i, -, packet, hpacket, hcontract⟩
    exact ⟨packet, List.mem_of_getElem? hpacket, hcontract⟩
  · rintro ⟨packet, hpacket, hcontract⟩
    obtain ⟨i, hi, hget⟩ := List.mem_iff_getElem.mp hpacket
    exact ⟨i, hi, packet, by rw [List.getElem?_eq_getElem hi, hget], hcontract⟩

theorem canonical_returns (identity : PlanIdentity) {files : List WorkFile}
    (h : validateFiles files = .ok ()) : ∃ packets,
      identity.canonical files = some (.ok ((basePlan "manifest-verification" identity.recipeId
        identity.atomStack "manifest-verification" identity.intentHash
        identity.fingerprintHash).withPackets packets)) ∧
      expandedPackets identity.planId files = some packets ∧
      Expansion identity.planId files packets := by
  obtain ⟨packets, hpackets, hexpansion, hexpand, -⟩ := expandFiles_fresh
    (fresh_basePlan "manifest-verification" identity.recipeId identity.atomStack
      "manifest-verification" identity.intentHash identity.fingerprintHash) h
  refine ⟨packets, ?_, hpackets, hexpansion⟩
  exact (canonicalFromManifest_eq _ _ _ _ files).trans hexpand

def DeclaresManifest (rust : RustText) (disk : Disk) (manifestPath planId : String) (count : ℕ) :
    Prop :=
  ∀ evidence, readEvidence rust disk manifestPath planId count = .ok evidence →
    ∃ packet ∈ evidence.manifest.descriptors, packet.contract = .fileManifest

/-- The check of the evidence returns, with a result or an error, exactly when the evidence is
refused early or declares a manifest packet. -/
theorem verify_work_plan_evidence_returns_iff (rust : RustText) (disk : Disk)
    (manifestPath expectedPlanId : String) (expectedPacketCount : ℕ) :
    (∃ fuel result, verifyWorkPlanEvidence rust fuel disk manifestPath expectedPlanId
        expectedPacketCount = some result) ↔
      DeclaresManifest rust disk manifestPath expectedPlanId expectedPacketCount := by
  constructor
  · rintro ⟨fuel, result, h⟩ evidence hevidence
    rw [← (evidence_files hevidence).2,
      ← validatePacketSchedule_returns_iff evidence.manifest.descriptors]
    refine ⟨fuel, fun hnone => ?_⟩
    simp only [verifyWorkPlanEvidence, hevidence, hnone] at h
    exact absurd h (by simp)
  · intro h
    cases hevidence : readEvidence rust disk manifestPath expectedPlanId expectedPacketCount with
    | error error => exact ⟨0, .error error, by rw [verifyWorkPlanEvidence, hevidence]⟩
    | ok evidence =>
      obtain ⟨hvalid, hiff⟩ := evidence_files hevidence
      have hne := hiff.mpr (h evidence hevidence)
      obtain ⟨fuel, hfuel⟩ := (validatePacketSchedule_returns_iff evidence.manifest.descriptors
        evidence.files).mpr hne
      refine ⟨fuel, ?_⟩
      simp only [verifyWorkPlanEvidence, hevidence]
      cases hschedule : validatePacketSchedule fuel evidence.manifest.descriptors evidence.files with
      | none => exact absurd hschedule hfuel
      | some result =>
        cases result with
        | error error => exact ⟨_, rfl⟩
        | ok u =>
          simp only
          cases hidentity : readIdentity evidence.manifest.value with
          | error error => exact ⟨_, rfl⟩
          | ok identity =>
            obtain ⟨packets, hcanonical, -⟩ := canonical_returns identity (hvalid hne)
            simp only [hcanonical]
            exact ⟨_, rfl⟩

def lonePacket : WorkPacket :=
  { id := "p"
    ordinal := 0
    stage := .intent
    contract := .envelope
    objective := ""
    acceptance := []
    dependencies := []
    file := none
    maxOutputBytes := 1024 }

def lonePlan : WorkPlan :=
  { schemaVersion := workSchemaVersion
    id := "w"
    intent := "i"
    recipeId := ""
    atomStack := []
    fingerprint := ""
    packets := [lonePacket]
    expanded := true }

def loneOutput : String :=
  "\x7b\"packet_id\":\"p\",\"status\":\"complete\",\"result\":\"r\",\"checks\":[\"c\"]," ++
    "\"risks\":[]\x7d"

def loneRecord : StoredPacket := recordOf lonePlan lonePacket "m" ["w", "o.txt"] loneOutput

def loneFiles : Files :=
  ((Catalog.empty.insert ["w", "plan-expanded.json"] (manifestText lonePlan).toByteArray).insert
    ["w", "1.json"] loneRecord.toJson.toByteArray).insert ["w", "o.txt"] loneOutput.toByteArray

theorem readManifest_loneFiles :
    readManifest (ofFiles id loneFiles) "/w/plan-expanded.json" "w" 1 =
      .ok ⟨["w"], clean (manifestDoc lonePlan), [lonePacket.descriptor]⟩ := by
  have hsafe : SafeId "w" := validateId_eq_ok.mp (by decide)
  have hcheck : checkManifest (clean (manifestDoc lonePlan)) "w" 1 = .ok () :=
    checkManifest_clean lonePlan rfl (by decide)
  have hpackets : (clean (manifestDoc lonePlan)).get "packets" =
      some (.array [clean (descriptorDoc lonePacket)]) := by
    have hget : (manifestDoc lonePlan).get "packets" =
      some (.array [descriptorDoc lonePacket]) := rfl
    rw [get_clean hget, clean]
    rfl
  have hdescriptor : readDescriptor (clean (descriptorDoc lonePacket)) =
      .ok lonePacket.descriptor := readDescriptor_clean (by decide) (by decide)
  refine readManifest_eq_ok.mpr ⟨hsafe, by decide, ["w", "plan-expanded.json"], rfl, rfl, rfl,
    manifestText lonePlan, readToString_ofFiles rfl, parse_manifestText lonePlan, hcheck,
    [clean (descriptorDoc lonePacket)], ?_, rfl, ?_⟩
  · rw [hpackets]
    rfl
  · simp only [List.mapM_cons, List.mapM_nil, hdescriptor]
    rfl

theorem readRecords_loneFiles :
    readRecords (ofFiles id loneFiles) ["w"] 1 = .ok [loneRecord.sanitized] := by
  have hnames : ((ofFiles id loneFiles).readDir ["w"]) =
      .ok ["1.json", "o.txt", "plan-expanded.json"] := rfl
  have htext : (ofFiles id loneFiles).readToString ["w", "1.json"] = .ok loneRecord.toJson :=
    readToString_ofFiles rfl
  have hrecord : StoredPacket.fromJson loneRecord.toJson = .ok loneRecord.sanitized :=
    fromJson_toJson (by decide)
  have hfilter : ["1.json", "o.txt", "plan-expanded.json"].filter isRecordName = ["1.json"] := by
    decide
  simp only [readRecords, hnames, ioError, Except.mapError, ok_bind, hfilter, List.mapM_cons,
    List.mapM_nil, List.cons_append, List.nil_append, htext, hrecord]
  exact congrArg Except.ok (List.mergeSort_singleton _)

theorem loneRecord_sanitized : loneRecord.sanitized = loneRecord := by
  have hhash : sanitize loneRecord.outputHash = loneRecord.outputHash :=
    (sanitize_eq_self_iff _).mpr (lossless_sha256Tagged _)
  have hpath : sanitize loneRecord.outputPath = loneRecord.outputPath := by decide
  simp only [StoredPacket.sanitized, hhash, hpath]
  rfl

theorem recordOutput_loneRecord :
    recordOutput (ofFiles id loneFiles) ["w"] loneRecord = .ok loneOutput := by
  have htext : (ofFiles id loneFiles).readToString ["w", "o.txt"] = .ok loneOutput :=
    readToString_ofFiles rfl
  have hpath : (ofFiles id loneFiles).canonicalize (pathText ["w", "o.txt"]) =
      .ok ["w", "o.txt"] := rfl
  have hbytes : (ofFiles id loneFiles).read ["w", "o.txt"] = .ok loneOutput.toByteArray := rfl
  simp only [recordOutput, ioError, bind_eq_ok, mapError_eq_ok, refuseIf_eq_ok, pure_eq_ok]
  refine ⟨_, hpath, _, htext, (), by decide, _, hbytes, (), ?_, rfl⟩
  rw [not_or, not_not, not_not]
  exact ⟨rfl, rfl⟩

theorem verify_work_plan_evidence_may_loop : ¬∃ rust fuel result,
    verifyWorkPlanEvidence rust fuel (ofFiles id loneFiles) "/w/plan-expanded.json" "w" 1 =
      some result := by
  rintro ⟨rust, fuel, result, hresult⟩
  have hvalid : validatePacketOutput rust lonePacket.descriptor loneOutput =
      .ok ⟨loneOutput, []⟩ := rfl
  have hmatches : RecordMatches "w" "m" 0 [] lonePacket.descriptor loneRecord :=
    ⟨rfl, rfl, rfl, rfl, rfl, rfl, rfl, rfl, by simp, validSha256Tag_sha256Tagged _, by decide⟩
  have hevidence : readEvidence rust (ofFiles id loneFiles) "/w/plan-expanded.json" "w" 1 =
      .ok ⟨⟨["w"], clean (manifestDoc lonePlan), [lonePacket.descriptor]⟩, [loneRecord], "m",
        ["p"], []⟩ := by
    refine readEvidence_eq_ok.mpr ⟨readManifest_loneFiles, ?_, rfl, ?_, rfl⟩
    · rw [readRecords_loneFiles, loneRecord_sanitized]
    · exact .cons rfl hmatches recordOutput_loneRecord hvalid rfl .nil
  cases hschedule : validatePacketSchedule fuel [lonePacket.descriptor] [] with
  | none => simp [verifyWorkPlanEvidence, hevidence, hschedule] at hresult
  | some outcome =>
    have hreturns := (validatePacketSchedule_returns_iff [lonePacket.descriptor] []).mp
      ⟨fuel, by simp [hschedule]⟩
    exact absurd rfl hreturns

end AtomVibe.Work
