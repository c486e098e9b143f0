import AtomVibe.Foundations.HashChain
import AtomVibe.TurnStore

namespace AtomVibe.TurnBinding

open Checked Text Hash HashChain ReadChain Separated BuildProtocol ChainFiles Provider TurnStore

structure Validated (readFile : ReadFile) (previousHash : String) (record : TurnRecord) : Prop where
  schema : record.schemaVersion = turnRecordSchemaVersion
  ordinal : record.ordinal ≠ 0
  texts : isBlank record.buildId = false ∧ isBlank record.provider = false ∧
    isBlank record.model = false ∧ isBlank record.thinkingSource = false
  previous : record.previousHash = previousHash
  tags : validSha256Tag record.requestBodyHash = true ∧
    validSha256Tag record.rawResponseHash = true ∧ validSha256Tag record.outputHash = true ∧
    validSha256Tag record.scratchpadEntryHash = true ∧ validSha256Tag record.recordHash = true
  hash : record.recordHash = record.computedHash
  context : record.contextRoute.length = 4
  result : record.resultRoute.length = 4
  artifact : ∃ relative bytes, safeRelative record.outputArtifact = some relative ∧
    readFile relative = some bytes ∧ sha256Tagged bytes.data.toList = record.outputHash

theorem validateRecord_eq_ok {readFile : ReadFile} {record : TurnRecord}
    {previous : Option TurnRecord} {u : Unit} :
    validateRecord record readFile previous = .ok u ↔
      Validated readFile ((previous.map (·.recordHash)).getD "") record := by
  simp only [validateRecord, bind_eq_ok, refuseIf_eq_ok, okOr_eq_ok, not_or, ne_eq, not_not,
    Bool.not_eq_false, Bool.not_eq_true]
  constructor
  · rintro ⟨_, ⟨hschema, hordinal, hbuild, hprovider, hmodel, hthinking, hprevious, hrequest, hraw,
      houtput, hscratchpad, hrecord, hhash, hcontext, hresult⟩, relative, hrelative, bytes, hbytes,
      hsame⟩
    exact ⟨hschema, hordinal, ⟨hbuild, hprovider, hmodel, hthinking⟩, hprevious,
      ⟨hrequest, hraw, houtput, hscratchpad, hrecord⟩, hhash, hcontext, hresult,
      relative, bytes, hrelative, hbytes, hsame⟩
  · intro h
    obtain ⟨hbuild, hprovider, hmodel, hthinking⟩ := h.texts
    obtain ⟨hrequest, hraw, houtput, hscratchpad, hrecord⟩ := h.tags
    obtain ⟨relative, bytes, hrelative, hbytes, hsame⟩ := h.artifact
    exact ⟨(), ⟨h.schema, h.ordinal, hbuild, hprovider, hmodel, hthinking, h.previous, hrequest,
      hraw, houtput, hscratchpad, hrecord, h.hash, h.context, h.result⟩, relative, hrelative,
      bytes, hbytes, hsame⟩

/-- Where the separators of the hashed text stand: how many NULs each field holds, and how many
unit separators each evidence id. -/
def separators (record : TurnRecord) : List ℕ × List ℕ :=
  (record.hashedFields.map fun field => field.toList.count '\x00',
    record.evidenceIds.map fun id => id.toList.count '\x1f')

theorem string_intercalate_inj (c : Char) {xs ys : List String}
    (hcount : xs.map (fun s => s.toList.count c) = ys.map (fun s => s.toList.count c))
    (h : String.intercalate (String.ofList [c]) xs = String.intercalate (String.ofList [c]) ys) :
    xs = ys := by
  have hlists := congrArg String.toList h
  rw [String.toList_intercalate, String.toList_intercalate, String.toList_ofList] at hlists
  have hmaps : xs.map String.toList = ys.map String.toList := by
    apply intercalate_inj _ hlists
    rw [List.map_map, List.map_map]
    exact hcount
  exact List.map_injective_iff.mpr (fun s t hst => String.toList_inj.mp hst) hmaps

theorem asStr_injective : Function.Injective BuildStep.asStr := by
  intro s t h
  have hs := BuildStep.parse_asStr s
  rw [h, BuildStep.parse_asStr] at hs
  exact (Option.some.inj hs).symm

theorem repr_inj {m n : UInt64} (h : m.toNat.repr = n.toNat.repr) : m = n :=
  UInt64.toNat_inj.mp (repr_injective h)

theorem tokensText_injective : Function.Injective tokensText := by
  intro s t h
  cases s with
  | none =>
    cases t with
    | none => rfl
    | some n =>
      have := congrArg String.toList h
      simp [tokensText, debugOption] at this
  | some m =>
    cases t with
    | none =>
      have := congrArg String.toList h
      simp [tokensText, debugOption] at this
    | some n =>
      simp only [tokensText, debugOption] at h
      have hlists := congrArg String.toList h
      simp only [String.toList_append, List.append_cancel_right_eq,
        List.append_cancel_left_eq] at hlists
      rw [repr_inj (String.toList_inj.mp hlists)]

theorem comma_not_mem_repr (n : ℕ) : ',' ∉ n.repr.toList := by
  rw [Nat.toList_repr]
  intro h
  exact absurd (toDigits_isAsciiDigit h) (by decide)

theorem routeText_inj {route route' : List UInt64} (hlength : route.length = route'.length)
    (h : routeText route = routeText route') : route = route' := by
  have hcount : ∀ ids : List UInt64, (ids.map fun id => id.toNat.repr).map
      (fun s => s.toList.count ',') = List.replicate ids.length 0 := by
    intro ids
    rw [List.map_map, List.eq_replicate_iff]
    constructor
    · rw [List.length_map]
    · intro n hn
      obtain ⟨id, -, rfl⟩ := List.mem_map.mp hn
      exact List.count_eq_zero.mpr (comma_not_mem_repr _)
  have hmaps := string_intercalate_inj ',' (by rw [hcount, hcount, hlength]) h
  exact List.map_injective_iff.mpr (fun m n hmn => repr_inj hmn) hmaps

section Records

variable {readFile readFile' : ReadFile} {g g' : String} {record record' : TurnRecord}

theorem hashedFields_inj (h : Validated readFile g record) (h' : Validated readFile' g' record')
    (hids : record.evidenceIds.map (fun id => id.toList.count '\x1f') =
      record'.evidenceIds.map fun id => id.toList.count '\x1f')
    (hfields : record.hashedFields = record'.hashedFields)
    (hhash : record.recordHash = record'.recordHash) : record = record' := by
  simp only [TurnRecord.hashedFields, List.cons.injEq, and_true] at hfields
  obtain ⟨-, hordinal, hbuild, hstep, hrevision, hprovider, hmodel, hrequest, hraw, houtput,
    hartifact, helapsed, hin, hout, hreasoning, hthinking, hevidence, hcontext, hresult,
    hscratchpad, hprevious, hcreated⟩ := hfields
  have hschema := h.schema.trans h'.schema.symm
  have hcontexts := routeText_inj (h.context.trans h'.context.symm) hcontext
  have hresults := routeText_inj (h.result.trans h'.result.symm) hresult
  have hevidences := string_intercalate_inj '\x1f' hids hevidence
  cases record
  cases record'
  simp only at *
  rw [hschema, repr_inj hordinal, hbuild, asStr_injective hstep, repr_inj hrevision, hprovider,
    hmodel, hrequest, hraw, houtput, hartifact, repr_inj helapsed, tokensText_injective hin,
    tokensText_injective hout, tokensText_injective hreasoning, hthinking, hevidences, hcontexts,
    hresults, hscratchpad, hprevious, hhash, repr_inj hcreated]

theorem record_unique (h : Validated readFile g record) (h' : Validated readFile' g' record')
    (hfree : sha256 record.hashPreimage = sha256 record'.hashPreimage →
      record.hashPreimage = record'.hashPreimage)
    (hhash : record.recordHash = record'.recordHash)
    (hseparators : separators record = separators record') : record = record' := by
  obtain ⟨hcounts, hids⟩ := Prod.mk.inj hseparators
  apply hashedFields_inj h h' hids _ hhash
  apply string_intercalate_inj '\x00' hcounts
  apply asBytes_injective
  apply hfree
  rw [h.hash, h'.hash] at hhash
  exact sha256Tagged_inj.mp hhash

end Records

structure Reads (readFile : ReadFile) (buildId : String) (index : ℕ) (previousHash : String)
    (file : String × ByteArray) (record : TurnRecord) : Prop where
  parsed : readRecord file.2 = .ok record
  buildId : record.buildId = buildId
  ordinal : record.ordinal = UInt64.ofNat index + 1
  validated : Validated readFile previousHash record
  name : recordName record = file.1

theorem loadRecords_eq_ok {readFile : ReadFile} {buildId : String} {index : ℕ}
    {previous : Option TurnRecord} {files : List (String × ByteArray)}
    {records : List TurnRecord} :
    loadRecords readFile buildId index previous files = .ok records ↔
      Chain (Reads readFile buildId) TurnRecord.recordHash index
        ((previous.map (·.recordHash)).getD "") files records := by
  induction files generalizing index previous records with
  | nil =>
    simp only [loadRecords, Except.ok.injEq]
    constructor
    · rintro rfl
      exact .nil _ _
    · intro h
      cases h
      rfl
  | cons file files ih =>
    obtain ⟨name, bytes⟩ := file
    simp only [loadRecords, bind_eq_ok, refuseIf_eq_ok, pure_eq_ok, validateRecord_eq_ok, not_or,
      ne_eq, not_not]
    constructor
    · rintro ⟨record, hread, _, ⟨hbuild, hordinal⟩, _, hvalid, _, hname, rest, hrest, rfl⟩
      exact .cons ⟨hread, hbuild, hordinal, hvalid, hname⟩ (ih.mp hrest)
    · intro h
      cases h with
      | cons head tail =>
        exact ⟨_, head.parsed, (), ⟨head.buildId, head.ordinal⟩, (), head.validated, (), head.name,
          _, ih.mpr tail, rfl⟩

section Chains

variable {readFile readFile' : ReadFile} {buildId : String} {turns turns' : TurnDirs}
  {records records' : List TurnRecord}

theorem chain_of_load (h : load readFile buildId turns = .ok records) :
    Chain (Reads readFile buildId) TurnRecord.recordHash 0 ""
      (jsonFiles (recordFiles turns buildId)) records := by
  simp only [load, bind_eq_ok, refuseIf_eq_ok] at h
  obtain ⟨_, -, h⟩ := h
  exact loadRecords_eq_ok.mp h

def preimages (records : List TurnRecord) : List (List UInt8) :=
  records.map (·.hashPreimage)

theorem linked_eq (h : Linked TurnRecord.previousHash TurnRecord.recordHash "" records)
    (h' : Linked TurnRecord.previousHash TurnRecord.recordHash "" records')
    (hunique : ∀ r ∈ records, ∀ r' ∈ records', r.recordHash = r'.recordHash →
      separators r = separators r' → r = r')
    (hlast : records.getLast?.map (·.recordHash) = records'.getLast?.map (·.recordHash))
    (hseparators : records.map separators = records'.map separators) : records = records' := by
  induction records using List.reverseRecOn generalizing records' with
  | nil => exact (List.map_eq_nil_iff.mp hseparators.symm).symm
  | append_singleton rs r ih =>
    rcases List.eq_nil_or_concat' records' with rfl | ⟨rs', r', rfl⟩
    · simp at hseparators
    rw [List.map_append, List.map_append] at hseparators
    obtain ⟨hrest, htail⟩ := List.append_inj' hseparators rfl
    obtain rfl : r = r' := by
      apply hunique r (by simp) r' (by simp)
      · simpa using hlast
      · exact List.singleton_inj.mp htail
    obtain ⟨hinit, hprevious⟩ := linked_concat.mp h
    obtain ⟨hinit', hprevious'⟩ := linked_concat.mp h'
    rw [ih hinit hinit' (fun x hx y hy => hunique x (List.mem_append_left _ hx) y
      (List.mem_append_left _ hy)) ?_ hrest]
    -- the shared record carries the hash of the one before it
    have htips := hprevious.symm.trans hprevious'
    have hlength := congrArg List.length hrest
    simp only [List.length_map] at hlength
    rcases List.eq_nil_or_concat' rs with rfl | ⟨ps, p, rfl⟩
    · rw [List.length_eq_zero_iff.mp hlength.symm]
    · rcases List.eq_nil_or_concat' rs' with rfl | ⟨ps', p', rfl⟩
      · simp at hlength
      · simpa using htips

theorem records_unique (h : load readFile buildId turns = .ok records)
    (h' : load readFile' buildId turns' = .ok records')
    (hfree : CollisionFree sha256 (preimages records) (preimages records'))
    (hlast : records.getLast?.map (·.recordHash) = records'.getLast?.map (·.recordHash))
    (hseparators : records.map separators = records'.map separators) : records = records' := by
  have hchain := chain_of_load h
  have hchain' := chain_of_load h'
  apply linked_eq (hchain.linked fun _ _ _ _ hr => hr.validated.previous)
    (hchain'.linked fun _ _ _ _ hr => hr.validated.previous) _ hlast hseparators
  intro r hr r' hr'
  obtain ⟨_, _, _, -, -, hread⟩ := hchain.mem hr
  obtain ⟨_, _, _, -, -, hread'⟩ := hchain'.mem hr'
  exact record_unique hread.validated hread'.validated
    (hfree _ (List.mem_map_of_mem hr) _ (List.mem_map_of_mem hr'))

end Chains

/-- Records and chains of one hash are the same exactly when their separators stand alike. -/
theorem turn_record_binding (readFile readFile' : ReadFile) :
    (∀ (previous previous' : Option TurnRecord) (record record' : TurnRecord),
      validateRecord record readFile previous = .ok () →
      validateRecord record' readFile' previous' = .ok () →
      CollisionFree sha256 [record.hashPreimage] [record'.hashPreimage] →
      record.recordHash = record'.recordHash →
      (record = record' ↔ separators record = separators record')) ∧
    ∀ (buildId : String) (turns turns' : TurnDirs) (records records' : List TurnRecord),
      load readFile buildId turns = .ok records →
      load readFile' buildId turns' = .ok records' →
      CollisionFree sha256 (preimages records) (preimages records') →
      records.getLast?.map (·.recordHash) = records'.getLast?.map (·.recordHash) →
      (records = records' ↔ records.map separators = records'.map separators) := by
  constructor
  · intro previous previous' record record' h h' hfree hhash
    constructor
    · rintro rfl
      rfl
    · exact record_unique (validateRecord_eq_ok.mp h) (validateRecord_eq_ok.mp h')
        (hfree _ List.mem_cons_self _ List.mem_cons_self) hhash
  · intro buildId turns turns' records records' h h' hfree hlast
    constructor
    · rintro rfl
      rfl
    · exact records_unique h h' hfree hlast

def sampleRecord (evidenceIds : List String) : TurnRecord :=
  let tag := sha256Tagged (asBytes "answer")
  let record : TurnRecord :=
    { schemaVersion := 1, ordinal := 1, buildId := "build-demo", step := .intake,
      plannerRevision := 1, provider := "custom", model := "qwen3.5-9b-q8", requestBodyHash := tag,
      rawResponseHash := tag, outputHash := tag, outputArtifact := "outputs/build-demo/answer.txt",
      elapsedMs := 4, inputTokens := none, outputTokens := none, reasoningTokens := none,
      thinkingSource := "reasoning", evidenceIds := evidenceIds, contextRoute := [1, 2, 3, 4],
      resultRoute := [5, 6, 7, 8], scratchpadEntryHash := tag, previousHash := "",
      recordHash := "", createdAtUnixMs := 1 }
  { record with recordHash := record.computedHash }

def answerFile : ReadFile := fun _ => some "answer".toByteArray

theorem validateRecord_sample (evidenceIds : List String) :
    validateRecord (sampleRecord evidenceIds) answerFile none = .ok () := by
  have htag := validSha256Tag_sha256Tagged (asBytes "answer")
  have htexts : isBlank "build-demo" = false ∧ isBlank "custom" = false ∧
      isBlank "qwen3.5-9b-q8" = false ∧ isBlank "reasoning" = false := by decide
  have hpath : safeRelative "outputs/build-demo/answer.txt" =
      some "outputs/build-demo/answer.txt" := by decide +kernel
  apply validateRecord_eq_ok.mpr
  exact ⟨rfl, by simp [sampleRecord], htexts, rfl,
    ⟨htag, htag, htag, htag, validSha256Tag_sha256Tagged _⟩, rfl, rfl, rfl, _, _, hpath, rfl, rfl⟩

theorem turn_record_binding_sample :
    sampleRecord ["wiki:bus", "wiki:gate"] ≠ sampleRecord ["wiki:bus\x1fwiki:gate"] := by
  intro hsame
  have hfree : CollisionFree sha256 [(sampleRecord ["wiki:bus", "wiki:gate"]).hashPreimage]
      [(sampleRecord ["wiki:bus\x1fwiki:gate"]).hashPreimage] := by
    intro b hb c hc _
    rw [List.mem_singleton.mp hb, List.mem_singleton.mp hc]
    rfl
  have hseparators := ((turn_record_binding answerFile answerFile).1 none none _ _
    (validateRecord_sample _) (validateRecord_sample _) hfree rfl).mp hsame
  exact absurd (congrArg Prod.snd hseparators) (by decide)

theorem turn_record_not_bound : ∃ record record' : TurnRecord,
    validateRecord record answerFile none = .ok () ∧
    validateRecord record' answerFile none = .ok () ∧
    record.recordHash = record'.recordHash ∧ record ≠ record' := by
  refine ⟨sampleRecord ["wiki:bus", "wiki:gate"], sampleRecord ["wiki:bus\x1fwiki:gate"],
    validateRecord_sample _, validateRecord_sample _, rfl, fun h => ?_⟩
  exact absurd (congrArg TurnRecord.evidenceIds h) (by decide)

end AtomVibe.TurnBinding
