import AtomVibe.Scratchpad
import AtomVibe.Foundations.HashChain

namespace AtomVibe.ScratchpadCodec

open Checked Text Json JsonText JsonRoundTrip JsonCodec BuildProtocol Scratchpad

def stepDoc : Option BuildStep → JsonValue
  | none => .null
  | some step => .string step.asStr

def entryDoc (entry : ScratchpadEntry) : JsonValue :=
  .object
    [("schema_version", numberDoc entry.schemaVersion.toNat),
      ("ordinal", numberDoc entry.ordinal.toNat),
      ("build_id", .string entry.buildId),
      ("model_scope_hash", .string entry.modelScopeHash),
      ("step", stepDoc entry.step),
      ("kind", .string entry.kind.asStr),
      ("content", .string entry.content),
      ("content_hash", .string entry.contentHash),
      ("previous_hash", .string entry.previousHash),
      ("entry_hash", .string entry.entryHash),
      ("source_ids", stringArrayDoc entry.sourceIds),
      ("created_at_unix_ms", numberDoc entry.createdAtUnixMs.toNat)]

theorem quote_asStr (step : BuildStep) : quote step.asStr = "\"" ++ step.asStr ++ "\"" := by
  cases step <;> decide

theorem quote_kind (kind : ScratchpadEntryKind) :
    quote kind.asStr = "\"" ++ kind.asStr ++ "\"" := by
  cases kind <;> decide

theorem render_stepDoc (step : Option BuildStep) :
    render (stepDoc step) = (step.map fun step => "\"" ++ step.asStr ++ "\"").getD "null" := by
  cases step with
  | none => simp [stepDoc, render]
  | some step => simp [stepDoc, render, quote_asStr]

theorem entryToJson_eq (entry : ScratchpadEntry) : entryToJson entry = render (entryDoc entry) := by
  simp only [entryToJson, entryDoc, render, List.map_cons, List.map_nil, render_numberDoc,
    render_stringArrayDoc, render_stepDoc, quote_kind]

theorem fits_entryDoc (entry : ScratchpadEntry) : Fits (maxDepth + 1) (entryDoc entry) := by
  refine ⟨by simp, ?_⟩
  simp only [List.forall_mem_cons, List.not_mem_nil, false_imp_iff, implies_true, and_true]
  refine ⟨⟨by decide, _, rfl⟩, ⟨by decide, _, rfl⟩, ⟨by decide, trivial⟩, ⟨by decide, trivial⟩,
    ⟨by decide, ?_⟩, ⟨by decide, trivial⟩, ⟨by decide, trivial⟩, ⟨by decide, trivial⟩,
    ⟨by decide, trivial⟩, ⟨by decide, trivial⟩, ⟨by decide, ?_⟩, ⟨by decide, _, rfl⟩⟩
  · cases entry.step <;> exact trivial
  · intro v hv
    obtain ⟨id, -, rfl⟩ := List.mem_map.mp hv
    trivial

def sanitizeEntry (entry : ScratchpadEntry) : ScratchpadEntry :=
  { entry with
    buildId := sanitize entry.buildId
    modelScopeHash := sanitize entry.modelScopeHash
    content := sanitize entry.content
    contentHash := sanitize entry.contentHash
    previousHash := sanitize entry.previousHash
    entryHash := sanitize entry.entryHash
    sourceIds := entry.sourceIds.map sanitize }

theorem lossless_kind (kind : ScratchpadEntryKind) : Lossless kind.asStr := by
  cases kind <;> decide

theorem parseStep_clean {root : JsonValue} {step : Option BuildStep}
    (h : root.get "step" = some (clean (stepDoc step))) : parseStep root = .ok step := by
  cases step with
  | none => simp [parseStep, h, stepDoc, clean]
  | some step =>
    simp only [stepDoc, clean, (sanitize_eq_self_iff _).mpr step.lossless_asStr] at h
    simp [parseStep, h, BuildStep.parse_asStr, Except.map]

theorem parseSourceIds_clean {root : JsonValue} {values : List String}
    (h : root.get "source_ids" = some (clean (stringArrayDoc values))) :
    parseSourceIds root = .ok (values.map sanitize) := by
  simp only [parseSourceIds, h, stringArrayDoc, clean, Option.bind_some, JsonValue.asArray,
    okOr_some, bind, Except.bind, List.map_map]
  exact mapM_ok values fun value _ => by simp [clean, JsonValue.asStr]

theorem entryFromJson_clean (entry : ScratchpadEntry) :
    entryFromJson (clean (entryDoc entry)) = .ok (sanitizeEntry entry) := by
  have hget : ∀ key v, (entryDoc entry).get key = some v →
      (clean (entryDoc entry)).get key = some (clean v) := fun _ _ h => get_clean h
  have hstring : ∀ key value, (entryDoc entry).get key = some (.string value) →
      Scratchpad.stringField (clean (entryDoc entry)) key = .ok (sanitize value) := by
    intro key value h
    exact stringField_of_get ((hget _ _ h).trans (by rw [clean]))
  have hnumber : ∀ key (n : UInt64), (entryDoc entry).get key = some (numberDoc n.toNat) →
      Scratchpad.numberField (clean (entryDoc entry)) key = .ok n := by
    intro key n h
    exact numberField_of_get ((hget _ _ h).trans (by rw [clean_numberDoc]))
  have hversion : Scratchpad.numberField (clean (entryDoc entry)) "schema_version" =
      .ok entry.schemaVersion.toUInt64 := by
    refine hnumber _ _ ?_
    rfl
  simp only [entryFromJson, parseStep_clean (hget _ _ rfl), parseSourceIds_clean (hget _ _ rfl),
    hversion, hnumber "ordinal" _ rfl, hnumber "created_at_unix_ms" _ rfl,
    hstring "kind" _ rfl, hstring "build_id" _ rfl, hstring "model_scope_hash" _ rfl,
    hstring "content" _ rfl, hstring "content_hash" _ rfl, hstring "previous_hash" _ rfl,
    hstring "entry_hash" _ rfl, (sanitize_eq_self_iff _).mpr (lossless_kind entry.kind),
    ScratchpadEntryKind.parse_asStr, okOr_some, bind, Except.bind, pure, Except.pure,
    sanitizeEntry]
  simp

theorem parseEntry_entryToJson (entry : ScratchpadEntry) :
    parseEntry (entryToJson entry) = .ok (sanitizeEntry entry) := by
  rw [parseEntry, entryToJson_eq, parse_render (fits_entryDoc entry)]
  exact entryFromJson_clean entry

end AtomVibe.ScratchpadCodec

namespace AtomVibe.ScratchpadChain

open Text JsonText PrefixCode HashChain ReadChain Hash BuildProtocol ChainFiles Scratchpad ScratchpadStore
open Checked

theorem selfDelimiting_encodeValue : SelfDelimiting encodeValue := by
  have h := @selfDelimiting_of_header String Char (fun n => n.repr.toList) ':' String.toList
    Char.utf8Size Char.utf8Size_pos colon_not_mem_repr
    (fun m n h => repr_injective (String.toList_inj.mp h)) (fun s t h => String.toList_inj.mp h)
  have he : encodeValue = fun value : String =>
      (value.toList.map Char.utf8Size).sum.repr.toList ++ ':' :: value.toList := by
    funext value
    rw [encodeValue, utf8ByteSize_eq, utf8Len]
  rwa [he]

theorem encodeSequence_injective : Function.Injective encodeSequence := by
  intro xs ys h
  refine selfDelimiting_encodeValue.flatMap_injective (fun value => ?_) (String.ofList_injective h)
  simp [encodeValue]

theorem stepText_injective : Function.Injective fun step : Option BuildStep =>
    (step.map BuildStep.asStr).getD "" := by
  have hne : ∀ step : BuildStep, step.asStr ≠ "" := by
    intro step
    cases step <;> decide
  intro s t h
  cases s with
  | none =>
    cases t with
    | none => rfl
    | some t => exact absurd h.symm (hne t)
  | some s =>
    cases t with
    | none => exact absurd h (hne s)
    | some t =>
      have hs := BuildStep.parse_asStr s
      rw [show s.asStr = t.asStr from h, BuildStep.parse_asStr] at hs
      exact hs.symm

theorem kindText_injective : Function.Injective ScratchpadEntryKind.asStr := by
  intro s t h
  have hs := ScratchpadEntryKind.parse_asStr s
  rw [h, ScratchpadEntryKind.parse_asStr] at hs
  exact (Option.some.inj hs).symm

theorem uint64_repr_injective {m n : UInt64} (h : m.toNat.repr = n.toNat.repr) : m = n :=
  UInt64.toNat_inj.mp (repr_injective h)

theorem hashPreimage_inj {scope : ScratchpadScope} {i j : EntryHashInput}
    (h : hashPreimage scope i = hashPreimage scope j) : i = j := by
  have hfields := encodeSequence_injective (asBytes_injective h)
  simp only [hashFields, List.cons.injEq, true_and, and_true] at hfields
  obtain ⟨hordinal, hprevious, hstep, hkind, hcontent, hsources, hcreated⟩ := hfields
  obtain ⟨io, ip, is, ik, ic, iq, it⟩ := i
  obtain ⟨jo, jp, js, jk, jc, jq, jt⟩ := j
  simp only at hordinal hprevious hstep hkind hcontent hsources hcreated
  obtain rfl := uint64_repr_injective hordinal
  obtain rfl := hprevious
  obtain rfl := stepText_injective hstep
  obtain rfl := kindText_injective hkind
  obtain rfl := hcontent
  obtain rfl := encodeSequence_injective hsources
  obtain rfl := uint64_repr_injective hcreated
  rfl

structure Validated (scope : ScratchpadScope) (ordinal : UInt64) (previousHash : String)
    (entry : ScratchpadEntry) : Prop where
  version : entry.schemaVersion = Scratchpad.schemaVersion
  ordinal : entry.ordinal = ordinal
  buildId : entry.buildId = scope.buildId
  modelScope : entry.modelScopeHash = scope.modelScopeHash
  previous : entry.previousHash = previousHash
  content : validateContent entry.content = .ok ()
  sources : validateSourceIds entry.sourceIds = .ok ()
  contentHash : entry.contentHash = sha256Tagged (asBytes entry.content)
  entryHash : entry.entryHash = computeEntryHash scope entry.hashInput

theorem validate_eq_ok {entry : ScratchpadEntry} {scope : ScratchpadScope} {ordinal : UInt64}
    {previousHash : String} :
    entry.validate scope ordinal previousHash = .ok () ↔
      Validated scope ordinal previousHash entry := by
  unfold ScratchpadEntry.validate
  constructor
  · intro h
    by_cases hheader : entry.schemaVersion = Scratchpad.schemaVersion ∧ entry.ordinal = ordinal ∧
        entry.buildId = scope.buildId ∧ entry.modelScopeHash = scope.modelScopeHash ∧
        entry.previousHash = previousHash
    · obtain ⟨hv, ho, hb, hm, hp⟩ := hheader
      rw [if_neg (by simp [hv, ho, hb, hm, hp])] at h
      simp only [bind_eq_ok] at h
      obtain ⟨_, hcontent, _, hsources, h⟩ := h
      by_cases hc : entry.contentHash = sha256Tagged (asBytes entry.content)
      · rw [if_neg (not_not.mpr hc)] at h
        by_cases he : entry.entryHash = computeEntryHash scope entry.hashInput
        · exact ⟨hv, ho, hb, hm, hp, hcontent, hsources, hc, he⟩
        · rw [if_pos he] at h
          exact absurd h (by simp)
      · rw [if_pos hc] at h
        exact absurd h (by simp)
    · rw [if_pos (by simpa [-not_and, not_and_or, or_assoc] using hheader)] at h
      exact absurd h (by simp)
  · rintro ⟨hv, ho, hb, hm, hp, hcontent, hsources, hc, he⟩
    rw [if_neg (by simp [hv, ho, hb, hm, hp]), hcontent, hsources]
    simp only [bind, Except.bind]
    rw [if_neg (by simpa using hc), if_neg (by simpa using he)]

structure Reads (scope : ScratchpadScope) (ordinal : UInt64) (previousHash : String)
    (file : String × ByteArray) (entry : ScratchpadEntry) : Prop where
  parsed : (do let text ← readToString file.2; parseEntry text) = .ok entry
  validated : Validated scope ordinal previousHash entry
  name : file.1 = entryName entry

abbrev ReadsChain (scope : ScratchpadScope) :
    ℕ → String → List (String × ByteArray) → List ScratchpadEntry → Prop :=
  Chain (fun index => Reads scope (UInt64.ofNat index + 1)) ScratchpadEntry.entryHash

theorem contentBytes_cons (entry : ScratchpadEntry) (entries : List ScratchpadEntry) :
    contentBytes (entry :: entries) = entry.content.utf8ByteSize + contentBytes entries := rfl

theorem loadEntries_eq_ok {store : ScratchpadStore} {index total : ℕ} {previousHash : String}
    {files : List (String × ByteArray)} {entries : List ScratchpadEntry}
    (htotal : total ≤ maxScratchpadBytes) :
    store.loadEntries index previousHash total files = .ok entries ↔
      ReadsChain store.scope index previousHash files entries ∧
        total + contentBytes entries ≤ maxScratchpadBytes := by
  induction files generalizing index previousHash total entries with
  | nil =>
    simp only [loadEntries, Except.ok.injEq]
    constructor
    · rintro rfl
      exact ⟨.nil index previousHash, htotal⟩
    · rintro ⟨h, -⟩
      cases h
      rfl
  | cons file files ih =>
    obtain ⟨name, bytes⟩ := file
    simp only [loadEntries, bind_eq_ok]
    constructor
    · rintro ⟨text, htext, entry, hparse, _, hvalid, h⟩
      split_ifs at h with hname hbytes
      simp only [bind_eq_ok, pure_eq_ok] at h
      obtain ⟨rest, hrest, rfl⟩ := h
      obtain ⟨htail, hsum⟩ := (ih (not_lt.mp hbytes)).mp hrest
      refine ⟨.cons ⟨bind_eq_ok.mpr ⟨text, htext, hparse⟩, validate_eq_ok.mp hvalid,
        not_not.mp hname⟩ htail, ?_⟩
      rwa [contentBytes_cons, ← Nat.add_assoc]
    · rintro ⟨h, hsum⟩
      cases h with
      | @cons _ _ _ entry _ rest head tail =>
        obtain ⟨text, htext, hparse⟩ := bind_eq_ok.mp head.parsed
        rw [contentBytes_cons, ← Nat.add_assoc] at hsum
        have hbytes : ¬ maxScratchpadBytes < total + entry.content.utf8ByteSize := by omega
        refine ⟨text, htext, entry, hparse, (), validate_eq_ok.mpr head.validated, ?_⟩
        rw [if_neg (not_not.mpr head.name), if_neg hbytes]
        exact bind_eq_ok.mpr ⟨rest, (ih (not_lt.mp hbytes)).mpr ⟨tail, hsum⟩, rfl⟩

theorem ReadsChain.linked {scope : ScratchpadScope} {index : ℕ} {previousHash : String}
    {files : List (String × ByteArray)} {entries : List ScratchpadEntry}
    (h : ReadsChain scope index previousHash files entries) :
    Linked ScratchpadEntry.previousHash ScratchpadEntry.entryHash previousHash entries :=
  Chain.linked (fun _ _ _ _ hr => hr.validated.previous) h

theorem ReadsChain.validated {scope : ScratchpadScope} {index : ℕ} {previousHash : String}
    {files : List (String × ByteArray)} {entries : List ScratchpadEntry}
    (h : ReadsChain scope index previousHash files entries) (entry : ScratchpadEntry)
    (hmem : entry ∈ entries) :
    ∃ ordinal previous, Validated scope ordinal previous entry := by
  obtain ⟨_, previous, _, _, _, hr⟩ := Chain.mem h hmem
  exact ⟨_, previous, hr.validated⟩

theorem ReadsChain.last_ordinal {scope : ScratchpadScope} {index : ℕ} {previousHash : String}
    {files : List (String × ByteArray)} {entries : List ScratchpadEntry} {entry : ScratchpadEntry}
    (h : ReadsChain scope index previousHash files (entries ++ [entry])) :
    entry.ordinal = UInt64.ofNat (index + entries.length + 1) := by
  have hne : files ≠ [] := by
    rintro rfl
    simpa using Chain.length_eq h
  obtain ⟨files', file, rfl⟩ := List.eq_nil_or_concat' files |>.resolve_left hne
  obtain ⟨entries', entry', heq, -, hr⟩ := Chain.of_concat h
  obtain ⟨rfl, hentry⟩ := List.append_inj' heq rfl
  obtain rfl := List.singleton_inj.mp hentry
  rw [hr.validated.ordinal]
  simp [UInt64.ofNat_add]

structure Accepts (store : ScratchpadStore) (files : ScratchpadFiles)
    (entries : List ScratchpadEntry) : Prop where
  scope : ∀ bytes, files.scope = some bytes → readToString bytes = .ok store.scopeBody
  chain : ReadsChain store.scope 0 "" (jsonFiles files.entries) entries
  count : entries.length ≤ maxScratchpadEntries
  bytes : contentBytes entries ≤ maxScratchpadBytes
  sealing : store.verifySealFile files.sealFile entries = .ok ()

theorem loadChain_eq_ok {store : ScratchpadStore} {files : ScratchpadFiles}
    {entries : List ScratchpadEntry} :
    store.loadChain files = .ok entries ↔
      ReadsChain store.scope 0 "" (jsonFiles files.entries) entries ∧
        entries.length ≤ maxScratchpadEntries ∧ contentBytes entries ≤ maxScratchpadBytes ∧
        store.verifySealFile files.sealFile entries = .ok () := by
  have hload := fun es => @loadEntries_eq_ok store 0 0 "" (jsonFiles files.entries) es
    (Nat.zero_le _)
  simp only [Nat.zero_add] at hload
  unfold loadChain
  dsimp only
  constructor
  · intro h
    by_cases hcount : maxScratchpadEntries < (jsonFiles files.entries).length
    · rw [if_pos hcount] at h
      exact absurd h (by simp)
    rw [if_neg hcount] at h
    obtain ⟨es, hes, h⟩ := bind_eq_ok.mp h
    obtain ⟨_, hseal, h⟩ := bind_eq_ok.mp h
    obtain rfl := pure_eq_ok.mp h
    obtain ⟨hchain, hbytes⟩ := (hload es).mp hes
    exact ⟨hchain, by rw [← hchain.length_eq]; exact not_lt.mp hcount, hbytes, hseal⟩
  · rintro ⟨hchain, hcount, hbytes, hseal⟩
    rw [if_neg (by rw [hchain.length_eq]; exact not_lt.mpr hcount)]
    refine bind_eq_ok.mpr ⟨entries, (hload entries).mpr ⟨hchain, hbytes⟩, ?_⟩
    exact bind_eq_ok.mpr ⟨(), hseal, rfl⟩

def withScope (store : ScratchpadStore) (files : ScratchpadFiles) : ScratchpadFiles :=
  { files with scope := some (files.scope.getD store.scopeBody.toByteArray) }

theorem writeOrVerifyScope_cases (store : ScratchpadStore) (files : ScratchpadFiles) :
    ((∀ bytes, files.scope = some bytes → readToString bytes = .ok store.scopeBody) ∧
      store.writeOrVerifyScope files = (.ok (), withScope store files)) ∨
    ((∃ bytes, files.scope = some bytes ∧ readToString bytes ≠ .ok store.scopeBody) ∧
      ∃ error, store.writeOrVerifyScope files = (.error error, files)) := by
  unfold writeOrVerifyScope withScope
  cases hs : files.scope with
  | none => exact .inl ⟨by simp, rfl⟩
  | some bytes =>
    cases hr : readToString bytes with
    | error error =>
      exact .inr ⟨⟨bytes, rfl, by simp [hr]⟩, error, by simp only [hr, bind, Except.bind]⟩
    | ok text =>
      by_cases ht : text = store.scopeBody
      · refine .inl ⟨fun b hb => by rw [← Option.some.inj hb, hr, ht], ?_⟩
        simp only [hr, bind, Except.bind, ne_eq, ht, not_true_eq_false, if_false, Option.getD_some]
        rw [← hs]
      · refine .inr ⟨⟨bytes, rfl, by simp [hr, ht]⟩,
          .evidence "scratchpad scope manifest changed", ?_⟩
        simp only [hr, bind, Except.bind, ne_eq, ht, not_false_eq_true, if_true]

theorem loadUnlocked_of_accepts {store : ScratchpadStore} {files : ScratchpadFiles}
    {entries : List ScratchpadEntry} (h : Accepts store files entries) :
    store.loadUnlocked files = (.ok entries, withScope store files) := by
  rcases writeOrVerifyScope_cases store files with ⟨-, hw⟩ | ⟨⟨bytes, hb, hne⟩, -⟩
  · rw [loadUnlocked, hw]
    exact congrArg (·, _) (loadChain_eq_ok.mpr ⟨h.chain, h.count, h.bytes, h.sealing⟩)
  · exact absurd (h.scope bytes hb) hne

theorem load_eq_ok {store : ScratchpadStore} {files : ScratchpadFiles}
    {entries : List ScratchpadEntry} :
    (store.load files).1 = .ok entries ↔ Accepts store files entries := by
  refine ⟨fun h => ?_, fun h => by rw [load, loadUnlocked_of_accepts h]⟩
  rcases writeOrVerifyScope_cases store files with ⟨hs, hw⟩ | ⟨-, error, hw⟩
  · rw [load, loadUnlocked, hw] at h
    obtain ⟨hchain, hcount, hbytes, hseal⟩ := loadChain_eq_ok.mp h
    exact ⟨hs, hchain, hcount, hbytes, hseal⟩
  · rw [load, loadUnlocked, hw] at h
    exact absurd h (by simp)

end AtomVibe.ScratchpadChain
