import AtomVibe.ScratchpadChain

namespace AtomVibe.ScratchpadAppend

open Text JsonText HashChain ReadChain Hash Secrets BuildProtocol ChainFiles Scratchpad ScratchpadStore
open ScratchpadCodec ScratchpadChain
open Checked

@[simp]
theorem readToString_toByteArray (s : String) : readToString s.toByteArray = .ok s := by
  rw [readToString, fromUTF8?_toByteArray, okOr_some]

theorem numbered_of_chain {scope : ScratchpadScope} {index : ℕ} {previousHash : String}
    {files : List (String × ByteArray)} {entries : List ScratchpadEntry}
    (h : ReadsChain scope index previousHash files entries)
    (hsize : index + entries.length < UInt64.size) (file : String × ByteArray) (hfile : file ∈ files) :
    ∃ n hash, n ≤ index + entries.length ∧ file.1 = numberedName n hash := by
  obtain ⟨k, hk⟩ := List.getElem?_of_mem hfile
  obtain ⟨_, entry, hentry, hr⟩ := Chain.get h hk
  obtain ⟨hlt, -⟩ := List.getElem?_eq_some_iff.mp hentry
  have hindex : (UInt64.ofNat (index + k) + 1).toNat = index + k + 1 := by
    rw [show UInt64.ofNat (index + k) + 1 = UInt64.ofNat (index + k + 1) by
      simp [UInt64.ofNat_add]]
    exact UInt64.toNat_ofNat_of_lt' (by omega)
  refine ⟨index + k + 1, entry.entryHash, by omega, ?_⟩
  rw [hr.name, entryName, hr.validated.ordinal, hindex]

theorem lastEntryHash_eq_tip (entries : List ScratchpadEntry) :
    lastEntryHash entries = tip ScratchpadEntry.entryHash "" entries :=
  (tip_eq_getLast "" entries).symm

theorem lossless_lastEntryHash {scope : ScratchpadScope} {index : ℕ} {previousHash : String}
    {files : List (String × ByteArray)} {entries : List ScratchpadEntry}
    (h : ReadsChain scope index previousHash files entries) : Lossless (lastEntryHash entries) := by
  rcases List.eq_nil_or_concat' entries with rfl | ⟨entries, entry, rfl⟩
  · decide
  · obtain ⟨_, _, hv⟩ := h.validated entry (by simp)
    rw [lastEntryHash, List.getLast?_concat]
    rw [Option.map_some, Option.getD_some, hv.entryHash]
    exact lossless_sha256Tagged _

theorem lossless_scope (store : ScratchpadStore) :
    Lossless store.scope.buildId ∧ Lossless store.scope.modelScopeHash := by
  obtain ⟨_, hid, hhash⟩ := bind_eq_ok.mp store.valid
  unfold validateBuildId at hid
  split_ifs at hid with hbad
  split_ifs at hhash with htag
  simp only [Bool.or_eq_true, Bool.not_eq_true', not_or, Bool.not_eq_false] at hbad
  exact ⟨lossless_of_idChars hbad.2, lossless_of_validSha256Tag htag⟩

theorem lossless_sources {values : List String} (h : validateSourceIds values = .ok ()) :
    ∀ value ∈ values, Lossless value := by
  unfold validateSourceIds at h
  split_ifs at h with hbad
  simp only [Bool.or_eq_true, not_or, List.any_eq_true, not_exists, not_and] at hbad
  intro value hvalue c hc
  have hcontrol := (hbad.2 value hvalue).2
  exact lossy_of_not_control (by simpa using fun hx => hcontrol c hc hx)

theorem sanitizeEntry_eq_self_iff {store : ScratchpadStore} {ordinal : UInt64}
    {previousHash : String} {entry : ScratchpadEntry}
    (h : Validated store.scope ordinal previousHash entry) (hprevious : Lossless previousHash) :
    sanitizeEntry entry = entry ↔ Lossless entry.content := by
  have hid : sanitize entry.buildId = entry.buildId :=
    (sanitize_eq_self_iff _).mpr (h.buildId ▸ (lossless_scope store).1)
  have hmodel : sanitize entry.modelScopeHash = entry.modelScopeHash :=
    (sanitize_eq_self_iff _).mpr (h.modelScope ▸ (lossless_scope store).2)
  have hcontent : sanitize entry.contentHash = entry.contentHash :=
    (sanitize_eq_self_iff _).mpr (h.contentHash ▸ lossless_sha256Tagged _)
  have hprev : sanitize entry.previousHash = entry.previousHash :=
    (sanitize_eq_self_iff _).mpr (h.previous ▸ hprevious)
  have hentry : sanitize entry.entryHash = entry.entryHash := by
    rw [sanitize_eq_self_iff, h.entryHash]
    exact lossless_sha256Tagged _
  have hsources : entry.sourceIds.map sanitize = entry.sourceIds :=
    (JsonCodec.map_sanitize_eq_self_iff _).mpr (lossless_sources h.sources)
  rw [← sanitize_eq_self_iff, sanitizeEntry, hid, hmodel, hcontent, hprev, hentry, hsources]
  exact ⟨fun he => congrArg ScratchpadEntry.content he, fun hc => by rw [hc]⟩

theorem create_cases (scope : ScratchpadScope) (ordinal : UInt64) (previousHash : String)
    (step : Option BuildStep) (kind : ScratchpadEntryKind) (content : String)
    (sourceIds : List String) (now : UInt64) :
    (validateContent content = .ok () ∧ validateSourceIds sourceIds = .ok () ∧
      ∃ entry, ScratchpadEntry.create scope ordinal previousHash step kind content sourceIds now =
        .ok entry ∧ Validated scope ordinal previousHash entry ∧ entry.content = content) ∨
    (¬(validateContent content = .ok () ∧ validateSourceIds sourceIds = .ok ()) ∧
      ∃ error, ScratchpadEntry.create scope ordinal previousHash step kind content sourceIds now =
        .error error) := by
  unfold ScratchpadEntry.create
  cases hc : validateContent content with
  | error error => exact .inr ⟨by simp, error, rfl⟩
  | ok _ =>
    cases hs : validateSourceIds sourceIds with
    | error error => exact .inr ⟨by simp, error, rfl⟩
    | ok _ => exact .inl ⟨rfl, rfl, _, rfl, ⟨rfl, rfl, rfl, rfl, rfl, hc, hs, rfl, rfl⟩, rfl⟩

theorem readBack_eq {store : ScratchpadStore} {entry : ScratchpadEntry}
    (hvalid : Validated store.scope entry.ordinal entry.previousHash entry) :
    (sanitizeEntry entry = entry →
      store.readBack entry (entryToJson entry).toByteArray = .ok entry) ∧
    (sanitizeEntry entry ≠ entry →
      ∃ error, store.readBack entry (entryToJson entry).toByteArray = .error error) := by
  have hread : store.readBack entry (entryToJson entry).toByteArray = (do
      (sanitizeEntry entry).validate store.scope entry.ordinal entry.previousHash
      if sanitizeEntry entry ≠ entry then
        .error (.evidence "scratchpad entry readback changed") else .ok entry) := by
    rw [readBack, readToString_toByteArray]
    simp only [bind, Except.bind, parseEntry_entryToJson]
  rw [hread]
  constructor
  · intro h
    rw [h, validate_eq_ok.mpr hvalid]
    simp [bind, Except.bind]
  · intro h
    cases (sanitizeEntry entry).validate store.scope entry.ordinal entry.previousHash with
    | error error => exact ⟨error, rfl⟩
    | ok _ => exact ⟨_, if_pos h⟩

structure Admitted (files : ScratchpadFiles) (entries : List ScratchpadEntry) (content : String)
    (sourceIds : List String) : Prop where
  unsealed : files.sealFile = none
  count : entries.length < maxScratchpadEntries
  bytes : contentBytes entries + (redactSensitiveText content).utf8ByteSize ≤ maxScratchpadBytes
  content : validateContent (redactSensitiveText content) = .ok ()
  sources : validateSourceIds sourceIds = .ok ()

theorem accepts_withScope {store : ScratchpadStore} {files : ScratchpadFiles}
    {entries : List ScratchpadEntry} (h : Accepts store files entries) :
    Accepts store (withScope store files) entries := by
  refine ⟨fun bytes hb => ?_, h.chain, h.count, h.bytes, h.sealing⟩
  cases hs : files.scope with
  | none =>
    rw [ScratchpadChain.withScope, hs] at hb
    rw [← Option.some.inj hb]
    exact readToString_toByteArray _
  | some old =>
    rw [ScratchpadChain.withScope, hs] at hb
    rw [← Option.some.inj hb]
    exact h.scope old hs

theorem toNat_ordinal {n : ℕ} (hn : n < maxScratchpadEntries) :
    (UInt64.ofNat n + 1).toNat = n + 1 := by
  have hlt : n + 1 < UInt64.size := lt_of_le_of_lt hn (by decide)
  rw [show UInt64.ofNat n + 1 = UInt64.ofNat (n + 1) by simp [UInt64.ofNat_add]]
  exact UInt64.toNat_ofNat_of_lt' hlt

theorem lt_entryName {store : ScratchpadStore} {files : ScratchpadFiles}
    {entries : List ScratchpadEntry} (h : Accepts store files entries)
    (hcount : entries.length < maxScratchpadEntries) {entry : ScratchpadEntry}
    (hordinal : entry.ordinal = UInt64.ofNat entries.length + 1) (file : String × ByteArray)
    (hfile : file ∈ jsonFiles files.entries) : file.1 < entryName entry := by
  have hlt : entries.length + 1 < 10 ^ 6 := lt_of_le_of_lt hcount (by decide)
  obtain ⟨n, hash, hn, hname⟩ := numbered_of_chain h.chain
    (by rw [Nat.zero_add]; exact lt_trans hcount (by decide)) file hfile
  rw [hname, entryName, hordinal, toNat_ordinal hcount]
  exact numberedName_lt (by omega) hlt _ _

def withEntry (store : ScratchpadStore) (files : ScratchpadFiles) (entry : ScratchpadEntry) :
    ScratchpadFiles :=
  { withScope store files with
    entries := files.entries.insert (entryName entry) (entryToJson entry).toByteArray }

theorem writeEntry_eq {store : ScratchpadStore} {files : ScratchpadFiles}
    {entries : List ScratchpadEntry} (h : Accepts store files entries)
    (hcount : entries.length < maxScratchpadEntries) {entry : ScratchpadEntry}
    (hordinal : entry.ordinal = UInt64.ofNat entries.length + 1) :
    store.writeEntry entry (withScope store files) =
        (store.readBack entry (entryToJson entry).toByteArray, withEntry store files entry) ∧
      jsonFiles (withEntry store files entry).entries =
        jsonFiles files.entries ++ [(entryName entry, (entryToJson entry).toByteArray)] := by
  have hwrite := fun conflict : ScratchpadError => writeNewAtomic_new conflict
    (entryToJson entry).toByteArray
    (show hasJsonExtension (entryName entry) = true from hasJsonExtension_numberedName _ _)
    (lt_entryName h hcount hordinal)
  have hlookup : (files.entries.insert (entryName entry) (entryToJson entry).toByteArray).lookup
      (entryName entry) = some (entryToJson entry).toByteArray := by
    rw [Catalog.lookup_insert, if_pos rfl]
  refine ⟨?_, (hwrite .sealed).2⟩
  unfold writeEntry
  dsimp only
  rw [show (withScope store files).entries = files.entries from rfl, (hwrite _).1]
  dsimp only
  rw [hlookup]
  rfl

theorem append_cases {store : ScratchpadStore} {files : ScratchpadFiles}
    {entries : List ScratchpadEntry} (h : Accepts store files entries) (now : UInt64)
    (step : Option BuildStep) (kind : ScratchpadEntryKind) (content : String)
    (sourceIds : List String) :
    (Admitted files entries content sourceIds ∧ ∃ entry,
      Validated store.scope (UInt64.ofNat entries.length + 1) (lastEntryHash entries) entry ∧
      entry.content = redactSensitiveText content ∧
      store.append now step kind content sourceIds files =
        (store.readBack entry (entryToJson entry).toByteArray, withEntry store files entry) ∧
      jsonFiles (withEntry store files entry).entries =
        jsonFiles files.entries ++ [(entryName entry, (entryToJson entry).toByteArray)]) ∨
    (¬Admitted files entries content sourceIds ∧ ∃ error files',
      store.append now step kind content sourceIds files = (.error error, files') ∧
      Accepts store files' entries) := by
  unfold append
  by_cases hseal : files.sealFile = none
  swap
  · rw [if_pos (Option.isSome_iff_ne_none.mpr hseal)]
    exact .inr ⟨fun ha => hseal ha.unsealed, _, _, rfl, h⟩
  rw [if_neg (by simp [hseal]), loadUnlocked_of_accepts h]
  dsimp only
  by_cases hcount : maxScratchpadEntries ≤ entries.length
  · rw [if_pos hcount]
    exact .inr ⟨fun ha => absurd ha.count (not_lt.mpr hcount), _, _, rfl, accepts_withScope h⟩
  rw [if_neg hcount]
  unfold appendEntry
  by_cases hbytes : maxScratchpadBytes <
      contentBytes entries + (redactSensitiveText content).utf8ByteSize
  · rw [if_pos hbytes]
    exact .inr ⟨fun ha => absurd ha.bytes (not_le.mpr hbytes), _, _, rfl, accepts_withScope h⟩
  rw [if_neg hbytes]
  rcases create_cases store.scope (UInt64.ofNat entries.length + 1) (lastEntryHash entries) step
    kind (redactSensitiveText content) sourceIds now with
    ⟨hcontent, hsources, entry, hcreate, hvalid, hc⟩ | ⟨hbad, error, hcreate⟩
  · rw [hcreate]
    dsimp only
    obtain ⟨hwrite, hfiles⟩ := writeEntry_eq h (not_le.mp hcount) hvalid.ordinal
    exact .inl ⟨⟨hseal, not_le.mp hcount, not_lt.mp hbytes, hcontent, hsources⟩, entry, hvalid,
      hc, hwrite, hfiles⟩
  · rw [hcreate]
    exact .inr ⟨fun ha => hbad ⟨ha.content, ha.sources⟩, _, _, rfl, accepts_withScope h⟩

structure AppendAtomic (store : ScratchpadStore) (files : ScratchpadFiles)
    (entries : List ScratchpadEntry) (now : UInt64) (step : Option BuildStep)
    (kind : ScratchpadEntryKind) (content : String) (sourceIds : List String) : Prop where
  rejected : ∀ error, (store.append now step kind content sourceIds files).1 = .error error →
    (store.load (store.append now step kind content sourceIds files).2).1 = .ok entries
  accepted : ∀ entry, (store.append now step kind content sourceIds files).1 = .ok entry →
    (store.load (store.append now step kind content sourceIds files).2).1 =
      .ok (entries ++ [entry]) ∧ entry.content = redactSensitiveText content
  complete : Admitted files entries content sourceIds →
    ∃ entry, (store.append now step kind content sourceIds files).1 = .ok entry

section Append

variable {store : ScratchpadStore} {files : ScratchpadFiles} {entries : List ScratchpadEntry}
  {content : String} {sourceIds : List String}

theorem accepts_withEntry (h : Accepts store files entries)
    (ha : Admitted files entries content sourceIds) {entry : ScratchpadEntry}
    (hvalid : Validated store.scope (UInt64.ofNat entries.length + 1) (lastEntryHash entries) entry)
    (hcontent : entry.content = redactSensitiveText content)
    (hfiles : jsonFiles (withEntry store files entry).entries =
      jsonFiles files.entries ++ [(entryName entry, (entryToJson entry).toByteArray)])
    (hclean : sanitizeEntry entry = entry) :
    Accepts store (withEntry store files entry) (entries ++ [entry]) := by
  have hs := accepts_withScope h
  have hbytes : contentBytes (entries ++ [entry]) ≤ maxScratchpadBytes := by
    have hb := ha.bytes
    rw [← hcontent] at hb
    simpa [contentBytes] using hb
  refine ⟨hs.scope, ?_, by rw [List.length_append]; exact ha.count, hbytes, ?_⟩
  · rw [hfiles]
    refine Chain.concat h.chain ⟨?_, ?_, rfl⟩
    · refine bind_eq_ok.mpr ⟨entryToJson entry, readToString_toByteArray _, ?_⟩
      rw [parseEntry_entryToJson, hclean]
    · rwa [Nat.zero_add, ← lastEntryHash_eq_tip]
  · rw [show (withEntry store files entry).sealFile = none from ha.unsealed]
    rfl

theorem appendAtomic_of_lossless (h : Accepts store files entries) (now : UInt64)
    (step : Option BuildStep) (kind : ScratchpadEntryKind)
    (hl : Admitted files entries content sourceIds → Lossless (redactSensitiveText content)) :
    AppendAtomic store files entries now step kind content sourceIds := by
  rcases append_cases h now step kind content sourceIds with
    ⟨ha, entry, hvalid, hcontent, happend, hfiles⟩ | ⟨ha, error, files', happend, hload⟩
  · have hclean : sanitizeEntry entry = entry :=
      (sanitizeEntry_eq_self_iff hvalid (lossless_lastEntryHash h.chain)).mpr
        (hcontent ▸ hl ha)
    have hself : Validated store.scope entry.ordinal entry.previousHash entry := by
      rw [hvalid.ordinal, hvalid.previous]
      exact hvalid
    have hback := (readBack_eq hself).1 hclean
    have hload := load_eq_ok.mpr (accepts_withEntry h ha hvalid hcontent hfiles hclean)
    rw [hback] at happend
    refine ⟨fun error he => ?_, fun e he => ?_, fun _ => ⟨entry, by rw [happend]⟩⟩
    · rw [happend] at he
      exact absurd he (by simp)
    · rw [happend] at he ⊢
      obtain rfl : entry = e := by simpa using he
      exact ⟨hload, hcontent⟩
  · refine ⟨fun _ _ => by rw [happend]; exact load_eq_ok.mpr hload, fun e he => ?_,
      fun hadm => absurd hadm ha⟩
    rw [happend] at he
    exact absurd he (by simp)

theorem append_lossy (h : Accepts store files entries) (now : UInt64) (step : Option BuildStep)
    (kind : ScratchpadEntryKind) (ha : Admitted files entries content sourceIds)
    (hl : ¬Lossless (redactSensitiveText content)) :
    ∃ error, (store.append now step kind content sourceIds files).1 = .error error ∧
      (store.load (store.append now step kind content sourceIds files).2).1 ≠ .ok entries := by
  rcases append_cases h now step kind content sourceIds with
    ⟨-, entry, hvalid, hcontent, happend, hfiles⟩ | ⟨hna, -⟩
  · have hchanged : sanitizeEntry entry ≠ entry := fun hs =>
      hl (hcontent ▸ (sanitizeEntry_eq_self_iff hvalid (lossless_lastEntryHash h.chain)).mp hs)
    have hself : Validated store.scope entry.ordinal entry.previousHash entry := by
      rw [hvalid.ordinal, hvalid.previous]
      exact hvalid
    obtain ⟨error, hback⟩ := (readBack_eq hself).2 hchanged
    rw [happend]
    refine ⟨error, hback, fun hload => ?_⟩
    have hlength := (load_eq_ok.mp hload).chain.length_eq
    rw [hfiles, List.length_append, h.chain.length_eq] at hlength
    simp at hlength
  · exact absurd ha hna

theorem append_atomic_iff (hload : (store.load files).1 = .ok entries) (now : UInt64)
    (step : Option BuildStep) (kind : ScratchpadEntryKind) (content : String)
    (sourceIds : List String) :
    AppendAtomic store files entries now step kind content sourceIds ↔
      (Admitted files entries content sourceIds → Lossless (redactSensitiveText content)) := by
  have h := load_eq_ok.mp hload
  refine ⟨fun hatomic ha => ?_, appendAtomic_of_lossless h now step kind⟩
  by_contra hl
  obtain ⟨error, herror, hne⟩ := append_lossy h now step kind ha hl
  exact hne (hatomic.rejected error herror)

theorem append_fields (now : UInt64) (step : Option BuildStep) (kind : ScratchpadEntryKind)
    {entry : ScratchpadEntry}
    (h : (store.append now step kind content sourceIds files).1 = .ok entry) :
    entry.step = step ∧ entry.kind = kind ∧ entry.sourceIds = sourceIds := by
  have hback : ∀ (written : ScratchpadEntry) bytes, store.readBack written bytes = .ok entry →
      entry = written := by
    intro written bytes hread
    simp only [readBack, bind_eq_ok] at hread
    obtain ⟨_, -, readback, -, _, -, hread⟩ := hread
    split_ifs at hread
    exact (Except.ok.inj hread).symm
  unfold append at h
  split_ifs at h with hsealed
  cases hload : store.loadUnlocked files with
  | mk result opened =>
    rw [hload] at h
    cases result with
    | error error => exact absurd h (by simp)
    | ok entries =>
      simp only at h
      split_ifs at h with hcount
      unfold appendEntry at h
      split_ifs at h with hbytes
      unfold ScratchpadEntry.create at h
      cases hcontent : validateContent (redactSensitiveText content) with
      | error error => simp [hcontent, bind, Except.bind] at h
      | ok _ =>
        cases hsources : validateSourceIds sourceIds with
        | error error => simp [hcontent, hsources, bind, Except.bind] at h
        | ok _ =>
          simp only [hcontent, hsources, ok_bind, pure, Except.pure, writeEntry] at h
          split at h
          · exact absurd h (by simp)
          · rw [hback _ _ h]
            exact ⟨rfl, rfl, rfl⟩

theorem append_ok_iff (h : Accepts store files entries) (now : UInt64) (step : Option BuildStep)
    (kind : ScratchpadEntryKind) (content : String) (sourceIds : List String) :
    (∃ entry, (store.append now step kind content sourceIds files).1 = .ok entry) ↔
      Admitted files entries content sourceIds ∧ Lossless (redactSensitiveText content) := by
  by_cases ha : Admitted files entries content sourceIds
  · by_cases hl : Lossless (redactSensitiveText content)
    · have hatomic : AppendAtomic store files entries now step kind content sourceIds :=
        appendAtomic_of_lossless h now step kind fun _ => hl
      exact ⟨fun _ => ⟨ha, hl⟩, fun _ => hatomic.complete ha⟩
    · obtain ⟨error, herror, -⟩ := append_lossy h now step kind ha hl
      simp [herror, hl]
  · rcases append_cases h now step kind content sourceIds with ⟨hadmitted, -⟩ |
      ⟨-, error, files', happend, -⟩
    · exact absurd hadmitted ha
    · simp [happend, ha]

theorem append_open (h : Accepts store files entries) {now : UInt64} {step : Option BuildStep}
    {kind : ScratchpadEntryKind} {entry : ScratchpadEntry}
    (happend : (store.append now step kind content sourceIds files).1 = .ok entry) :
    (store.append now step kind content sourceIds files).2.sealFile = none := by
  rcases append_cases h now step kind content sourceIds with ⟨ha, written, -, -, hdone, -⟩ |
    ⟨-, error, files', hdone, -⟩
  · rw [hdone]
    exact ha.unsealed
  · rw [hdone] at happend
    exact absurd happend (by simp)

end Append

def freshFiles : ScratchpadFiles := ⟨none, none, Catalog.empty⟩

theorem accepts_fresh (store : ScratchpadStore) : Accepts store freshFiles [] :=
  ⟨by simp [freshFiles], .nil 0 "", Nat.zero_le _, Nat.zero_le _, rfl⟩

def samplePad : ScratchpadStore where
  root := "scratchpads"
  scope := ⟨"build-1",
    "sha256:0000000000000000000000000000000000000000000000000000000000000000"⟩
  valid := by decide

theorem append_atomic_iff_note :
    AppendAtomic samplePad freshFiles [] 1 none .observation "queue drained" [] :=
  (append_atomic_iff (load_eq_ok.mpr (accepts_fresh samplePad)) 1 none .observation
    "queue drained" []).mpr fun _ => by decide +kernel

theorem append_not_atomic_escape :
    (samplePad.load freshFiles).1 = .ok [] ∧
      ¬AppendAtomic samplePad freshFiles [] 1 none .observation "\x1b[31mfailed" [] := by
  have hfresh := accepts_fresh samplePad
  refine ⟨load_eq_ok.mpr hfresh, fun hatomic => ?_⟩
  have ha : Admitted freshFiles [] "\x1b[31mfailed" [] :=
    ⟨rfl, by decide, by decide +kernel, by decide +kernel, rfl⟩
  obtain ⟨error, herror, hne⟩ := append_lossy hfresh 1 none .observation ha (by decide +kernel)
  exact hne (hatomic.rejected error herror)

end AtomVibe.ScratchpadAppend
