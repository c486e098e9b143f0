import AtomVibe.ScratchpadAppend

namespace AtomVibe.ScratchpadSeal

open Checked Text Json JsonText JsonRoundTrip JsonCodec Hash BuildProtocol ChainFiles Scratchpad
open ScratchpadStore ScratchpadChain ScratchpadAppend

def sealBody (store : ScratchpadStore) (entries : List ScratchpadEntry) (unixTimeMs : UInt64) :
    String :=
  objectText
    [("schema_version", schemaVersion.toNat.repr), ("build_id", quote store.scope.buildId),
      ("model_scope_hash", quote store.scope.modelScopeHash),
      ("entry_count", entries.length.repr), ("last_entry_hash", quote (lastEntryHash entries)),
      ("sealed_at_unix_ms", unixTimeMs.toNat.repr)]

def writeSeal (store : ScratchpadStore) (bytes : ByteArray) (modified : Option ℕ)
    (sealFile : Option SealFile) : Except ScratchpadError SealFile :=
  match sealFile with
  | some file =>
    if file.bytes = bytes then .ok file
    else .error (.evidence ("immutable scratchpad conflict at " ++ store.scopeDir ++ "/seal.json"))
  | none => .ok ⟨bytes, modified⟩

def sealPad (store : ScratchpadStore) (unixTimeMs : UInt64) (modified : Option ℕ)
    (files : ScratchpadFiles) : Except ScratchpadError Unit × ScratchpadFiles :=
  match store.loadUnlocked files with
  | (.error error, files) => (.error error, files)
  | (.ok entries, files) =>
    match writeSeal store (sealBody store entries unixTimeMs).toByteArray modified files.sealFile with
    | .error error => (.error error, files)
    | .ok file => (store.verifySeal file entries, { files with sealFile := some file })

def sealDoc (store : ScratchpadStore) (entries : List ScratchpadEntry) (unixTimeMs : UInt64) :
    JsonValue :=
  .object
    [("schema_version", numberDoc schemaVersion.toNat), ("build_id", .string store.scope.buildId),
      ("model_scope_hash", .string store.scope.modelScopeHash),
      ("entry_count", numberDoc entries.length),
      ("last_entry_hash", .string (lastEntryHash entries)),
      ("sealed_at_unix_ms", numberDoc unixTimeMs.toNat)]

section Seal

variable {store : ScratchpadStore} {files : ScratchpadFiles} {entries : List ScratchpadEntry}

theorem sealBody_eq (store : ScratchpadStore) (entries : List ScratchpadEntry)
    (unixTimeMs : UInt64) :
    sealBody store entries unixTimeMs = render (sealDoc store entries unixTimeMs) := by
  simp only [sealBody, sealDoc, render, List.map_cons, List.map_nil, render_numberDoc]

theorem fits_sealDoc (store : ScratchpadStore) (entries : List ScratchpadEntry)
    (unixTimeMs : UInt64) : Fits (maxDepth + 1) (sealDoc store entries unixTimeMs) := by
  apply fits_object ⟨by simp, by simp only [List.map]; decide⟩
  simp only [List.forall_mem_cons, List.not_mem_nil, false_imp_iff, implies_true, and_true]
  exact ⟨fits_numberDoc _ _, trivial, trivial, fits_numberDoc _ _, trivial, fits_numberDoc _ _⟩

def Late (unixTimeMs : UInt64) (modified : Option ℕ) : Prop :=
  ∃ ms, modified = some ms ∧ unixTimeMs.toNat + sealClockToleranceMs < ms

theorem late_iff (unixTimeMs : UInt64) (modified : Option ℕ) :
    Late unixTimeMs modified ↔ (modified.any fun ms =>
      decide (unixTimeMs.toNat + sealClockToleranceMs < ms)) = true := by
  cases modified with
  | none => simp [Late]
  | some ms => simp [Late]

theorem verifySeal_written (h : Accepts store files entries) (unixTimeMs : UInt64)
    (modified : Option ℕ) :
    (¬Late unixTimeMs modified →
      store.verifySeal ⟨(sealBody store entries unixTimeMs).toByteArray, modified⟩ entries =
        .ok ()) ∧
    (Late unixTimeMs modified → ∃ error,
      store.verifySeal ⟨(sealBody store entries unixTimeMs).toByteArray, modified⟩ entries =
        .error error) := by
  have hs := fun key value => @stringField_clean _ ScratchpadError.invalidEntry
    (sealDoc store entries unixTimeMs) key value
  have hn := fun key value => @numberField_clean _ ScratchpadError.invalidEntry
    (sealDoc store entries unixTimeMs) key value
  have hcount : (UInt64.ofNat entries.length).toNat = entries.length := by
    apply UInt64.toNat_ofNat_of_lt'
    exact lt_of_le_of_lt h.count (by decide)
  have hcountDoc : (sealDoc store entries unixTimeMs).get "entry_count" =
      some (numberDoc (UInt64.ofNat entries.length).toNat) := by
    rw [hcount]
    rfl
  rw [verifySeal, readToString_toByteArray, sealBody_eq, ok_bind, parse_render (fits_sealDoc _ _ _)]
  simp only [Except.mapError, ok_bind, Scratchpad.numberField, Scratchpad.stringField]
  rw [hn "entry_count" _ hcountDoc, hs "build_id" _ rfl, hs "model_scope_hash" _ rfl,
    hs "last_entry_hash" _ rfl, hn "sealed_at_unix_ms" _ rfl,
    (sanitize_eq_self_iff _).mpr (lossless_scope store).1,
    (sanitize_eq_self_iff _).mpr (lossless_scope store).2,
    (sanitize_eq_self_iff _).mpr (lossless_lastEntryHash h.chain)]
  constructor
  · intro hlate
    rw [late_iff, Bool.not_eq_true] at hlate
    simp [ok_bind, hcount, hlate]
  · intro hlate
    rw [late_iff] at hlate
    simp [ok_bind, hcount, hlate]

theorem verifySeal_sealBody (h : Accepts store files entries) (unixTimeMs : UInt64)
    (modified : Option ℕ)
    (htime : ∀ ms, modified = some ms → ms ≤ unixTimeMs.toNat + sealClockToleranceMs) :
    store.verifySeal ⟨(sealBody store entries unixTimeMs).toByteArray, modified⟩ entries =
      .ok () := by
  apply (verifySeal_written h unixTimeMs modified).1
  rintro ⟨ms, hms, hlt⟩
  exact absurd (htime ms hms) (not_le.mpr hlt)

theorem sealPad_cases (h : Accepts store files entries) (hopen : files.sealFile = none)
    (unixTimeMs : UInt64) (modified : Option ℕ) :
    (¬Late unixTimeMs modified ∧ (sealPad store unixTimeMs modified files).1 = .ok () ∧
      Accepts store (sealPad store unixTimeMs modified files).2 entries ∧
      (sealPad store unixTimeMs modified files).2.sealFile.isSome) ∨
    (Late unixTimeMs modified ∧
      ∃ error, (sealPad store unixTimeMs modified files).1 = .error error) := by
  have hscope := accepts_withScope h
  have hverify := verifySeal_written h unixTimeMs modified
  rw [sealPad, loadUnlocked_of_accepts h]
  simp only [writeSeal, show (withScope store files).sealFile = files.sealFile from rfl, hopen]
  by_cases hlate : Late unixTimeMs modified
  · exact .inr ⟨hlate, hverify.2 hlate⟩
  · have hok := hverify.1 hlate
    exact .inl ⟨hlate, hok, ⟨hscope.scope, hscope.chain, hscope.count, hscope.bytes, hok⟩, rfl⟩

end Seal

end AtomVibe.ScratchpadSeal

namespace AtomVibe.ScratchpadOpen

open Checked Text Hash HashChain BuildProtocol ChainFiles Secrets Scratchpad ScratchpadStore
open ScratchpadChain ScratchpadAppend ScratchpadSeal

def ScratchpadScope.new (buildId providerModelIdentity : String) :
    Except ScratchpadError ScratchpadScope := do
  validateBuildId buildId
  refuseIf (isBlank providerModelIdentity ∨ 8 * 1024 < providerModelIdentity.utf8ByteSize)
    (.invalidScope "provider-model identity is empty or exceeds bounds")
  return ⟨buildId, sha256Tagged (asBytes providerModelIdentity)⟩

def storeOf (root : String) (scope : ScratchpadScope) : Except ScratchpadError ScratchpadStore :=
  match h : scope.validate with
  | .error error => .error error
  | .ok () => .ok ⟨root, scope, h⟩

def openPad (store : ScratchpadStore) (files : ScratchpadFiles) :
    Except ScratchpadError ScratchpadStore × ScratchpadFiles :=
  match store.loadUnlocked files with
  | (.error error, files) => (.error error, files)
  | (.ok _, files) => (.ok store, files)

theorem storeOf_eq_ok {root : String} {scope : ScratchpadScope} {store : ScratchpadStore} :
    storeOf root scope = .ok store ↔ store.root = root ∧ store.scope = scope := by
  obtain ⟨root', scope', valid⟩ := store
  unfold storeOf
  split
  · rename_i error h
    simp only [reduceCtorEq, false_iff, not_and]
    rintro - rfl
    rw [valid] at h
    exact absurd h (by simp)
  · simp only [Except.ok.injEq, ScratchpadStore.mk.injEq]
    exact ⟨fun h => ⟨h.1.symm, h.2.symm⟩, fun h => ⟨h.1.symm, h.2.symm⟩⟩

theorem validate_of_new {buildId identity : String} {scope : ScratchpadScope}
    (h : ScratchpadScope.new buildId identity = .ok scope) : scope.validate = .ok () := by
  simp only [ScratchpadScope.new, bind_eq_ok, refuseIf_eq_ok, pure_eq_ok] at h
  obtain ⟨_, hid, _, -, rfl⟩ := h
  rw [ScratchpadScope.validate, hid, ok_bind, if_pos (validSha256Tag_sha256Tagged _)]

section Open

variable {store : ScratchpadStore} {files : ScratchpadFiles} {entries : List ScratchpadEntry}

theorem openPad_of_accepts (h : Accepts store files entries) :
    openPad store files = (.ok store, withScope store files) := by
  rw [openPad, loadUnlocked_of_accepts h]

theorem openPad_refused (h : ∀ entries, ¬Accepts store files entries) :
    ∃ error, (openPad store files).1 = .error error := by
  unfold openPad
  have hload : ∀ entries, (store.load files).1 ≠ .ok entries := fun entries he =>
    h entries (load_eq_ok.mp he)
  rw [load] at hload
  cases hresult : store.loadUnlocked files with
  | mk result files' =>
    rw [hresult] at hload
    cases result with
    | error error => exact ⟨error, rfl⟩
    | ok entries => exact absurd rfl (hload entries)

end Open

end AtomVibe.ScratchpadOpen
