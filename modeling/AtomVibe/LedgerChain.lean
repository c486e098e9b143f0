import AtomVibe.Foundations.HashChain
import AtomVibe.LedgerRoundTrip

namespace AtomVibe.LedgerChain

open Checked Json JsonText JsonRoundTrip JsonCodec Hash HashChain ReadChain ChainFiles PlannerModel
open LedgerCodec LedgerRoundTrip LedgerStore BuildLedgerStore
open BuildLedgerStoreError (invalid)

theorem parseSnapshot_path (path path' : String) {bytes : ByteArray} {snapshot : Snapshot} :
    parseSnapshot path bytes = .ok snapshot ↔ parseSnapshot path' bytes = .ok snapshot := by
  simp only [parseSnapshot, bind_eq_ok, okOr_eq_ok, mapError_eq_ok]

def snapshotOf (ledger : BuildLedger) (previousHash : String) : Snapshot :=
  ⟨snapshotSchemaVersion, ledger.revision, previousHash,
    sha256Tagged (asBytes (ledgerToJson ledger)), ledger⟩

structure Reads (buildId : String) (index : ℕ) (previousHash : String)
    (file : String × ByteArray) (loaded : Loaded) : Prop where
  file : file = (loaded.name, loaded.bytes)
  parsed : parseSnapshot "" loaded.bytes = .ok (snapshotOf loaded.ledger previousHash)
  revision : loaded.ledger.revision = UInt64.ofNat index + 1
  buildId : loaded.ledger.buildId = buildId
  name : loaded.name = numberedName loaded.ledger.revision.toNat (snapshotHash loaded.bytes)
  valid : loaded.ledger.Valid

theorem readSnapshot_eq_ok {store : BuildLedgerStore} {buildId : String} {index : ℕ}
    {previousHash : String} {file : String × ByteArray} {loaded : Loaded} :
    store.readSnapshot buildId index previousHash file = .ok loaded ↔
      Reads buildId index previousHash file loaded := by
  simp only [readSnapshot, bind_eq_ok, refuseIf_eq_ok, mapError_eq_ok,
    BuildLedger.validate_eq_ok, pure_eq_ok, not_or, ne_eq, not_not]
  constructor
  · rintro ⟨⟨schema, revision, previous, hash, ledger⟩, hparse, -,
      ⟨hschema, hrevision, hsame, hbuild, hprevious, hhash, hname⟩, -, hvalid, rfl⟩
    dsimp only at hschema hrevision hsame hbuild hprevious hhash hname hvalid
    subst hschema hsame hprevious hhash
    exact ⟨rfl, (parseSnapshot_path _ _).mp hparse, hrevision, hbuild, hname, hvalid⟩
  · rintro ⟨rfl, hparse, hrevision, hbuild, hname, hvalid⟩
    exact ⟨_, (parseSnapshot_path _ _).mp hparse, (),
      ⟨rfl, hrevision, rfl, hbuild, rfl, rfl, hname⟩, (), hvalid, rfl⟩

abbrev SnapshotChain (buildId : String) :
    ℕ → String → List (String × ByteArray) → List Loaded → Prop :=
  Chain (Reads buildId) fun loaded => snapshotHash loaded.bytes

theorem loadSnapshots_eq_ok {store : BuildLedgerStore} {buildId : String} {index : ℕ}
    {previousHash : String} {latest out : Option Loaded} {files : List (String × ByteArray)} :
    store.loadSnapshots buildId index previousHash latest files = .ok out ↔
      ∃ chain, SnapshotChain buildId index previousHash files chain ∧
        out = chain.getLast?.or latest := by
  induction files generalizing index previousHash latest with
  | nil =>
    simp only [loadSnapshots, Except.ok.injEq]
    constructor
    · rintro rfl
      exact ⟨[], .nil index previousHash, rfl⟩
    · rintro ⟨chain, h, rfl⟩
      cases h
      rfl
  | cons file files ih =>
    simp only [loadSnapshots, bind_eq_ok, readSnapshot_eq_ok, ih]
    constructor
    · rintro ⟨loaded, hread, chain, hchain, rfl⟩
      refine ⟨loaded :: chain, .cons hread hchain, ?_⟩
      cases chain <;> simp [List.getLast?_cons]
    · rintro ⟨chain, h, rfl⟩
      cases h with
      | @cons _ _ _ loaded _ chain head tail =>
        refine ⟨loaded, head, chain, tail, ?_⟩
        cases chain <;> simp [List.getLast?_cons]

structure Stored (root : LedgerRoot) (buildId : String) (chain : List Loaded) : Prop where
  safe : isSafeBuildId buildId = true
  chain : SnapshotChain buildId 0 "" (jsonFiles (snapshotFiles root buildId)) chain

theorem validateBuildId_eq_ok {buildId : String} {u : Unit} :
    validateBuildId buildId = .ok u ↔ isSafeBuildId buildId = true := by
  simp [validateBuildId, refuseIf_eq_ok]

theorem loadUnlockedOptional_eq_ok {store : BuildLedgerStore} {root : LedgerRoot}
    {buildId : String} {out : Option Loaded} :
    store.loadUnlockedOptional root buildId = .ok out ↔
      ∃ chain, Stored root buildId chain ∧ out = chain.getLast? := by
  simp only [loadUnlockedOptional, bind_eq_ok, validateBuildId_eq_ok, loadSnapshots_eq_ok,
    Option.or_none]
  exact ⟨fun ⟨_, hsafe, chain, hchain, hout⟩ => ⟨chain, ⟨hsafe, hchain⟩, hout⟩,
    fun ⟨chain, h, hout⟩ => ⟨(), h.safe, chain, h.chain, hout⟩⟩

theorem refuses_loadUnlockedOptional (store : BuildLedgerStore) (root : LedgerRoot)
    (buildId : String) : Refuses invalid (store.loadUnlockedOptional root buildId) := by
  have hload : ∀ files index previousHash latest,
      Refuses invalid (store.loadSnapshots buildId index previousHash latest files) := by
    intro files
    induction files with
    | nil => simp [loadSnapshots, RefusesWith]
    | cons file files ih =>
      intro index previousHash latest
      simp [loadSnapshots, readSnapshot, parseSnapshot, ih, refusesWith_mapError,
        refusesWith_refuseIf, refuses_ledgerFromJson]
  simp [loadUnlockedOptional, validateBuildId, refusesWith_refuseIf, hload]

section Stored

variable {root : LedgerRoot} {buildId : String} {chain : List Loaded}

theorem Stored.unique (h : Stored root buildId chain) {chain' : List Loaded}
    (h' : Stored root buildId chain') : chain = chain' := by
  refine Chain.unique (fun _ _ _ loaded loaded' hr hr' => ?_) h.chain h'.chain
  obtain ⟨ledger, name, bytes⟩ := loaded
  obtain ⟨ledger', name', bytes'⟩ := loaded'
  obtain ⟨rfl, rfl⟩ := Prod.mk.inj (hr.file.symm.trans hr'.file)
  have hsnapshot := Except.ok.inj (hr.parsed.symm.trans hr'.parsed)
  obtain rfl : ledger = ledger' := congrArg Snapshot.ledger hsnapshot
  rfl

theorem Stored.files_eq (h : Stored root buildId chain) :
    jsonFiles (snapshotFiles root buildId) = chain.map fun loaded => (loaded.name, loaded.bytes) :=
  h.chain.files_eq fun _ _ _ _ hr => hr.file

theorem Reads.number {index : ℕ} {previousHash : String} {file : String × ByteArray}
    {loaded : Loaded} (h : Reads buildId index previousHash file loaded)
    (hindex : index + 1 < UInt64.size) : loaded.ledger.revision.toNat = index + 1 := by
  rw [h.revision, show UInt64.ofNat index + 1 = UInt64.ofNat (index + 1) by
    simp [UInt64.ofNat_add]]
  exact UInt64.toNat_ofNat_of_lt' hindex

theorem Stored.named (h : Stored root buildId chain) {k : ℕ} (hk : k + 1 < UInt64.size)
    {file : String × ByteArray} (hfile : (jsonFiles (snapshotFiles root buildId))[k]? = some file) :
    ∃ hash, file.1 = numberedName (k + 1) hash := by
  obtain ⟨_, loaded, -, hr⟩ := h.chain.get hfile
  rw [Nat.zero_add] at hr
  refine ⟨snapshotHash loaded.bytes, ?_⟩
  rw [hr.file, ← hr.number hk]
  exact hr.name

theorem Stored.length_lt (h : Stored root buildId chain) : chain.length < 10 ^ 6 := by
  rw [← h.chain.length_eq]
  by_contra hge
  have h1 : 999998 < (jsonFiles (snapshotFiles root buildId)).length := by omega
  have h2 : 999999 < (jsonFiles (snapshotFiles root buildId)).length := by omega
  obtain ⟨hash1, hname1⟩ := h.named (by decide) (List.getElem?_eq_getElem h1)
  obtain ⟨hash2, hname2⟩ := h.named (by decide) (List.getElem?_eq_getElem h2)
  have hlt := List.pairwise_iff_getElem.mp (sorted_jsonFiles (snapshotFiles root buildId))
    999998 999999 h1 h2 (by decide)
  rw [hname1, hname2] at hlt
  exact lt_asymm hlt (numberedName_million_lt hash1 hash2)

theorem Stored.file_named (h : Stored root buildId chain) {file : String × ByteArray}
    (hfile : file ∈ jsonFiles (snapshotFiles root buildId)) :
    ∃ n hash, n ≤ chain.length ∧ file.1 = numberedName n hash := by
  obtain ⟨k, hk⟩ := List.getElem?_of_mem hfile
  obtain ⟨hlt, -⟩ := List.getElem?_eq_some_iff.mp hk
  have hlength := h.length_lt
  rw [h.chain.length_eq] at hlt
  have hsize : 10 ^ 6 < UInt64.size := by decide
  obtain ⟨hash, hname⟩ := h.named (by omega) hk
  exact ⟨k + 1, hash, hlt, hname⟩

theorem Stored.revision_eq (h : Stored root buildId chain) {k : ℕ} {loaded : Loaded}
    (hk : chain[k]? = some loaded) : loaded.ledger.revision.toNat = k + 1 := by
  obtain ⟨hlt, -⟩ := List.getElem?_eq_some_iff.mp hk
  have hlength := h.length_lt
  have hsize : 10 ^ 6 < UInt64.size := by decide
  have hfile := List.getElem?_eq_getElem (h.chain.length_eq ▸ hlt)
  obtain ⟨_, loaded', hloaded', hr⟩ := h.chain.get hfile
  rw [hk] at hloaded'
  obtain rfl := Option.some.inj hloaded'
  rw [Nat.zero_add] at hr
  exact hr.number (by omega)

theorem Stored.revision_last (h : Stored root buildId chain) {loaded : Loaded}
    (hlast : chain.getLast? = some loaded) : loaded.ledger.revision.toNat = chain.length := by
  have hne : chain ≠ [] := by
    rintro rfl
    simp at hlast
  have hpos := List.length_pos_iff.mpr hne
  rw [List.getLast?_eq_getElem?] at hlast
  rw [h.revision_eq hlast]
  omega

theorem Stored.buildId_eq (h : Stored root buildId chain) {loaded : Loaded}
    (hmem : loaded ∈ chain) : loaded.ledger.buildId = buildId := by
  obtain ⟨_, _, _, -, -, hr⟩ := h.chain.mem hmem
  exact hr.buildId

theorem Stored.valid (h : Stored root buildId chain) {loaded : Loaded} (hmem : loaded ∈ chain) :
    loaded.ledger.Valid := by
  obtain ⟨_, _, _, -, -, hr⟩ := h.chain.mem hmem
  exact hr.valid

theorem Stored.congr {root' : LedgerRoot}
    (hfiles : snapshotFiles root buildId = snapshotFiles root' buildId) :
    Stored root buildId chain ↔ Stored root' buildId chain :=
  ⟨fun h => ⟨h.safe, hfiles ▸ h.chain⟩, fun h => ⟨h.safe, hfiles ▸ h.chain⟩⟩

end Stored

section Load

variable {store : BuildLedgerStore} {root : LedgerRoot} {buildId : String}

@[simp]
theorem snapshotFiles_acquire (root : LedgerRoot) (buildId other : String) :
    snapshotFiles (acquire root buildId) other = snapshotFiles root other := by
  unfold acquire
  split
  · rfl
  · rename_i hnone
    rw [snapshotFiles, Catalog.lookup_insert, snapshotFiles]
    split_ifs with h
    · rw [h, hnone]
      rfl
    · rfl

theorem loadUnlockedOptional_congr {root' : LedgerRoot}
    (hfiles : snapshotFiles root buildId = snapshotFiles root' buildId) :
    store.loadUnlockedOptional root buildId = store.loadUnlockedOptional root' buildId := by
  rw [loadUnlockedOptional, loadUnlockedOptional, hfiles]

theorem load_congr {root' : LedgerRoot}
    (hfiles : snapshotFiles root buildId = snapshotFiles root' buildId) :
    (store.load buildId root).1 = (store.load buildId root').1 := by
  have hload : store.loadUnlockedOptional (acquire root buildId) buildId =
      store.loadUnlockedOptional (acquire root' buildId) buildId :=
    loadUnlockedOptional_congr (by simp [hfiles])
  unfold load
  cases validateBuildId buildId with
  | error error => rfl
  | ok u => simp only [hload]

theorem load_eq_ok {ledger : BuildLedger} :
    (store.load buildId root).1 = .ok ledger ↔
      ∃ chain loaded, Stored root buildId chain ∧ chain.getLast? = some loaded ∧
        loaded.ledger = ledger := by
  unfold load
  cases hv : validateBuildId buildId with
  | error error =>
    simp only [reduceCtorEq, false_iff]
    rintro ⟨chain, _, h, -⟩
    rw [(validateBuildId_eq_ok (u := ())).mpr h.safe] at hv
    exact absurd hv (by simp)
  | ok u =>
    simp only [bind_eq_ok, okOr_eq_ok, loadUnlockedOptional_eq_ok, Option.map_eq_some_iff,
      Stored.congr (snapshotFiles_acquire root buildId buildId)]
    constructor
    · rintro ⟨_, ⟨chain, h, rfl⟩, loaded, hlast, hledger⟩
      exact ⟨chain, loaded, h, hlast, hledger⟩
    · rintro ⟨chain, loaded, h, hlast, hledger⟩
      exact ⟨_, ⟨chain, h, rfl⟩, loaded, hlast, hledger⟩

theorem load_eq_notFound {other : String} :
    (store.load buildId root).1 = .error (.notFound other) ↔
      other = buildId ∧ Stored root buildId [] := by
  unfold load
  cases hv : validateBuildId buildId with
  | error error =>
    have hinvalid : error = invalid ("unsafe build id " ++ buildId) := by
      unfold validateBuildId refuseIf at hv
      split_ifs at hv
      exact (Except.error.inj hv).symm
    simp only [hinvalid, Except.error.injEq, reduceCtorEq, false_iff, not_and]
    intro _ h
    rw [(validateBuildId_eq_ok (u := ())).mpr h.safe] at hv
    exact absurd hv (by simp)
  | ok u =>
    have hcongr := @loadUnlockedOptional_congr store _ buildId _
      (snapshotFiles_acquire root buildId buildId)
    simp only [hcongr]
    cases hload : store.loadUnlockedOptional root buildId with
    | error error =>
      obtain ⟨reason, rfl⟩ := refuses_loadUnlockedOptional store root buildId error hload
      simp only [bind, Except.bind, Except.error.injEq, reduceCtorEq, false_iff, not_and]
      intro _ h
      rw [loadUnlockedOptional_eq_ok.mpr ⟨[], h, rfl⟩] at hload
      exact absurd hload (by simp)
    | ok latest =>
      obtain ⟨chain, h, rfl⟩ := loadUnlockedOptional_eq_ok.mp hload
      rcases List.eq_nil_or_concat' chain with rfl | ⟨chain, loaded, rfl⟩
      · simp [okOr, h, eq_comm]
      · simp only [ok_bind, List.getLast?_concat, Option.map_some, okOr_some, reduceCtorEq,
          false_iff, not_and]
        intro _ hnil
        exact absurd (h.unique hnil) (by simp)

end Load

end AtomVibe.LedgerChain
