import AtomVibe.LedgerChain

namespace AtomVibe.LedgerSave

open Checked Text Json JsonText JsonRoundTrip JsonCodec Hash HashChain ReadChain ChainFiles
open PlannerModel BuildPlanner LedgerCodec LedgerRoundTrip LedgerStore BuildLedgerStore LedgerChain
open BuildLedgerStoreError (invalid)

theorem fits_snapshotDoc (ledger : BuildLedger) (previousHash : String) :
    Fits (maxDepth + 1) (snapshotDoc ledger previousHash) := by
  refine fits_object ⟨by simp, by simp only [List.map]; decide⟩ ?_
  simp only [List.forall_mem_cons, List.not_mem_nil, false_imp_iff, implies_true, and_true]
  exact ⟨fits_numberDoc _ _, fits_numberDoc _ _, trivial, trivial, fits_ledgerDoc 57 _⟩

theorem parseSnapshot_written (path : String) (ledger stored : BuildLedger) {previousHash : String}
    (hprevious : Lossless previousHash) :
    parseSnapshot path (render (snapshotDoc ledger previousHash)).toByteArray =
        .ok ⟨snapshotSchemaVersion, ledger.revision, previousHash,
          sha256Tagged (asBytes (ledgerToJson ledger)), stored⟩ ↔
      ledgerFromJson (clean (ledgerDoc ledger)) = .ok stored := by
  have hget : (clean (snapshotDoc ledger previousHash)).get "ledger" =
      some (clean (ledgerDoc ledger)) := get_clean rfl
  have hs := fun key value => @stringField_clean _ invalid (snapshotDoc ledger previousHash) key value
  have hn := fun key value => @numberField_clean _ invalid (snapshotDoc ledger previousHash) key value
  rw [parseSnapshot, fromUTF8?_toByteArray, okOr_some, ok_bind,
    parse_render (fits_snapshotDoc ledger previousHash)]
  simp only [Except.mapError, ok_bind]
  rw [hn "snapshot_schema_version" snapshotSchemaVersion.toUInt64 rfl, hn "revision" _ rfl,
    hs "previous_snapshot_hash" _ rfl, hs "ledger_hash" _ rfl, hget,
    (sanitize_eq_self_iff _).mpr hprevious,
    (sanitize_eq_self_iff _).mpr (lossless_sha256Tagged (asBytes (ledgerToJson ledger)))]
  simp only [ok_bind, okOr_some, bind_eq_ok, pure_eq_ok, Snapshot.mk.injEq, ↓existsAndEq, and_true,
    UInt32.toUInt32_toUInt64, true_and]

section Write

variable (ledger : BuildLedger) (chain : List Loaded)

def written : Loaded :=
  let previousHash := tip (fun loaded : Loaded => snapshotHash loaded.bytes) "" chain
  let bytes := (render (snapshotDoc ledger previousHash)).toByteArray
  ⟨ledger, numberedName ledger.revision.toNat (snapshotHash bytes), bytes⟩

def withSnapshot (root : LedgerRoot) (ledger : BuildLedger) (loaded : Loaded) : LedgerRoot :=
  root.insert ledger.buildId
    ⟨some ((snapshotFiles root ledger.buildId).insert loaded.name loaded.bytes)⟩

variable {ledger chain} {root : LedgerRoot}

theorem snapshotFiles_withSnapshot (loaded : Loaded) :
    snapshotFiles (withSnapshot root ledger loaded) ledger.buildId =
      (snapshotFiles root ledger.buildId).insert loaded.name loaded.bytes := by
  rw [snapshotFiles, withSnapshot, Catalog.lookup_insert, if_pos rfl]
  rfl

theorem snapshotFiles_withSnapshot_ne (loaded : Loaded) {buildId : String}
    (h : buildId ≠ ledger.buildId) :
    snapshotFiles (withSnapshot root ledger loaded) buildId = snapshotFiles root buildId := by
  rw [snapshotFiles, withSnapshot, Catalog.lookup_insert, if_neg h]
  rfl

theorem lossless_tip (chain : List Loaded) :
    Lossless (tip (fun loaded : Loaded => snapshotHash loaded.bytes) "" chain) := by
  rw [tip_eq_getLast]
  cases chain.getLast? with
  | none => exact fun c hc => absurd hc (by simp)
  | some loaded => exact lossless_sha256Tagged _

variable (h : Stored root ledger.buildId chain)
  (hrevision : ledger.revision.toNat = chain.length + 1)

include h hrevision

theorem written_new : ∀ file ∈ jsonFiles (snapshotFiles root ledger.buildId),
    file.1 ≠ (written ledger chain).name := by
  intro file hfile hname
  obtain ⟨n, hash, hn, hfilename⟩ := h.file_named hfile
  have hlength := h.length_lt
  rw [hfilename, written, hrevision] at hname
  rcases Nat.lt_or_ge (chain.length + 1) (10 ^ 6) with hlt | hge
  · exact (numberedName_lt (show n < chain.length + 1 by omega) hlt _ _).ne hname
  · rw [show chain.length + 1 = 1000000 by omega] at hname
    exact numberedName_ne_million (by omega) _ _ hname

theorem length_withSnapshot :
    (jsonFiles (snapshotFiles (withSnapshot root ledger (written ledger chain))
      ledger.buildId)).length = chain.length + 1 := by
  rw [snapshotFiles_withSnapshot, ← h.chain.length_eq]
  exact (length_jsonFiles_insert _ (hasJsonExtension_numberedName _ _)
    (written_new h hrevision)).2

theorem writeSnapshot_eq (store : BuildLedgerStore) :
    store.writeSnapshot ledger chain.getLast? root =
      (store.readBack ledger (written ledger chain).name
          (withSnapshot root ledger (written ledger chain)),
        withSnapshot root ledger (written ledger chain)) := by
  have hnone : (snapshotFiles root ledger.buildId).lookup (written ledger chain).name = none :=
    (length_jsonFiles_insert (written ledger chain).bytes (hasJsonExtension_numberedName _ _)
      (written_new h hrevision)).1
  have hprevious : tip (fun loaded : Loaded => snapshotHash loaded.bytes) "" chain =
      (chain.getLast?.map fun loaded => snapshotHash loaded.bytes).getD "" :=
    tip_eq_getLast "" chain
  have hwrite : writeNewAtomic (BuildLedgerStoreError.conflict ("immutable snapshot conflict at " ++
      store.snapshotPath ledger.buildId (written ledger chain).name))
      (snapshotFiles root ledger.buildId) (written ledger chain).name (written ledger chain).bytes =
      (.ok (), (snapshotFiles root ledger.buildId).insert (written ledger chain).name
        (written ledger chain).bytes) := by
    rw [writeNewAtomic, hnone]
  simp only [written] at hwrite ⊢
  simp only [writeSnapshot, ← hprevious, hwrite]
  rfl

theorem jsonFiles_withSnapshot (hlast : ledger.revision.toNat < 10 ^ 6) :
    jsonFiles (snapshotFiles (withSnapshot root ledger (written ledger chain)) ledger.buildId) =
      jsonFiles (snapshotFiles root ledger.buildId) ++
        [((written ledger chain).name, (written ledger chain).bytes)] := by
  rw [snapshotFiles_withSnapshot]
  refine (writeNewAtomic_new (invalid "") _ (hasJsonExtension_numberedName _ _) ?_).2
  intro file hfile
  obtain ⟨n, hash, hn, hname⟩ := h.file_named hfile
  rw [hname]
  exact numberedName_lt (by omega) hlast _ _

theorem reads_written (hvalid : ledger.Valid) (hstorable : Storable ledger) :
    Reads ledger.buildId chain.length
      (tip (fun loaded : Loaded => snapshotHash loaded.bytes) "" chain)
      ((written ledger chain).name, (written ledger chain).bytes) (written ledger chain) := by
  refine ⟨rfl, ?_, ?_, rfl, rfl, hvalid⟩
  · exact (parseSnapshot_written "" ledger ledger (lossless_tip chain)).mpr
      ((ledgerFromJson_clean ledger).mpr hstorable)
  · have hlength := h.length_lt
    have hsize : 10 ^ 6 < UInt64.size := by decide
    refine UInt64.toNat_inj.mp (Eq.trans hrevision ?_)
    rw [show UInt64.ofNat chain.length + 1 = UInt64.ofNat (chain.length + 1) by
      simp [UInt64.ofNat_add]]
    exact (UInt64.toNat_ofNat_of_lt' (by omega)).symm

theorem stored_withSnapshot (hvalid : ledger.Valid) (hstorable : Storable ledger)
    (hlast : ledger.revision.toNat < 10 ^ 6) :
    Stored (withSnapshot root ledger (written ledger chain)) ledger.buildId
      (chain ++ [written ledger chain]) := by
  refine ⟨h.safe, ?_⟩
  rw [jsonFiles_withSnapshot h hrevision hlast]
  refine h.chain.concat ?_
  rw [Nat.zero_add]
  exact reads_written h hrevision hvalid hstorable

theorem storable_of_stored {chain' : List Loaded} {loaded : Loaded}
    (h' : Stored (withSnapshot root ledger (written ledger chain)) ledger.buildId chain')
    (hloaded : chain'.getLast? = some loaded) (hledger : loaded.ledger = ledger) :
    Storable ledger ∧ ledger.revision.toNat < 10 ^ 6 := by
  have hlast : ledger.revision.toNat < 10 ^ 6 := by
    rw [← hledger, h'.revision_last hloaded]
    exact h'.length_lt
  refine ⟨(ledgerFromJson_clean ledger).mp ?_, hlast⟩
  have hchain := h'.chain
  rw [jsonFiles_withSnapshot h hrevision hlast] at hchain
  obtain ⟨rest, last, rfl, hrest, hread⟩ := hchain.of_concat
  obtain rfl : rest = chain := (Stored.mk h.safe hrest).unique h
  obtain rfl : last = loaded := by simpa using hloaded
  obtain ⟨ledger', name, bytes⟩ := last
  obtain rfl : ledger' = ledger := hledger
  obtain ⟨rfl, rfl⟩ := Prod.mk.inj hread.file
  rw [Nat.zero_add] at hread
  exact (parseSnapshot_written "" ledger' ledger' (lossless_tip rest)).mp hread.parsed

theorem load_withSnapshot_ne (store : BuildLedgerStore) :
    (store.load ledger.buildId (withSnapshot root ledger (written ledger chain))).1 ≠
      (store.load ledger.buildId root).1 := by
  have hlength := length_withSnapshot h hrevision
  rcases List.eq_nil_or_concat' chain with rfl | ⟨chain, last, rfl⟩
  · rw [load_eq_notFound.mpr ⟨rfl, h⟩]
    intro hload
    have h' := (load_eq_notFound.mp hload).2
    rw [h'.chain.length_eq] at hlength
    simp at hlength
  · rw [load_eq_ok.mpr ⟨_, last, h, List.getLast?_concat, rfl⟩]
    intro hload
    obtain ⟨chain', loaded, h', hloaded, hledger⟩ := load_eq_ok.mp hload
    have hnumber := h'.revision_last hloaded
    rw [hledger, h.revision_last List.getLast?_concat, ← h'.chain.length_eq, hlength] at hnumber
    omega

theorem readBack_written {store : BuildLedgerStore} (hvalid : ledger.Valid) {path : String} :
    store.readBack ledger (written ledger chain).name
        (withSnapshot root ledger (written ledger chain)) = .ok path ↔
      (Storable ledger ∧ ledger.revision.toNat < 10 ^ 6) ∧
        store.snapshotPath ledger.buildId (written ledger chain).name = path := by
  simp only [readBack, bind_eq_ok, okOr_eq_ok, refuseIf_eq_ok, pure_eq_ok, not_or, ne_eq, not_not,
    loadUnlockedOptional_eq_ok]
  constructor
  · rintro ⟨_, ⟨chain', h', rfl⟩, loaded, hloaded, -, ⟨hledger, -⟩, hpath⟩
    exact ⟨storable_of_stored h hrevision h' hloaded hledger, hpath⟩
  · rintro ⟨⟨hstorable, hlast⟩, hpath⟩
    exact ⟨_, ⟨_, stored_withSnapshot h hrevision hvalid hstorable hlast, rfl⟩, written ledger chain,
      List.getLast?_concat, (), ⟨rfl, rfl⟩, hpath⟩

end Write

def Writes (store : BuildLedgerStore) (root : LedgerRoot) (ledger : BuildLedger) : Prop :=
  (∃ current, (store.load ledger.buildId root).1 = .ok current ∧
    current ≠ ledger ∧ ledger.revision = saturatingSucc current.revision) ∨
  ((store.load ledger.buildId root).1 = .error (.notFound ledger.buildId) ∧ ledger.revision = 1)

section Save

variable {store : BuildLedgerStore} {root : LedgerRoot} {ledger : BuildLedger}

theorem follows_eq_some {current : Option Loaded} {existing : Loaded}
    (h : follows ledger current = .ok (some existing)) :
    current = some existing ∧ existing.ledger = ledger := by
  unfold follows at h
  cases current with
  | none =>
    simp only at h
    split_ifs at h
    exact absurd h (by simp)
  | some current =>
    simp only at h
    split_ifs at h with hsame
    · obtain rfl : current = existing := by simpa using h
      exact ⟨rfl, hsame⟩
    · exact absurd h (by simp)

theorem writes_iff {chain : List Loaded} (h : Stored root ledger.buildId chain) :
    Writes store root ledger ↔ follows ledger chain.getLast? = .ok none := by
  rcases List.eq_nil_or_concat' chain with rfl | ⟨chain, last, rfl⟩
  · rw [Writes, load_eq_notFound.mpr ⟨rfl, h⟩, List.getLast?_nil, follows]
    split_ifs with hone
    · simp [hone]
    · simpa using hone
  · rw [Writes, load_eq_ok.mpr ⟨_, last, h, List.getLast?_concat, rfl⟩, List.getLast?_concat, follows]
    simp only [Except.ok.injEq, exists_eq_left', reduceCtorEq, false_and, or_false]
    split_ifs with hsame hnext
    · simp [hsame]
    · simp [hnext]
    · simpa [hsame] using hnext

theorem Writes.stored (h : Writes store root ledger) :
    ∃ chain, Stored root ledger.buildId chain ∧ ledger.revision.toNat = chain.length + 1 := by
  rcases h with ⟨current, hload, -, hnext⟩ | ⟨hload, hone⟩
  · obtain ⟨chain, loaded, hstored, hlast, rfl⟩ := load_eq_ok.mp hload
    have hnumber := hstored.revision_last hlast
    have hlength := hstored.length_lt
    have hsize : 10 ^ 6 < UInt64.size := by decide
    refine ⟨chain, hstored, ?_⟩
    rw [hnext, toNat_saturatingSucc (by omega), hnumber]
  · refine ⟨[], (load_eq_notFound.mp hload).2, ?_⟩
    rw [hone]
    rfl

theorem save_cases (store : BuildLedgerStore) (root : LedgerRoot) (hvalid : ledger.Valid) :
    (¬Writes store root ledger ∧ (store.save ledger root).2 = acquire root ledger.buildId ∧
      ∀ path, (store.save ledger root).1 = .ok path →
        (store.load ledger.buildId root).1 = .ok ledger) ∨
    (Writes store root ledger ∧ ∃ chain, Stored root ledger.buildId chain ∧
      ledger.revision.toNat = chain.length + 1 ∧
      store.save ledger root =
        (store.readBack ledger (written ledger chain).name
            (withSnapshot (acquire root ledger.buildId) ledger (written ledger chain)),
          withSnapshot (acquire root ledger.buildId) ledger (written ledger chain))) := by
  have hfiles := snapshotFiles_acquire root ledger.buildId ledger.buildId
  have hsave : store.save ledger root =
      store.saveUnlocked ledger (acquire root ledger.buildId) := by
    unfold save
    rw [(BuildLedger.validate_eq_ok (u := ())).mpr hvalid]
    simp only
    rw [(validateBuildId_eq_ok (u := ())).mpr hvalid.buildId]
  rw [hsave]
  unfold saveUnlocked
  cases hload : store.loadUnlockedOptional (acquire root ledger.buildId) ledger.buildId with
  | error error =>
    refine .inl ⟨fun hwrites => ?_, rfl, fun path hpath => absurd hpath (by simp)⟩
    obtain ⟨chain, hstored, -⟩ := hwrites.stored
    rw [loadUnlockedOptional_eq_ok.mpr ⟨chain, (Stored.congr hfiles).mpr hstored, rfl⟩] at hload
    exact absurd hload (by simp)
  | ok current =>
    obtain ⟨chain, hstored', rfl⟩ := loadUnlockedOptional_eq_ok.mp hload
    have hstored := (Stored.congr hfiles).mp hstored'
    have hwrites : Writes store root ledger ↔ _ := writes_iff hstored
    simp only
    cases hfollows : follows ledger chain.getLast? with
    | error error =>
      exact .inl ⟨fun h => absurd (hwrites.mp h) (by simp [hfollows]), rfl,
        fun path hpath => absurd hpath (by simp)⟩
    | ok existing =>
      cases existing with
      | some existing =>
        obtain ⟨hlast, hledger⟩ := follows_eq_some hfollows
        exact .inl ⟨fun h => absurd (hwrites.mp h) (by simp [hfollows]), rfl,
          fun _ _ => load_eq_ok.mpr ⟨chain, existing, hstored, hlast, hledger⟩⟩
      | none =>
        have h := hwrites.mpr hfollows
        obtain ⟨chain', hchain', hrevision⟩ := h.stored
        obtain rfl := hchain'.unique hstored
        refine .inr ⟨h, chain', hstored, hrevision, ?_⟩
        exact writeSnapshot_eq hstored' hrevision store

theorem save_extends (hvalid : ledger.Valid) (hwrites : Writes store root ledger)
    (hstorable : Storable ledger ∧ ledger.revision.toNat < 10 ^ 6) :
    ∃ chain, Stored root ledger.buildId chain ∧
      (store.save ledger root).1 =
        .ok (store.snapshotPath ledger.buildId (written ledger chain).name) ∧
      (store.save ledger root).2 =
        withSnapshot (acquire root ledger.buildId) ledger (written ledger chain) ∧
      Stored (store.save ledger root).2 ledger.buildId (chain ++ [written ledger chain]) := by
  have hfiles := snapshotFiles_acquire root ledger.buildId ledger.buildId
  rcases save_cases store root hvalid with ⟨hno, -⟩ | ⟨-, chain, hstored, hrevision, hsave⟩
  · exact absurd hwrites hno
  have hstored' := (Stored.congr hfiles).mpr hstored
  have hback : store.readBack ledger (written ledger chain).name
      (withSnapshot (acquire root ledger.buildId) ledger (written ledger chain)) =
      .ok (store.snapshotPath ledger.buildId (written ledger chain).name) :=
    (readBack_written hstored' hrevision hvalid).mpr ⟨hstorable, rfl⟩
  refine ⟨chain, hstored, by rw [hsave, hback], by rw [hsave], ?_⟩
  rw [hsave]
  exact stored_withSnapshot hstored' hrevision hvalid hstorable.1 hstorable.2

end Save

end AtomVibe.LedgerSave
