import AtomVibe.LedgerSave
import AtomVibe.PlannerInvariant

namespace AtomVibe.LedgerAtomic

open PlannerModel LedgerCodec LedgerRoundTrip LedgerStore BuildLedgerStore LedgerChain LedgerSave
open PlannerInvariant

structure SaveAtomic (store : BuildLedgerStore) (root : LedgerRoot) (ledger : BuildLedger) :
    Prop where
  accepted : ∀ path, (store.save ledger root).1 = .ok path →
    (store.load ledger.buildId (store.save ledger root).2).1 = .ok ledger
  rejected : ∀ error, (store.save ledger root).1 = .error error →
    (store.load ledger.buildId (store.save ledger root).2).1 = (store.load ledger.buildId root).1

section Save

variable {store : BuildLedgerStore} {root : LedgerRoot} {ledger : BuildLedger}

theorem saveAtomic_of_storable (hvalid : ledger.Valid)
    (hstorable : Writes store root ledger → Storable ledger ∧ ledger.revision.toNat < 10 ^ 6) :
    SaveAtomic store root ledger := by
  have hfiles := snapshotFiles_acquire root ledger.buildId ledger.buildId
  rcases save_cases store root hvalid with ⟨-, hroot, hload⟩ | ⟨hwrites, -⟩
  · have hsame : (store.load ledger.buildId (store.save ledger root).2).1 =
        (store.load ledger.buildId root).1 := load_congr (hroot ▸ hfiles)
    exact ⟨fun path hpath => hsame.trans (hload path hpath), fun _ _ => hsame⟩
  · obtain ⟨chain, -, hok, -, hnext⟩ := save_extends hvalid hwrites (hstorable hwrites)
    refine ⟨fun path _ => load_eq_ok.mpr ⟨_, _, hnext, List.getLast?_concat, rfl⟩,
      fun error herror => ?_⟩
    rw [hok] at herror
    exact absurd herror (by simp)

theorem storable_of_kept (hvalid : ledger.Valid)
    (hkept : ∀ error, (store.save ledger root).1 = .error error →
      (store.load ledger.buildId (store.save ledger root).2).1 = (store.load ledger.buildId root).1)
    (hwrites : Writes store root ledger) : Storable ledger ∧ ledger.revision.toNat < 10 ^ 6 := by
  have hfiles := snapshotFiles_acquire root ledger.buildId ledger.buildId
  rcases save_cases store root hvalid with ⟨hno, -⟩ | ⟨-, chain, hstored, hrevision, hsave⟩
  · exact absurd hwrites hno
  have hstored' := (Stored.congr hfiles).mpr hstored
  cases hback : (store.save ledger root).1 with
  | ok path =>
    rw [hsave] at hback
    exact ((readBack_written hstored' hrevision hvalid).mp hback).1
  | error error =>
    have hsame := hkept error hback
    rw [hsave, ← load_congr hfiles] at hsame
    exact absurd hsame (load_withSnapshot_ne hstored' hrevision store)

theorem storable_of_saveAtomic (hvalid : ledger.Valid) (hatomic : SaveAtomic store root ledger)
    (hwrites : Writes store root ledger) : Storable ledger ∧ ledger.revision.toNat < 10 ^ 6 :=
  storable_of_kept hvalid hatomic.rejected hwrites

theorem save_same (hvalid : ledger.Valid) (hload : (store.load ledger.buildId root).1 = .ok ledger) :
    ∃ path, (store.save ledger root).1 = .ok path := by
  have hfiles := snapshotFiles_acquire root ledger.buildId ledger.buildId
  obtain ⟨chain, last, hstored, hlast, hledger⟩ := load_eq_ok.mp hload
  have hunlocked : store.loadUnlockedOptional (acquire root ledger.buildId) ledger.buildId =
      .ok (some last) :=
    loadUnlockedOptional_eq_ok.mpr ⟨chain, (Stored.congr hfiles).mpr hstored, hlast.symm⟩
  unfold save
  rw [(BuildLedger.validate_eq_ok (u := ())).mpr hvalid]
  simp only
  rw [(validateBuildId_eq_ok (u := ())).mpr hvalid.buildId]
  simp only [saveUnlocked, hunlocked, follows, if_pos hledger]
  exact ⟨_, rfl⟩

theorem save_ok_iff (hvalid : ledger.Valid) :
    (∃ path, (store.save ledger root).1 = .ok path) ↔
      (Writes store root ledger ∧ Storable ledger ∧ ledger.revision.toNat < 10 ^ 6) ∨
        (store.load ledger.buildId root).1 = .ok ledger := by
  constructor
  · rintro ⟨path, hpath⟩
    rcases save_cases store root hvalid with ⟨-, -, hload⟩ | ⟨hwrites, chain, hstored, hrevision, hsave⟩
    · exact .inr (hload path hpath)
    · have hstored' := (Stored.congr (snapshotFiles_acquire root ledger.buildId _)).mpr hstored
      rw [hsave] at hpath
      exact .inl ⟨hwrites, ((readBack_written hstored' hrevision hvalid).mp hpath).1⟩
  · rintro (⟨hwrites, hstorable⟩ | hload)
    · obtain ⟨_, -, hok, -⟩ := save_extends hvalid hwrites hstorable
      exact ⟨_, hok⟩
    · exact save_same hvalid hload

theorem not_writes_of_load (hload : (store.load ledger.buildId root).1 = .ok ledger) :
    ¬Writes store root ledger := by
  rintro (⟨current, hcurrent, hne, -⟩ | ⟨hnone, -⟩)
  · exact hne (Except.ok.inj (hcurrent.symm.trans hload))
  · rw [hnone] at hload
    exact absurd hload (by simp)

theorem load_of_saved (hvalid : ledger.Valid) {path : String}
    (hsave : (store.save ledger root).1 = .ok path) :
    (store.load ledger.buildId (store.save ledger root).2).1 = .ok ledger ∧
      ledger.revision.toNat < 10 ^ 6 := by
  rcases (save_ok_iff hvalid).mp ⟨path, hsave⟩ with ⟨-, hstorable⟩ | hload
  · exact ⟨(saveAtomic_of_storable hvalid fun _ => hstorable).accepted path hsave, hstorable.2⟩
  · have hatomic : SaveAtomic store root ledger :=
      saveAtomic_of_storable hvalid fun hwrites => absurd hwrites (not_writes_of_load hload)
    obtain ⟨chain, last, hstored, hlast, hledger⟩ := load_eq_ok.mp hload
    refine ⟨hatomic.accepted path hsave, ?_⟩
    rw [← hledger, hstored.revision_last hlast]
    exact hstored.length_lt

theorem save_atomic_iff (store : BuildLedgerStore) (root : LedgerRoot)
    (hvalid : ledger.validate = .ok ()) :
    SaveAtomic store root ledger ↔
      (Writes store root ledger → Storable ledger ∧ ledger.revision.toNat < 10 ^ 6) :=
  ⟨storable_of_saveAtomic (BuildLedger.validate_eq_ok.mp hvalid),
    saveAtomic_of_storable (BuildLedger.validate_eq_ok.mp hvalid)⟩

end Save

def sampleStore : BuildLedgerStore := ⟨"ledgers"⟩

def freshRoot : LedgerRoot := Catalog.empty

theorem save_atomic_iff_demo : SaveAtomic sampleStore freshRoot demoLedger :=
  (save_atomic_iff sampleStore freshRoot (by decide +kernel)).mpr fun _ => by decide +kernel

def colouredLedger : BuildLedger :=
  { demoLedger with deferredDebt := [⟨.crateCouple, "\x1b[31mqueue missing", 1⟩] }

theorem stored_fresh {buildId : String} (h : isSafeBuildId buildId = true) :
    Stored freshRoot buildId [] :=
  ⟨h, .nil 0 ""⟩

theorem writes_fresh {ledger : BuildLedger} (hvalid : ledger.Valid) (hone : ledger.revision = 1) :
    Writes sampleStore freshRoot ledger :=
  .inr ⟨load_eq_notFound.mpr ⟨rfl, stored_fresh hvalid.buildId⟩, hone⟩

theorem save_not_atomic_escape : colouredLedger.validate = .ok () ∧
    ¬SaveAtomic sampleStore freshRoot colouredLedger := by
  have hvalid : colouredLedger.validate = .ok () := by decide +kernel
  refine ⟨hvalid, fun hatomic => ?_⟩
  have hunstorable : ¬Storable colouredLedger := by decide +kernel
  have hv : colouredLedger.Valid := BuildLedger.validate_eq_ok.mp hvalid
  exact hunstorable (storable_of_saveAtomic hv hatomic (writes_fresh hv rfl)).1

end AtomVibe.LedgerAtomic

namespace AtomVibe.LedgerBinding

open Hash HashChain ReadChain ChainFiles PlannerModel LedgerStore BuildLedgerStore LedgerChain
open LedgerSave LedgerAtomic PlannerInvariant

def snapshots (root : LedgerRoot) (buildId : String) : List (String × ByteArray) :=
  jsonFiles (snapshotFiles root buildId)

def snapshotTexts (root : LedgerRoot) (buildId : String) : List (List UInt8) :=
  (snapshots root buildId).map fun file => file.2.data.toList

def lastBytes (root : LedgerRoot) (buildId : String) : Option ByteArray :=
  (snapshots root buildId).getLast?.map (·.2)

def ledgerAt (root : LedgerRoot) (buildId : String) (revision : ℕ) : Option BuildLedger :=
  (snapshots root buildId)[revision - 1]?.bind fun file =>
    (parseSnapshot "" file.2).toOption.map (·.ledger)

def recordedPrevious (loaded : Loaded) : String :=
  ((parseSnapshot "" loaded.bytes).toOption.map (·.previousHash)).getD ""

theorem bytes_eq_of_toList {x y : ByteArray} (h : x.data.toList = y.data.toList) : x = y :=
  ByteArray.ext (Array.toList_inj.mp h)

section Stored

variable {root root' : LedgerRoot} {buildId : String} {chain chain' : List Loaded}

theorem linked_of_stored (h : Stored root buildId chain) :
    Linked recordedPrevious (fun loaded => snapshotHash loaded.bytes) "" chain := by
  refine h.chain.linked fun _ _ _ _ hr => ?_
  rw [recordedPrevious, hr.parsed]
  rfl

theorem loaded_eq_of_bytes (h : Stored root buildId chain) (h' : Stored root' buildId chain')
    {x y : Loaded} (hx : x ∈ chain) (hy : y ∈ chain') (hbytes : x.bytes = y.bytes) : x = y := by
  obtain ⟨_, _, _, -, -, hr⟩ := h.chain.mem hx
  obtain ⟨_, _, _, -, -, hr'⟩ := h'.chain.mem hy
  obtain ⟨ledger, name, bytes⟩ := x
  obtain ⟨ledger', name', bytes'⟩ := y
  obtain rfl : bytes = bytes' := hbytes
  have hsnapshot := Except.ok.inj (hr.parsed.symm.trans hr'.parsed)
  obtain rfl : ledger = ledger' := congrArg Snapshot.ledger hsnapshot
  obtain rfl : name = name' := hr.name.trans hr'.name.symm
  rfl

theorem mem_snapshotTexts (h : Stored root buildId chain) {x : Loaded} (hx : x ∈ chain) :
    x.bytes.data.toList ∈ snapshotTexts root buildId := by
  rw [snapshotTexts, snapshots, h.files_eq, List.map_map]
  exact List.mem_map_of_mem hx

theorem lastBytes_eq (h : Stored root buildId chain) :
    lastBytes root buildId = chain.getLast?.map (·.bytes) := by
  rw [lastBytes, snapshots, h.files_eq, List.getLast?_map, Option.map_map]
  rfl

theorem chain_unique (h : Stored root buildId chain) (h' : Stored root' buildId chain')
    (hfree : CollisionFree sha256 (snapshotTexts root buildId) (snapshotTexts root' buildId))
    {x : Loaded} (hx : chain.getLast? = some x)
    (hlast : lastBytes root buildId = lastBytes root' buildId) : chain = chain' := by
  rw [lastBytes_eq h, lastBytes_eq h', hx, Option.map_some, eq_comm,
    Option.map_eq_some_iff] at hlast
  obtain ⟨y, hy, hbytes⟩ := hlast
  obtain rfl := loaded_eq_of_bytes h' h (List.mem_of_getLast? hy) (List.mem_of_getLast? hx) hbytes
  -- the revision in the shared last snapshot fixes the length of both chains
  have hlength : chain.length = chain'.length :=
    (h.revision_last hx).symm.trans (h'.revision_last hy)
  refine linked_unique (linked_of_stored h) (linked_of_stored h') ?_ hlength (hx.trans hy.symm)
  intro b hb c hc hdigest
  refine loaded_eq_of_bytes h h' hb hc (bytes_eq_of_toList ?_)
  exact hfree _ (mem_snapshotTexts h hb) _ (mem_snapshotTexts h' hc) (sha256Tagged_inj.mp hdigest)

end Stored

end AtomVibe.LedgerBinding
