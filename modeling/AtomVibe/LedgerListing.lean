import AtomVibe.Coordinator
import AtomVibe.LedgerBinding

namespace AtomVibe.LedgerListing

open Checked Transition ChainFiles PlannerModel BuildPlanner PlannerInvariant LedgerCodec
open LedgerRoundTrip LedgerStore BuildLedgerStore LedgerChain LedgerSave LedgerAtomic Coordinator

inductive StoreOp
  | save (ledger : BuildLedger)
  | load (buildId : String)

inductive StoreResult
  | saved (result : Except BuildLedgerStoreError String)
  | loaded (result : Except BuildLedgerStoreError BuildLedger)

def runOp (store : BuildLedgerStore) (root : LedgerRoot) : StoreOp → StoreResult × LedgerRoot
  | .save ledger => (.saved (store.save ledger root).1, (store.save ledger root).2)
  | .load buildId => (.loaded (store.load buildId root).1, (store.load buildId root).2)

abbrev StoreVisit := Visit LedgerRoot StoreOp StoreResult

def savedLedger (visit : StoreVisit) : Option BuildLedger :=
  match visit.input, visit.output with
  | .save ledger, .saved (.ok _) => some ledger
  | _, _ => none

def lastSaved (past : List StoreVisit) (buildId : String) : Option BuildLedger :=
  ((past.filterMap savedLedger).filter fun ledger => ledger.buildId == buildId).getLast?

structure Listed (past : List StoreVisit) (ledgers : List BuildLedger) : Prop where
  exact : ∀ ledger, ledger ∈ ledgers ↔ lastSaved past ledger.buildId = some ledger
  once : (ledgers.map (·.buildId)).Nodup
  ordered : ledgers.Pairwise fun left right => right.updatedAtUnixMs ≤ left.updatedAtUnixMs

def Harmless (store : BuildLedgerStore) (root : LedgerRoot) : StoreOp → Prop
  | .load buildId => isSafeBuildId buildId = true →
      ∃ ledger, (store.load buildId root).1 = .ok ledger
  | .save ledger => ledger.validate = .ok () →
      ((∃ current, (store.load ledger.buildId root).1 = .ok current) ∨ ledger.revision = 1) ∧
        (Writes store root ledger → Storable ledger ∧ ledger.revision.toNat < 10 ^ 6)

def Tracks (store : BuildLedgerStore) (past : List StoreVisit) (root : LedgerRoot) : Prop :=
  ∀ buildId, (root.lookup buildId = none ∧ lastSaved past buildId = none) ∨
    ∃ dir ledger, root.lookup buildId = some dir ∧ (store.load buildId root).1 = .ok ledger ∧
      lastSaved past buildId = some ledger

section Steps

variable {store : BuildLedgerStore} {past : List StoreVisit} {root : LedgerRoot}

theorem lastSaved_concat (past : List StoreVisit) (visit : StoreVisit) (buildId : String) :
    lastSaved (past ++ [visit]) buildId =
      match savedLedger visit with
      | some ledger => if ledger.buildId = buildId then some ledger else lastSaved past buildId
      | none => lastSaved past buildId := by
  unfold lastSaved
  rw [List.filterMap_append, List.filter_append]
  cases h : savedLedger visit with
  | none => simp [h]
  | some ledger =>
    by_cases hid : ledger.buildId = buildId
    · simp [h, hid]
    · simp [h, hid]

theorem stored_nil {buildId : String} (hsafe : isSafeBuildId buildId = true)
    (hdir : root.lookup buildId = none) : Stored root buildId [] := by
  refine ⟨hsafe, ?_⟩
  rw [snapshotFiles, hdir]
  exact .nil 0 ""

theorem acquire_of_load {buildId : String} {ledger : BuildLedger}
    (h : (store.load buildId root).1 = .ok ledger) : acquire root buildId = root := by
  obtain ⟨chain, loaded, hstored, hlast, -⟩ := load_eq_ok.mp h
  unfold acquire
  cases hdir : root.lookup buildId with
  | some dir => rfl
  | none =>
    rw [hstored.unique (stored_nil hstored.safe hdir)] at hlast
    simp at hlast

theorem lookup_withSnapshot (ledger : BuildLedger) (loaded : Loaded) (buildId : String) :
    (withSnapshot root ledger loaded).lookup buildId =
      if buildId = ledger.buildId then
        some ⟨some ((snapshotFiles root ledger.buildId).insert loaded.name loaded.bytes)⟩
      else root.lookup buildId :=
  Catalog.lookup_insert _ _ _ _

theorem lookup_acquire_ne {buildId other : String} (h : other ≠ buildId) :
    (acquire root buildId).lookup other = root.lookup other := by
  unfold acquire
  split
  · rfl
  · rw [Catalog.lookup_insert, if_neg h]

theorem tracks_same (h : Tracks store past root) {op : StoreOp}
    (hroot : (runOp store root op).2 = root)
    (hsaved : ∀ ledger, savedLedger (visit (runOp store) root op) = some ledger →
      (store.load ledger.buildId root).1 = .ok ledger) :
    Tracks store (past ++ [visit (runOp store) root op]) (runOp store root op).2 := by
  intro buildId
  rw [hroot, lastSaved_concat]
  cases hledger : savedLedger (visit (runOp store) root op) with
  | none => exact h buildId
  | some ledger =>
    have hload := hsaved ledger hledger
    by_cases hid : ledger.buildId = buildId
    · subst hid
      simp only [if_pos]
      rcases h ledger.buildId with ⟨hnone, -⟩ | ⟨dir, _, hdir, -, -⟩
      · have hacquire := acquire_of_load hload
        rw [acquire, hnone] at hacquire
        have hlookup := congrArg (fun r : LedgerRoot => r.lookup ledger.buildId) hacquire
        simp only [Catalog.lookup_insert, if_pos, hnone] at hlookup
        exact absurd hlookup (by simp)
      · exact .inr ⟨dir, ledger, hdir, hload, rfl⟩
    · simp only [if_neg hid]
      exact h buildId

theorem tracks_load (h : Tracks store past root) {buildId : String}
    (hop : Harmless store root (.load buildId)) :
    Tracks store (past ++ [visit (runOp store) root (.load buildId)])
      (runOp store root (.load buildId)).2 := by
  refine tracks_same h ?_ (by simp [visit, runOp, savedLedger])
  show (store.load buildId root).2 = root
  unfold load
  cases hid : validateBuildId buildId with
  | error error => rfl
  | ok u =>
    obtain ⟨ledger, hload⟩ := hop (validateBuildId_eq_ok.mp hid)
    exact acquire_of_load hload

theorem tracks_save (h : Tracks store past root) {ledger : BuildLedger}
    (hop : Harmless store root (.save ledger)) :
    Tracks store (past ++ [visit (runOp store) root (.save ledger)])
      (runOp store root (.save ledger)).2 := by
  have hoks : ∀ saved, savedLedger (visit (runOp store) root (.save ledger)) = some saved →
      saved = ledger ∧ ∃ path, (store.save ledger root).1 = .ok path := by
    intro saved hsaved
    simp only [visit, runOp, savedLedger] at hsaved
    cases hresult : (store.save ledger root).1 with
    | error error => simp [hresult] at hsaved
    | ok path => exact ⟨by simpa [hresult, eq_comm] using hsaved, path, rfl⟩
  cases hvalidate : ledger.validate with
  | error error =>
    have hsave : store.save ledger root = (.error (.invalid error.display), root) := by
      rw [BuildLedgerStore.save, hvalidate]
    refine tracks_same h (by simp only [runOp, hsave]) fun saved hsaved => ?_
    obtain ⟨-, path, hpath⟩ := hoks saved hsaved
    rw [hsave] at hpath
    exact absurd hpath (by simp)
  | ok u =>
    have hvalid := BuildLedger.validate_eq_ok.mp hvalidate
    obtain ⟨hfirst, hstorable⟩ := hop hvalidate
    by_cases hwrites : Writes store root ledger
    · obtain ⟨chain, -, hok, hroot, hstored⟩ := save_extends hvalid hwrites (hstorable hwrites)
      have hsaved : savedLedger (visit (runOp store) root (.save ledger)) = some ledger := by
        simp [visit, runOp, savedLedger, hok]
      intro buildId
      rw [lastSaved_concat, hsaved]
      show (_ ∧ _) ∨ _
      by_cases hid : ledger.buildId = buildId
      · subst hid
        have hdir : ∃ dir, (store.save ledger root).2.lookup ledger.buildId = some dir := by
          rw [hroot, lookup_withSnapshot, if_pos rfl]
          exact ⟨_, rfl⟩
        obtain ⟨dir, hdir⟩ := hdir
        exact .inr ⟨dir, ledger, hdir,
          load_eq_ok.mpr ⟨_, _, hstored, List.getLast?_concat, rfl⟩, by simp⟩
      · have hne : buildId ≠ ledger.buildId := fun h => hid h.symm
        have hlookup : (store.save ledger root).2.lookup buildId = root.lookup buildId := by
          rw [hroot, lookup_withSnapshot, if_neg hne, lookup_acquire_ne hne]
        have hload : (store.load buildId (store.save ledger root).2).1 =
            (store.load buildId root).1 := by
          refine load_congr ?_
          rw [snapshotFiles, hlookup, snapshotFiles]
        simp only [if_neg hid]
        rcases h buildId with ⟨hdir, hnone⟩ | ⟨dir, saved, hdir, hloaded, hlast⟩
        · exact .inl ⟨hlookup.trans hdir, hnone⟩
        · exact .inr ⟨dir, saved, hlookup.trans hdir, hload.trans hloaded, hlast⟩
    · rcases save_cases store root hvalid with ⟨-, hroot, hload⟩ | ⟨hw, -⟩
      · have hcurrent : ∃ current, (store.load ledger.buildId root).1 = .ok current := by
          rcases hfirst with hcurrent | hone
          · exact hcurrent
          · rcases h ledger.buildId with ⟨hnone, -⟩ | ⟨-, current, -, hcurrent, -⟩
            · exact absurd (.inr ⟨load_eq_notFound.mpr ⟨rfl, stored_nil hvalid.buildId hnone⟩, hone⟩)
                hwrites
            · exact ⟨current, hcurrent⟩
        obtain ⟨current, hcurrent⟩ := hcurrent
        rw [acquire_of_load hcurrent] at hroot
        refine tracks_same h hroot fun saved hsaved => ?_
        obtain ⟨rfl, path, hpath⟩ := hoks saved hsaved
        exact hload path hpath
      · exact absurd hw hwrites

theorem tracks_step (h : Tracks store past root) (op : StoreOp) (hop : Harmless store root op) :
    Tracks store (past ++ [visit (runOp store) root op]) (runOp store root op).2 := by
  cases op with
  | save ledger => exact tracks_save h hop
  | load buildId => exact tracks_load h hop

theorem tracks_run (store : BuildLedgerStore) (ops : List StoreOp)
    (hops : Guarded (runOp store) (Harmless store) freshRoot ops) :
    Tracks store (trace (runOp store) freshRoot ops) (final (runOp store) freshRoot ops) :=
  guarded_induction (Harmless store) (Tracks store) (fun _ => .inl ⟨rfl, rfl⟩)
    (fun _ _ op h hop => tracks_step h op hop) ops hops

end Steps

section Listing

variable {store : BuildLedgerStore} {past : List StoreVisit} {root : LedgerRoot}
  {entries : List String}

theorem exists_loads (hloads : ∀ buildId ∈ entries, ∃ ledger,
    (store.load buildId root).1 = .ok ledger) : ∃ ledgers : List BuildLedger,
      (entries.mapM fun buildId => (store.load buildId root).1) = .ok ledgers ∧
        store.list entries root = .ok
          (ledgers.mergeSort fun left right => right.updatedAtUnixMs ≤ left.updatedAtUnixMs) := by
  have hsafe : entries.filter isSafeBuildId = entries := by
    refine List.filter_eq_self.mpr fun buildId hid => ?_
    obtain ⟨ledger, hload⟩ := hloads buildId hid
    obtain ⟨chain, _, hstored, -⟩ := load_eq_ok.mp hload
    exact hstored.safe
  obtain ⟨ledgers, hledgers⟩ := exists_mapM_ok hloads
  refine ⟨ledgers, hledgers, ?_⟩
  rw [list, hsafe, hledgers]
  rfl

theorem buildId_of_load {buildId : String} {ledger : BuildLedger}
    (h : (store.load buildId root).1 = .ok ledger) : ledger.buildId = buildId ∧ ledger.Valid := by
  obtain ⟨chain, loaded, hstored, hlast, rfl⟩ := load_eq_ok.mp h
  have hmem := List.mem_of_getLast? hlast
  exact ⟨hstored.buildId_eq hmem, hstored.valid hmem⟩

theorem listed_of_tracks (h : Tracks store past root)
    (hentries : entries.Perm (root.entries.map (·.1))) :
    ∃ ledgers, store.list entries root = .ok ledgers ∧ Listed past ledgers := by
  have hmem : ∀ buildId, buildId ∈ entries ↔ ∃ dir, root.lookup buildId = some dir := fun _ =>
    hentries.mem_iff.trans Catalog.mem_names
  have hloads : ∀ buildId ∈ entries, ∃ ledger, (store.load buildId root).1 = .ok ledger := by
    intro buildId hid
    obtain ⟨dir, hdir⟩ := (hmem buildId).mp hid
    rcases h buildId with ⟨hnone, -⟩ | ⟨_, ledger, -, hload, -⟩
    · rw [hdir] at hnone
      exact absurd hnone (by simp)
    · exact ⟨ledger, hload⟩
  obtain ⟨ledgers, hledgers, hlist⟩ := exists_loads hloads
  have hids : ledgers.map (·.buildId) = entries := by
    have hall := (mapM_eq_ok_iff.mp hledgers).imp fun _ _ hload => (buildId_of_load hload).1.symm
    exact (List.forall₂_eq_eq_eq ▸ List.forall₂_map_right_iff.mpr hall : _ = _).symm
  refine ⟨_, hlist, ⟨fun ledger => ?_, ?_, ?_⟩⟩
  · rw [List.mem_mergeSort, mem_of_mapM_ok hledgers]
    constructor
    · rintro ⟨buildId, hid, hload⟩
      obtain ⟨dir, hdir⟩ := (hmem buildId).mp hid
      rcases h buildId with ⟨hnone, -⟩ | ⟨_, saved, -, hsaved, hlast⟩
      · rw [hdir] at hnone
        exact absurd hnone (by simp)
      · obtain rfl := Except.ok.inj (hload.symm.trans hsaved)
        rw [(buildId_of_load hload).1]
        exact hlast
    · intro hlast
      rcases h ledger.buildId with ⟨-, hnone⟩ | ⟨dir, saved, hdir, hload, hsaved⟩
      · rw [hlast] at hnone
        exact absurd hnone (by simp)
      · obtain rfl := Option.some.inj (hlast.symm.trans hsaved)
        exact ⟨_, (hmem _).mpr ⟨dir, hdir⟩, hload⟩
  · have hperm := (List.mergeSort_perm ledgers fun left right =>
      decide (right.updatedAtUnixMs ≤ left.updatedAtUnixMs)).map (·.buildId)
    rw [hperm.nodup_iff, hids, hentries.nodup_iff]
    exact root.nodup_names
  · refine (List.pairwise_mergeSort ?_ ?_ ledgers).imp fun hle => of_decide_eq_true hle
    · intro a b c hab hbc
      exact decide_eq_true (UInt64.le_trans (of_decide_eq_true hbc) (of_decide_eq_true hab))
    · intro a b
      rcases UInt64.le_total b.updatedAtUnixMs a.updatedAtUnixMs with hle | hle <;> simp [hle]

def PlannersFrom (ledgers : List BuildLedger) (planners : Catalog String BuildLedger) : Prop :=
  ∀ buildId planner, planners.lookup buildId = some planner →
    planner ∈ ledgers ∧ planner.buildId = buildId

theorem restorePlanners_ok {ledgers rest : List BuildLedger}
    (hvalid : ∀ ledger ∈ ledgers, ledger.Valid) (hrest : ∀ ledger ∈ rest, ledger ∈ ledgers)
    {planners : Catalog String BuildLedger} (hplanners : PlannersFrom ledgers planners) :
    ∃ planners', BuildCoordinator.restorePlanners planners rest = .ok planners' ∧
      PlannersFrom ledgers planners' := by
  induction rest generalizing planners with
  | nil => exact ⟨planners, rfl, hplanners⟩
  | cons ledger rest ih =>
    obtain ⟨hledger, hrest⟩ := List.forall_mem_cons.mp hrest
    have hinsert : PlannersFrom ledgers (planners.insert ledger.buildId ledger) := by
      intro buildId planner hlookup
      rw [Catalog.lookup_insert] at hlookup
      split_ifs at hlookup with hid
      · obtain rfl := Option.some.inj hlookup
        exact ⟨hledger, hid.symm⟩
      · exact hplanners _ _ hlookup
    rw [BuildCoordinator.restorePlanners, fromLedger_eq_ok.mpr ⟨hvalid _ hledger, rfl⟩, ok_bind]
    exact ih hrest hinsert

theorem openRoot_of_list {ledgers : List BuildLedger}
    (hlist : store.list entries root = .ok ledgers) (hvalid : ∀ ledger ∈ ledgers, ledger.Valid) :
    ∃ coordinator, BuildCoordinator.openRoot store entries root = .ok coordinator ∧
      coordinator.store = store ∧ PlannersFrom ledgers coordinator.planners := by
  obtain ⟨planners, heq, hplanners⟩ := restorePlanners_ok hvalid (fun _ h => h)
    (show PlannersFrom ledgers Catalog.empty from fun _ _ h =>
      absurd h (by simp [Catalog.lookup, Catalog.empty]))
  refine ⟨⟨store, planners, .new, [], Bus.SpiderwebBus.fresh_new⟩, ?_, rfl, hplanners⟩
  rw [BuildCoordinator.openRoot, hlist]
  simp only [Except.mapError, ok_bind]
  rw [heq]
  rfl

end Listing

def ListsAndOpens (store : BuildLedgerStore) (past : List StoreVisit) (root : LedgerRoot) : Prop :=
  ∀ entries : List String, entries.Perm (root.entries.map (·.1)) →
    (∃ ledgers, store.list entries root = .ok ledgers ∧ Listed past ledgers) ∧
      ∃ coordinator, BuildCoordinator.openRoot store entries root = .ok coordinator

theorem listsAndOpens_of_tracks {store : BuildLedgerStore} {past : List StoreVisit}
    {root : LedgerRoot} (h : Tracks store past root) : ListsAndOpens store past root := by
  intro entries hentries
  obtain ⟨ledgers, hlist, hlisted⟩ := listed_of_tracks h hentries
  have hvalid : ∀ ledger ∈ ledgers, ledger.Valid := by
    intro ledger hledger
    rcases h ledger.buildId with ⟨-, hnone⟩ | ⟨_, saved, -, hload, hsaved⟩
    · rw [(hlisted.exact ledger).mp hledger] at hnone
      exact absurd hnone (by simp)
    · obtain rfl := Option.some.inj (((hlisted.exact ledger).mp hledger).symm.trans hsaved)
      exact (buildId_of_load hload).2
  obtain ⟨coordinator, hopen, -⟩ := openRoot_of_list hlist hvalid
  exact ⟨⟨ledgers, hlist, hlisted⟩, coordinator, hopen⟩

/-- After any calls that are all harmless the root lists exactly what was saved last. -/
theorem listing_of_harmless_run (store : BuildLedgerStore) (ops : List StoreOp)
    (hops : Guarded (runOp store) (Harmless store) freshRoot ops) :
    ListsAndOpens store (trace (runOp store) freshRoot ops)
      (final (runOp store) freshRoot ops) :=
  listsAndOpens_of_tracks (tracks_run store ops hops)

theorem listing_of_harmless_run_demo :
    ListsAndOpens sampleStore (trace (runOp sampleStore) freshRoot [.save demoLedger])
      (final (runOp sampleStore) freshRoot [.save demoLedger]) := by
  refine listing_of_harmless_run sampleStore [.save demoLedger] ?_
  intro v hv
  obtain rfl := List.mem_singleton.mp hv
  exact fun _ => ⟨.inr rfl, fun _ => by decide +kernel⟩

theorem load_spoils_listing :
    ¬ListsAndOpens sampleStore (trace (runOp sampleStore) freshRoot [.load "build-unknown"])
      (final (runOp sampleStore) freshRoot [.load "build-unknown"]) := by
  intro h
  obtain ⟨⟨ledgers, hlist, -⟩, -⟩ := h ["build-unknown"] (List.Perm.refl _)
  have herror : sampleStore.list ["build-unknown"]
      (final (runOp sampleStore) freshRoot [.load "build-unknown"]) =
        .error (.notFound "build-unknown") := by
    decide +kernel
  rw [herror] at hlist
  exact absurd hlist (by simp)

end AtomVibe.LedgerListing
