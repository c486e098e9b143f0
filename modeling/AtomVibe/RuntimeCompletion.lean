import AtomVibe.RuntimeProgress

namespace AtomVibe.RuntimeCompletion

open Checked Transition BuildProtocol PlannerModel BuildPlanner PlannerSteps PlannerInvariant
open LedgerStore BuildLedgerStore LedgerChain LedgerSave LedgerAtomic Coordinator ChainFiles
open Scratchpad ScratchpadStore ScratchpadChain ScratchpadAppend ScratchpadOpen ScratchpadRuns
open RuntimeModel AtomVibe.Runtime AtomVibeRuntime RuntimeGate RuntimeRuns

section Planner

variable {store : BuildLedgerStore} {root : LedgerRoot} {ledger : BuildLedger} {buildId : String}

def StoredComplete (root : LedgerRoot) (buildId : String) : Prop :=
  ∃ chain last, Stored root buildId chain ∧ chain.getLast? = some last ∧
    last.ledger.status = .complete

theorem snapshotFiles_save_ne (hvalid : ledger.Valid) (hid : buildId ≠ ledger.buildId) :
    snapshotFiles (store.save ledger root).2 buildId = snapshotFiles root buildId := by
  rcases save_cases store root hvalid with ⟨-, hroot, -⟩ | ⟨-, chain, -, -, hsave⟩
  · rw [hroot, snapshotFiles_acquire]
  · rw [hsave, snapshotFiles_withSnapshot_ne _ hid, snapshotFiles_acquire]

theorem save_new_refused (h : StoredComplete root ledger.buildId) (hvalid : ledger.Valid)
    (hone : ledger.revision = 1) (hactive : ledger.status = .active) :
    (∃ error, (store.save ledger root).1 = .error error) ∧
      snapshotFiles (store.save ledger root).2 ledger.buildId =
        snapshotFiles root ledger.buildId := by
  obtain ⟨chain, last, hstored, hlast, hcomplete⟩ := h
  rcases save_cases store root hvalid with ⟨-, hroot, hload⟩ | ⟨-, chain', hstored', hrevision, -⟩
  · refine ⟨?_, by rw [hroot, snapshotFiles_acquire]⟩
    cases hresult : (store.save ledger root).1 with
    | error error => exact ⟨error, rfl⟩
    | ok path =>
      obtain ⟨chain₀, last₀, hstored₀, hlast₀, hledger⟩ := load_eq_ok.mp (hload path hresult)
      obtain rfl := hstored₀.unique hstored
      obtain rfl : last₀ = last := Option.some.inj (hlast₀.symm.trans hlast)
      rw [hledger, hactive] at hcomplete
      exact absurd hcomplete (by decide)
  · obtain rfl := hstored'.unique hstored
    rw [hone] at hrevision
    have hempty : chain'.length = 0 := (Nat.succ.inj hrevision).symm
    rw [List.length_eq_zero_iff.mp hempty] at hlast
    exact absurd hlast (by simp)

section Coordinator

variable {coordinator : BuildCoordinator}

structure Spares (buildId : String) (coordinator changed : BuildCoordinator)
    (root root' : LedgerRoot) : Prop where
  planner : changed.planners.lookup buildId = coordinator.planners.lookup buildId
  snapshots : snapshotFiles root' buildId = snapshotFiles root buildId

theorem spares_kept {changed : BuildCoordinator} (hvalid : ledger.Valid)
    (hid : buildId ≠ ledger.buildId) (hkeeps : BuildCoordinator.Keeps coordinator ledger changed) :
    Spares buildId coordinator changed root (coordinator.store.save ledger root).2 := by
  refine ⟨?_, snapshotFiles_save_ne hvalid hid⟩
  rw [hkeeps.planners, Catalog.lookup_insert, if_neg hid]

theorem startBuild_spares (h : StoredComplete root buildId) (projectId : String)
    (autonomousCorrection : Bool) (retryLimit : UInt8) (now : UInt64) (pid : UInt32)
    (sequence : UInt64) :
    let done := coordinator.startBuild projectId autonomousCorrection retryLimit now pid sequence root
    Spares buildId coordinator done.2.1 root done.2.2 ∧
      ∀ started, done.1 = .ok started → started ≠ buildId := by
  unfold BuildCoordinator.startBuild
  cases hnew : new projectId autonomousCorrection retryLimit now pid sequence with
  | error error => exact ⟨⟨rfl, rfl⟩, by simp⟩
  | ok planner =>
    have hvalid := (aligned_of_new hnew).valid
    obtain ⟨-, hfresh⟩ := new_eq_ok.mp hnew
    have hrefused := fun hid : planner.buildId = buildId => @save_new_refused coordinator.store root
      planner (hid ▸ h) hvalid (by rw [hfresh]; rfl) (by rw [hfresh]; rfl)
    simp only
    cases hsave : (coordinator.store.save planner root).1 with
    | error error =>
      rw [BuildCoordinator.startPlanner_error hsave]
      refine ⟨⟨rfl, ?_⟩, by simp⟩
      by_cases hid : planner.buildId = buildId
      · exact hid ▸ (hrefused hid).2
      · exact snapshotFiles_save_ne hvalid fun hsame => hid hsame.symm
    | ok path =>
      have hid : planner.buildId ≠ buildId := by
        intro hid
        obtain ⟨⟨error, herror⟩, -⟩ := hrefused hid
        rw [hsave] at herror
        exact absurd herror (by simp)
      obtain ⟨changed, hkeeps, hstart⟩ := @BuildCoordinator.startPlanner_ok coordinator planner root
        path hsave
      rw [hstart]
      refine ⟨spares_kept hvalid (fun hsame => hid hsame.symm) hkeeps, ?_⟩
      rintro _ ⟨⟩
      exact hid

theorem evaluate_spares (hsound : SoundPlanners coordinator) {ledger : BuildLedger}
    (hplanner : coordinator.planners.lookup buildId = some ledger)
    (hcomplete : ledger.status = .complete) (other : String) (call : Call) :
    let done := coordinator.evaluate other call root
    Spares buildId coordinator done.2.1 root done.2.2 ∧
      ∀ decision, done.1 = .ok decision → other ≠ buildId := by
  unfold BuildCoordinator.evaluate
  cases hlookup : coordinator.planners.lookup other with
  | none => exact ⟨⟨rfl, rfl⟩, by simp⟩
  | some planner =>
    simp only
    rcases he : evaluateAndHandle planner call with ⟨_ | decision, candidate⟩
    · exact ⟨⟨rfl, rfl⟩, by simp⟩
    · have hother : other ≠ buildId := by
        rintro rfl
        obtain rfl := Option.some.inj (hplanner.symm.trans hlookup)
        have hreleased : ¬Released ledger call := by
          rintro ⟨hactive, -⟩
          rw [hcomplete] at hactive
          exact absurd hactive (by decide)
        obtain ⟨error, herror⟩ := evaluateAndHandle_refused hreleased
        rw [he] at herror
        exact absurd (congrArg Prod.fst herror) (by simp)
      obtain ⟨hvalid, hid, -⟩ := evaluateAndHandle_ok he
      have hbuild : candidate.buildId = other := hid.trans (hsound other planner hlookup).1
      have hne : buildId ≠ candidate.buildId := by
        rw [hbuild]
        exact hother.symm
      refine ⟨?_, fun _ _ => hother⟩
      simp only [← hbuild]
      cases hsave : (coordinator.store.save candidate root).1 with
      | error error =>
        rw [BuildCoordinator.commit_error hsave]
        exact ⟨rfl, snapshotFiles_save_ne hvalid hne⟩
      | ok path =>
        obtain ⟨changed, hkeeps, hcommit⟩ := @BuildCoordinator.commit_ok coordinator decision
          candidate root path hsave
        rw [hcommit]
        exact spares_kept hvalid hne hkeeps

end Coordinator

end Planner

structure Completed (buildId : String) (state : RuntimeState) : Prop where
  planner : ∃ ledger, state.runtime.coordinator.planners.lookup buildId = some ledger ∧
    ledger.status = .complete
  stored : StoredComplete state.files.planners buildId

structure Undisturbed (buildId : String) (before after : RuntimeState) : Prop where
  root : after.runtime.root = before.runtime.root
  spares : Spares buildId before.runtime.coordinator after.runtime.coordinator
    before.files.planners after.files.planners
  pads : PadsKept (padRoot before.runtime) buildId before.files after.files

section Frame

variable {buildId other : String} {before between after : RuntimeState}

theorem Completed.spared (h : Completed buildId before)
    (hspares : Spares buildId before.runtime.coordinator after.runtime.coordinator
      before.files.planners after.files.planners) : Completed buildId after := by
  obtain ⟨⟨ledger, hlookup, hcomplete⟩, chain, last, hstored, hlast⟩ := h
  refine ⟨⟨ledger, hspares.planner.trans hlookup, hcomplete⟩, chain, last, ?_, hlast⟩
  exact (Stored.congr hspares.snapshots).mpr hstored

theorem PadOnly.spares (h : PadOnly other before after) :
    Spares buildId before.runtime.coordinator after.runtime.coordinator before.files.planners
      after.files.planners := by
  refine ⟨by rw [h.coordinator], by rw [h.planners]⟩

theorem PadOnly.undisturbed (h : PadOnly other before after) (hne : buildId ≠ other) :
    Undisturbed buildId before after :=
  ⟨h.root, PadOnly.spares h, h.pads buildId hne⟩

theorem Undisturbed.refl (state : RuntimeState) : Undisturbed buildId state state :=
  ⟨rfl, ⟨rfl, rfl⟩, PadsKept.refl _⟩

theorem Undisturbed.trans (h : Undisturbed buildId before between)
    (h' : Undisturbed buildId between after) : Undisturbed buildId before after := by
  have hroot : padRoot between.runtime = padRoot before.runtime := by rw [padRoot, padRoot, h.root]
  refine ⟨h'.root.trans h.root, ⟨h'.spares.planner.trans h.spares.planner,
    h'.spares.snapshots.trans h.spares.snapshots⟩, ?_⟩
  exact h.pads.trans (hroot ▸ h'.pads)

end Frame

section Step

variable {buildId : String} {state : RuntimeState}

theorem Completed.inactive (h : Completed buildId state) :
    ∃ error, state.runtime.activeLedger buildId = .error error := by
  obtain ⟨ledger, hlookup, hcomplete⟩ := h.planner
  refine ⟨.buildNotActive buildId, ?_⟩
  rw [activeLedger, hlookup, okOr_some, ok_bind, hcomplete]
  rfl

theorem startBuild_undisturbed (h : Completed buildId state) (projectId operatorRequest : String)
    (clock : StartClock) : Undisturbed buildId state
      (perform state (.startBuild projectId operatorRequest clock)).2 := by
  have hstart := @startBuild_spares state.files.planners buildId
    state.runtime.coordinator h.stored projectId true 6 clock.now clock.pid clock.sequence
  simp only at hstart
  obtain ⟨hspares, hstarted⟩ := hstart
  simp only [perform, AtomVibeRuntime.startBuild]
  split_ifs
  · exact Undisturbed.refl state
  · have hchanged : ∀ sessions, Undisturbed buildId state
        ⟨state.runtime.started projectId clock state.files.planners,
          { state.files with
            planners := (state.runtime.coordinator.startBuild projectId true 6 clock.now clock.pid
              clock.sequence state.files.planners).2.2
            sessions }⟩ := by
      intro sessions
      have hroot : (state.runtime.started projectId clock state.files.planners).root =
        state.runtime.root := by rw [started]
      constructor
      · exact hroot
      · dsimp only [started]
        exact hspares
      · exact padsKept_of_scratchpads rfl
    split
    · exact hchanged state.files.sessions
    · rename_i started hok
      split
      · exact hchanged _
      · exact (hchanged _).trans
          (PadOnly.undisturbed (padOnly_observe _ _) (hstarted started hok).symm)

theorem prepareTurn_undisturbed (h : Completed buildId state) (guide : Guide) (other : String) :
    Undisturbed buildId state (perform state (.prepareTurn guide other)).2 := by
  by_cases hid : other = buildId
  · subst hid
    obtain ⟨error, herror⟩ := h.inactive
    have hrefused : ∃ error, (do
        let session ← SessionStore.load other state.files.sessions
        let ledger ← state.runtime.activeLedger other
        return (session, ledger) : Except RuntimeError (SessionManifest × BuildLedger)) =
          .error error := by
      cases SessionStore.load other state.files.sessions with
      | error error => exact ⟨error, rfl⟩
      | ok session => exact ⟨error, by rw [ok_bind, herror]; rfl⟩
    obtain ⟨refusal, hrefusal⟩ := hrefused
    simp only [perform, prepareTurn, hrefusal]
    exact Undisturbed.refl state
  · exact PadOnly.undisturbed (padOnly_prepareTurn guide) fun hsame => hid hsame.symm

theorem executeTurnWith_undisturbed (h : Completed buildId state) (prepared : PreparedTurn)
    (load : String → Except Provider.ProviderAdapterError String)
    (http : Provider.ProviderHttpRequest → Except Provider.ProviderTransportError String)
    (clock : TurnClock) :
    Undisturbed buildId state (perform state (.executeTurnWith prepared load http clock)).2 := by
  by_cases hid : prepared.buildId = buildId
  · obtain ⟨error, herror⟩ := h.inactive
    have hrefused : state.runtime.validatePrepared prepared = .error error := by
      rw [validatePrepared, hid, herror]
      rfl
    simp only [perform, executeTurnWith, hrefused]
    exact Undisturbed.refl state
  · exact PadOnly.undisturbed (padOnly_executeTurnWith load http) fun hsame => hid hsame.symm

theorem setProvider_undisturbed (config : Provider.ProviderConfig) :
    Undisturbed buildId state (perform state (.setProvider config)).2 := by
  simp only [perform, setProvider]
  split
  · exact Undisturbed.refl state
  · exact ⟨rfl, ⟨rfl, rfl⟩, PadsKept.refl _⟩

theorem evaluateGate_undisturbed (h : Completed buildId state) (other : String) (call : Call)
    (clock : PadClock) :
    Undisturbed buildId state (perform state (.evaluateGate other call clock)).2 := by
  obtain ⟨ledger, hlookup, hcomplete⟩ := h.planner
  obtain ⟨hspares, hother⟩ := @evaluate_spares state.files.planners buildId
    state.runtime.coordinator state.runtime.sound ledger hlookup hcomplete other call
  have hchanged : Undisturbed buildId state
      ⟨state.runtime.evaluated other call state.files.planners,
        { state.files with
          planners := (state.runtime.coordinator.evaluate other call state.files.planners).2.2 }⟩ :=
    ⟨rfl, hspares, padsKept_of_scratchpads rfl⟩
  simp only [perform, evaluateGate]
  split
  · exact Undisturbed.refl state
  · split
    · exact hchanged
    · rename_i decision hok
      split
      · exact hchanged
      · exact hchanged.trans
          (PadOnly.undisturbed (padOnly_recordDecision _ _ _ _) (hother decision hok).symm)

section Note

variable {store : ScratchpadStore} {pad : ScratchpadFiles} {entries : List ScratchpadEntry}
  {content : String} {sourceIds : List String}

theorem append_refused (h : Accepts store pad entries)
    (hrefused : ¬Admitted pad entries content sourceIds) (now : UInt64) (step : Option BuildStep)
    (kind : ScratchpadEntryKind) :
    (store.append now step kind content sourceIds pad).2.entries = pad.entries ∧
      (store.append now step kind content sourceIds pad).2.sealFile = pad.sealFile := by
  unfold append
  split_ifs with hseal
  · exact ⟨rfl, rfl⟩
  rw [loadUnlocked_of_accepts h]
  simp only
  split_ifs with hcount
  · exact ⟨rfl, rfl⟩
  unfold appendEntry
  split_ifs with hbytes
  · exact ⟨rfl, rfl⟩
  rcases create_cases store.scope (UInt64.ofNat entries.length + 1) (lastEntryHash entries) step
    kind (Secrets.redactSensitiveText content) sourceIds now with
    ⟨hcontent, hsources, -⟩ | ⟨-, error, hcreate⟩
  · exact absurd ⟨by simpa using hseal, not_le.mp hcount, not_lt.mp hbytes, hcontent, hsources⟩
      hrefused
  · rw [hcreate]
    exact ⟨rfl, rfl⟩

theorem append_admitted (h : Accepts store pad entries)
    (hadmitted : Admitted pad entries content sourceIds) (now : UInt64) (step : Option BuildStep)
    (kind : ScratchpadEntryKind) :
    (store.append now step kind content sourceIds pad).2.entries ≠ pad.entries := by
  intro hsame
  rcases append_cases h now step kind content sourceIds with ⟨-, entry, -, -, happend, hfiles⟩ |
    ⟨hno, -⟩
  · rw [happend] at hsame
    rw [hsame] at hfiles
    have hlength := congrArg List.length hfiles
    rw [List.length_append, List.length_singleton] at hlength
    omega
  · exact hno hadmitted

theorem admitted_withScope :
    Admitted (withScope store pad) entries content sourceIds ↔
      Admitted pad entries content sourceIds :=
  ⟨fun h => ⟨h.unsealed, h.count, h.bytes, h.content, h.sources⟩,
    fun h => ⟨h.unsealed, h.count, h.bytes, h.content, h.sources⟩⟩

end Note

def TakesNote (state : RuntimeState) (buildId content : String) (sourceIds : List String) : Prop :=
  ∃ store entries, state.runtime.padStore buildId = .ok store ∧
    Accepts store (state.files.pad store) entries ∧
    Admitted (state.files.pad store) entries content sourceIds

theorem appendScratchpadNote_kept_iff (state : RuntimeState) (buildId : String)
    (kind : ScratchpadEntryKind) (content : String) (sourceIds : List String)
    (unixTimeMs : UInt64) :
    PadsKept (padRoot state.runtime) buildId state.files
        (perform state (.appendScratchpadNote buildId kind content sourceIds unixTimeMs)).2.files ↔
      ¬TakesNote state buildId content sourceIds := by
  simp only [perform, appendScratchpadNote, note]
  have hopened := padsKept_scratchpad state.runtime buildId state.files (padRoot state.runtime)
    buildId
  cases hscratchpad : state.runtime.scratchpad buildId state.files with
  | mk result opened =>
  rw [hscratchpad] at hopened
  cases result with
  | error error =>
    refine iff_of_true hopened ?_
    rintro ⟨store, entries, hstore, haccepts, -⟩
    rw [scratchpad, hstore] at hscratchpad
    simp only [openPad_of_accepts haccepts] at hscratchpad
    exact absurd (congrArg Prod.fst hscratchpad) (by simp [Except.mapError])
  | ok store =>
    obtain ⟨hstore, entries, haccepts, hfiles⟩ := scratchpad_ok (congrArg Prod.fst hscratchpad)
    obtain ⟨hroot, hid⟩ := padStore_ok hstore
    rw [hscratchpad] at hfiles
    obtain rfl : opened = _ := hfiles
    have htakes : TakesNote state buildId content sourceIds ↔
        Admitted (withScope store (state.files.pad store)) entries content sourceIds := by
      rw [admitted_withScope, TakesNote, hstore]
      constructor
      · rintro ⟨_, entries', ⟨⟩, haccepts', hadmitted⟩
        exact Accepts.unique haccepts haccepts' ▸ hadmitted
      · intro hadmitted
        exact ⟨store, entries, rfl, haccepts, hadmitted⟩
    have hscope := accepts_withScope haccepts
    rw [htakes]
    simp only [RuntimeFiles.pad_setPad]
    constructor
    · intro hkept hadmitted
      have hentries := (hkept store hroot hid).1
      rw [RuntimeFiles.pad_setPad] at hentries
      exact append_admitted hscope hadmitted _ _ _ hentries
    · intro hrefused
      obtain ⟨hentries, hseal⟩ := append_refused hscope hrefused unixTimeMs none kind
      refine hopened.trans (padsKept_setPad ?_ ?_)
      · rw [RuntimeFiles.pad_setPad]
        exact hentries
      · rw [RuntimeFiles.pad_setPad]
        exact hseal

/-- The condition on a call: a note for the build is one its current pad does not take. -/
def NoteRefused (buildId : String) (state : RuntimeState) : RuntimeCall → Prop
  | .appendScratchpadNote other _ content sourceIds _ =>
    other = buildId → ¬TakesNote state buildId content sourceIds
  | _ => True

theorem completed_step (h : Completed buildId state) (call : RuntimeCall) :
    (perform state call).2.runtime.root = state.runtime.root ∧
      Completed buildId (perform state call).2 ∧
      (PadsKept (padRoot state.runtime) buildId state.files (perform state call).2.files ↔
        NoteRefused buildId state call) := by
  have hdone : Undisturbed buildId state (perform state call).2 → NoteRefused buildId state call →
      (perform state call).2.runtime.root = state.runtime.root ∧
      Completed buildId (perform state call).2 ∧
      (PadsKept (padRoot state.runtime) buildId state.files (perform state call).2.files ↔
        NoteRefused buildId state call) :=
    fun hsame hcall => ⟨hsame.root, h.spared hsame.spares, iff_of_true hsame.pads hcall⟩
  cases call with
  | startBuild projectId operatorRequest clock =>
    exact hdone (startBuild_undisturbed h projectId operatorRequest clock) trivial
  | prepareTurn guide other => exact hdone (prepareTurn_undisturbed h guide other) trivial
  | setProvider config => exact hdone (setProvider_undisturbed config) trivial
  | executeTurnWith prepared load http clock =>
    exact hdone (executeTurnWith_undisturbed h prepared load http clock) trivial
  | evaluateGate other call clock =>
    exact hdone (evaluateGate_undisturbed h other call clock) trivial
  | appendScratchpadNote other kind content sourceIds unixTimeMs =>
    have hnoted := @padOnly_note state.runtime state.files other unixTimeMs none kind content
      sourceIds
    by_cases hid : other = buildId
    · subst hid
      refine ⟨rfl, h.spared (PadOnly.spares hnoted), ?_⟩
      rw [appendScratchpadNote_kept_iff]
      exact ⟨fun hrefused _ => hrefused, fun hrefused => hrefused rfl⟩
    · exact hdone (PadOnly.undisturbed hnoted fun hsame => hid hsame.symm)
        fun hsame => absurd hsame hid

end Step

section Run

variable {state : RuntimeState} {buildId : String} {call : Call} {clock : PadClock}
  {decision : BuildPlannerDecision} {ledger : BuildLedger}

theorem evaluateGate_ok
    (h : (state.runtime.evaluateGate buildId call clock state.files).1 = .ok decision) :
    ∃ manifest planner candidate path,
      SessionStore.load buildId state.files.sessions = .ok manifest ∧
      state.runtime.coordinator.planners.lookup buildId = some planner ∧
      evaluateAndHandle planner call = (.ok decision, candidate) ∧
      (state.runtime.coordinator.store.save candidate state.files.planners).1 = .ok path := by
  unfold evaluateGate at h
  cases hsession : SessionStore.load buildId state.files.sessions with
  | error error =>
    rw [hsession] at h
    exact absurd h (by simp)
  | ok manifest =>
  cases hplanner : state.runtime.coordinator.planners.lookup buildId with
  | none =>
    simp only [hsession, BuildCoordinator.evaluate, hplanner] at h
    exact absurd h (by simp)
  | some planner =>
  rcases he : evaluateAndHandle planner call with ⟨_ | decision', candidate⟩
  · simp only [hsession, BuildCoordinator.evaluate, hplanner, he] at h
    exact absurd h (by simp)
  · obtain ⟨hbuild, hevaluate⟩ := @evaluate_eq_commit state.runtime state.files buildId call planner
      candidate decision' hplanner he
    cases hsave : (state.runtime.coordinator.store.save candidate state.files.planners).1 with
    | error error =>
      rw [BuildCoordinator.commit_error hsave] at hevaluate
      simp only [hsession, hevaluate] at h
      exact absurd h (by simp)
    | ok path =>
      obtain ⟨changed, -, -, hgate⟩ := @evaluateGate_saved state.runtime state.files buildId call
        clock manifest planner candidate decision' hsession hplanner he path hsave
      rw [evaluateGate] at hgate
      rw [hgate] at h
      cases hrecorded : (changed.recordDecision buildId call.input.step candidate decision' clock
          { state.files with planners :=
              (state.runtime.coordinator.store.save candidate state.files.planners).2 }).1 with
      | error error =>
        simp only [hrecorded] at h
        exact absurd h (by simp [Except.map])
      | ok _ =>
        simp only [hrecorded] at h
        obtain rfl : decision' = decision := Except.ok.inj h
        exact ⟨manifest, planner, candidate, path, rfl, rfl, he, hsave⟩

theorem completed_of_evaluateGate
    (h : (perform state (.evaluateGate buildId call clock)).1 = .evaluated (.ok decision))
    (hledger : (perform state (.evaluateGate buildId call clock)).2.runtime.coordinator.planners.lookup
      buildId = some ledger) (hcomplete : ledger.status = .complete) :
    Completed buildId (perform state (.evaluateGate buildId call clock)).2 ∧
      ∃ store, state.runtime.padStore buildId = .ok store ∧
        ((perform state (.evaluateGate buildId call clock)).2.files.pad store).sealFile.isSome := by
  simp only [perform, RuntimeAnswer.evaluated.injEq] at h hledger ⊢
  obtain ⟨manifest, planner, candidate, path, hsession, hplanner, he, hsave⟩ := evaluateGate_ok h
  obtain ⟨changed, hlookup, hpad, hgate⟩ := @evaluateGate_saved state.runtime state.files buildId
    call clock manifest planner candidate decision hsession hplanner he path hsave
  obtain ⟨hbuild, -⟩ := @evaluate_eq_commit state.runtime state.files buildId call planner candidate
    decision hplanner he
  have hload := (load_of_saved (evaluateAndHandle_ok he).1 hsave).1
  rw [hbuild] at hload
  rw [hgate] at h hledger ⊢
  obtain rfl : candidate = ledger := Option.some.inj (hlookup.symm.trans hledger)
  obtain ⟨chain, last, hstored, hlast, hlaststatus⟩ := load_eq_ok.mp hload
  refine ⟨⟨⟨candidate, hlookup, hcomplete⟩, chain, last, ?_, hlast, by rw [hlaststatus, hcomplete]⟩, ?_⟩
  · simp only [planners_recordDecision]
    exact hstored
  · rcases @recordDecision_cases changed { state.files with planners :=
        (state.runtime.coordinator.store.save candidate state.files.planners).2 } buildId
      call.input.step candidate decision clock with ⟨-, -, store, hstore, hgained⟩ |
      ⟨-, error, herror⟩
    · obtain ⟨_, _, -, -, -, -, -, -, hsealed⟩ := hgained
      exact ⟨store, hpad ▸ hstore, hsealed hcomplete⟩
    · simp only [herror] at h
      exact absurd h (by simp [Except.map])

variable (h : (perform state (.evaluateGate buildId call clock)).1 = .evaluated (.ok decision))
  (hledger : (perform state (.evaluateGate buildId call clock)).2.runtime.coordinator.planners.lookup
    buildId = some ledger) (hcomplete : ledger.status = .complete)

include h hledger hcomplete

/-- Whatever is called after the completion of a build, its pads stay as they are exactly as long
as no note is made that the pad of the provider of the moment takes. -/
theorem completed_pads_kept_iff (calls : List RuntimeCall) :
    (∀ visit ∈ trace perform (perform state (.evaluateGate buildId call clock)).2 calls,
      PadsKept (padRoot state.runtime) buildId visit.before.files visit.after.files) ↔
    Guarded perform (NoteRefused buildId) (perform state (.evaluateGate buildId call clock)).2
      calls := by
  have hvisits := visits (fun after : RuntimeState => Completed buildId after ∧
    after.runtime.root = state.runtime.root)
    ⟨(completed_of_evaluateGate h hledger hcomplete).1, root_perform state _⟩
    (fun after call hafter => ⟨(completed_step hafter.1 call).2.1,
      (root_perform after call).trans hafter.2⟩) calls
  refine forall₂_congr fun visit hvisit => ?_
  obtain ⟨hvisit, ⟨hcompleted, hroot⟩, -⟩ := hvisits visit hvisit
  have hafter : visit.after = (perform visit.before visit.input).2 := by
    rw [hvisit]
    rfl
  have hpads : padRoot state.runtime = padRoot visit.before.runtime := by
    rw [padRoot, padRoot, hroot]
  rw [hafter, hpads]
  exact (completed_step hcompleted visit.input).2.2

end Run

section Launched

open JsonText Provider PlannerInvariant Hash RuntimeProgress Text

def newFiles : RuntimeFiles :=
  ⟨Catalog.empty, Catalog.empty, Catalog.empty, Catalog.empty, Catalog.empty⟩

def newCoordinator : BuildCoordinator :=
  ⟨⟨".atom-vibe" ++ "/planners"⟩, Catalog.empty, .new, [], Bus.SpiderwebBus.fresh_new⟩

theorem openRoot_new :
    BuildCoordinator.openRoot ⟨".atom-vibe" ++ "/planners"⟩ [] newFiles.planners =
      .ok newCoordinator := by
  have hlist : BuildLedgerStore.list ⟨".atom-vibe" ++ "/planners"⟩ [] newFiles.planners = .ok [] := by
    simp [BuildLedgerStore.list, bind, Except.bind, pure, Except.pure]
  rw [BuildCoordinator.openRoot, hlist]
  rfl

def newRuntime : AtomVibeRuntime :=
  ⟨".atom-vibe", newCoordinator, sampleAdapter, .new, .new, [], sound_openRoot openRoot_new⟩

def trackerId : String := newBuildId "demo" 0 1 1

def trackerLedger : BuildLedger := freshLedger trackerId "demo" true 6 0

theorem new_trackerLedger : new "demo" true 6 0 1 1 = .ok trackerLedger :=
  new_of_safe (by decide) (by decide) true 0 1 1

def untimed : PadClock := ⟨0, 0, none⟩

def trackerRun : List RuntimeCall :=
  .startBuild "demo" "Track my inventory" ⟨0, 1, 1, 0, 0⟩ ::
    passingCalls trackerId untimed [.intake, .blueprint, .crateBuild, .crateCouple, .buildTest]

def launching : RuntimeState := final perform ⟨newRuntime, newFiles⟩ trackerRun

def launchCall : RuntimeCall := .evaluateGate trackerId (passingCall .launchProof) untimed

def trackerScope (config : ProviderConfig) : ScratchpadScope :=
  ⟨trackerId, sha256Tagged (asBytes (providerIdentity config))⟩

theorem launching_passes : ∃ (store : ScratchpadStore) (event : BuildPlannerEvent)
    (ledger : BuildLedger), store.root = padRoot newRuntime ∧
    store.scope = trackerScope sampleConfig ∧
    (perform launching launchCall).1 = .evaluated (.ok (.advance event)) ∧
    (perform launching launchCall).2.runtime.coordinator.planners.lookup trackerId = some ledger ∧
    ledger.status = .complete ∧
    ∀ other : ScratchpadStore, other.scopeDir ≠ store.scopeDir →
      (perform launching launchCall).2.files.pad other = freshFiles := by
  obtain ⟨store, hstore, hroot, hscope⟩ := @padStore_eq newRuntime trackerId (by decide +kernel)
    (by decide +kernel)
  have hfresh : ∀ other, newFiles.pad other = freshFiles := fun other => rfl
  obtain ⟨hstarted, hothers⟩ := @startBuild_passing ⟨newRuntime, newFiles⟩ store trackerLedger
    "demo" "Track my inventory" ⟨0, 1, 1, 0, 0⟩ new_trackerLedger
    (load_eq_notFound.mpr ⟨rfl, stored_fresh (aligned_of_new new_trackerLedger).valid.buildId⟩) rfl
    (by decide +kernel) (by decide +kernel) (by decide +kernel) hstore (hfresh store)
    ⟨rfl, by decide, by decide +kernel, by decide +kernel, by decide +kernel⟩ (by decide +kernel)
    (by decide +kernel)
  obtain ⟨ledger, hid, hpassing, helsewhere⟩ := @passing_run _ _ _ _ untimed rfl .launchProof
    [.intake, .blueprint, .crateBuild, .crateCouple, .buildTest] hstarted (by decide)
  obtain ⟨evidence, hpass⟩ := gateOutcome_passingCall .launchProof
  obtain ⟨event, candidate, hresult, hcandidate, hrecorded, -, hcomplete⟩ :=
    hpassing.passed hpass (rfl : untimed.sealModified = none)
  have htracker : trackerLedger.buildId = trackerId := rfl
  rw [htracker] at hid
  rw [hid] at hresult hrecorded hcandidate
  rw [htracker] at hresult hrecorded helsewhere
  have hplanner := hrecorded.planner
  rw [hcandidate] at hplanner
  rw [launchCall, launching, trackerRun, final]
  refine ⟨store, event, candidate, hroot, hscope, hresult, hplanner, hcomplete rfl,
    fun other hother => ?_⟩
  exact (hrecorded.elsewhere.pads other hother).trans ((helsewhere.pads other hother).trans
    ((hothers other hother).trans (hfresh other)))

def otherConfig : ProviderConfig := { sampleConfig with model := "other-coder" }

def otherAdapter : ProviderAdapter := ⟨otherConfig, by decide +kernel⟩

theorem completed_pads_kept_iff_launched :
    (∃ event, (perform launching launchCall).1 = .evaluated (.ok (.advance event))) ∧
      ∀ visit ∈ trace perform (perform launching launchCall).2 [.setProvider otherConfig],
        PadsKept (padRoot launching.runtime) trackerId visit.before.files visit.after.files := by
  obtain ⟨store, event, ledger, -, -, hresult, hledger, hcomplete, -⟩ := launching_passes
  rw [launchCall] at hresult hledger ⊢
  have hkept := @completed_pads_kept_iff launching trackerId (passingCall .launchProof) untimed
    (.advance event) ledger hresult hledger hcomplete [.setProvider otherConfig]
  refine ⟨⟨event, hresult⟩, hkept.mpr ?_⟩
  intro visit hvisit
  rw [List.mem_singleton.mp hvisit]
  exact trivial

def noteRun : List RuntimeCall :=
  [.setProvider otherConfig,
    .appendScratchpadNote trackerId .observation "Shipped to the operator" [] 0]

theorem setProvider_other (state : RuntimeState) :
    (perform state (.setProvider otherConfig)).2 =
      ⟨{ state.runtime with provider := otherAdapter }, state.files⟩ := by
  have hnew : ProviderAdapter.new otherConfig = .ok otherAdapter :=
    ProviderAdapter.new_eq_ok.mpr rfl
  simp only [perform, setProvider, hnew]

theorem scopeDir_other {store other : ScratchpadStore} (hroot : other.root = store.root)
    (hstore : store.scope = trackerScope sampleConfig)
    (hother : other.scope = trackerScope otherConfig) : other.scopeDir ≠ store.scopeDir := by
  have hhashes : trimStartMatches "sha256:" (trackerScope otherConfig).modelScopeHash ≠
      trimStartMatches "sha256:" (trackerScope sampleConfig).modelScopeHash := by
    decide +kernel
  intro hsame
  rw [scopeDir, scopeDir, hroot, hstore, hother] at hsame
  apply hhashes
  apply String.toList_injective
  have hlist := congrArg String.toList hsame
  simpa only [trackerScope, String.toList_append, List.append_cancel_left_eq] using hlist

theorem completed_pads_not_kept :
    openAt ".atom-vibe" sampleConfig [] (.ok ()) newFiles = .ok newRuntime ∧
    ∃ event ledger, (perform launching launchCall).1 = .evaluated (.ok (.advance event)) ∧
      (perform launching launchCall).2.runtime.coordinator.planners.lookup trackerId = some ledger ∧
      ledger.status = .complete ∧
      ¬∀ visit ∈ trace perform (perform launching launchCall).2 noteRun,
        PadsKept (padRoot launching.runtime) trackerId visit.before.files visit.after.files := by
  obtain ⟨store, event, ledger, hroot, hscope, hresult, hledger, hcomplete, hfresh⟩ :=
    launching_passes
  refine ⟨@openAt_ok _ sampleAdapter _ _ _ openRoot_new, event, ledger, hresult, hledger, hcomplete,
    fun hkept => ?_⟩
  have hlaunching : launching.runtime.root = newRuntime.root :=
    invariant (fun state : RuntimeState => state.runtime.root = newRuntime.root) rfl
      (fun state call hstate => (root_perform state call).trans hstate) trackerRun
  have hlaunched : (perform launching launchCall).2.runtime.root = newRuntime.root :=
    (root_perform launching launchCall).trans hlaunching
  generalize (perform launching launchCall).2 = completed at *
  have hvisit := hkept (visit perform (perform completed (.setProvider otherConfig)).2
    (.appendScratchpadNote trackerId .observation "Shipped to the operator" [] 0))
    (List.mem_cons_of_mem _ List.mem_cons_self)
  rw [setProvider_other] at hvisit
  have hpads : padRoot launching.runtime =
      padRoot ({ completed.runtime with provider := otherAdapter } : AtomVibeRuntime) := by
    rw [padRoot, padRoot, hlaunching, hlaunched]
  rw [hpads] at hvisit
  have hiff := appendScratchpadNote_kept_iff
    ⟨{ completed.runtime with provider := otherAdapter }, completed.files⟩ trackerId .observation
    "Shipped to the operator" [] 0
  refine hiff.mp hvisit ?_
  have hidentity : ¬(isBlank (providerIdentity otherConfig) ∨
      8 * 1024 < (providerIdentity otherConfig).utf8ByteSize) := by decide +kernel
  obtain ⟨other, hother, hotherRoot, hotherScope⟩ := @padStore_eq
    { completed.runtime with provider := otherAdapter } trackerId (by decide +kernel) hidentity
  have hsameRoot : other.root = store.root := by
    rw [hotherRoot, hroot, padRoot, padRoot, hlaunched]
  have hconfig : ({ completed.runtime with provider := otherAdapter } : AtomVibeRuntime).config =
      otherConfig := rfl
  rw [hconfig] at hotherScope
  have hdir := scopeDir_other hsameRoot hscope hotherScope
  refine ⟨other, [], hother, ?_, ?_⟩
  · rw [hfresh other hdir]
    exact accepts_fresh other
  · rw [hfresh other hdir]
    exact ⟨rfl, by decide, by decide +kernel, by decide +kernel, by decide +kernel⟩

end Launched

end AtomVibe.RuntimeCompletion
