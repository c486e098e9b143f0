import AtomVibe.RuntimeGate
import AtomVibe.TurnExecution

namespace AtomVibe.RuntimeRuns

open Checked Text BuildProtocol PlannerModel BuildPlanner LedgerStore ChainFiles Coordinator
open Scratchpad ScratchpadStore ScratchpadChain ScratchpadAppend ScratchpadOpen Provider
open RuntimeModel AtomVibe.Runtime

structure RuntimeState where
  runtime : AtomVibeRuntime
  files : RuntimeFiles

inductive RuntimeCall
  | startBuild (projectId operatorRequest : String) (clock : StartClock)
  | prepareTurn (guide : Guide) (buildId : String)
  | setProvider (config : ProviderConfig)
  | executeTurnWith (prepared : PreparedTurn) (load : String → Except ProviderAdapterError String)
    (http : ProviderHttpRequest → Except ProviderTransportError String) (clock : TurnClock)
  | evaluateGate (buildId : String) (call : Call) (clock : PadClock)
  | appendScratchpadNote (buildId : String) (kind : ScratchpadEntryKind) (content : String)
    (sourceIds : List String) (unixTimeMs : UInt64)

inductive RuntimeAnswer
  | started (result : Except RuntimeError SessionManifest)
  | prepared (result : Except RuntimeError PreparedTurn)
  | providerSet (result : Except RuntimeError Unit)
  | executed (requests : List ProviderHttpRequest) (result : Except RuntimeError ExecutedTurn)
  | evaluated (result : Except RuntimeError BuildPlannerDecision)
  | noted (result : Except RuntimeError Unit)

def perform (state : RuntimeState) : RuntimeCall → RuntimeAnswer × RuntimeState
  | .startBuild projectId operatorRequest clock =>
    let done := state.runtime.startBuild projectId operatorRequest clock state.files
    (.started done.1, ⟨done.2.1, done.2.2⟩)
  | .prepareTurn guide buildId =>
    let done := state.runtime.prepareTurn guide buildId state.files
    (.prepared done.1, ⟨done.2.1, done.2.2⟩)
  | .setProvider config =>
    let done := state.runtime.setProvider config
    (.providerSet done.1, ⟨done.2, state.files⟩)
  | .executeTurnWith prepared load http clock =>
    let done := state.runtime.executeTurnWith prepared load http clock state.files
    (.executed done.1 done.2.1, ⟨done.2.2.1, done.2.2.2⟩)
  | .evaluateGate buildId call clock =>
    let done := state.runtime.evaluateGate buildId call clock state.files
    (.evaluated done.1, ⟨done.2.1, done.2.2⟩)
  | .appendScratchpadNote buildId kind content sourceIds unixTimeMs =>
    let done := state.runtime.appendScratchpadNote buildId kind content sourceIds unixTimeMs
      state.files
    (.noted done.1, ⟨state.runtime, done.2⟩)

section Pads

variable {store other : ScratchpadStore} {files files' : RuntimeFiles} {root buildId : String}

theorem slash_notMem_buildId (store : ScratchpadStore) : '/' ∉ store.scope.buildId.toList := by
  obtain ⟨_, hid, -⟩ := bind_eq_ok.mp store.valid
  unfold Scratchpad.validateBuildId at hid
  split_ifs at hid with hbad
  simp only [Bool.or_eq_true, Bool.not_eq_true', not_or, Bool.not_eq_false] at hbad
  intro hslash
  exact absurd (List.all_eq_true.mp hbad.2 '/' hslash) (by decide)

theorem scopeDir_ne (hroot : store.root = other.root)
    (hid : store.scope.buildId ≠ other.scope.buildId) : store.scopeDir ≠ other.scopeDir := by
  intro h
  have hlist := congrArg String.toList h
  have hslash : "/".toList = ['/'] := rfl
  simp only [scopeDir, hroot, String.toList_append, List.append_assoc, List.append_cancel_left_eq,
    hslash, List.singleton_append] at hlist
  exact hid (String.toList_injective (PrefixCode.append_terminator (slash_notMem_buildId store)
    (slash_notMem_buildId other) (List.tail_eq_of_cons_eq hlist)).1)

def PadsKept (root buildId : String) (files files' : RuntimeFiles) : Prop :=
  ∀ store : ScratchpadStore, store.root = root → store.scope.buildId = buildId →
    (files'.pad store).entries = (files.pad store).entries ∧
      (files'.pad store).sealFile = (files.pad store).sealFile

theorem PadsKept.refl (files : RuntimeFiles) : PadsKept root buildId files files :=
  fun _ _ _ => ⟨rfl, rfl⟩

theorem PadsKept.trans {files'' : RuntimeFiles} (h : PadsKept root buildId files files')
    (h' : PadsKept root buildId files' files'') : PadsKept root buildId files files'' :=
  fun store hroot hid => ⟨(h' store hroot hid).1.trans (h store hroot hid).1,
    (h' store hroot hid).2.trans (h store hroot hid).2⟩

theorem padsKept_of_scratchpads (h : files'.scratchpads = files.scratchpads) :
    PadsKept root buildId files files' := by
  intro store _ _
  rw [RuntimeFiles.pad, h]
  exact ⟨rfl, rfl⟩

theorem pad_setPad_cases (files : RuntimeFiles) (store other : ScratchpadStore)
    (pad : ScratchpadFiles) :
    (other.scopeDir = store.scopeDir ∧ (files.setPad store pad).pad other = pad ∧
      files.pad other = files.pad store) ∨
    (other.scopeDir ≠ store.scopeDir ∧ (files.setPad store pad).pad other = files.pad other) := by
  by_cases hdir : other.scopeDir = store.scopeDir
  · left
    refine ⟨hdir, ?_, ?_⟩
    · rw [RuntimeFiles.pad, RuntimeFiles.setPad, Catalog.lookup_insert, if_pos hdir]
      rfl
    · rw [RuntimeFiles.pad, RuntimeFiles.pad, hdir]
  · right
    refine ⟨hdir, ?_⟩
    rw [RuntimeFiles.pad, RuntimeFiles.setPad, Catalog.lookup_insert, if_neg hdir]
    rfl

theorem padsKept_setPad {pad : ScratchpadFiles} (hentries : pad.entries = (files.pad store).entries)
    (hseal : pad.sealFile = (files.pad store).sealFile) :
    PadsKept root buildId files (files.setPad store pad) := by
  intro other _ _
  rcases pad_setPad_cases files store other pad with ⟨-, hpad, hsame⟩ | ⟨-, hpad⟩
  · rw [hpad, hsame]
    exact ⟨hentries, hseal⟩
  · rw [hpad]
    exact ⟨rfl, rfl⟩

theorem padsKept_setPad_ne (hroot : store.root = root) (hid : store.scope.buildId ≠ buildId)
    (pad : ScratchpadFiles) : PadsKept root buildId files (files.setPad store pad) := by
  intro other hother hbuild
  rcases pad_setPad_cases files store other pad with ⟨hdir, -⟩ | ⟨-, hpad⟩
  · exact absurd hdir (scopeDir_ne (hother.trans hroot.symm) (by rw [hbuild]; exact hid.symm))
  · rw [hpad]
    exact ⟨rfl, rfl⟩

theorem loadUnlocked_kept (store : ScratchpadStore) (pad : ScratchpadFiles) :
    (store.loadUnlocked pad).2.entries = pad.entries ∧
      (store.loadUnlocked pad).2.sealFile = pad.sealFile := by
  unfold loadUnlocked
  rcases writeOrVerifyScope_cases store pad with ⟨-, h⟩ | ⟨-, error, h⟩
  · rw [h]
    exact ⟨rfl, rfl⟩
  · rw [h]
    exact ⟨rfl, rfl⟩

theorem openPad_files (store : ScratchpadStore) (pad : ScratchpadFiles) :
    (openPad store pad).2 = (store.loadUnlocked pad).2 := by
  unfold openPad
  cases store.loadUnlocked pad with
  | mk result pad' => cases result <;> rfl

end Pads

section Scratchpad

variable {runtime : AtomVibeRuntime} {files : RuntimeFiles} {buildId : String}
  {store : ScratchpadStore}

def padRoot (runtime : AtomVibeRuntime) : String := runtime.root ++ "/scratchpads"

theorem padStore_ok (h : runtime.padStore buildId = .ok store) :
    store.root = padRoot runtime ∧ store.scope.buildId = buildId := by
  obtain ⟨scope, hscope, hstore⟩ := bind_eq_ok.mp h
  obtain ⟨hroot, rfl⟩ := storeOf_eq_ok.mp hstore
  simp only [ScratchpadScope.new, bind_eq_ok, pure_eq_ok] at hscope
  obtain ⟨_, -, _, -, hscope⟩ := hscope
  exact ⟨hroot, by rw [← hscope]⟩

theorem padsKept_scratchpad (runtime : AtomVibeRuntime) (buildId : String) (files : RuntimeFiles)
    (root other : String) : PadsKept root other files (runtime.scratchpad buildId files).2 := by
  unfold AtomVibeRuntime.scratchpad
  cases runtime.padStore buildId with
  | error error => exact PadsKept.refl files
  | ok store =>
    obtain ⟨hentries, hseal⟩ := loadUnlocked_kept store (files.pad store)
    rw [← openPad_files] at hentries hseal
    exact padsKept_setPad hentries hseal

theorem planners_scratchpad : (runtime.scratchpad buildId files).2.planners = files.planners := by
  unfold AtomVibeRuntime.scratchpad
  cases runtime.padStore buildId <;> rfl

theorem scratchpad_ok (h : (runtime.scratchpad buildId files).1 = .ok store) :
    runtime.padStore buildId = .ok store ∧ ∃ entries, Accepts store (files.pad store) entries ∧
      (runtime.scratchpad buildId files).2 =
        files.setPad store (withScope store (files.pad store)) := by
  unfold AtomVibeRuntime.scratchpad at h ⊢
  cases hstore : runtime.padStore buildId with
  | error error =>
    rw [hstore] at h
    exact absurd h (by simp)
  | ok store' =>
    rw [hstore] at h
    simp only at h ⊢
    by_cases haccepts : ∃ entries, Accepts store' (files.pad store') entries
    · obtain ⟨entries, haccepts⟩ := haccepts
      rw [openPad_of_accepts haccepts] at h ⊢
      obtain rfl : store' = store := Except.ok.inj h
      exact ⟨rfl, entries, haccepts, rfl⟩
    · obtain ⟨error, herror⟩ := openPad_refused (not_exists.mp haccepts)
      rw [herror] at h
      exact absurd h (by simp [Except.mapError])

end Scratchpad

structure PadOnly (buildId : String) (before after : RuntimeState) : Prop where
  root : after.runtime.root = before.runtime.root
  coordinator : after.runtime.coordinator = before.runtime.coordinator
  planners : after.files.planners = before.files.planners
  pads : ∀ other, other ≠ buildId →
    PadsKept (padRoot before.runtime) other before.files after.files

section PadOnly

variable {runtime changed : AtomVibeRuntime} {files : RuntimeFiles} {buildId : String}
  {store : ScratchpadStore} {before between after : RuntimeState}

theorem PadOnly.trans (h : PadOnly buildId before between) (h' : PadOnly buildId between after) :
    PadOnly buildId before after := by
  have hroot : padRoot between.runtime = padRoot before.runtime := by rw [padRoot, padRoot, h.root]
  refine ⟨h'.root.trans h.root, h'.coordinator.trans h.coordinator,
    h'.planners.trans h.planners, fun other hother => ?_⟩
  exact (h.pads other hother).trans (hroot ▸ h'.pads other hother)

theorem padOnly_same (hroot : changed.root = runtime.root)
    (hcoordinator : changed.coordinator = runtime.coordinator) {files' : RuntimeFiles}
    (hplanners : files'.planners = files.planners)
    (hpads : files'.scratchpads = files.scratchpads) :
    PadOnly buildId ⟨runtime, files⟩ ⟨changed, files'⟩ :=
  ⟨hroot, hcoordinator, hplanners, fun _ _ => padsKept_of_scratchpads hpads⟩

theorem padOnly_scratchpad (runtime : AtomVibeRuntime) (buildId : String) (files : RuntimeFiles) :
    PadOnly buildId ⟨runtime, files⟩ ⟨runtime, (runtime.scratchpad buildId files).2⟩ :=
  ⟨rfl, rfl, planners_scratchpad, fun other _ => padsKept_scratchpad runtime buildId files _ other⟩

theorem padOnly_setPad (h : runtime.padStore buildId = .ok store) (pad : ScratchpadFiles) :
    PadOnly buildId ⟨runtime, files⟩ ⟨runtime, files.setPad store pad⟩ := by
  obtain ⟨hroot, hid⟩ := padStore_ok h
  refine ⟨rfl, rfl, rfl, fun other hother => ?_⟩
  exact padsKept_setPad_ne hroot (by rw [hid]; exact hother.symm) pad

theorem padOnly_observe (operatorRequest : String) (unixTimeMs : UInt64) :
    PadOnly buildId ⟨runtime, files⟩
      ⟨runtime, (runtime.observe buildId operatorRequest unixTimeMs files).2⟩ := by
  unfold AtomVibeRuntime.observe
  have hopened := padOnly_scratchpad runtime buildId files
  cases hscratchpad : runtime.scratchpad buildId files with
  | mk result opened =>
    rw [hscratchpad] at hopened
    cases result with
    | error error => exact hopened
    | ok store =>
      have hstore := (scratchpad_ok (congrArg Prod.fst hscratchpad)).1
      exact hopened.trans (padOnly_setPad hstore _)

theorem padOnly_recordDecision (step : BuildStep) (ledger : BuildLedger)
    (decision : BuildPlannerDecision) (clock : PadClock) : PadOnly buildId ⟨runtime, files⟩
      ⟨runtime, (runtime.recordDecision buildId step ledger decision clock files).2⟩ := by
  unfold AtomVibeRuntime.recordDecision
  have hopened := padOnly_scratchpad runtime buildId files
  cases hscratchpad : runtime.scratchpad buildId files with
  | mk result opened =>
    rw [hscratchpad] at hopened
    cases result with
    | error error => exact hopened
    | ok store =>
      have hstore := (scratchpad_ok (congrArg Prod.fst hscratchpad)).1
      exact hopened.trans (padOnly_setPad hstore _)

theorem padOnly_note (unixTimeMs : UInt64) (step : Option BuildStep) (kind : ScratchpadEntryKind)
    (content : String) (sourceIds : List String) : PadOnly buildId ⟨runtime, files⟩
      ⟨runtime, (runtime.note buildId unixTimeMs step kind content sourceIds files).2⟩ := by
  unfold AtomVibeRuntime.note
  have hopened := padOnly_scratchpad runtime buildId files
  cases hscratchpad : runtime.scratchpad buildId files with
  | mk result opened =>
    rw [hscratchpad] at hopened
    cases result with
    | error error => exact hopened
    | ok store =>
      have hstore := (scratchpad_ok (congrArg Prod.fst hscratchpad)).1
      exact hopened.trans (padOnly_setPad hstore _)

theorem padOnly_prepareTurn (guide : Guide) : PadOnly buildId ⟨runtime, files⟩
    ⟨(runtime.prepareTurn guide buildId files).2.1,
      (runtime.prepareTurn guide buildId files).2.2⟩ := by
  unfold AtomVibeRuntime.prepareTurn
  split
  · exact padOnly_same rfl rfl rfl rfl
  · rename_i session ledger _
    have hopened := padOnly_scratchpad runtime buildId files
    cases hscratchpad : runtime.scratchpad buildId files with
    | mk result opened =>
      rw [hscratchpad] at hopened
      cases result with
      | error error => exact hopened
      | ok store =>
        have hstore := (scratchpad_ok (congrArg Prod.fst hscratchpad)).1
        let request : Context.CoderContextRequest := ⟨buildId, session.operatorRequest,
          ledger.currentStep, [], Context.latestFailure ledger⟩
        have hwritten : PadOnly buildId ⟨runtime, files⟩ ⟨runtime, opened.setPad store
            (guide.prepare request store (opened.pad store) runtime.contextBus).2.2⟩ :=
          hopened.trans (padOnly_setPad hstore _)
        exact ⟨hwritten.root, hwritten.coordinator, hwritten.planners, hwritten.pads⟩

section Turn

variable {prepared : PreparedTurn} {evidenceIds : List String} {clock : TurnClock}

theorem emitProviderRoute_same (runtime : AtomVibeRuntime) (blocked : Bool) (buildId body : String)
    (evidenceIds : List String) :
    (runtime.emitProviderRoute blocked buildId body evidenceIds).2.root = runtime.root ∧
      (runtime.emitProviderRoute blocked buildId body evidenceIds).2.coordinator =
        runtime.coordinator := ⟨rfl, rfl⟩

theorem padOnly_recordFailure (error : ProviderAdapterError) :
    PadOnly prepared.buildId ⟨runtime, files⟩
      ⟨(runtime.recordFailure prepared error evidenceIds clock files).2.1,
        (runtime.recordFailure prepared error evidenceIds clock files).2.2⟩ := by
  unfold AtomVibeRuntime.recordFailure
  obtain ⟨hroot, hcoordinator⟩ :=
    emitProviderRoute_same runtime true prepared.buildId error.display evidenceIds
  generalize runtime.emitProviderRoute true prepared.buildId error.display evidenceIds = emitted
    at hroot hcoordinator ⊢
  obtain ⟨route, changed⟩ := emitted
  have hchanged : PadOnly prepared.buildId ⟨runtime, files⟩ ⟨changed, files⟩ :=
    padOnly_same hroot hcoordinator rfl rfl
  have hopened := padOnly_scratchpad changed prepared.buildId files
  simp only
  cases hscratchpad : changed.scratchpad prepared.buildId files with
  | mk result opened =>
    rw [hscratchpad] at hopened
    cases result with
    | error error => exact hchanged.trans hopened
    | ok store =>
      have hstore := (scratchpad_ok (congrArg Prod.fst hscratchpad)).1
      exact hchanged.trans (hopened.trans (padOnly_setPad hstore _))

theorem padOnly_recordTurn (receipt : ProviderTurnReceipt) (path : String) :
    PadOnly prepared.buildId ⟨runtime, files⟩
      ⟨(runtime.recordTurn prepared receipt path evidenceIds clock files).2.1,
        (runtime.recordTurn prepared receipt path evidenceIds clock files).2.2⟩ := by
  unfold AtomVibeRuntime.recordTurn
  obtain ⟨hroot, hcoordinator⟩ :=
    emitProviderRoute_same runtime false prepared.buildId receipt.outputHash evidenceIds
  generalize runtime.emitProviderRoute false prepared.buildId receipt.outputHash evidenceIds =
    emitted at hroot hcoordinator ⊢
  obtain ⟨route, changed⟩ := emitted
  have hchanged : PadOnly prepared.buildId ⟨runtime, files⟩ ⟨changed, files⟩ :=
    padOnly_same hroot hcoordinator rfl rfl
  simp only
  have hnoted := @padOnly_note changed files prepared.buildId clock.appendedAt (some prepared.step)
    .packetOutput (scratchpadOutput receipt.text path receipt.outputHash)
    (evidenceIds ++ [receipt.outputHash])
  cases hnote : changed.note prepared.buildId clock.appendedAt (some prepared.step) .packetOutput
      (scratchpadOutput receipt.text path receipt.outputHash) (evidenceIds ++ [receipt.outputHash])
      files with
  | mk result noted =>
    rw [hnote] at hnoted
    cases result with
    | error error => exact hchanged.trans hnoted
    | ok entry => exact (hchanged.trans hnoted).trans (padOnly_same rfl rfl rfl rfl)

theorem padOnly_keepReceipt (receipt : ProviderTurnReceipt) :
    PadOnly prepared.buildId ⟨runtime, files⟩
      ⟨(runtime.keepReceipt prepared receipt evidenceIds clock files).2.1,
        (runtime.keepReceipt prepared receipt evidenceIds clock files).2.2⟩ := by
  unfold AtomVibeRuntime.keepReceipt
  simp only
  split
  · exact padOnly_same rfl rfl rfl rfl
  · split_ifs
    · exact padOnly_same rfl rfl rfl rfl
    · split
      · exact padOnly_same rfl rfl rfl rfl
      · refine PadOnly.trans ?_ (padOnly_recordTurn receipt _)
        exact padOnly_same rfl rfl rfl rfl

theorem padOnly_executeTurnWith (load : String → Except ProviderAdapterError String)
    (http : ProviderHttpRequest → Except ProviderTransportError String) :
    PadOnly prepared.buildId ⟨runtime, files⟩
      ⟨(runtime.executeTurnWith prepared load http clock files).2.2.1,
        (runtime.executeTurnWith prepared load http clock files).2.2.2⟩ := by
  unfold AtomVibeRuntime.executeTurnWith
  split
  · exact padOnly_same rfl rfl rfl rfl
  · simp only
    split
    · exact padOnly_recordFailure _
    · exact padOnly_keepReceipt _

end Turn

end PadOnly

theorem root_perform (state : RuntimeState) (call : RuntimeCall) :
    (perform state call).2.runtime.root = state.runtime.root := by
  cases call with
  | startBuild projectId operatorRequest clock =>
    simp only [perform, AtomVibeRuntime.startBuild]
    split_ifs
    · rfl
    · split
      · rw [AtomVibeRuntime.started]
      · split <;> rw [AtomVibeRuntime.started]
  | prepareTurn guide other => exact (padOnly_prepareTurn guide).root
  | setProvider config =>
    simp only [perform, AtomVibeRuntime.setProvider]
    split <;> rfl
  | executeTurnWith prepared load http clock => exact (padOnly_executeTurnWith load http).root
  | evaluateGate other call clock =>
    simp only [perform, AtomVibeRuntime.evaluateGate]
    split
    · rfl
    · split
      · rfl
      · split <;> rfl
  | appendScratchpadNote other kind content sourceIds unixTimeMs => rfl

end AtomVibe.RuntimeRuns
