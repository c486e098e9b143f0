import AtomVibe.NativeApp
import AtomVibe.RuntimeSafety

namespace AtomVibe.Native

open Text Proof Learning LedgerFields CoreRuntime

variable {Graph : Type} {host : Host Graph} {state next : AppState Graph} {machine : Machine}

structure SameShell (app app' : NativeApp Graph) : Prop where
  lastIntent : app'.lastIntent = app.lastIntent
  fastBuildRunning : app'.fastBuildRunning = app.fastBuildRunning
  providerRunning : app'.providerRunning = app.providerRunning
  lastProviderOutput : app'.lastProviderOutput = app.lastProviderOutput
  store : app'.store = app.store
  learningStore : app'.learningStore = app.learningStore

structure SameAccounts (app app' : NativeApp Graph) : Prop where
  learningRecords : app'.learningRecords = app.learningRecords
  learningSummary : app'.learningSummary = app.learningSummary
  learningAttempts : app'.learningAttempts = app.learningAttempts

theorem SameShell.refl (app : NativeApp Graph) : SameShell app app := ⟨rfl, rfl, rfl, rfl, rfl, rfl⟩

theorem SameShell.trans {app app' app'' : NativeApp Graph} (h : SameShell app app')
    (h' : SameShell app' app'') : SameShell app app'' where
  lastIntent := h'.lastIntent.trans h.lastIntent
  fastBuildRunning := h'.fastBuildRunning.trans h.fastBuildRunning
  providerRunning := h'.providerRunning.trans h.providerRunning
  lastProviderOutput := h'.lastProviderOutput.trans h.lastProviderOutput
  store := h'.store.trans h.store
  learningStore := h'.learningStore.trans h.learningStore

theorem SameAccounts.trans {app app' app'' : NativeApp Graph} (h : SameAccounts app app')
    (h' : SameAccounts app' app'') : SameAccounts app app'' where
  learningRecords := h'.learningRecords.trans h.learningRecords
  learningSummary := h'.learningSummary.trans h.learningSummary
  learningAttempts := h'.learningAttempts.trans h.learningAttempts

section Runtime

variable {runtime runtime' : MathAtomsRuntime Graph}

theorem learnProofRecord_state (runtime : MathAtomsRuntime Graph) (host : Host Graph)
    (record : ProofRecord) : (runtime.learnProofRecord host record).state = runtime.state := by
  rw [MathAtomsRuntime.learnProofRecord]
  split <;> rfl

theorem learnLearningRecord_state {record : LearningRecord}
    (h : runtime.learnLearningRecord host record = some runtime') :
    ∃ route, runtime'.state = { runtime.state with lastRoute := route } := by
  simp only [MathAtomsRuntime.learnLearningRecord, Option.bind_eq_bind, Option.bind_eq_some_iff] at h
  obtain ⟨route, -, hmade⟩ := h
  exact ⟨route, (congrArg MathAtomsRuntime.state (Option.some.inj hmade)).symm⟩

end Runtime

section Appends

variable {record : LearningRecord} {key : String × String}

inductive Booked (host : Host Graph) (state : AppState Graph) (machine : Machine)
    (record : LearningRecord) (key : String × String) : AppState Graph → Prop
  | refused {reason : String} {disk : Disk}
    (h : state.app.appendLesson machine record state.disk = (.error reason, disk)) :
    Booked host state machine record key ⟨state.app, disk⟩
  | kept {disk : Disk} {runtime : MathAtomsRuntime Graph}
    (h : state.app.appendLesson machine record state.disk = (.ok (), disk))
    (learned : state.app.runtime.learnLearningRecord host record = some runtime) :
    Booked host state machine record key ⟨state.app.keepLesson runtime record key, disk⟩

def blockOnError (result : Except String Unit) (state : AppState Graph) : AppState Graph :=
  match result with
  | .ok () => state
  | .error reason => ⟨state.app.blockStore reason, state.disk⟩

theorem appendLearningRecord_cases {result : Except String Unit}
    (h : state.appendLearningRecord host machine = some (result, next)) :
    (state.app.currentLearningRecord machine = none ∧ result = .ok () ∧ next = state) ∨
      ∃ record, state.app.currentLearningRecord machine = some record ∧
        result = (state.app.appendLesson machine record state.disk).1 ∧
        Booked host state machine record (record.intent, record.gate) next := by
  rw [AppState.appendLearningRecord] at h
  split at h
  · rename_i hnone
    cases h
    exact .inl ⟨hnone, rfl, rfl⟩
  · rename_i record hrecord
    right
    refine ⟨record, hrecord, ?_⟩
    dsimp only at h
    split at h
    · rename_i reason hrefused
      cases h
      exact ⟨hrefused.symm, .refused (Prod.ext hrefused rfl)⟩
    · rename_i hkept
      obtain ⟨runtime, hlearned, hmade⟩ := Option.bind_eq_some_iff.mp h
      cases hmade
      exact ⟨hkept.symm, .kept (Prod.ext hkept rfl) hlearned⟩

theorem recordFastBuildLearning_cases {build : FastBuild}
    (h : state.recordFastBuildLearning host build machine = some next) :
    (state.fastBuildLesson build machine = none ∧ next = state) ∨
      ∃ record, state.fastBuildLesson build machine = some record ∧
        Booked host state machine record (state.app.lastIntent, fastBuildGate) next := by
  rw [AppState.recordFastBuildLearning] at h
  split at h
  · rename_i hnone
    cases h
    exact .inl ⟨hnone, rfl⟩
  · rename_i record hrecord
    right
    refine ⟨record, hrecord, ?_⟩
    dsimp only at h
    split at h
    · rename_i reason hrefused
      cases h
      exact .refused (Prod.ext hrefused rfl)
    · rename_i hkept
      obtain ⟨runtime, hlearned, hmade⟩ := Option.bind_eq_some_iff.mp h
      cases hmade
      exact .kept (Prod.ext hkept rfl) hlearned

def currentProofRecord (app : NativeApp Graph) : ProofRecord :=
  proofRecordFromState app.runtime.state app.providerTitleState

def learned (host : Host Graph) (state : AppState Graph) (disk : Disk) : AppState Graph :=
  ⟨{ state.app with
    runtime := state.app.runtime.learnProofRecord host (currentProofRecord state.app) }, disk⟩

theorem appendProofRecord_cases {learn : Bool} {outcome : StoreOutcome}
    (h : state.appendProofRecord host machine learn = some (outcome, next)) :
    (∃ reason disk, state.app.appendProof machine state.disk = (.error reason, disk) ∧
        next = ⟨state.app.blockStore reason, disk⟩) ∨
      ∃ disk, state.app.appendProof machine state.disk = (.ok (), disk) ∧
        ((learn = false ∧ next = learned host state disk) ∨
          (learn = true ∧ ∃ result after,
            (learned host state disk).appendLearningRecord host machine = some (result, after) ∧
              next = blockOnError result after)) := by
  rw [AppState.appendProofRecord] at h
  dsimp only at h
  split at h
  · rename_i reason hrefused
    cases h
    exact .inl ⟨reason, _, Prod.ext hrefused rfl, rfl⟩
  · rename_i hkept
    refine .inr ⟨_, Prod.ext hkept rfl, ?_⟩
    split at h
    · rename_i hlearn
      right
      refine ⟨hlearn, ?_⟩
      obtain ⟨⟨result, after⟩, hlesson, hmade⟩ := Option.bind_eq_some_iff.mp h
      refine ⟨result, after, hlesson, ?_⟩
      cases result with
      | ok =>
        cases hmade
        rfl
      | error reason =>
        cases hmade
        rfl
    · rename_i hlearn
      cases h
      exact .inl ⟨Bool.eq_false_iff.mpr hlearn, rfl⟩

end Appends

structure SameBooks (state next : AppState Graph) : Prop extends
    SameAccounts state.app next.app where
  store : next.app.store = state.app.store
  learningStore : next.app.learningStore = state.app.learningStore
  files : ∀ path, (∀ store, state.app.store = some store → store.path ≠ path) →
    next.disk.lookup path = state.disk.lookup path

theorem SameBooks.trans {state mid next : AppState Graph} (h : SameBooks state mid)
    (h' : SameBooks mid next) : SameBooks state next where
  toSameAccounts := h.toSameAccounts.trans h'.toSameAccounts
  store := h'.store.trans h.store
  learningStore := h'.learningStore.trans h.learningStore
  files := by
    intro path hpath
    rw [h'.files path (h.store ▸ hpath), h.files path hpath]

theorem lookup_leave {fault : AppendFault} {path other line : String} {disk : Disk}
    (h : path ≠ other) : (fault.leave path line disk).lookup other = disk.lookup other := by
  rw [AppendFault.leave]
  split
  · rfl
  · rw [Catalog.lookup_insert, if_neg (Ne.symm h)]

theorem appendProof_files {app : NativeApp Graph} {disk disk' : Disk} {result : Except String Unit}
    (h : app.appendProof machine disk = (result, disk')) (path : String)
    (hpath : ∀ store, app.store = some store → store.path ≠ path) :
    disk'.lookup path = disk.lookup path := by
  rw [NativeApp.appendProof] at h
  split at h
  · cases h
    rfl
  · rename_i store hstore
    dsimp only at h
    split at h
    · cases h
      exact lookup_leave (hpath store hstore)
    · cases h
      rw [ProofStore.append, Catalog.lookup_insert, if_neg (Ne.symm (hpath store hstore))]

inductive Filed (host : Host Graph) (state next : AppState Graph)
    (lesson : AppState Graph → LearningRecord → String × String → Machine → Prop) : Prop
  | nothing (same : SameBooks state next)
  | lesson {mid after : AppState Graph} {machine : Machine} {record : LearningRecord}
      {key : String × String} (before : SameBooks state mid) (made : lesson mid record key machine)
      (booked : Booked host mid machine record key after) (rest : SameBooks after next)

theorem Filed.learningStore
    {lesson : AppState Graph → LearningRecord → String × String → Machine → Prop}
    (h : Filed host state next lesson) : next.app.learningStore = state.app.learningStore := by
  cases h with
  | nothing same => exact same.learningStore
  | lesson before made booked rest =>
    rw [rest.learningStore, ← before.learningStore]
    cases booked <;> rfl

theorem Filed.store {lesson : AppState Graph → LearningRecord → String × String → Machine → Prop}
    (h : Filed host state next lesson) : next.app.store = state.app.store := by
  cases h with
  | nothing same => exact same.store
  | lesson before made booked rest =>
    rw [rest.store, ← before.store]
    cases booked <;> rfl

def RunLesson (intent : String) (machine : Machine) (mid : AppState Graph) (record : LearningRecord)
    (key : String × String) (machine' : Machine) : Prop :=
  machine' = machine ∧ mid.app.lastIntent = intent ∧
    mid.app.currentLearningRecord machine = some record ∧ key = (record.intent, record.gate)

def BuildLesson (intent : String) (build : FastBuild) (machine : Machine) (mid : AppState Graph)
    (record : LearningRecord) (key : String × String) (machine' : Machine) : Prop :=
  machine' = machine ∧ mid.app.lastIntent = intent ∧
    mid.fastBuildLesson build machine = some record ∧ key = (intent, fastBuildGate)

theorem appendProofRecord_filed {learn : Bool} {outcome : StoreOutcome}
    (h : state.appendProofRecord host machine learn = some (outcome, next)) :
    Filed host state next (RunLesson state.app.lastIntent machine) ∧ SameShell state.app next.app := by
  rcases appendProofRecord_cases h with ⟨reason, disk, hproof, rfl⟩ | ⟨disk, hproof, hrest⟩
  · exact ⟨.nothing ⟨⟨rfl, rfl, rfl⟩, rfl, rfl, fun path => appendProof_files hproof path⟩,
      rfl, rfl, rfl, rfl, rfl, rfl⟩
  · have hmid : SameBooks state (learned host state disk) :=
      ⟨⟨rfl, rfl, rfl⟩, rfl, rfl, fun path => appendProof_files hproof path⟩
    rcases hrest with ⟨-, rfl⟩ | ⟨-, result, after, hlesson, rfl⟩
    · exact ⟨.nothing hmid, rfl, rfl, rfl, rfl, rfl, rfl⟩
    · rcases appendLearningRecord_cases hlesson with ⟨-, rfl, rfl⟩ | ⟨record, hrecord, -, hbooked⟩
      · exact ⟨.nothing hmid, rfl, rfl, rfl, rfl, rfl, rfl⟩
      · have hrest : SameBooks after (blockOnError result after) := by
          cases result with
          | ok => exact ⟨⟨rfl, rfl, rfl⟩, rfl, rfl, fun _ _ => rfl⟩
          | error reason => exact ⟨⟨rfl, rfl, rfl⟩, rfl, rfl, fun _ _ => rfl⟩
        refine ⟨.lesson hmid ⟨rfl, rfl, hrecord, rfl⟩ hbooked hrest, ?_⟩
        have hshell : SameShell after.app (blockOnError result after).app := by
          cases result with
          | ok => exact SameShell.refl _
          | error reason => exact ⟨rfl, rfl, rfl, rfl, rfl, rfl⟩
        have hafter : SameShell state.app after.app := by
          cases hbooked with
          | refused _ => exact ⟨rfl, rfl, rfl, rfl, rfl, rfl⟩
          | kept _ _ => exact ⟨rfl, rfl, rfl, rfl, rfl, rfl⟩
        exact hafter.trans hshell

theorem appendProofRecord_unlearned {outcome : StoreOutcome}
    (h : state.appendProofRecord host machine false = some (outcome, next)) :
    SameBooks state next ∧ SameShell state.app next.app := by
  rcases appendProofRecord_cases h with ⟨reason, disk, hproof, rfl⟩ | ⟨disk, hproof, hrest⟩
  · exact ⟨⟨⟨rfl, rfl, rfl⟩, rfl, rfl, fun path => appendProof_files hproof path⟩,
      rfl, rfl, rfl, rfl, rfl, rfl⟩
  · rcases hrest with ⟨-, rfl⟩ | ⟨hlearn, -⟩
    · exact ⟨⟨⟨rfl, rfl, rfl⟩, rfl, rfl, fun path => appendProof_files hproof path⟩,
        rfl, rfl, rfl, rfl, rfl, rfl⟩
    · cases hlearn

def CallLesson (state : AppState Graph) :
    AppCall → AppState Graph → LearningRecord → String × String → Machine → Prop
  | .runCurrentIntent input machine => RunLesson (currentIntent input) machine
  | .completeProviderExecutionReport _ machine => RunLesson state.app.lastIntent machine
  | .completeFastBuild (.ok build) _ machine => BuildLesson state.app.lastIntent build machine
  | _ => fun _ _ _ _ => False

def intentAfter (state : AppState Graph) : AppCall → String
  | .runCurrentIntent input _ => currentIntent input
  | .beginFastBuild input _ =>
    if state.app.fastBuildRunning then state.app.lastIntent else currentIntent input
  | _ => state.app.lastIntent

def buildingAfter (state : AppState Graph) : AppCall → Bool
  | .beginFastBuild _ ready => state.app.fastBuildRunning || ready.isOk
  | .completeFastBuild _ _ _ => false
  | _ => state.app.fastBuildRunning

structure Acted (host : Host Graph) (state : AppState Graph) (call : AppCall)
    (next : AppState Graph) : Prop where
  filed : Filed host state next (CallLesson state call)
  lastIntent : next.app.lastIntent = intentAfter state call
  fastBuildRunning : next.app.fastBuildRunning = buildingAfter state call

theorem Filed.after {mid : AppState Graph}
    {lesson : AppState Graph → LearningRecord → String × String → Machine → Prop}
    (h : SameBooks state mid) (hfiled : Filed host mid next lesson) :
    Filed host state next lesson := by
  cases hfiled with
  | nothing same => exact .nothing (h.trans same)
  | lesson before made booked rest => exact .lesson (h.trans before) made booked rest

def ran (state : AppState Graph) (input : String) (runtime : MathAtomsRuntime Graph) :
    AppState Graph :=
  ⟨{ state.app with
    lastIntent := currentIntent input
    runtime }, state.disk⟩

theorem runCurrentIntent_cases {input : String}
    (h : state.runCurrentIntent host input machine = some next) :
    ∃ run runtime outcome,
      state.app.runtime.runCoderIntent host (currentIntent input) = some (run, runtime) ∧
      (ran state input runtime).appendProofRecord host machine true = some (outcome, next) := by
  rw [AppState.runCurrentIntent] at h
  obtain ⟨⟨run, runtime⟩, hrun, happend⟩ := Option.bind_eq_some_iff.mp h
  obtain ⟨⟨outcome, after⟩, hproof, hmade⟩ := Option.bind_eq_some_iff.mp happend
  cases hmade
  exact ⟨run, runtime, outcome, hrun, hproof⟩

def reported (state : AppState Graph) (output : String) (runtime : MathAtomsRuntime Graph) :
    AppState Graph :=
  ⟨{ state.app with
    runtime
    lastProviderOutput := output
    providerRunning := false }, state.disk⟩

theorem completeProviderExecutionReport_cases {delivery : AppState.Delivery}
    (h : state.completeProviderExecutionReport host delivery machine = some next) :
    ∃ output runtime outcome, state.deliver host delivery = some (output, runtime) ∧
      (reported state output runtime).appendProofRecord host machine true = some (outcome, next) := by
  rw [AppState.completeProviderExecutionReport] at h
  obtain ⟨⟨output, runtime⟩, hdelivered, happend⟩ := Option.bind_eq_some_iff.mp h
  obtain ⟨⟨outcome, after⟩, hproof, hmade⟩ := Option.bind_eq_some_iff.mp happend
  cases hmade
  exact ⟨output, runtime, outcome, hdelivered, hproof⟩

theorem acted_idle {call : AppCall} (haccounts : SameAccounts state.app next.app)
    (hstore : next.app.store = state.app.store)
    (hledger : next.app.learningStore = state.app.learningStore) (hdisk : next.disk = state.disk)
    (hintent : next.app.lastIntent = intentAfter state call)
    (hbuilding : next.app.fastBuildRunning = buildingAfter state call) :
    Acted host state call next :=
  ⟨.nothing ⟨haccounts, hstore, hledger, fun _ _ => by rw [hdisk]⟩, hintent, hbuilding⟩

theorem beginProviderExecution_idle {worker : Option CoreRuntime.PreparedProviderCall}
    (h : state.beginProviderExecution = some (worker, next)) :
    Acted host state .beginProviderExecution next := by
  rw [AppState.beginProviderExecution] at h
  split at h
  · cases h
    exact acted_idle ⟨rfl, rfl, rfl⟩ rfl rfl rfl rfl rfl
  · obtain ⟨⟨task, runtime⟩, -, hmade⟩ := Option.bind_eq_some_iff.mp h
    cases task with
    | none =>
      cases hmade
      exact acted_idle ⟨rfl, rfl, rfl⟩ rfl rfl rfl rfl rfl
    | some task =>
      cases hmade
      exact acted_idle ⟨rfl, rfl, rfl⟩ rfl rfl rfl rfl rfl

theorem beginFastBuild_acted (input : String) (ready : Except String Unit) :
    Acted host state (.beginFastBuild input ready) (state.beginFastBuild input ready).2 := by
  rw [AppState.beginFastBuild]
  split
  · rename_i hrunning
    exact acted_idle ⟨rfl, rfl, rfl⟩ rfl rfl rfl (by rw [intentAfter, if_pos hrunning])
      (by rw [buildingAfter, hrunning]; rfl)
  · rename_i hidle
    cases ready with
    | error error =>
      exact acted_idle ⟨rfl, rfl, rfl⟩ rfl rfl rfl (by rw [intentAfter, if_neg hidle])
        (Bool.or_false _).symm
    | ok =>
      exact acted_idle ⟨rfl, rfl, rfl⟩ rfl rfl rfl (by rw [intentAfter, if_neg hidle])
        (Bool.or_true _).symm

def built (state : AppState Graph) (build : FastBuild) (memory : Except String Bool) :
    AppState Graph :=
  ⟨{ state.app with
    fastBuildRunning := false
    lastProviderOutput := build.output ++ warnIfMemoryLost "outcome" memory }, state.disk⟩

theorem completeFastBuild_ok (build : FastBuild) (memory : Except String Bool) :
    state.completeFastBuild host (.ok build) memory machine =
      (built state build memory).recordFastBuildLearning host build machine := rfl

theorem completeFastBuild_acted {result : Except String FastBuild} {memory : Except String Bool}
    (h : state.completeFastBuild host result memory machine = some next) :
    Acted host state (.completeFastBuild result memory machine) next := by
  cases result with
  | error reason =>
    rw [AppState.completeFastBuild] at h
    cases h
    exact acted_idle ⟨rfl, rfl, rfl⟩ rfl rfl rfl rfl rfl
  | ok build =>
    rw [completeFastBuild_ok] at h
    rcases recordFastBuildLearning_cases h with ⟨-, rfl⟩ | ⟨record, hrecord, hbooked⟩
    · exact acted_idle ⟨rfl, rfl, rfl⟩ rfl rfl rfl rfl rfl
    · have hmid : SameBooks state (built state build memory) :=
        ⟨⟨rfl, rfl, rfl⟩, rfl, rfl, fun _ _ => rfl⟩
      have hrest : SameBooks next next := ⟨⟨rfl, rfl, rfl⟩, rfl, rfl, fun _ _ => rfl⟩
      refine ⟨.lesson hmid ⟨rfl, rfl, hrecord, rfl⟩ hbooked hrest, ?_, ?_⟩
      · cases hbooked <;> rfl
      · cases hbooked <;> rfl

theorem captureCurrentProof_cases (h : state.captureCurrentProof host machine = some next) :
    next = state ∨ (state.app.runtime.state.lastRoute ≠ [] ∧
      state.app.runtime.state.status ≠ .providerPending ∧
        ∃ outcome, state.appendProofRecord host machine false = some (outcome, next)) := by
  rw [AppState.captureCurrentProof] at h
  split at h
  · cases h
    exact .inl rfl
  · rename_i hroute
    split at h
    · cases h
      exact .inl rfl
    · rename_i hstatus
      obtain ⟨⟨outcome, after⟩, happend, hmade⟩ := Option.map_eq_some_iff.mp h
      cases hmade
      exact .inr ⟨hroute, hstatus, outcome, happend⟩

theorem act_acted {call : AppCall} {answer : AppAnswer}
    (h : act host state call = some (answer, next)) : Acted host state call next := by
  cases call with
  | runCurrentIntent input machine =>
    rw [act, Option.map_eq_some_iff] at h
    obtain ⟨after, hrun, hmade⟩ := h
    cases hmade
    obtain ⟨run, runtime, outcome, -, happend⟩ := runCurrentIntent_cases hrun
    obtain ⟨hfiled, hshell⟩ := appendProofRecord_filed happend
    have hmid : SameBooks state (ran state input runtime) :=
      ⟨⟨rfl, rfl, rfl⟩, rfl, rfl, fun _ _ => rfl⟩
    exact ⟨hfiled.after hmid, hshell.lastIntent, hshell.fastBuildRunning⟩
  | markDrift =>
    rw [act, Option.some_inj, Prod.mk.injEq] at h
    rw [← h.2]
    exact acted_idle ⟨rfl, rfl, rfl⟩ rfl rfl rfl rfl rfl
  | applyProviderConfig config =>
    rw [act, Option.some_inj, Prod.mk.injEq] at h
    rw [← h.2]
    exact acted_idle ⟨rfl, rfl, rfl⟩ rfl rfl rfl rfl rfl
  | captureCurrentProof machine =>
    rw [act, Option.map_eq_some_iff] at h
    obtain ⟨after, hcaptured, hmade⟩ := h
    cases hmade
    rcases captureCurrentProof_cases hcaptured with rfl | ⟨-, -, outcome, happend⟩
    · exact acted_idle ⟨rfl, rfl, rfl⟩ rfl rfl rfl rfl rfl
    · obtain ⟨hbooks, hshell⟩ := appendProofRecord_unlearned happend
      exact ⟨.nothing hbooks, hshell.lastIntent, hshell.fastBuildRunning⟩
  | beginProviderExecution =>
    rw [act, Option.map_eq_some_iff] at h
    obtain ⟨⟨worker, after⟩, hbegun, hmade⟩ := h
    cases hmade
    exact beginProviderExecution_idle hbegun
  | completeProviderExecutionReport delivery machine =>
    rw [act, Option.map_eq_some_iff] at h
    obtain ⟨after, hcompleted, hmade⟩ := h
    cases hmade
    obtain ⟨output, runtime, outcome, -, happend⟩ :=
      completeProviderExecutionReport_cases hcompleted
    obtain ⟨hfiled, hshell⟩ := appendProofRecord_filed happend
    have hmid : SameBooks state (reported state output runtime) :=
      ⟨⟨rfl, rfl, rfl⟩, rfl, rfl, fun _ _ => rfl⟩
    exact ⟨hfiled.after hmid, hshell.lastIntent, hshell.fastBuildRunning⟩
  | beginFastBuild input ready =>
    rw [act, Option.some_inj, Prod.mk.injEq] at h
    rw [← h.2]
    exact beginFastBuild_acted input ready
  | completeFastBuild result memory machine =>
    rw [act, Option.map_eq_some_iff] at h
    obtain ⟨after, hcompleted, hmade⟩ := h
    cases hmade
    exact completeFastBuild_acted hcompleted

end AtomVibe.Native
