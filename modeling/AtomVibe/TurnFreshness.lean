import AtomVibe.RuntimeRuns

namespace AtomVibe.TurnFreshness

open Checked Text JsonText Hash BuildProtocol PlannerModel BuildPlanner LedgerStore Coordinator Provider
open RuntimeModel AtomVibe.Runtime RuntimeGate RuntimeRuns Scratchpad ScratchpadStore
open ScratchpadChain ScratchpadAppend ScratchpadOpen PlannerInvariant

variable {state : RuntimeState} {buildId : String}

def planner (state : RuntimeState) (buildId : String) : Option BuildLedger :=
  state.runtime.coordinator.planners.lookup buildId

def standing (state : RuntimeState) (buildId : String) :
    Option (BuildRunStatus × BuildStep × UInt64) × String :=
  ((planner state buildId).map fun ledger => (ledger.status, ledger.currentStep, ledger.revision),
    state.runtime.providerIdentityHash)

def IsTurnCall : RuntimeCall → Prop
  | .prepareTurn .. | .setProvider .. | .executeTurnWith .. | .evaluateGate .. => True
  | .startBuild .. | .appendScratchpadNote .. => False

def performAll (state : RuntimeState) (calls : List RuntimeCall) : RuntimeState :=
  calls.foldl (fun state call => (perform state call).2) state

def Moves (before after : Option BuildLedger) : Prop :=
  after = before ∨ ∃ ledger changed, before = some ledger ∧ after = some changed ∧
    changed.revision.toNat = ledger.revision.toNat + 1

theorem moves_evaluate (runtime : AtomVibeRuntime) (files : RuntimeFiles) (other buildId : String)
    (call : Call) : Moves (runtime.coordinator.planners.lookup buildId)
      ((runtime.coordinator.evaluate other call files.planners).2.1.planners.lookup buildId) := by
  cases hplanner : runtime.coordinator.planners.lookup other with
  | none =>
    left
    simp only [BuildCoordinator.evaluate, hplanner]
  | some ledger =>
    cases he : evaluateAndHandle ledger call with
    | mk result candidate =>
      cases result with
      | error error =>
        left
        simp only [BuildCoordinator.evaluate, hplanner, he]
      | ok decision =>
        obtain ⟨hbuild, hevaluate⟩ :=
          @evaluate_eq_commit runtime files other call ledger candidate decision hplanner he
        rw [hevaluate]
        cases hsave : (runtime.coordinator.store.save candidate files.planners).1 with
        | error error =>
          left
          rw [BuildCoordinator.commit_error hsave]
        | ok path =>
          obtain ⟨changed, hkeeps, hcommit⟩ := @BuildCoordinator.commit_ok runtime.coordinator
            decision candidate files.planners path hsave
          have hrevision :=
            @revision_of_saved runtime files call ledger candidate decision he path hsave
          rw [hcommit, hkeeps.planners, Catalog.lookup_insert, hbuild]
          split_ifs with hid
          · subst hid
            exact .inr ⟨ledger, candidate, hplanner, rfl, hrevision⟩
          · exact .inl rfl

theorem planner_prepareTurn (state : RuntimeState) (guide : Guide) (other buildId : String) :
    planner (perform state (.prepareTurn guide other)).2 buildId = planner state buildId :=
  congrArg (·.planners.lookup buildId) (padOnly_prepareTurn guide).coordinator

theorem moves_perform {call : RuntimeCall} (h : IsTurnCall call) (buildId : String) :
    Moves (planner state buildId) (planner (perform state call).2 buildId) := by
  cases call with
  | startBuild projectId operatorRequest clock => exact h.elim
  | appendScratchpadNote other kind content sourceIds unixTimeMs => exact h.elim
  | prepareTurn guide other => exact .inl (planner_prepareTurn state guide other buildId)
  | setProvider config =>
    left
    simp only [planner, perform, AtomVibeRuntime.setProvider]
    split <;> rfl
  | executeTurnWith prepared load http clock =>
    exact .inl (congrArg (·.planners.lookup buildId) (padOnly_executeTurnWith load http).coordinator)
  | evaluateGate other call clock =>
    simp only [planner, perform, AtomVibeRuntime.evaluateGate]
    split
    · exact .inl rfl
    · have hmoves := moves_evaluate state.runtime state.files other buildId call
      split
      · exact hmoves
      · split <;> exact hmoves

theorem moves_performAll {calls : List RuntimeCall} (h : ∀ call ∈ calls, IsTurnCall call)
    (state : RuntimeState) (buildId : String) :
    planner (performAll state calls) buildId = planner state buildId ∨
      ∃ ledger changed, planner state buildId = some ledger ∧
        planner (performAll state calls) buildId = some changed ∧
        ledger.revision.toNat < changed.revision.toNat := by
  induction calls generalizing state with
  | nil => exact .inl rfl
  | cons call calls ih =>
    rw [List.forall_mem_cons] at h
    have hmove := @moves_perform state call h.1 buildId
    have hrest := ih h.2 (perform state call).2
    rw [show performAll state (call :: calls) = performAll (perform state call).2 calls from rfl]
    rcases hmove with hsame | ⟨ledger, changed, hbefore, hafter, hrevision⟩
    · rwa [hsame] at hrest
    · right
      rcases hrest with hsame | ⟨next, last, hnext, hlast, hlater⟩
      · exact ⟨ledger, changed, hbefore, hsame.trans hafter, by omega⟩
      · obtain rfl := Option.some.inj (hafter.symm.trans hnext)
        exact ⟨ledger, last, hbefore, hlast, by omega⟩

theorem planner_between {before after : List RuntimeCall}
    (hbefore : ∀ call ∈ before, IsTurnCall call) (hafter : ∀ call ∈ after, IsTurnCall call)
    {ledger last : BuildLedger} (hfirst : planner state buildId = some ledger)
    (hlast : planner (performAll (performAll state before) after) buildId = some last)
    (hrevision : last.revision = ledger.revision) :
    planner (performAll state before) buildId = some ledger ∧ last = ledger := by
  rcases moves_performAll hbefore state buildId with hsame | ⟨first, middle, h, hmiddle, hlt⟩
  · rw [hfirst] at hsame
    rcases moves_performAll hafter (performAll state before) buildId with
      hkept | ⟨first, later, h, hlater, hlt⟩
    · exact ⟨hsame, Option.some.inj (hlast.symm.trans (hkept.trans hsame))⟩
    · obtain rfl := Option.some.inj (hsame.symm.trans h)
      obtain rfl := Option.some.inj (hlast.symm.trans hlater)
      rw [hrevision] at hlt
      omega
  · obtain rfl := Option.some.inj (hfirst.symm.trans h)
    rcases moves_performAll hafter (performAll state before) buildId with
      hkept | ⟨first, later, h', hlater, hlater'⟩
    · obtain rfl := Option.some.inj (hlast.symm.trans (hkept.trans hmiddle))
      rw [hrevision] at hlt
      omega
    · obtain rfl := Option.some.inj (hmiddle.symm.trans h')
      obtain rfl := Option.some.inj (hlast.symm.trans hlater)
      rw [hrevision] at hlater'
      omega

theorem standing_of_request {prepared : PreparedTurn}
    {load : String → Except ProviderAdapterError String}
    {http : ProviderHttpRequest → Except ProviderTransportError String} {clock : TurnClock}
    {requests : List ProviderHttpRequest} {result : Except RuntimeError ExecutedTurn}
    (h : (perform state (.executeTurnWith prepared load http clock)).1 = .executed requests result)
    (hrequests : requests ≠ []) : standing state prepared.buildId =
      (some (.active, prepared.step, prepared.plannerRevision), prepared.providerIdentityHash) := by
  simp only [perform, AtomVibeRuntime.executeTurnWith, RuntimeAnswer.executed.injEq] at h
  split at h
  · exact absurd h.1.symm hrequests
  · rename_i hvalid
    obtain ⟨ledger, hledger, hcurrent⟩ := bind_eq_ok.mp hvalid
    obtain ⟨found, hfound, hactive⟩ := bind_eq_ok.mp hledger
    obtain ⟨_, hstatus, hsame⟩ := bind_eq_ok.mp hactive
    obtain rfl := Except.ok.inj hsame
    rw [okOr_eq_ok] at hfound
    rw [refuseIf_eq_ok, not_not] at hstatus
    rw [refuseIf_eq_ok, not_or, not_or, not_not, not_not, not_not] at hcurrent
    rw [standing, planner, hfound, Option.map_some, hstatus, hcurrent.1, hcurrent.2.1,
      hcurrent.2.2]

theorem standing_of_prepared {guide : Guide} {turn : PreparedTurn}
    (h : (perform state (.prepareTurn guide buildId)).1 = .prepared (.ok turn)) :
    turn.buildId = buildId ∧ standing state buildId =
      (some (.active, turn.step, turn.plannerRevision), turn.providerIdentityHash) := by
  obtain ⟨ledger, hledger, hid, hstep, hrevision, hidentity⟩ :=
    AtomVibeRuntime.prepareTurn_ok (RuntimeAnswer.prepared.inj h)
  obtain ⟨found, hfound, hactive⟩ := bind_eq_ok.mp hledger
  obtain ⟨_, hstatus, hsame⟩ := bind_eq_ok.mp hactive
  obtain rfl := Except.ok.inj hsame
  rw [okOr_eq_ok] at hfound
  rw [refuseIf_eq_ok, not_not] at hstatus
  refine ⟨hid, ?_⟩
  rw [standing, planner, hfound, Option.map_some, hstatus, hstep, hrevision, hidentity]

/-- A request for a turn goes out where everything is as it was when the turn was prepared. What
was otherwise in between is the provider, and it has come back. -/
theorem prepared_turns_stay_fresh {guide : Guide} {turn : PreparedTurn}
    (hturn : (perform state (.prepareTurn guide buildId)).1 = .prepared (.ok turn))
    {before after : List RuntimeCall} (hbefore : ∀ call ∈ before, IsTurnCall call)
    (hafter : ∀ call ∈ after, IsTurnCall call)
    {load : String → Except ProviderAdapterError String}
    {http : ProviderHttpRequest → Except ProviderTransportError String} {clock : TurnClock}
    {requests : List ProviderHttpRequest} {result : Except RuntimeError ExecutedTurn}
    {between now : RuntimeState}
    (hbetween : between = performAll (perform state (.prepareTurn guide buildId)).2 before)
    (hnow : now = performAll between after)
    (hexecuted : (perform now (.executeTurnWith turn load http clock)).1 =
      .executed requests result) (hrequests : requests ≠ []) :
    ((standing now buildId).1 = some (.active, turn.step, turn.plannerRevision) ∧
      standing now buildId = standing state buildId) ∧
    (standing between buildId ≠ standing state buildId →
      planner between buildId = planner state buildId ∧
        between.runtime.providerIdentityHash ≠ state.runtime.providerIdentityHash ∧
        now.runtime.providerIdentityHash = state.runtime.providerIdentityHash) := by
  obtain ⟨hid, hstate⟩ := standing_of_prepared hturn
  have hstanding := standing_of_request hexecuted hrequests
  rw [hid] at hstanding
  have hsame : standing now buildId = standing state buildId := hstanding.trans hstate.symm
  refine ⟨⟨congrArg Prod.fst hstanding, hsame⟩, fun hchanged => ?_⟩
  have hprepared := planner_prepareTurn state guide buildId buildId
  obtain ⟨ledger, hfirst, hledger⟩ := Option.map_eq_some_iff.mp (congrArg Prod.fst hstate)
  obtain ⟨last, hlast, hledger'⟩ := Option.map_eq_some_iff.mp (congrArg Prod.fst hstanding)
  have hrevision : last.revision = ledger.revision :=
    congrArg (fun stands : BuildRunStatus × BuildStep × UInt64 => stands.2.2)
      (hledger'.trans hledger.symm)
  subst hbetween hnow
  have hmiddle := (planner_between hbefore hafter (hprepared.trans hfirst) hlast hrevision).1
  have hplanner := hmiddle.trans hfirst.symm
  refine ⟨hplanner, fun hidentity => hchanged ?_, congrArg Prod.snd hsame⟩
  rw [standing, standing, hplanner, hidentity]

section Ready

def readyAdapter : ProviderAdapter :=
  ⟨keyConfig "https://models.example/v1" "\x01", by decide +kernel⟩

def otherAdapter : ProviderAdapter :=
  ⟨keyConfig "https://other.example/v1" "\x01", by decide +kernel⟩

def readyState : RuntimeState := ⟨{ demoRuntime with provider := readyAdapter }, demoFiles⟩

def readyContext : CoderTurnContext := ⟨[], ⟨"", 0, "", ""⟩, "Answer.", "none", []⟩

def readyGuide : Guide where
  prepare _ _ pad bus := (.ok readyContext, bus, pad)
  systemPrompt _ := .ok "Plan."
  outputContract _ := "Report."

theorem perform_setProvider (state : RuntimeState) (adapter : ProviderAdapter) :
    (perform state (.setProvider adapter.config)).2 =
      ⟨{ state.runtime with provider := adapter }, state.files⟩ := by
  simp only [perform, AtomVibeRuntime.setProvider,
    (@ProviderAdapter.new_eq_ok adapter.config adapter).mpr rfl]

theorem scratchpad_of_accepts {runtime : AtomVibeRuntime} {files : RuntimeFiles}
    {store : ScratchpadStore} {entries : List ScratchpadEntry}
    (hstore : runtime.padStore buildId = .ok store)
    (haccepts : Accepts store (files.pad store) entries) : runtime.scratchpad buildId files =
      (.ok store, files.setPad store (withScope store (files.pad store))) := by
  unfold AtomVibeRuntime.scratchpad
  rw [hstore]
  simp only [openPad_of_accepts haccepts]
  rfl

theorem padStore_of_new {runtime : AtomVibeRuntime} {scope : ScratchpadScope}
    (h : ScratchpadScope.new buildId (providerIdentity runtime.config) = .ok scope) :
    ∃ store, runtime.padStore buildId = .ok store := by
  refine ⟨⟨runtime.root ++ "/scratchpads", scope, validate_of_new h⟩, ?_⟩
  rw [AtomVibeRuntime.padStore, h, ok_bind]
  exact storeOf_eq_ok.mpr ⟨rfl, rfl⟩

theorem exists_padStore : ∃ store,
    readyState.runtime.padStore demoLedger.buildId = .ok store := by
  have hscope : ScratchpadScope.new demoLedger.buildId (providerIdentity readyAdapter.config) =
      .ok ⟨demoLedger.buildId, sha256Tagged (asBytes (providerIdentity readyAdapter.config))⟩ := by
    have hid : Scratchpad.validateBuildId demoLedger.buildId = .ok () := by decide +kernel
    have hblank : isBlank (providerIdentity readyAdapter.config) = false := by decide +kernel
    have hsize : (providerIdentity readyAdapter.config).utf8ByteSize ≤ 8 * 1024 := by decide +kernel
    have hidentity : refuseIf (isBlank (providerIdentity readyAdapter.config) ∨
        8 * 1024 < (providerIdentity readyAdapter.config).utf8ByteSize)
        (ScratchpadError.invalidScope "provider-model identity is empty or exceeds bounds") =
        .ok () := by
      rw [refuseIf_eq_ok, hblank, not_or]
      exact ⟨Bool.false_ne_true, not_lt.mpr hsize⟩
    rw [ScratchpadScope.new, hid, ok_bind, hidentity, ok_bind]
    rfl
  exact padStore_of_new hscope

def readyRequest : ProviderRequest :=
  .new (demoLedger.buildId ++ ":" ++ demoLedger.currentStep.asStr ++ ":" ++
      demoLedger.revision.toNat.repr ++ ":" ++ (0 + 1).repr)
    ("Plan." ++ "\n\n# Context controller\n\n" ++ "Answer." ++
      "\n\n# Required output contract\n\n" ++ "Report.")
    (Context.turnData "none" demoLedger)

def readyTurn : PreparedTurn where
  buildId := demoLedger.buildId
  step := demoLedger.currentStep
  plannerRevision := demoLedger.revision
  providerIdentityHash := readyState.runtime.providerIdentityHash
  context := readyContext
  request := readyRequest

theorem isBlank_objectText (fields : List (String × String)) :
    isBlank (objectText fields) = false := by
  rw [isBlank, objectText, String.toList_append, String.toList_append]
  rfl

theorem validate_readyRequest : readyRequest.validate = .ok () := by
  have htrim : trim readyRequest.requestId = readyRequest.requestId := by decide +kernel
  have hempty : readyRequest.requestId ≠ "" := by decide +kernel
  have hlength : readyRequest.requestId.utf8ByteSize ≤ 160 := by decide +kernel
  have hchars : readyRequest.requestId.toList.all isRequestIdChar = true := by decide +kernel
  have hblank : isBlank readyRequest.systemInstructions = false := by decide +kernel
  have hsystem : readyRequest.systemInstructions.utf8ByteSize ≤ maxProviderInstructionsBytes := by
    decide +kernel
  have hdata : isBlank readyRequest.data = false := by
    have htext : readyRequest.data = Context.turnData "none" demoLedger := rfl
    rw [htext, Context.turnData]
    exact isBlank_objectText _
  have hshort : readyRequest.data.utf8ByteSize ≤ 4000 := by decide +kernel
  have hsize : readyRequest.data.utf8ByteSize ≤ maxProviderDataBytes := hshort.trans (by decide)
  have houtput : readyRequest.maxOutputBytes = maxProviderOutputBytes := rfl
  simp only [ProviderRequest.validate, bind_eq_ok, refuseIf_eq_ok, htrim, hempty, hchars, hblank,
    hdata, houtput, Bool.false_eq_true, Bool.true_eq_false, ne_eq, not_true_eq_false, false_or,
    or_false, not_lt, hlength, hsystem, hsize, exists_const, true_and]
  decide

theorem activeLedger_ready : readyState.runtime.activeLedger demoLedger.buildId = .ok demoLedger := by
  have hlookup : readyState.runtime.coordinator.planners.lookup demoLedger.buildId =
      some demoLedger := by
    change (Catalog.empty.insert demoLedger.buildId demoLedger).lookup demoLedger.buildId = _
    rw [Catalog.lookup_insert, if_pos rfl]
  rw [AtomVibeRuntime.activeLedger, hlookup]
  rfl

theorem turnFor_of {runtime : AtomVibeRuntime} {guide : Guide} {ledger : BuildLedger}
    {context : CoderTurnContext} {mode : String} {request : ProviderRequest}
    (hmode : guide.systemPrompt ledger.currentStep = .ok mode)
    (hrequest : request = .new (buildId ++ ":" ++ ledger.currentStep.asStr ++ ":" ++
        ledger.revision.toNat.repr ++ ":" ++ (context.scratchpad.entryCount + 1).repr)
      (mode ++ "\n\n# Context controller\n\n" ++ context.systemInstructions ++
        "\n\n# Required output contract\n\n" ++ guide.outputContract ledger.currentStep)
      (Context.turnData context.data ledger)) (hvalid : request.validate = .ok ()) :
    runtime.turnFor guide buildId ledger context = .ok ⟨buildId, ledger.currentStep,
      ledger.revision, runtime.providerIdentityHash, context, request⟩ := by
  subst hrequest
  rw [AtomVibeRuntime.turnFor, hmode, Except.mapError, ok_bind]
  simp only [hvalid, Except.mapError, ok_bind]
  rfl

theorem turnFor_ready : readyState.runtime.turnFor readyGuide demoLedger.buildId demoLedger
    readyContext = .ok readyTurn :=
  turnFor_of rfl rfl validate_readyRequest

theorem prepareTurn_ready : (perform readyState (.prepareTurn readyGuide demoLedger.buildId)).1 =
    .prepared (.ok readyTurn) := by
  obtain ⟨store, hstore⟩ := exists_padStore
  have haccepts : Accepts store (readyState.files.pad store) [] := accepts_fresh store
  have hsession : SessionStore.load demoLedger.buildId readyState.files.sessions =
      .ok demoSession := load_demoSession
  have hturn : (Except.ok readyContext : Except String CoderTurnContext).mapError
      RuntimeError.context >>= readyState.runtime.turnFor readyGuide demoLedger.buildId demoLedger =
      .ok readyTurn := by
    rw [Except.mapError, ok_bind, turnFor_ready]
  simp only [perform, AtomVibeRuntime.prepareTurn, hsession, activeLedger_ready, ok_bind,
    scratchpad_of_accepts hstore haccepts]
  exact congrArg RuntimeAnswer.prepared hturn

def switchedState : RuntimeState :=
  performAll (perform readyState (.prepareTurn readyGuide demoLedger.buildId)).2
    [.setProvider otherAdapter.config]

def restoredState : RuntimeState := performAll switchedState [.setProvider readyAdapter.config]

theorem validatePrepared_of_standing {turn : PreparedTurn} (h : standing state turn.buildId =
    (some (.active, turn.step, turn.plannerRevision), turn.providerIdentityHash)) :
    state.runtime.validatePrepared turn = .ok () := by
  obtain ⟨ledger, hledger, hstands⟩ := Option.map_eq_some_iff.mp (congrArg Prod.fst h)
  obtain ⟨hstatus, hstands⟩ := Prod.ext_iff.mp hstands
  obtain ⟨hstep, hrevision⟩ := Prod.ext_iff.mp hstands
  have hactive : state.runtime.activeLedger turn.buildId = .ok ledger := by
    rw [planner] at hledger
    rw [AtomVibeRuntime.activeLedger, hledger, okOr_some, ok_bind,
      (refuseIf_eq_ok (u := ())).mpr (not_not.mpr hstatus)]
    rfl
  rw [AtomVibeRuntime.validatePrepared, hactive, ok_bind, refuseIf_eq_ok, not_or, not_or,
    not_not, not_not, not_not]
  exact ⟨hstep, hrevision, congrArg Prod.snd h⟩

theorem executes_of_standing {turn : PreparedTurn} (h : standing state turn.buildId =
      (some (.active, turn.step, turn.plannerRevision), turn.providerIdentityHash))
    {load : String → Except ProviderAdapterError String} {call : ProviderHttpRequest}
    (hcall : state.runtime.provider.prepare load turn.request = .ok call)
    (http : ProviderHttpRequest → Except ProviderTransportError String) (clock : TurnClock) :
    ∃ result, (perform state (.executeTurnWith turn load http clock)).1 =
      .executed [call] result := by
  have hvalid := validatePrepared_of_standing h
  have hrequests : (state.runtime.executeTurnWith turn load http clock state.files).1 = [call] := by
    simp only [AtomVibeRuntime.executeTurnWith, hvalid, ProviderAdapter.executeWith, hcall]
  exact ⟨_, congrArg (fun requests => RuntimeAnswer.executed requests _) hrequests⟩

theorem start_not_in_body (model instructions data : String) :
    Text.contains "\x01".toList
      (BodyFormat.chatCompletions.text model instructions data .high).toList = false := by
  have hescape : ∀ text : String, '\x01' ∉ (JsonText.escape text).toList := by
    intro text h
    rw [JsonText.escape, String.toList_ofList, List.mem_flatMap] at h
    obtain ⟨c, -, hc⟩ := h
    rw [JsonText.escapeChar] at hc
    split_ifs at hc with _ _ _ _ _ hcontrol
    all_goals
      simp only [List.mem_cons, List.not_mem_nil, or_false, Char.reduceEq] at hc
    subst hc
    exact hcontrol (by decide)
  rw [← Bool.not_eq_true, Text.contains_iff_infix]
  intro hin
  have hmem : '\x01' ∈ (BodyFormat.chatCompletions.text model instructions data .high).toList :=
    hin.subset (by simp)
  simp [BodyFormat.text, chatCompletionsBody, messagesText, arrayText, objectText, commaJoin,
    quote, hescape, Context.bare, ProviderThinkingLevel.asStr, boolText] at hmem

theorem posts_request {endpoint apiKey : String} {request : ProviderRequest}
    (hvalid : validateConfig (keyConfig endpoint apiKey) = .ok ())
    (hrequest : request.validate = .ok ())
    (habsent : Text.contains apiKey.toList (BodyFormat.chatCompletions.text "local-coder"
      request.systemInstructions request.data .high).toList = false) :
    ∃ call, (⟨keyConfig endpoint apiKey, hvalid⟩ : ProviderAdapter).prepare (fun _ => .ok apiKey)
      request = .ok call :=
  ⟨⟨endpoint, "authorization", "Bearer", apiKey, _, 120⟩,
    prepare_eq_ok.mpr ⟨hrequest, rfl, rfl,
      requestBody_plain (show (keyConfig endpoint apiKey).thinkingLevel = some .high from rfl)
        (show isBlank "" = true from rfl), habsent, rfl, rfl, rfl, rfl⟩⟩

theorem switched_back (guide : Guide) (other : ProviderAdapter) {adapter : ProviderAdapter}
    (hprovider : state.runtime.provider = adapter) {now : RuntimeState}
    (hnow : now = performAll (performAll (perform state (.prepareTurn guide buildId)).2
      [.setProvider other.config]) [.setProvider adapter.config]) :
    now.runtime.provider = adapter ∧ standing now buildId = standing state buildId := by
  have hplanner := planner_prepareTurn state guide buildId buildId
  subst hnow
  simp only [performAll, List.foldl_cons, List.foldl_nil, perform_setProvider, standing]
  rw [← hplanner, AtomVibeRuntime.providerIdentityHash, AtomVibeRuntime.providerIdentityHash,
    AtomVibeRuntime.config, AtomVibeRuntime.config, hprovider]
  exact ⟨trivial, rfl⟩

theorem prepared_turns_stay_fresh_ready :
    ((standing restoredState demoLedger.buildId).1 =
        some (.active, readyTurn.step, readyTurn.plannerRevision) ∧
      standing restoredState demoLedger.buildId = standing readyState demoLedger.buildId) ∧
    (standing switchedState demoLedger.buildId ≠ standing readyState demoLedger.buildId →
      planner switchedState demoLedger.buildId = planner readyState demoLedger.buildId ∧
        switchedState.runtime.providerIdentityHash ≠ readyState.runtime.providerIdentityHash ∧
        restoredState.runtime.providerIdentityHash = readyState.runtime.providerIdentityHash) := by
  have hposts : ∃ call, readyAdapter.prepare (fun _ => .ok "\x01") readyTurn.request =
      .ok call := posts_request readyAdapter.valid validate_readyRequest (start_not_in_body _ _ _)
  obtain ⟨call, hcall⟩ := hposts
  obtain ⟨hprovider, hsame⟩ := switched_back readyGuide otherAdapter
    (show readyState.runtime.provider = readyAdapter from rfl)
    (show restoredState = performAll switchedState [.setProvider readyAdapter.config] from rfl)
  have hready := (standing_of_prepared prepareTurn_ready).2
  have hprepares : restoredState.runtime.provider.prepare (fun _ => .ok "\x01")
      readyTurn.request = .ok call := by rw [hprovider, hcall]
  obtain ⟨result, hexecuted⟩ := @executes_of_standing restoredState readyTurn
    (hsame.trans hready) _ call hprepares (fun _ => .ok "") ⟨0, 0, 0⟩
  have hcalls : ∀ adapter : ProviderAdapter,
      ∀ call ∈ [RuntimeCall.setProvider adapter.config], IsTurnCall call := by
    intro adapter call hcall
    rw [List.mem_singleton.mp hcall]
    trivial
  exact prepared_turns_stay_fresh prepareTurn_ready (hcalls otherAdapter) (hcalls readyAdapter)
    rfl rfl hexecuted (List.cons_ne_nil _ _)

end Ready

end AtomVibe.TurnFreshness
