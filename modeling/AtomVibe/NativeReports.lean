import AtomVibe.NativeProofs

namespace AtomVibe.Native

open Text Secrets Proof Learning LedgerFields CoreRuntime Transition PartialRun Bus

variable {Graph : Type} {host : Host Graph} {state next : AppState Graph} {machine : Machine}

def proofRefusal (app : NativeApp Graph) (machine : Machine) : Option String :=
  match app.store, machine.proofFault with
  | some store, some fault =>
    some ("Persistent proof store write failed at " ++ store.path ++ ": " ++ fault.error)
  | _, _ => none

def lessonRefusal (app : NativeApp Graph) (machine : Machine) (record : LearningRecord) :
    Option String :=
  match app.learningStore with
  | none => none
  | some store =>
    let failed (error : String) : Option String :=
      some ("Persistent learning store write failed at " ++ store.path ++ ": " ++ error)
    match record.validate machine.verifiers, machine.learningFault with
    | .error error, _ => failed error
    | .ok (), some fault => failed fault.error
    | .ok (), none => none

theorem appendProof_error {app : NativeApp Graph} {disk disk' : Disk} {reason : String}
    (h : app.appendProof machine disk = (.error reason, disk')) :
    proofRefusal app machine = some reason := by
  rw [NativeApp.appendProof] at h
  split at h
  · cases h
  · rename_i store hstore
    dsimp only at h
    split at h
    · rename_i fault hfault
      rw [proofRefusal, hstore, hfault]
      exact congrArg some (Except.error.inj (Prod.mk.inj h).1)
    · cases h

theorem appendProof_ok {app : NativeApp Graph} {disk disk' : Disk}
    (h : app.appendProof machine disk = (.ok (), disk')) : proofRefusal app machine = none := by
  rw [NativeApp.appendProof] at h
  split at h
  · rename_i hstore
    rw [proofRefusal, hstore]
  · rename_i store hstore
    dsimp only at h
    split at h
    · cases h
    · rename_i hfault
      rw [proofRefusal, hstore, hfault]

theorem appendLesson_fst (app : NativeApp Graph) (record : LearningRecord) (disk : Disk) :
    (app.appendLesson machine record disk).1 =
      match lessonRefusal app machine record with
      | some reason => .error reason
      | none => .ok () := by
  rw [NativeApp.appendLesson, lessonRefusal]
  cases app.learningStore with
  | none => rfl
  | some store =>
    cases record.validate machine.verifiers with
    | error error => rfl
    | ok _ => cases machine.learningFault <;> rfl

theorem validate_routeLen {record : LearningRecord} (h : record.outcome = .failed)
    (v : Verifiers) (routeLen : UInt64) :
    LearningRecord.validate v { record with routeLen } = record.validate v := by
  have hbuild : record.fastBuild = false := by rw [LearningRecord.fastBuild, h]; rfl
  have hstructure : LearningRecord.validateStructure { record with routeLen } =
      record.validateStructure := by
    simp only [LearningRecord.validateStructure, hbuild, h]
    rfl
  simp only [LearningRecord.validate, h, or_true, if_true]
  rw [h] at hstructure
  rw [hstructure]

theorem lessonRefusal_routeLen {app : NativeApp Graph} {record : LearningRecord}
    (h : record.outcome = .failed) (routeLen : UInt64) :
    lessonRefusal app machine { record with routeLen } = lessonRefusal app machine record := by
  simp only [lessonRefusal, validate_routeLen h]

theorem learningRecordFromState_blocked {stamp : RecordStamp} {runtime : RuntimeState}
    {lastIntent lastProviderOutput : String} {attempts : LearningAttempts}
    {prior : List LearningRecord} (h : runtime.status = .blocked) :
    ∃ record, record.outcome = .failed ∧
      learningRecordFromState stamp runtime lastIntent attempts prior lastProviderOutput =
        some record ∧
      ∀ route, learningRecordFromState stamp { runtime with lastRoute := route } lastIntent attempts
        prior lastProviderOutput = some { record with routeLen := .ofNat route.length } := by
  have houtcome : runOutcome runtime.status = some .failed := by rw [h]; rfl
  refine ⟨_, ?_, by rw [learningRecordFromState, houtcome, Option.map_some], fun route => ?_⟩
  · rfl
  · simp only [learningRecordFromState, houtcome, Option.map_some, newLearningRecord, runGate]

theorem pushUnique_eq_self {values : List String} {value : String} :
    pushUnique values value = values ↔ value ∈ values := by
  rw [pushUnique]
  split
  · rename_i hmem
    exact iff_of_true rfl hmem
  · rename_i hmem
    refine iff_of_false ?_ hmem
    intro h
    exact absurd (congrArg List.length h) (by simp)

theorem length_pushUnique (values : List String) (value : String) :
    values.length ≤ (pushUnique values value).length := by
  rw [pushUnique]
  split <;> simp

theorem mem_of_pushUnique_eq {values after : List String} {value : String}
    (h : (pushUnique values value).length ≤ after.length) (heq : after = values) :
    value ∈ values := by
  rw [heq, pushUnique] at h
  split at h
  · assumption
  · rw [List.length_append, List.length_singleton] at h
    omega

def deliveryReason (host : Host Graph) (delivery : AppState.Delivery) : String :=
  match delivery.result, delivery.persisted with
  | .ok _, .ok _ => "provider report verification failed: " ++ "runtime is not provider pending"
  | .ok _, .error error => "provider output evidence persistence failed: " ++ error
  | .error error, _ => host.debugError error

def deliveryText (host : Host Graph) (state : AppState Graph) (delivery : AppState.Delivery) :
    String :=
  match delivery.result, delivery.persisted with
  | .ok _, .ok _ => "Provider blocked: " ++
    state.app.runtime.state.blockers.getLast?.getD "provider report verification failed"
  | _, _ => "Provider blocked: " ++ deliveryReason host delivery

theorem deliver_blocked {delivery : AppState.Delivery} {output : String}
    {runtime : MathAtomsRuntime Graph} (hstatus : state.app.runtime.state.status = .blocked)
    (h : state.deliver host delivery = some (output, runtime)) :
    (∃ route, runtime.state =
        { state.app.runtime.blockedState (redactSensitiveText (deliveryReason host delivery)) with
          lastRoute := route }) ∧
      (redactSensitiveText (deliveryReason host delivery) ∈ state.app.runtime.state.blockers →
        output = deliveryText host state delivery) := by
  cases hresult : delivery.result with
  | error error =>
    rw [deliveryText, deliveryReason, hresult]
    rw [AppState.deliver, hresult] at h
    obtain ⟨marked, hmarked, hmade⟩ := Option.bind_eq_some_iff.mp h
    obtain ⟨hshown, rfl⟩ := Prod.mk.inj (Option.some.inj hmade)
    exact ⟨markProviderBlocked_spec hmarked, fun _ => hshown.symm⟩
  | ok made =>
    cases hpersisted : delivery.persisted with
    | error error =>
      rw [deliveryText, deliveryReason, hresult, hpersisted]
      rw [AppState.deliver, hresult, hpersisted] at h
      obtain ⟨marked, hmarked, hmade⟩ := Option.bind_eq_some_iff.mp h
      obtain ⟨hshown, rfl⟩ := Prod.mk.inj (Option.some.inj hmade)
      exact ⟨markProviderBlocked_spec hmarked, fun _ => hshown.symm⟩
    | ok persisted =>
      rw [deliveryText, deliveryReason, hresult, hpersisted]
      rw [AppState.deliver, hresult, hpersisted] at h
      obtain ⟨⟨accepted, marked⟩, hmarked, hmade⟩ := Option.bind_eq_some_iff.mp h
      have hverdict : ∀ report, state.app.runtime.verifyProviderExecutionReport host
          delivery.evidence report = some (.error "runtime is not provider pending") := by
        intro report
        have hidle : state.app.runtime.state.status ≠ .providerPending := by
          rw [hstatus]
          decide
        have hprepared : state.app.runtime.preparedPlan report.output =
            .error "runtime is not provider pending" := by
          rw [MathAtomsRuntime.preparedPlan, Checked.refuseIf, if_pos hidle]
          rfl
        rw [MathAtomsRuntime.verifyProviderExecutionReport, hprepared]
      rw [MathAtomsRuntime.markProviderExecutionReport, hverdict] at hmarked
      obtain ⟨verdict, hsome, hmarked⟩ := Option.bind_eq_some_iff.mp hmarked
      obtain rfl := Option.some.inj hsome
      obtain ⟨blocked, hblocked, hmarked⟩ := Option.bind_eq_some_iff.mp hmarked
      obtain ⟨rfl, rfl⟩ := Prod.mk.inj (Option.some.inj hmarked)
      obtain ⟨hshown, rfl⟩ := Prod.mk.inj (Option.some.inj hmade)
      obtain ⟨route, hstate⟩ := markProviderBlocked_spec hblocked
      refine ⟨⟨route, hstate⟩, fun hmem => ?_⟩
      rw [← hshown, hstate]
      simp only [MathAtomsRuntime.blockedState, pushUnique, if_pos hmem]

def storeRefusal (app : NativeApp Graph) (machine : Machine) : Option String :=
  (proofRefusal app machine).or
    ((app.currentLearningRecord machine).bind fun record => lessonRefusal app machine record)

theorem appendProofRecord_blocked {outcome : StoreOutcome}
    (hstatus : state.app.runtime.state.status = .blocked)
    (h : state.appendProofRecord host machine true = some (outcome, next)) :
    next.app.runtime.state.status = .blocked ∧
      ((∃ reason, storeRefusal state.app machine = some reason ∧
          next.app.runtime.state.blockers =
            pushUnique state.app.runtime.state.blockers (redactSensitiveText reason) ∧
          SameAccounts state.app next.app) ∨
        (storeRefusal state.app machine = none ∧
          next.app.learningSummary ≠ state.app.learningSummary)) := by
  rcases appendProofRecord_cases h with ⟨reason, disk, hproof, rfl⟩ | ⟨disk, hproof, hrest⟩
  · refine ⟨rfl, .inl ⟨reason, ?_, rfl, rfl, rfl, rfl⟩⟩
    rw [storeRefusal, appendProof_error hproof, Option.some_or]
  · rcases hrest with ⟨hlearn, -⟩ | ⟨-, result, after, hlesson, rfl⟩
    · cases hlearn
    · have hstate : (learned host state disk).app.runtime.state = state.app.runtime.state :=
        learnProofRecord_state _ _ _
      have hcurrent : (learned host state disk).app.currentLearningRecord machine =
          state.app.currentLearningRecord machine := by
        rw [NativeApp.currentLearningRecord, hstate]
        rfl
      obtain ⟨record, -, hrecord, -⟩ := @learningRecordFromState_blocked machine.stamp _
        state.app.lastIntent state.app.lastProviderOutput state.app.learningAttempts
        state.app.learningRecords hstatus
      have hrefusal : storeRefusal state.app machine = lessonRefusal state.app machine record := by
        rw [storeRefusal, appendProof_ok hproof, Option.none_or, NativeApp.currentLearningRecord,
          hrecord, Option.bind_some]
      rcases appendLearningRecord_cases hlesson with ⟨hnone, -, -⟩ | ⟨other, hother, hresult, hbooked⟩
      · rw [hcurrent, NativeApp.currentLearningRecord, hrecord] at hnone
        cases hnone
      · rw [hcurrent, NativeApp.currentLearningRecord, hrecord] at hother
        obtain rfl := Option.some.inj hother
        have hlesson' : lessonRefusal (learned host state disk).app machine record =
            lessonRefusal state.app machine record := rfl
        rw [appendLesson_fst, hlesson', ← hrefusal] at hresult
        cases hbooked with
        | refused happend =>
          have hfst := congrArg Prod.fst happend
          rw [appendLesson_fst, hlesson', ← hrefusal] at hfst
          cases hcase : storeRefusal state.app machine with
          | none =>
            rw [hcase] at hfst
            cases hfst
          | some reason =>
            rw [hcase] at hresult
            subst hresult
            refine ⟨rfl, .inl ⟨reason, rfl, ?_, rfl, rfl, rfl⟩⟩
            simp only [blockOnError, NativeApp.blockStore, markStoreBlocked_state,
              MathAtomsRuntime.blockedState, hstate]
        | kept happend hmade =>
          have hfst := congrArg Prod.fst happend
          rw [appendLesson_fst, hlesson', ← hrefusal] at hfst
          cases hcase : storeRefusal state.app machine with
          | some reason =>
            rw [hcase] at hfst
            cases hfst
          | none =>
            rw [hcase] at hresult
            subst hresult
            obtain ⟨route, hlearned⟩ := learnLearningRecord_state hmade
            refine ⟨?_, .inr ⟨rfl, add_ne _ _⟩⟩
            simp only [blockOnError, NativeApp.keepLesson, hlearned, hstate, hstatus]

theorem appendProofRecord_status {learn : Bool} {outcome : StoreOutcome}
    (h : state.appendProofRecord host machine learn = some (outcome, next)) :
    next.app.runtime.state.status = state.app.runtime.state.status ∨
      next.app.runtime.state.status = .blocked := by
  rcases appendProofRecord_cases h with ⟨reason, disk, -, rfl⟩ | ⟨disk, -, hrest⟩
  · exact .inr rfl
  · have hlearned : (learned host state disk).app.runtime.state = state.app.runtime.state :=
      learnProofRecord_state _ _ _
    rcases hrest with ⟨-, rfl⟩ | ⟨-, result, after, hlesson, rfl⟩
    · left
      rw [hlearned]
    · cases result with
      | error reason => exact .inr rfl
      | ok =>
        left
        rcases appendLearningRecord_cases hlesson with ⟨-, -, rfl⟩ | ⟨record, -, -, hbooked⟩
        · rw [blockOnError, hlearned]
        · cases hbooked with
          | refused _ => rw [blockOnError, hlearned]
          | kept _ hmade =>
            obtain ⟨route, hstate⟩ := learnLearningRecord_state hmade
            simp only [blockOnError, NativeApp.keepLesson, hstate, hlearned]

structure Undisturbed (app app' : NativeApp Graph) : Prop where
  status : app'.runtime.state.status = app.runtime.state.status
  blockers : app'.runtime.state.blockers = app.runtime.state.blockers
  learningRecords : app'.learningRecords = app.learningRecords
  learningSummary : app'.learningSummary = app.learningSummary

/-- The run is already blocked, for the reason of the delivery, and a ledger refuses the records of
the delivery for a reason that blocks the run as well. -/
structure Inert (host : Host Graph) (state : AppState Graph) (delivery : AppState.Delivery)
    (machine : Machine) : Prop where
  blocked : state.app.runtime.state.status = .blocked
  known : redactSensitiveText (deliveryReason host delivery) ∈ state.app.runtime.state.blockers
  refused : ∃ reason, storeRefusal { state.app with
      lastProviderOutput := deliveryText host state delivery } machine = some reason ∧
    redactSensitiveText reason ∈ state.app.runtime.state.blockers

theorem complete_status {delivery : AppState.Delivery}
    (h : state.completeProviderExecutionReport host delivery machine = some next)
    (hstatus : next.app.runtime.state.status = state.app.runtime.state.status) :
    state.app.runtime.state.status = .blocked := by
  obtain ⟨output, runtime, outcome, hdelivered, happend⟩ := completeProviderExecutionReport_cases h
  have hnext : next.app.runtime.state.status = runtime.state.status ∨
      next.app.runtime.state.status = .blocked := appendProofRecord_status happend
  rw [hstatus] at hnext
  rcases hnext with hnext | hblocked
  · rcases deliver_spec hdelivered with ⟨report, route, haccepted, -, hstate⟩ |
      ⟨-, -, reason, route, hstate⟩
    · have hpending : state.app.runtime.state.status = .providerPending := by
        rw [acceptedReport] at haccepted
        split at haccepted
        · dsimp only at haccepted
          split at haccepted
          · rename_i hverified
            exact (verifyReport_spec hverified).1
          · cases haccepted
        · cases haccepted
      rw [hstate, hpending] at hnext
      cases hnext
    · rw [hnext, hstate]
      rfl
  · exact hblocked

theorem storeRefusal_reported {delivery : AppState.Delivery} {output : String}
    {runtime : MathAtomsRuntime Graph} (hstatus : state.app.runtime.state.status = .blocked)
    (hmem : redactSensitiveText (deliveryReason host delivery) ∈ state.app.runtime.state.blockers)
    (hdelivered : state.deliver host delivery = some (output, runtime)) :
    storeRefusal (reported state output runtime).app machine =
      storeRefusal { state.app with lastProviderOutput := deliveryText host state delivery }
        machine := by
  obtain ⟨⟨route, hstate⟩, hshown⟩ := deliver_blocked hstatus hdelivered
  have hroute : runtime.state = { state.app.runtime.state with lastRoute := route } := by
    rw [hstate, MathAtomsRuntime.blockedState, pushUnique_eq_self.mpr hmem, ← hstatus]
  obtain ⟨record, hfailed, hrecord, hrouted⟩ := @learningRecordFromState_blocked machine.stamp _
    state.app.lastIntent (deliveryText host state delivery) state.app.learningAttempts
    state.app.learningRecords hstatus
  have hafter : (reported state output runtime).app.currentLearningRecord machine =
      some { record with routeLen := .ofNat route.length } := by
    rw [← hrouted route, ← hroute, ← hshown hmem]
    rfl
  have hbefore : NativeApp.currentLearningRecord { state.app with
      lastProviderOutput := deliveryText host state delivery } machine = some record := hrecord
  have hrefusal := @lessonRefusal_routeLen _ machine
    { state.app with lastProviderOutput := deliveryText host state delivery } _ hfailed
    (.ofNat route.length)
  rw [storeRefusal, storeRefusal, hafter, hbefore, Option.bind_some, Option.bind_some, ← hrefusal]
  rfl

theorem complete_undisturbed_iff {delivery : AppState.Delivery}
    (h : state.completeProviderExecutionReport host delivery machine = some next) :
    Undisturbed state.app next.app ↔ Inert host state delivery machine := by
  by_cases hstatus : state.app.runtime.state.status = .blocked
  · obtain ⟨output, runtime, outcome, hdelivered, happend⟩ :=
      completeProviderExecutionReport_cases h
    obtain ⟨⟨route, hstate⟩, -⟩ := deliver_blocked hstatus hdelivered
    have hblocked : (reported state output runtime).app.runtime.state.status = .blocked := by
      change runtime.state.status = .blocked
      rw [hstate]
      rfl
    have hblockers : (reported state output runtime).app.runtime.state.blockers =
        pushUnique state.app.runtime.state.blockers
          (redactSensitiveText (deliveryReason host delivery)) := by
      change runtime.state.blockers = _
      rw [hstate]
      rfl
    obtain ⟨hnext, hcases⟩ := appendProofRecord_blocked hblocked happend
    rw [hblockers] at hcases
    constructor
    · rintro ⟨-, hsame, -, hsummary⟩
      rcases hcases with ⟨reason, hreason, hgrown, -⟩ | ⟨-, hkept⟩
      · have hmem := mem_of_pushUnique_eq (hgrown ▸ length_pushUnique _ _) hsame
        rw [pushUnique_eq_self.mpr hmem, hsame] at hgrown
        rw [storeRefusal_reported hstatus hmem hdelivered] at hreason
        exact ⟨hstatus, hmem, reason, hreason, pushUnique_eq_self.mp hgrown.symm⟩
      · exact absurd hsummary hkept
    · rintro ⟨-, hmem, reason, hreason, hother⟩
      rw [storeRefusal_reported hstatus hmem hdelivered, hreason] at hcases
      rcases hcases with ⟨reason', hsame, hgrown, haccounts⟩ | ⟨hnone, -⟩
      · obtain rfl := Option.some.inj hsame
        rw [pushUnique_eq_self.mpr hmem, pushUnique_eq_self.mpr hother] at hgrown
        exact ⟨hnext.trans hstatus.symm, hgrown, haccounts.learningRecords,
          haccounts.learningSummary⟩
      · cases hnone
  · exact iff_of_false (fun hsame => hstatus (complete_status h hsame.status))
      fun hinert => hstatus hinert.blocked

/-- In every run, a report that is delivered, whichever worker it is from, leaves the run it reaches
as it was exactly if it is inert. -/
theorem late_reports_undisturbing_iff {past before after : List (AppVisit Graph)}
    {visit : AppVisit Graph} (h : Run (act host) (Opened host) past state)
    (hpast : past = before ++ visit :: after) {delivery : AppState.Delivery}
    (hcall : visit.input = .completeProviderExecutionReport delivery machine) :
    Undisturbed visit.before.app visit.after.app ↔ Inert host visit.before delivery machine := by
  obtain ⟨-, made⟩ := h.split hpast
  rw [hcall, act, Option.map_eq_some_iff] at made
  obtain ⟨after, hcompleted, hmade⟩ := made
  obtain ⟨-, rfl⟩ := Prod.mk.inj hmade
  exact complete_undisturbed_iff hcompleted

theorem head_basePackets (planId : String) :
    ∃ packet, (Work.basePackets planId).head? = some packet ∧ packet.dependencies = [] :=
  ⟨_, rfl, rfl⟩

theorem prepareCall_sample (recipeId : String) (atoms : List String) :
    ∃ call, sampleProvider.prepareCallWithAtoms "x" recipeId atoms [] = .ok call := by
  obtain ⟨plan, hplan⟩ : ∃ plan, Work.meticulous "x" recipeId atoms
      (sampleProvider.workFingerprint []) = .ok plan :=
    ⟨_, Work.meticulous_eq_ok.mpr ⟨by decide, rfl⟩⟩
  obtain ⟨packet, hpacket, hfree⟩ : ∃ packet, plan.packets.head? = some packet ∧
      packet.dependencies = [] := by
    obtain ⟨-, rfl⟩ := Work.meticulous_eq_ok.mp hplan
    exact head_basePackets _
  obtain ⟨prompt, hprompt⟩ : ∃ prompt, plan.prompt packet [] (CoreProviderConfig.evidenceContext []) =
      .ok prompt := by
    rw [Work.WorkPlan.prompt, hfree]
    exact ⟨_, rfl⟩
  simp only [CoreProviderConfig.prepareCallWithAtoms, Checked.bind_eq_ok, Checked.refuseIf_eq_ok,
    exists_const, hplan]
  refine ⟨_, by decide, by decide, by decide, by decide, .high, rfl, by decide, plan, rfl, packet,
    by rw [hpacket]; rfl, prompt, by rw [hprompt]; rfl, rfl⟩

theorem recipes_linked : ∀ recipe ∈ Doctrine.recipes, recipeBlockers true recipe = [] := by
  decide +kernel

theorem runCoderIntent_pending {runtime : MathAtomsRuntime Unit} (h : Grounded runtime)
    (hprovider : runtime.provider = sampleProvider) : ∃ run next,
      runtime.runCoderIntent sampleHost "x" = some (run, next) ∧ Grounded next ∧
        next.provider = sampleProvider ∧ next.state.status = .providerPending ∧
          next.state.lastProviderCall ≠ none := by
  have hevidence : sampleHost.retrieve runtime.graph "x" (classifyIntent "x") 8 = [] := rfl
  have hroute : (true || providerRouteRequired "x") = true := Bool.true_or _
  obtain ⟨l2, hl2⟩ : ∃ l2, announceIntent runtime.bus "x" (classifyIntent "x") [] = l2 := ⟨_, rfl⟩
  obtain ⟨recipe, run, next, hrecipe, hrun, hmade⟩ :=
    runIntentInMode_returns h sampleHost "x" true hroute hevidence hl2
  obtain ⟨call, hcall⟩ := prepareCall_sample recipe.id recipe.atoms
  have hresult : runtime.providerResult "x" recipe true [] = .ok call := by
    rw [MathAtomsRuntime.providerResult, Bool.or_true, if_pos rfl, hprovider]
    exact hcall
  obtain ⟨hbody, plan, hplan⟩ := prepareCall_spec hcall
  obtain ⟨hsome, hnone⟩ : (announceCall sampleHost.debugError l2.2 l2.1 (nodeIds [])
      (runtime.providerResult "x" recipe true [])).call = some call ∧
      (announceCall sampleHost.debugError l2.2 l2.1 (nodeIds [])
        (runtime.providerResult "x" recipe true [])).blockers = [] := by
    rw [hresult, announceCall, if_neg hbody]
    simp only [hplan, and_self]
  have hlinked : sampleHost.hasRelationshipPath runtime.graph recipe.id
      "mission:production-app-build" 6 = true := rfl
  have hblockers := hmade.blockers
  have hstatus := hmade.status
  rw [hlinked, recipes_linked recipe (selectRecipe_mem hrecipe), List.append_nil, hnone] at hblockers
  rw [hblockers, hsome] at hstatus
  refine ⟨run, next, hrun, hmade.grounded, hmade.provider.trans hprovider, hstatus, ?_⟩
  rw [hmade.call, hsome]
  exact Option.some_ne_none call

structure AtHand (state : AppState Unit) : Prop where
  grounded : Grounded state.app.runtime
  provider : state.app.runtime.provider = sampleProvider
  store : state.app.store = none

theorem runCurrentIntent_pending {state : AppState Unit} (h : AtHand state) : ∃ next,
    act sampleHost state (.runCurrentIntent "x" sampleMachine) = some (.done, next) ∧ AtHand next ∧
      next.app.runtime.state.status = .providerPending ∧
        next.app.runtime.state.lastProviderCall ≠ none ∧
          next.app.providerRunning = state.app.providerRunning := by
  obtain ⟨run, runtime, hrun, hgrounded, hprovider, hstatus, hcall⟩ :=
    runCoderIntent_pending h.grounded h.provider
  obtain ⟨next, hran, hnext⟩ := runCurrentIntent_returns h.grounded sampleHost "x" sampleMachine
  obtain ⟨run', runtime', outcome, hrun', happend⟩ := runCurrentIntent_cases hran
  have hintent : currentIntent "x" = "x" := by decide
  rw [hintent, hrun] at hrun'
  obtain ⟨rfl, rfl⟩ := Prod.mk.inj (Option.some.inj hrun')
  have hact : act sampleHost state (.runCurrentIntent "x" sampleMachine) = some (.done, next) := by
    rw [act, hran]
    rfl
  have hlearned : (learned sampleHost (ran state "x" runtime) state.disk).app.runtime.state =
      runtime.state := learnProofRecord_state _ _ _
  have hmade : next = learned sampleHost (ran state "x" runtime) state.disk := by
    have hkept : (ran state "x" runtime).app.appendProof sampleMachine state.disk =
        (.ok (), state.disk) := by
      rw [NativeApp.appendProof, show (ran state "x" runtime).app.store = none from h.store]
    rcases appendProofRecord_cases happend with ⟨reason, disk, hproof, -⟩ | ⟨disk, hproof, hrest⟩
    · cases hkept.symm.trans hproof
    · obtain ⟨-, rfl⟩ := Prod.mk.inj (hkept.symm.trans hproof)
      rcases hrest with ⟨hlearn, -⟩ | ⟨-, result, after, hlesson, rfl⟩
      · cases hlearn
      · rcases appendLearningRecord_cases hlesson with ⟨-, rfl, rfl⟩ | ⟨record, hrecord, -, -⟩
        · rfl
        · rw [NativeApp.currentLearningRecord, learningRecordFromState, hlearned, hstatus]
            at hrecord
          cases hrecord
  refine ⟨next, hact, ⟨hnext, ?_, ?_⟩, ?_, ?_, ?_⟩
  · rw [hmade, ← hprovider]
    change (MathAtomsRuntime.learnProofRecord _ _ _).provider = _
    rw [MathAtomsRuntime.learnProofRecord]
    split <;> rfl
  · rw [hmade]
    exact h.store
  · rw [hmade, hlearned]
    exact hstatus
  · rw [hmade, hlearned]
    exact hcall
  · rw [hmade]
    rfl

theorem beginProviderExecution_started {state : AppState Unit} (h : AtHand state)
    (hpending : state.app.runtime.state.status = .providerPending)
    (hcall : state.app.runtime.state.lastProviderCall ≠ none)
    (hidle : state.app.providerRunning = false) : ∃ worker next,
      act sampleHost state .beginProviderExecution = some (.provider (some worker), next) ∧
        AtHand next := by
  obtain ⟨call, hsome⟩ := Option.ne_none_iff_exists'.mp hcall
  obtain ⟨task, runtime, hscheduled, -, hgrounded, hprovider⟩ :=
    scheduleCall_returns h.grounded call
  have hstarted : state.app.runtime.scheduleProviderExecution = some (some task, runtime) := by
    rw [MathAtomsRuntime.scheduleProviderExecution, hsome]
    simp only [hpending, ne_eq, not_true_eq_false, if_false, hscheduled, Option.map_some]
  refine ⟨task.call, ⟨{ state.app with
    runtime
    providerRunning := true
    lastProviderOutput := "Provider request running through " ++ task.route.length.repr ++
      " Spiderweb route envelopes." }, state.disk⟩, ?_, hgrounded, hprovider.trans h.provider,
    h.store⟩
  rw [act, AppState.beginProviderExecution, hidle]
  simp only [Bool.false_eq_true, if_false, Option.bind_eq_bind, hstarted, Option.bind_some]
  rfl

def failedDelivery : AppState.Delivery where
  result := .error .emptyPrompt
  persisted := .error ""
  evidence := EvidenceDisk.ofFiles id Catalog.empty

theorem failedDelivery_returns {state : AppState Unit} (h : Grounded state.app.runtime) :
    ∃ answer next, act sampleHost state
      (.completeProviderExecutionReport failedDelivery sampleMachine) = some (answer, next) := by
  obtain ⟨answer, next, hact, -⟩ := act_returns h sampleHost
    (.completeProviderExecutionReport failedDelivery sampleMachine) (by
      intro delivery machine output persisted hcall hok
      cases hcall
      cases hok)
  exact ⟨answer, next, hact⟩

theorem late_reports_undisturbing_iff_failed : ∃ answer next,
    act sampleHost (memoryState sampleProvider)
      (.completeProviderExecutionReport failedDelivery sampleMachine) = some (answer, next) ∧
    (Undisturbed (memoryState sampleProvider).app next.app ↔
      Inert sampleHost (memoryState sampleProvider) failedDelivery sampleMachine) := by
  obtain ⟨answer, next, hact⟩ := failedDelivery_returns
    (show Grounded (memoryState sampleProvider).app.runtime from grounded_withGraph _ _)
  exact ⟨answer, next, hact, late_reports_undisturbing_iff
    (Run.call (.start (opened_memoryState sampleProvider)) hact) rfl rfl⟩

theorem late_failure_blocks_run : ∃ early begun later worker visit state,
    Run (act sampleHost) (Opened sampleHost) (early ++ begun :: later ++ [visit]) state ∧
      begun.output = .provider (some worker) ∧
      (∃ run ∈ later, run.input = .runCurrentIntent "x" sampleMachine) ∧
      visit.input = .completeProviderExecutionReport failedDelivery sampleMachine ∧
      ¬ Undisturbed visit.before.app visit.after.app := by
  obtain ⟨first, hfirst, hready, hpending, hcall, hidle⟩ := @runCurrentIntent_pending
    (memoryState sampleProvider) ⟨grounded_withGraph sampleProvider (), rfl, rfl⟩
  obtain ⟨worker, begun, hbegun, hready⟩ := beginProviderExecution_started hready hpending hcall hidle
  obtain ⟨second, hsecond, hready, hpending, -⟩ := runCurrentIntent_pending hready
  obtain ⟨answer, next, hact⟩ := failedDelivery_returns hready.grounded
  refine ⟨[⟨memoryState sampleProvider, .runCurrentIntent "x" sampleMachine, .done, first⟩],
    ⟨first, .beginProviderExecution, .provider (some worker), begun⟩, [⟨begun, .runCurrentIntent "x" sampleMachine, .done, second⟩], worker,
    ⟨second, .completeProviderExecutionReport failedDelivery sampleMachine, answer, next⟩, next,
    ?_, rfl, ⟨_, List.mem_singleton_self _, rfl⟩, rfl, ?_⟩
  · exact Run.call (Run.call (Run.call (Run.call (.start (opened_memoryState sampleProvider)) hfirst)
      hbegun) hsecond) hact
  · rw [act, Option.map_eq_some_iff] at hact
    obtain ⟨after, hcompleted, hmade⟩ := hact
    obtain ⟨-, rfl⟩ := Prod.mk.inj hmade
    intro hsame
    have hinert := (complete_undisturbed_iff hcompleted).mp hsame
    exact absurd (hpending.symm.trans hinert.blocked) (by decide)

end AtomVibe.Native
