import AtomVibe.BusReturns
import AtomVibe.RuntimeSafety

namespace AtomVibe.CoreRuntime

open Checked Text Hash Bus Context Doctrine Provider Work Verification Secrets
open Transition PartialRun SpiderwebBus

variable {Graph : Type} {host : Host Graph} {runtime next : MathAtomsRuntime Graph}

structure Grounded (runtime : MathAtomsRuntime Graph) : Prop where
  bus : Descending runtime.bus
  route : ∀ id ∈ runtime.state.lastRoute, id < runtime.bus.nextId

theorem grounded_withGraph (provider : CoreProviderConfig) (graph : Graph) :
    Grounded (.withGraph provider graph) :=
  ⟨descending_new, nofun⟩

theorem Grounded.last (h : Grounded runtime) {id : EnvelopeId}
    (hid : runtime.state.lastRoute.getLast? = some id) : id < runtime.bus.nextId :=
  h.route id (List.mem_of_getLast? hid)

theorem Grounded.last_or_zero (h : Grounded runtime) :
    runtime.state.lastRoute.getLast?.getD 0 < runtime.bus.nextId := by
  cases hid : runtime.state.lastRoute.getLast? with
  | none => exact h.bus.positive
  | some id => exact h.last hid

section Emissions

variable {bus : SpiderwebBus} {made : EnvelopeId × SpiderwebBus} {kind : BusMessageKind}
  {source target body : String} {ids : List String}

theorem Grounded.l0 (h : Grounded runtime) : Emitted runtime.bus
    (runtime.bus.l0TransportFrom runtime.state.lastRoute.getLast? kind source target body) :=
  h.bus.emitted fun _ hp => h.last hp

theorem Grounded.aside (h : Grounded runtime) : Emitted runtime.bus
    (runtime.bus.l3Orchestrate (runtime.state.lastRoute.getLast?.getD 0) kind source target body
      ids) :=
  h.bus.emitted (olderParent_some rfl h.last_or_zero)

theorem routeIds_returns (h : Descending bus) (id : EnvelopeId) :
    ∃ route, routeIds bus id = some route ∧ ∀ id ∈ route, id < bus.nextId := by
  obtain ⟨route, hroute⟩ := h.returns id
  refine ⟨route.map (·.id), by rw [routeIds, hroute, Option.map_some], fun id hid => ?_⟩
  obtain ⟨env, henv, rfl⟩ := List.mem_map.mp hid
  exact h.route_older hroute env henv

end Emissions

section Announcements

theorem announceBlocked_emitted (h : Grounded runtime) (reason : String) :
    Emitted runtime.bus (runtime.announceBlocked reason) := by
  unfold MathAtomsRuntime.announceBlocked
  apply Emitted.l3
  apply Emitted.l2
  apply Emitted.l1
  exact h.l0

theorem announceSchedule_emitted (h : Grounded runtime) (call : PreparedProviderCall) :
    Emitted runtime.bus (runtime.announceSchedule call) := by
  unfold MathAtomsRuntime.announceSchedule
  apply Emitted.l3
  apply Emitted.l2
  apply Emitted.l1
  exact h.l0

theorem announceLesson_emitted (h : Grounded runtime) (record : Learning.LearningRecord) :
    Emitted runtime.bus (runtime.announceLesson record) := by
  unfold MathAtomsRuntime.announceLesson
  apply Emitted.l3
  apply Emitted.l2
  apply Emitted.l1
  exact h.l0

theorem announcePackets_emitted {bus : SpiderwebBus} {made : EnvelopeId × SpiderwebBus}
    (h : Emitted bus made) (ids : List String) (count index : ℕ) (packetIds : List String) :
    Emitted bus (MathAtomsRuntime.announcePackets ids count index packetIds made.1 made.2) := by
  induction packetIds generalizing made index with
  | nil => exact h
  | cons packetId packetIds ih => exact ih h.l2 (index + 1)

theorem announceReport_emitted (h : Grounded runtime) (report : ProviderReport) :
    Emitted runtime.bus (runtime.announceReport report) := by
  unfold MathAtomsRuntime.announceReport
  apply Emitted.l3
  apply Emitted.l3
  split
  · apply announcePackets_emitted
    apply Emitted.l2
    apply Emitted.l1
    exact h.l0
  · apply Emitted.l3
    apply announcePackets_emitted
    apply Emitted.l2
    apply Emitted.l1
    exact h.l0

end Announcements

theorem settles {bus : SpiderwebBus} {made : EnvelopeId × SpiderwebBus} (hmade : Emitted bus made)
    (graph : Graph) (provider : CoreProviderConfig) (state : RuntimeState) :
    ∃ route, routeIds made.2 made.1 = some route ∧
      Grounded ⟨made.2, graph, provider, { state with lastRoute := route }⟩ := by
  obtain ⟨route, hroute, hold⟩ := routeIds_returns hmade.descending made.1
  exact ⟨route, hroute, hmade.descending, hold⟩

theorem markProviderBlocked_returns (h : Grounded runtime) (reason : String) :
    ∃ next, runtime.markProviderBlocked reason = some next ∧ Grounded next := by
  obtain ⟨route, hroute, hnext⟩ := settles (announceBlocked_emitted h (redactSensitiveText reason))
    runtime.graph runtime.provider (runtime.blockedState (redactSensitiveText reason))
  refine ⟨_, ?_, hnext⟩
  simp only [MathAtomsRuntime.markProviderBlocked, Option.bind_eq_bind, hroute, Option.bind_some]
  rfl

theorem scheduleCall_returns (h : Grounded runtime) (call : PreparedProviderCall) :
    ∃ task next, runtime.scheduleCall call = some (task, next) ∧ task.call = call ∧
      Grounded next ∧ next.provider = runtime.provider := by
  obtain ⟨route, hroute, hnext⟩ := settles (announceSchedule_emitted h call) runtime.graph
    runtime.provider runtime.state
  refine ⟨⟨call, route⟩, _, ?_, rfl, hnext, rfl⟩
  simp only [MathAtomsRuntime.scheduleCall, Option.bind_eq_bind, hroute, Option.bind_some]
  rfl

theorem scheduleProviderExecution_returns (h : Grounded runtime) :
    ∃ task next, runtime.scheduleProviderExecution = some (task, next) ∧ Grounded next := by
  rw [MathAtomsRuntime.scheduleProviderExecution]
  split
  · obtain ⟨next, hmarked, hnext⟩ := markProviderBlocked_returns h
      ("No prepared provider call. Run an intent that " ++ "requests provider/model work first.")
    exact ⟨none, next, by rw [hmarked]; rfl, hnext⟩
  · split
    · obtain ⟨next, hmarked, hnext⟩ := markProviderBlocked_returns h
        "Provider execution requires a provider pending Spiderweb route"
      exact ⟨none, next, by rw [hmarked]; rfl, hnext⟩
    · rename_i call _ _
      obtain ⟨task, next, hscheduled, -, hnext, -⟩ := scheduleCall_returns h call
      exact ⟨some task, next, by rw [hscheduled]; rfl, hnext⟩

def lowerLayers : List BusLayer := [.l2Flow, .l1Message, .l0Transport]

theorem announceIntent_routed {bus : SpiderwebBus} (h : Descending bus) (intent : String)
    (atoms : List String) (evidence : List Evidence) :
    Routed bus (announceIntent bus intent atoms evidence) lowerLayers := by
  unfold announceIntent
  apply Routed.l2
  apply Routed.l1
  exact routed_root h

theorem flow_routed {bus : SpiderwebBus} {made : EnvelopeId × SpiderwebBus}
    (h : Routed bus made lowerLayers) (kind : BusMessageKind) (source target body : String)
    (ids : List String) :
    Routed bus (made.2.l2Flow made.1 kind source target body ids) lowerLayers :=
  (Routed.l2 h).mono fun _ hlayer => List.mem_cons_of_mem _ hlayer

theorem announceCall_routed {bus : SpiderwebBus} {made : EnvelopeId × SpiderwebBus}
    (h : Routed bus made lowerLayers) (debug : ProviderError → String) (ids : List String)
    (result : Except ProviderError PreparedProviderCall) :
    Routed bus ((announceCall debug made.2 made.1 ids result).recipeParent,
      (announceCall debug made.2 made.1 ids result).bus) lowerLayers := by
  cases result with
  | error error =>
    cases error with
    | missingApiKey env =>
      have hblocked := flow_routed h .providerBlocked "provider-adapter" "operator"
        "provider credential missing; route failed closed" ids
      exact hblocked
    | _ => exact h
  | ok call =>
    have hprepared := flow_routed h .providerPrepared "provider-adapter" "model"
      "provider request prepared from graph evidence" ids
    simp only [announceCall]
    generalize made.2.l2Flow made.1 .providerPrepared "provider-adapter" "model"
      "provider request prepared from graph evidence" ids = prepared at hprepared
    split
    · exact h
    · cases call.workPlan with
      | none => exact hprepared
      | some plan =>
        have hplanned := flow_routed hprepared .workPlanCreated "work-planner" "provider-worker"
          (plan.packets.length.repr ++
            " base packets prepared; file packets expand from the strict manifest") ids
        exact hplanned

theorem selectRecipe_returns (intent : String) (atoms : List String) (evidence : List Evidence)
    (ready route : Bool) : ∃ recipe, selectRecipe intent atoms evidence ready route = some recipe := by
  rw [selectRecipe]
  cases hsorted : recipes.insertionSort (RanksBefore (recipeScore intent atoms evidence ready route))
    with
  | nil =>
    have hlength := congrArg List.length hsorted
    rw [List.length_insertionSort] at hlength
    exact absurd hlength (by decide)
  | cons recipe rest => exact ⟨recipe, rfl⟩

structure RunFrom (outcome : CallOutcome) (recipe : Recipe) (linked : Bool)
    (runtime next : MathAtomsRuntime Graph) : Prop where
  grounded : Grounded next
  graph : next.graph = runtime.graph
  provider : next.provider = runtime.provider
  call : next.state.lastProviderCall = outcome.call
  blockers : next.state.blockers = outcome.blockers ++ recipeBlockers linked recipe
  status : next.state.status = runStatus next.state.blockers outcome.call

theorem runIntentInMode_returns (h : Grounded runtime) (host : Host Graph) (intent : String)
    (coderMode : Bool) {route : Bool} {evidence : List Evidence} {l2 : EnvelopeId × SpiderwebBus}
    (hroute : (coderMode || providerRouteRequired intent) = route)
    (hevidence : host.retrieve runtime.graph intent (classifyIntent intent) 8 = evidence)
    (hl2 : announceIntent runtime.bus intent (classifyIntent intent) evidence = l2) :
    ∃ recipe run next,
      selectRecipe intent (classifyIntent intent) evidence runtime.provider.isReady route =
        some recipe ∧
      runtime.runIntentInMode host intent coderMode = some (run, next) ∧
      RunFrom (announceCall host.debugError l2.2 l2.1 (nodeIds evidence)
        (runtime.providerResult intent recipe route evidence)) recipe
        (host.hasRelationshipPath runtime.graph recipe.id "mission:production-app-build" 6)
        runtime next := by
  obtain ⟨recipe, hrecipe⟩ := selectRecipe_returns intent (classifyIntent intent) evidence
    runtime.provider.isReady route
  have hcall := announceCall_routed (announceIntent_routed h.bus intent (classifyIntent intent)
    evidence) host.debugError (nodeIds evidence)
    (runtime.providerResult intent recipe route evidence)
  rw [hl2] at hcall
  generalize houtcome : announceCall host.debugError l2.2 l2.1 (nodeIds evidence)
    (runtime.providerResult intent recipe route evidence) = outcome at hcall
  have hl3 := @Routed.l3 _ _ _ .recipeSelected "recipe-selector" "proof-loop" recipe.id
    (nodeIds evidence) hcall
  have hall := hl3.spans.all (by decide)
  generalize hmade : outcome.bus.l3Orchestrate outcome.recipeParent .recipeSelected
    "recipe-selector" "proof-loop" recipe.id (nodeIds evidence) = l3 at hl3 hall
  generalize hblockers : outcome.blockers ++ recipeBlockers (host.hasRelationshipPath runtime.graph
    recipe.id "mission:production-app-build" 6) recipe = blockers
  have hproof := @Routed.l3 _ _ _ (proofKind blockers outcome.call) "proof-loop" "artifact-state"
    (proofBody recipe evidence blockers outcome.call) (nodeIds evidence) hl3
  generalize hlast : l3.2.l3Orchestrate l3.1 (proofKind blockers outcome.call) "proof-loop"
    "artifact-state" (proofBody recipe evidence blockers outcome.call) (nodeIds evidence) = proof
    at hproof
  obtain ⟨ids, hids, hold⟩ := routeIds_returns hproof.descending proof.1
  refine ⟨recipe, ?_⟩
  rw [houtcome]
  simp only [MathAtomsRuntime.runIntentInMode, Option.bind_eq_bind, hroute, hevidence, hl2, hrecipe,
    Option.bind_some, houtcome, hmade, hall, routeBlockers, if_true, List.append_nil, hblockers,
    hlast, hids]
  exact ⟨_, _, trivial, rfl, ⟨hproof.descending, hold⟩, rfl, rfl, rfl, hblockers.symm, rfl⟩

theorem grounded_aside (h : Grounded runtime) {kind : BusMessageKind} {source target body : String}
    {ids : List String} (graph : Graph) (state : RuntimeState)
    (hroute : state.lastRoute = runtime.state.lastRoute) :
    Grounded ⟨(runtime.bus.l3Orchestrate (runtime.state.lastRoute.getLast?.getD 0) kind source
      target body ids).2, graph, runtime.provider, state⟩ := by
  have hmade : Emitted runtime.bus (runtime.bus.l3Orchestrate
      (runtime.state.lastRoute.getLast?.getD 0) kind source target body ids) := h.aside
  refine ⟨hmade.descending, fun id hid => ?_⟩
  rw [hroute] at hid
  exact lt_of_lt_of_le (h.route id hid) hmade.grows

theorem markStoreBlocked_grounded (h : Grounded runtime) (reason : String) :
    Grounded (runtime.markStoreBlocked reason) :=
  grounded_aside h _ _ rfl

theorem markDrift_grounded (h : Grounded runtime) (reason : String) :
    Grounded (runtime.markDrift reason) :=
  grounded_aside h _ _ rfl

theorem learnProofRecord_grounded (h : Grounded runtime) (host : Host Graph)
    (record : Proof.ProofRecord) : Grounded (runtime.learnProofRecord host record) := by
  rw [MathAtomsRuntime.learnProofRecord]
  split
  · exact grounded_aside h _ _ rfl
  · exact grounded_aside h _ _ rfl

theorem learnLearningRecord_returns (h : Grounded runtime) (host : Host Graph)
    (record : Learning.LearningRecord) :
    ∃ next, runtime.learnLearningRecord host record = some next ∧ Grounded next := by
  obtain ⟨route, hroute, hnext⟩ := settles (announceLesson_emitted h record)
    (host.addLearningRecord runtime.graph record) runtime.provider runtime.state
  refine ⟨_, ?_, hnext⟩
  simp only [MathAtomsRuntime.learnLearningRecord, Option.bind_eq_bind, hroute, Option.bind_some]
  rfl

theorem markProviderExecutionReport_returns (h : Grounded runtime) {disk : EvidenceDisk.Disk}
    {report : ProviderReport} {checked : Except String Unit}
    (hchecked : runtime.verifyProviderExecutionReport host disk report = some checked) :
    ∃ accepted next, runtime.markProviderExecutionReport host disk report = some (accepted, next) ∧
      Grounded next := by
  cases checked with
  | error reason =>
    obtain ⟨next, hmarked, hnext⟩ := markProviderBlocked_returns h
      ("provider report verification failed: " ++ reason)
    refine ⟨false, next, ?_, hnext⟩
    simp only [MathAtomsRuntime.markProviderExecutionReport, Option.bind_eq_bind, hchecked,
      Option.bind_some, hmarked]
    rfl
  | ok =>
    obtain ⟨route, hroute, hnext⟩ := settles (announceReport_emitted h report) runtime.graph
      runtime.provider (runtime.reportedState report)
    refine ⟨true, _, ?_, hnext⟩
    simp only [MathAtomsRuntime.markProviderExecutionReport, Option.bind_eq_bind, hchecked,
      Option.bind_some, hroute]
    rfl

theorem perform_returns (host : Host Graph) (h : Grounded runtime) (call : RuntimeCall)
    (hchecked : ∀ disk report, call = .markProviderExecutionReport disk report →
      runtime.verifyProviderExecutionReport host disk report ≠ none) :
    ∃ answer next, perform host runtime call = some (answer, next) ∧ Grounded next := by
  cases call with
  | runIntent intent =>
    obtain ⟨_, run, next, -, hrun, hmade⟩ :=
      runIntentInMode_returns h host intent false rfl rfl rfl
    exact ⟨.ran run, next, by rw [perform, MathAtomsRuntime.runIntent, hrun]; rfl, hmade.grounded⟩
  | runCoderIntent intent =>
    obtain ⟨_, run, next, -, hrun, hmade⟩ := runIntentInMode_returns h host intent true rfl rfl rfl
    exact ⟨.ran run, next, by rw [perform, MathAtomsRuntime.runCoderIntent, hrun]; rfl,
      hmade.grounded⟩
  | scheduleProviderExecution =>
    obtain ⟨task, next, hscheduled, hnext⟩ := scheduleProviderExecution_returns h
    exact ⟨.scheduled task, next, by rw [perform, hscheduled]; rfl, hnext⟩
  | markProviderExecutionReport disk report =>
    obtain ⟨checked, hchecked⟩ := Option.ne_none_iff_exists'.mp (hchecked disk report rfl)
    obtain ⟨accepted, next, hmarked, hnext⟩ := markProviderExecutionReport_returns h hchecked
    exact ⟨.reported accepted, next, by rw [perform, hmarked]; rfl, hnext⟩
  | markProviderBlocked reason =>
    obtain ⟨next, hmarked, hnext⟩ := markProviderBlocked_returns h reason
    exact ⟨.done, next, by rw [perform, hmarked]; rfl, hnext⟩
  | markStoreBlocked reason => exact ⟨.done, _, rfl, markStoreBlocked_grounded h reason⟩
  | markDrift reason => exact ⟨.done, _, rfl, markDrift_grounded h reason⟩
  | setProvider provider =>
    exact ⟨.done, _, rfl, h.bus, fun _ hroute => absurd hroute List.not_mem_nil⟩

theorem checked_of_perform {call : RuntimeCall} {answer : RuntimeAnswer}
    (h : perform host runtime call = some (answer, next)) (disk : EvidenceDisk.Disk)
    (report : ProviderReport) (hcall : call = .markProviderExecutionReport disk report) :
    runtime.verifyProviderExecutionReport host disk report ≠ none := by
  subst hcall
  intro hnone
  rw [perform, MathAtomsRuntime.markProviderExecutionReport, hnone] at h
  exact absurd h (by simp)

theorem run_grounded {past : List (Event Graph)} (h : Run (perform host) Fresh past runtime) :
    Grounded runtime := by
  refine h.induction (fun _ runtime => Grounded runtime) ?_ fun past event hbefore hmade => ?_
  · rintro _ ⟨provider, graph, rfl⟩
    exact grounded_withGraph provider graph
  · obtain ⟨answer, next, hreturns, hnext⟩ :=
      perform_returns host hbefore event.input (checked_of_perform hmade)
    rw [hmade] at hreturns
    obtain ⟨-, rfl⟩ := Prod.mk.inj (Option.some.inj hreturns)
    exact hnext

end AtomVibe.CoreRuntime
