import AtomVibe.Foundations.Dependencies
import AtomVibe.GateSpec

namespace AtomVibe.GateBlueprint

open Checked Text GateModel GateEvaluation TopologicalOrder

variable (blueprint : BlueprintRecord)

def crateNames : List String := blueprint.crates.map (·.name)

def contractIds : List String := blueprint.messageContracts.map (·.id)

def DependsOn (dependency consumer : String) : Prop :=
  ⟨dependency, consumer⟩ ∈ blueprint.dependencyEdges

structure SealedCrate (item : BlueprintCrate) : Prop where
  name : ¬isBlank item.name
  responsibility : ¬isBlank item.responsibility

structure FrozenContract (contract : MessageContract) : Prop where
  id : ¬isBlank contract.id
  messageType : ¬isBlank contract.messageType
  producer : contract.producer ∈ crateNames blueprint
  consumers_ne : contract.consumers ≠ []
  consumers : ∀ consumer ∈ contract.consumers, consumer ∈ crateNames blueprint
  failureSemantics : ¬isBlank contract.failureSemantics

structure Independent (review : IndependentReview) : Prop where
  author : ¬isBlank review.authorIdentityHash
  reviewer : ¬isBlank review.reviewerIdentityHash
  distinct : review.authorIdentityHash ≠ review.reviewerIdentityHash
  passed : review.passed
  resolved : review.findingsResolved
  evidence_ne : review.evidence ≠ []
  findings : ∀ finding ∈ review.findings, ¬isBlank finding

structure Frozen : Prop where
  version : 0 < blueprint.version
  crates_nodup : (crateNames blueprint).Nodup
  crates : ∀ item ∈ blueprint.crates, SealedCrate item
  order : blueprint.topologicalOrder.Perm (crateNames blueprint)
  edges_known : ∀ edge ∈ blueprint.dependencyEdges,
    edge.dependency ∈ crateNames blueprint ∧ edge.consumer ∈ crateNames blueprint
  extension : ∀ dependency consumer, DependsOn blueprint dependency consumer →
    Before blueprint.topologicalOrder dependency consumer
  acyclic : Acyclic (DependsOn blueprint)
  contracts_ne : blueprint.messageContracts ≠ []
  contracts_nodup : (contractIds blueprint).Nodup
  contracts : ∀ contract ∈ blueprint.messageContracts, FrozenContract blueprint contract
  coupling : blueprint.couplingOrder.Perm (contractIds blueprint)
  review : Independent blueprint.independentReview

theorem validateReview_eq_ok {review : IndependentReview} {u : Unit} :
    validateReview review = .ok u ↔ Independent review := by
  rw [validateReview, refuseIf_eq_ok]
  simp only [Bool.or_eq_true, Bool.not_eq_true', beq_iff_eq, List.isEmpty_iff, List.any_eq_true,
    not_or, not_exists, not_and, Bool.not_eq_false]
  constructor
  · rintro ⟨⟨⟨⟨⟨⟨hauthor, hreviewer⟩, hdistinct⟩, hpassed⟩, hresolved⟩, hevidence⟩, hfindings⟩
    exact ⟨hauthor, hreviewer, hdistinct, hpassed, hresolved, hevidence, hfindings⟩
  · intro h
    exact ⟨⟨⟨⟨⟨⟨h.author, h.reviewer⟩, h.distinct⟩, h.passed⟩, h.resolved⟩, h.evidence_ne⟩,
      h.findings⟩

theorem validateEdge_eq_ok {topo : List String} (hnodup : topo.Nodup) {edge : DependencyEdge}
    {u : Unit} : validateEdge topo edge = .ok u ↔ Before topo edge.dependency edge.consumer := by
  have hposition : ∀ name i, position topo name = some i ↔ topo[i]? = some name :=
    fun _ _ => find?_zipIdx_iff hnodup
  simp only [validateEdge, bind_eq_ok, okOr_eq_ok, refuseIf_eq_ok, not_le, hposition]
  rw [before_iff]
  constructor
  · rintro ⟨i, hi, j, hj, hij⟩
    exact ⟨i, j, hij, hi, hj⟩
  · rintro ⟨i, j, hij, hi, hj⟩
    exact ⟨i, hi, j, hj, hij⟩

theorem isIncomplete_eq_false {contract : MessageContract} :
    isIncomplete (crateNames blueprint).toFinset contract = false ↔
      FrozenContract blueprint contract := by
  rw [← Bool.not_eq_true, isIncomplete]
  simp only [Bool.or_eq_true, decide_eq_true_eq, List.isEmpty_iff, List.any_eq_true, not_or,
    not_exists, not_and, not_not, List.mem_toFinset]
  constructor
  · rintro ⟨⟨⟨⟨⟨hid, htype⟩, hproducer⟩, hne⟩, hconsumers⟩, hfailure⟩
    exact ⟨hid, htype, hproducer, hne, hconsumers, hfailure⟩
  · intro h
    exact ⟨⟨⟨⟨⟨h.id, h.messageType⟩, h.producer⟩, h.consumers_ne⟩, h.consumers⟩,
      h.failureSemantics⟩

theorem crates_named_iff :
    (¬blueprint.crates.any fun item => isBlank item.name || isBlank item.responsibility) ↔
      ∀ item ∈ blueprint.crates, SealedCrate item := by
  simp only [List.any_eq_true, Bool.or_eq_true, not_exists, not_and, not_or]
  exact forall₂_congr fun item _ => ⟨fun h => ⟨h.1, h.2⟩, fun h => ⟨h.name, h.responsibility⟩⟩

theorem listing_iff {xs names : List String} (hnames : names.Nodup) :
    ¬(xs.length ≠ names.toFinset.card ∨ xs.toFinset ≠ names.toFinset) ↔ xs.Perm names := by
  rw [not_or, not_not, not_not]
  exact perm_iff_length_toFinset hnames

theorem nodup_iff {β : Type} (f : β → String) (xs : List β) :
    (xs.map f).toFinset.card ≠ xs.length ↔ ¬(xs.map f).Nodup := by
  rw [← nodup_iff_card_toFinset, List.length_map]

theorem frozen_of_ok (h : validateBlueprint blueprint = .ok ()) : Frozen blueprint := by
  simp only [validateBlueprint, bind_eq_ok, refuseIf_eq_ok, checkAll_eq_ok, exists_const] at h
  obtain ⟨hversion, hcrates, horder, hedges, hcontracts, hcomplete, hcoupling, hreview⟩ := h
  rw [nodup_iff, not_or, not_not, crates_named_iff] at hcrates
  rw [nodup_iff, not_or, not_not] at hcomplete
  have hperm := (listing_iff hcrates.1).mp horder
  have htopo : blueprint.topologicalOrder.Nodup := hperm.nodup_iff.mpr hcrates.1
  have hbefore : ∀ edge ∈ blueprint.dependencyEdges,
      Before blueprint.topologicalOrder edge.dependency edge.consumer :=
    fun edge he => (validateEdge_eq_ok htopo).mp (hedges edge he)
  have hextension : ∀ dependency consumer, DependsOn blueprint dependency consumer →
      Before blueprint.topologicalOrder dependency consumer :=
    fun _ _ h => hbefore _ h
  exact {
    version := by
      rw [Bool.or_eq_true, not_or, beq_iff_eq] at hversion
      exact UInt32.pos_iff_ne_zero.mpr hversion.1
    crates_nodup := hcrates.1
    crates := hcrates.2
    order := hperm
    edges_known := fun edge he =>
      ⟨hperm.subset (hbefore edge he).left_mem, hperm.subset (hbefore edge he).right_mem⟩
    extension := hextension
    acyclic := acyclic_of_before htopo hextension
    contracts_ne := by simpa using hcontracts
    contracts_nodup := hcomplete.1
    contracts := by
      intro contract hc
      rw [← isIncomplete_eq_false, Bool.eq_false_iff]
      exact fun h => hcomplete.2 (List.any_eq_true.mpr ⟨contract, hc, h⟩)
    coupling := (listing_iff hcomplete.1).mp hcoupling
    review := validateReview_eq_ok.mp hreview }

theorem ok_of_frozen (h : Frozen blueprint) : validateBlueprint blueprint = .ok () := by
  simp only [validateBlueprint, bind_eq_ok, refuseIf_eq_ok, checkAll_eq_ok, exists_const]
  have htopo : blueprint.topologicalOrder.Nodup := h.order.nodup_iff.mpr h.crates_nodup
  refine ⟨?_, ?_, (listing_iff h.crates_nodup).mpr h.order, ?_, ?_, ?_,
    (listing_iff h.contracts_nodup).mpr h.coupling, validateReview_eq_ok.mpr h.review⟩
  · obtain ⟨contract, hc⟩ := List.exists_mem_of_ne_nil _ h.contracts_ne
    obtain ⟨item, hitem, -⟩ := List.mem_map.mp (h.contracts contract hc).producer
    rw [Bool.or_eq_true, not_or, beq_iff_eq, List.isEmpty_iff]
    exact ⟨UInt32.pos_iff_ne_zero.mp h.version, List.ne_nil_of_mem hitem⟩
  · rw [nodup_iff, not_or, not_not, crates_named_iff]
    exact ⟨h.crates_nodup, h.crates⟩
  · exact fun edge he => (validateEdge_eq_ok htopo).mpr (h.extension _ _ he)
  · simpa using h.contracts_ne
  · rw [nodup_iff, not_or, not_not]
    refine ⟨h.contracts_nodup, fun hany => ?_⟩
    obtain ⟨contract, hc, hbad⟩ := List.any_eq_true.mp hany
    exact Bool.eq_false_iff.mp
      ((isIncomplete_eq_false blueprint).mpr (h.contracts contract hc)) hbad

/-- The gates freeze a blueprint exactly when its crates, edges and contracts fit. -/
theorem validateBlueprint_iff_frozen :
    validateBlueprint blueprint = .ok () ↔ Frozen blueprint :=
  ⟨frozen_of_ok blueprint, ok_of_frozen blueprint⟩

theorem frozen_of_required {input : GateInput} (h : requiredBlueprint input = .ok blueprint) :
    Frozen blueprint := by
  simp only [requiredBlueprint, bind_eq_ok, pure_eq_ok] at h
  obtain ⟨b, -, _, hvalid, rfl⟩ := h
  exact frozen_of_ok b hvalid

end AtomVibe.GateBlueprint

namespace AtomVibe.GateCoverage

open Checked Text BuildProtocol GateModel SourceInspection GateEvaluation GateSpec GateBlueprint

variable {fs : EvidenceFs} {root : String} {checkedAt : UInt64} {input : GateInput}
  {details : List String} {evidence : BuildGateEvidence}

structure RealWorkflow (case : FunctionalCaseEvidence) : Prop where
  passed : case.passed = true
  real : case.smokeOnly = false ∧ case.realWorkflow = true
  bus : case.busRoundTrip = true
  evidence_ne : case.evidence ≠ []

def Exercised (cases : List FunctionalCaseEvidence) (condition : String) : Prop :=
  ∃ case ∈ cases, case.requirement = condition

def idleCases (conditions : List String) : List FunctionalCaseEvidence → ℕ
  | [] => 0
  | case :: rest =>
    (if case.requirement ∈ conditions ∧ case.requirement ∉ rest.map (·.requirement) then 0 else 1) +
      idleCases conditions rest

theorem evaluateCase_eq_ok {case : FunctionalCaseEvidence} {u : Unit} :
    evaluateCase case = .ok u ↔ RealWorkflow case := by
  rw [evaluateCase, refuseIf_eq_ok]
  simp only [Bool.or_eq_true, Bool.not_eq_true', List.isEmpty_iff, not_or, Bool.not_eq_false,
    Bool.not_eq_true]
  constructor
  · rintro ⟨⟨⟨⟨hpassed, hsmoke⟩, hreal⟩, hbus⟩, hevidence⟩
    exact ⟨hpassed, ⟨hsmoke, hreal⟩, hbus, hevidence⟩
  · intro h
    exact ⟨⟨⟨⟨h.passed, h.real.1⟩, h.real.2⟩, h.bus⟩, h.evidence_ne⟩

theorem card_exercised (conditions : List String) (cases : List FunctionalCaseEvidence) :
    (conditions.toFinset ∩ (cases.map (·.requirement)).toFinset).card +
      idleCases conditions cases = cases.length := by
  induction cases with
  | nil => simp [idleCases]
  | cons case rest ih =>
    rw [idleCases, List.map_cons, List.toFinset_cons, List.length_cons]
    by_cases hnamed : case.requirement ∈ conditions
    · rw [Finset.inter_insert_of_mem (List.mem_toFinset.mpr hnamed)]
      by_cases hlater : case.requirement ∈ rest.map (·.requirement)
      · rw [Finset.insert_eq_of_mem (Finset.mem_inter.mpr
          ⟨List.mem_toFinset.mpr hnamed, List.mem_toFinset.mpr hlater⟩), if_neg (by simp [hlater])]
        omega
      · rw [Finset.card_insert_of_notMem
          (fun h => hlater (List.mem_toFinset.mp (Finset.mem_inter.mp h).2)),
          if_pos ⟨hnamed, hlater⟩]
        omega
    · rw [Finset.inter_insert_of_notMem (fun h => hnamed (List.mem_toFinset.mp h)),
        if_neg (by simp [hnamed])]
      omega

theorem exercised_iff_subset {conditions : List String} {cases : List FunctionalCaseEvidence} :
    (∀ condition ∈ conditions, Exercised cases condition) ↔
      conditions.toFinset ⊆ (cases.map (·.requirement)).toFinset := by
  simp only [Finset.subset_iff, List.mem_toFinset, List.mem_map, Exercised]

theorem exercised_iff_count {conditions : List String} {cases : List FunctionalCaseEvidence} :
    (∀ condition ∈ conditions, Exercised cases condition) ↔
      conditions.toFinset.card + idleCases conditions cases ≤ cases.length := by
  have hcount := card_exercised conditions cases
  rw [exercised_iff_subset, ← Finset.inter_eq_left]
  constructor
  · intro h
    rw [h] at hcount
    exact hcount.le
  · intro h
    apply Finset.eq_of_subset_of_card_le Finset.inter_subset_left
    omega

theorem step_of_pass (h : evaluateGate fs checkedAt input = .pass evidence) :
    ∃ root details, evaluateStep fs root input = .ok details := by
  obtain ⟨root, details, -, hstep, -⟩ := evaluateGate_pass.mp h
  exact ⟨root, details, hstep⟩

theorem buildTest_ok (h : evaluateBuildTest fs root input = .ok details) :
    (∃ requirements, input.requirements = some requirements) ∧
      ∀ case ∈ input.functionalCases, RealWorkflow case := by
  simp only [evaluateBuildTest, bind_eq_ok, okOr_eq_ok, checkAll_eq_ok, evaluateCase_eq_ok] at h
  obtain ⟨-, -, -, -, -, -, -, -, requirements, hr, -, -, -, hcases, -⟩ := h
  exact ⟨⟨requirements, hr⟩, hcases⟩

/-- Each condition is exercised exactly when the cases that do so are enough: the gate counts
the others among them. -/
theorem build_test_covers_iff (hstep : input.step = .buildTest)
    (h : evaluateGate fs checkedAt input = .pass evidence) :
    ∃ requirements, input.requirements = some requirements ∧
      ((∀ condition ∈ requirements.definitionOfDone,
          Exercised input.functionalCases condition) ∧
          (∀ case ∈ input.functionalCases, RealWorkflow case) ↔
        requirements.definitionOfDone.toFinset.card +
            idleCases requirements.definitionOfDone input.functionalCases ≤
          input.functionalCases.length) := by
  obtain ⟨root, details, hok⟩ := step_of_pass h
  rw [evaluateStep, hstep] at hok
  obtain ⟨⟨requirements, hr⟩, hcases⟩ := buildTest_ok hok
  refine ⟨requirements, hr, ?_⟩
  rw [exercised_iff_count, and_iff_left hcases]

theorem build_test_covers_iff_sample :
    ∃ requirements, (sampleInput 1 .buildTest).requirements = some requirements ∧
      ((∀ condition ∈ requirements.definitionOfDone,
          Exercised (sampleInput 1 .buildTest).functionalCases condition) ∧
          (∀ case ∈ (sampleInput 1 .buildTest).functionalCases, RealWorkflow case) ↔
        requirements.definitionOfDone.toFinset.card +
            idleCases requirements.definitionOfDone
              (sampleInput 1 .buildTest).functionalCases ≤
          (sampleInput 1 .buildTest).functionalCases.length) :=
  build_test_covers_iff rfl
    (evaluateGate_sampleInput (show (1 : UInt32) ≠ 0 by decide) .buildTest 0).choose_spec

def renamedInput : GateInput :=
  { sampleInput 1 .buildTest with
    functionalCases := [⟨"window opens", true, false, true, true,
      [sampleArtifact "functional-workflow"]⟩] }

theorem renamed_requirement_passes :
    (∃ evidence, evaluateGate sampleFs 0 renamedInput = .pass evidence) ∧
      ¬∀ condition ∈ sampleRequirements.definitionOfDone,
        Exercised renamedInput.functionalCases condition := by
  have hsources : inspectRustSources sampleFs "root" (sourceArtifacts renamedInput) false =
      .ok [] := inspectRustSources_sample ["rust-source", "rust-source"] false
  have hartifacts : ∀ artifact ∈ renamedInput.collectArtifacts, ∃ role,
      isBlank role = false ∧ role.utf8ByteSize ≤ 96 ∧ artifact = sampleArtifact role :=
    collectArtifacts_sample 1 .buildTest
  have hstep : ∃ details, evaluateBuildTest sampleFs "root" renamedInput = .ok details := by
    rw [evaluateBuildTest, requiredBlueprint_sample (show (1 : UInt32) ≠ 0 by decide) rfl, hsources]
    exact ⟨_, rfl⟩
  obtain ⟨details, hstep⟩ := hstep
  refine ⟨⟨_, evaluateGate_sample rfl hartifacts hstep 0⟩, fun h => ?_⟩
  obtain ⟨case, hcase, hname⟩ := h "item survives restart" (by decide)
  rw [List.mem_singleton.mp hcase] at hname
  exact absurd hname (by decide)

structure Couples (contract : MessageContract) (consumer : String) (wiring : WiringEvidence) :
    Prop where
  contractId : wiring.contractId = contract.id
  producer : wiring.producer = contract.producer
  messageType : wiring.messageType = contract.messageType
  consumer : wiring.consumer = consumer

structure Observed (wiring : WiringEvidence) : Prop where
  status : wiring.status = .pass
  emitted : wiring.messageEmitted = true
  handled : wiring.messageHandled = true
  evidence_ne : wiring.evidence ≠ []
  onBus : wiring.directSideChannel = false

structure Deferred (wiring : WiringEvidence) : Prop where
  status : wiring.status = .deferred
  reason : ¬isBlank wiring.deferredReason

def Covered (wirings : List WiringEvidence) (contract : MessageContract) (consumer : String) :
    Prop :=
  ∃ wiring ∈ wirings, Couples contract consumer wiring ∧ (Observed wiring ∨ Deferred wiring)

def debtText (wiring : WiringEvidence) : String :=
  wiring.contractId ++ ":" ++ wiring.deferredReason

def deferredDebts (wirings : List WiringEvidence) : List String :=
  (wirings.filter fun wiring => wiring.status == .deferred).map debtText

def debtOf (wiring : WiringEvidence) : Option String :=
  if wiring.status = .deferred then some (debtText wiring) else none

theorem filterMap_debtOf (wirings : List WiringEvidence) :
    wirings.filterMap debtOf = deferredDebts wirings := by
  induction wirings with
  | nil => rfl
  | cons wiring wirings ih =>
    rw [List.filterMap_cons, ih, deferredDebts, deferredDebts, List.filter_cons, debtOf]
    by_cases h : wiring.status = .deferred <;> simp [h]

theorem wiringDebt_spec {wiring : WiringEvidence} {debt : Option String}
    (hside : wiring.directSideChannel = false) (h : wiringDebt wiring = .ok debt) :
    (Observed wiring ∨ Deferred wiring) ∧ debt = debtOf wiring := by
  unfold wiringDebt at h
  cases hs : wiring.status with
  | pass =>
    simp only [hs] at h
    split_ifs at h with hseen
    simp only [Bool.and_eq_true, Bool.not_eq_true', List.isEmpty_eq_false_iff] at hseen
    refine ⟨.inl ⟨hs, hseen.1.1, hseen.1.2, hseen.2, hside⟩, ?_⟩
    rw [debtOf, hs, if_neg (by decide)]
    exact (Except.ok.inj h).symm
  | fail => simp [hs] at h
  | deferred =>
    simp only [hs] at h
    split_ifs at h with hreason
    refine ⟨.inr ⟨hs, by simpa using hreason⟩, ?_⟩
    rw [debtOf, hs, if_pos rfl]
    exact (Except.ok.inj h).symm

structure Wired (contracts : List MessageContract) (wiring : WiringEvidence) : Prop where
  contract : ∃ contract ∈ contracts, wiring.consumer ∈ contract.consumers ∧
    Couples contract wiring.consumer wiring
  resolved : Observed wiring ∨ Deferred wiring

theorem evaluateWiring_spec {contracts : List MessageContract} {expectedId : String}
    {wiring : WiringEvidence} {debt : Option String}
    (h : evaluateWiring contracts expectedId wiring = .ok debt) :
    wiring.contractId = expectedId ∧ Wired contracts wiring ∧ debt = debtOf wiring := by
  simp only [evaluateWiring, bind_eq_ok, refuseIf_eq_ok, okOr_eq_ok, ne_eq, not_or, not_not,
    Bool.not_eq_true] at h
  obtain ⟨-, hid, contract, hfind, -, ⟨hproducer, htype, hconsumer⟩, -, hside, hdebt⟩ := h
  have hname : contract.id = expectedId := by simpa using List.find?_some hfind
  have hmem : contract ∈ contracts := List.mem_reverse.mp (List.mem_of_find?_eq_some hfind)
  obtain ⟨hresolved, hdebt⟩ := wiringDebt_spec hside hdebt
  exact ⟨hid, ⟨⟨contract, hmem, hconsumer, hid.trans hname.symm, hproducer, htype, rfl⟩,
    hresolved⟩, hdebt⟩

structure Coupled (blueprint : BlueprintRecord) (input : GateInput) : Prop where
  order : input.wirings.map (·.contractId) = blueprint.couplingOrder
  wired : ∀ wiring ∈ input.wirings, Wired blueprint.messageContracts wiring
  debt : input.deferredDebt.Perm (deferredDebts input.wirings)

theorem coupled_of_pairs {contracts : List MessageContract} {order : List String}
    {wirings : List WiringEvidence} {found : List (Option String)}
    (hlength : wirings.length = order.length)
    (h : (order.zip wirings).mapM (fun (expectedId, wiring) =>
      evaluateWiring contracts expectedId wiring) = .ok found) :
    wirings.map (·.contractId) = order ∧ (∀ wiring ∈ wirings, Wired contracts wiring) ∧
      found = wirings.map debtOf := by
  rw [mapM_eq_ok_iff] at h
  induction order generalizing wirings found with
  | nil =>
    obtain rfl := List.length_eq_zero_iff.mp hlength
    obtain rfl := List.forall₂_nil_left_iff.mp h
    simp
  | cons expectedId order ih =>
    cases wirings with
    | nil => cases hlength
    | cons wiring wirings =>
      obtain ⟨debt, found, hdebt, hrest, rfl⟩ := List.forall₂_cons_left_iff.mp h
      obtain ⟨hid, hwired, hd⟩ := evaluateWiring_spec hdebt
      obtain ⟨hids, hall, hf⟩ := ih (Nat.succ.inj hlength) hrest
      exact ⟨by rw [List.map_cons, hid, hids], List.forall_mem_cons.mpr ⟨hwired, hall⟩,
        by rw [List.map_cons, hd, hf]⟩

theorem perm_of_sorted_eq {xs ys : List String} (h : sorted xs = sorted ys) : xs.Perm ys := by
  have hxs : (sorted xs).Perm xs := List.perm_insertionSort _ xs
  have hys : (sorted ys).Perm ys := List.perm_insertionSort _ ys
  exact hxs.symm.trans (h ▸ hys)

theorem coupled_of_ok (h : evaluateCrateCouple fs root input = .ok details) :
    ∃ blueprint, input.blueprint = some blueprint ∧ Frozen blueprint ∧
      Coupled blueprint input := by
  simp only [evaluateCrateCouple, bind_eq_ok, refuseIf_eq_ok, ne_eq, not_not] at h
  obtain ⟨blueprint, hb, -, -, -, -, -, hlength, found, hfound, -, hdebt, -⟩ := h
  obtain ⟨hids, hwired, hf⟩ := coupled_of_pairs hlength hfound
  have hnamed : found.filterMap id = deferredDebts input.wirings := by
    rw [hf, List.filterMap_map, Function.id_comp, filterMap_debtOf]
  rw [hnamed] at hdebt
  exact ⟨blueprint, requiredBlueprint_ok hb, frozen_of_required blueprint hb, hids, hwired,
    perm_of_sorted_eq hdebt.symm⟩

theorem covered_iff {blueprint : BlueprintRecord} (hfrozen : Frozen blueprint)
    (hcoupled : Coupled blueprint input) {contract : MessageContract}
    (hcontract : contract ∈ blueprint.messageContracts) :
    ∃ chosen ∈ contract.consumers, ∀ consumer,
      Covered input.wirings contract consumer ↔ consumer = chosen := by
  have hids : (input.wirings.map (·.contractId)).Nodup :=
    hcoupled.order ▸ hfrozen.coupling.nodup_iff.mpr hfrozen.contracts_nodup
  have hmem : contract.id ∈ input.wirings.map (·.contractId) :=
    hcoupled.order ▸ hfrozen.coupling.mem_iff.mpr (List.mem_map_of_mem hcontract)
  obtain ⟨wiring, hwiring, hid⟩ := List.mem_map.mp hmem
  have hwired := hcoupled.wired wiring hwiring
  obtain ⟨own, hown, hconsumer, hcouples⟩ := hwired.contract
  obtain rfl : own = contract := List.inj_on_of_nodup_map hfrozen.contracts_nodup hown hcontract
    (hcouples.contractId.symm.trans hid)
  refine ⟨wiring.consumer, hconsumer, fun consumer => ⟨?_, ?_⟩⟩
  · rintro ⟨other, hother, hcouples', -⟩
    obtain rfl : other = wiring := List.inj_on_of_nodup_map hids hother hwiring
      (hcouples'.contractId.trans hid.symm)
    exact hcouples'.consumer.symm
  · rintro rfl
    exact ⟨wiring, hwiring, hcouples, hwired.resolved⟩

/-- The gate sees each contract observed, or deferred with a reason, for one of its consumers;
the tracked debt is that of the deferred wirings. -/
theorem couple_covers_one_consumer (hstep : input.step = .crateCouple)
    (h : evaluateGate fs checkedAt input = .pass evidence) :
    ∃ blueprint, input.blueprint = some blueprint ∧
      (∀ contract ∈ blueprint.messageContracts, ∃ chosen ∈ contract.consumers, ∀ consumer,
        Covered input.wirings contract consumer ↔ consumer = chosen) ∧
      input.deferredDebt.Perm (deferredDebts input.wirings) := by
  obtain ⟨root, details, hok⟩ := step_of_pass h
  rw [evaluateStep, hstep] at hok
  obtain ⟨blueprint, hb, hfrozen, hcoupled⟩ := coupled_of_ok hok
  exact ⟨blueprint, hb, fun _ hcontract => covered_iff hfrozen hcoupled hcontract, hcoupled.debt⟩

theorem couple_covers_one_consumer_sample :
    ∃ blueprint, (deferredInput 1).blueprint = some blueprint ∧
      (∀ contract ∈ blueprint.messageContracts, ∃ chosen ∈ contract.consumers, ∀ consumer,
        Covered (deferredInput 1).wirings contract consumer ↔ consumer = chosen) ∧
      (deferredInput 1).deferredDebt.Perm (deferredDebts (deferredInput 1).wirings) :=
  couple_covers_one_consumer rfl
    (evaluateGate_deferredInput (show (1 : UInt32) ≠ 0 by decide) 0).choose_spec

def twoConsumers : MessageContract :=
  ⟨"state-to-app", "InventoryChanged", "state", ["app", "state"], "fail closed"⟩

def twoConsumersInput : GateInput :=
  { sampleInput 1 .crateCouple with
    blueprint := some { sampleBlueprint 1 with messageContracts := [twoConsumers] } }

theorem second_consumer_uncovered :
    (∃ evidence, evaluateGate sampleFs 0 twoConsumersInput = .pass evidence) ∧
      "state" ∈ twoConsumers.consumers ∧
        ¬Covered twoConsumersInput.wirings twoConsumers "state" := by
  have hsources : inspectRustSources sampleFs "root" (sourceArtifacts twoConsumersInput) false =
      .ok [] := inspectRustSources_sample ["rust-source", "rust-source"] false
  have hartifacts : ∀ artifact ∈ twoConsumersInput.collectArtifacts, ∃ role,
      isBlank role = false ∧ role.utf8ByteSize ≤ 96 ∧ artifact = sampleArtifact role :=
    collectArtifacts_sample 1 .crateCouple
  have hblueprint : requiredBlueprint twoConsumersInput =
      .ok { sampleBlueprint 1 with messageContracts := [twoConsumers] } := by decide +kernel
  have hstep : ∃ details, evaluateCrateCouple sampleFs "root" twoConsumersInput = .ok details := by
    rw [evaluateCrateCouple, hblueprint, hsources]
    exact ⟨_, rfl⟩
  obtain ⟨details, hstep⟩ := hstep
  refine ⟨⟨_, evaluateGate_sample rfl hartifacts hstep 0⟩, by decide, ?_⟩
  rintro ⟨wiring, hwiring, hcouples, -⟩
  have hconsumer := hcouples.consumer
  rw [List.mem_singleton.mp hwiring] at hconsumer
  exact absurd hconsumer (by decide)

end AtomVibe.GateCoverage
