import AtomVibe.WorkExpanded

namespace AtomVibe.Work

open Checked

def contractFiles (packets : List WorkPacket) : List WorkFile :=
  (packets.filter fun packet => packet.stage = .fileContract).filterMap (·.file)

def Contracts {α : Type} (files : List WorkFile) (m : PacketLog α) : Prop :=
  ∀ before a after, m before = some (a, after) →
    contractFiles after = contractFiles before ++ files

section Contracts

variable {α β : Type} {files others : List WorkFile} {m : PacketLog α} {planId : String}

theorem contracts_pure (a : α) : Contracts [] (pure a : PacketLog α) := by
  intro before b after h
  obtain ⟨-, rfl⟩ := Prod.mk.inj (Option.some.inj h)
  rw [List.append_nil]

theorem contracts_fail : Contracts files (fun _ => none : PacketLog α) := by
  intro before a after h
  cases h

theorem Contracts.bind {f : α → PacketLog β} (hm : Contracts files m)
    (hf : ∀ a, Contracts others (f a)) : Contracts (files ++ others) (m >>= f) := by
  intro before b after h
  simp only [Bind.bind, StateT.bind] at h
  obtain ⟨⟨a, middle⟩, hmiddle, hafter⟩ := Option.bind_eq_some_iff.mp h
  rw [hf a middle b after hafter, hm before a middle hmiddle, List.append_assoc]

theorem Contracts.after {f : α → PacketLog β} (hm : Contracts [] m)
    (hf : ∀ a, Contracts files (f a)) : Contracts files (m >>= f) := hm.bind hf

theorem Contracts.before {f : α → PacketLog β} (hm : Contracts files m)
    (hf : ∀ a, Contracts [] (f a)) : Contracts files (m >>= f) := by
  have h := hm.bind hf
  rwa [List.append_nil] at h

theorem contracts_pushPacket {spec : PacketSpec} (h : spec.stage ≠ .fileContract) :
    Contracts [] (pushPacket planId spec) := by
  intro before a after hpush
  obtain ⟨-, rfl⟩ := Prod.mk.inj (Option.some.inj hpush)
  rw [contractFiles, List.filter_append, List.filter_cons_of_neg (by rw [decide_eq_true_eq]; exact h),
    List.filter_nil, List.append_nil, List.append_nil]
  rfl

theorem contracts_pushContract {spec : PacketSpec} {file : WorkFile}
    (hstage : spec.stage = .fileContract) (hfile : spec.file = some file) :
    Contracts [file] (pushPacket planId spec) := by
  intro before a after hpush
  obtain ⟨-, rfl⟩ := Prod.mk.inj (Option.some.inj hpush)
  rw [contractFiles, List.filter_append,
    List.filter_cons_of_pos (by rw [decide_eq_true_eq]; exact hstage), List.filter_nil,
    List.filterMap_append]
  simp [PacketSpec.packet, hfile, contractFiles]

theorem contracts_pushPackets {specs : List PacketSpec}
    (h : ∀ spec ∈ specs, spec.stage ≠ .fileContract) : Contracts [] (pushPackets planId specs) := by
  induction specs with
  | nil => exact contracts_pure []
  | cons spec specs ih =>
    rw [List.forall_mem_cons] at h
    rw [pushPackets, List.mapM_cons]
    exact (contracts_pushPacket h.1).after fun id => (ih h.2).after fun ids => contracts_pure _

theorem contracts_pushGroups {inputs : List String} {spec : ℕ → List String → PacketSpec}
    (h : ∀ group dependencies, (spec group dependencies).stage ≠ .fileContract) :
    Contracts [] (pushGroups planId inputs spec) := by
  apply contracts_pushPackets
  intro made hmade
  obtain ⟨group, -, rfl⟩ := List.mem_map.mp hmade
  exact h _ _

theorem contracts_summarizeToOne {stage : WorkStage} (hstage : stage ≠ .fileContract)
    (objective : String) (acceptance : List String) (fuel level : ℕ) (inputs : List String) :
    Contracts [] (summarizeToOne planId stage objective acceptance fuel level inputs) := by
  induction fuel generalizing level inputs with
  | zero => exact contracts_fail
  | succ fuel ih =>
    rw [summarizeToOne]
    refine (contracts_pushGroups fun _ _ => hstage).after fun grouped => ?_
    split
    · exact contracts_pure _
    · exact ih _ _

theorem contracts_groupIntegration (fuel level : ℕ) (inputs : List String) :
    Contracts [] (groupIntegration planId fuel level inputs) := by
  induction fuel generalizing level inputs with
  | zero =>
    rw [groupIntegration]
    split
    · exact contracts_pure _
    · exact contracts_fail
  | succ fuel ih =>
    rw [groupIntegration]
    split
    · exact contracts_pure _
    · exact (contracts_pushGroups fun _ _ => by simp [groupSpec]).after fun grouped => ih _ _

theorem contracts_pushFiles (base : BaseIds) (prior : Option String) (files : List WorkFile) :
    Contracts files (pushFiles planId base prior files) := by
  induction files generalizing prior with
  | nil => exact contracts_pure []
  | cons file files ih =>
    have hfile : Contracts [file] (pushFile planId base prior file) := by
      refine (contracts_pushContract rfl rfl).before fun contract => ?_
      refine (contracts_pushPacket (by simp [fileArtifactSpec])).after fun implementation => ?_
      refine (contracts_pushPacket (by simp [fileNoteSpec])).after fun review => ?_
      exact (contracts_pushPacket (by simp [fileArtifactSpec])).after fun correction => contracts_pure _
    exact hfile.bind fun flow => (ih _).before fun flows => contracts_pure _

theorem contracts_pushFilePackets (base : BaseIds) (files : List WorkFile) :
    Contracts files (pushFilePackets planId base files) := by
  have hmapped : ∀ {γ : Type} (xs : List γ) (spec : γ → PacketSpec),
      (∀ x, (spec x).stage ≠ .fileContract) → Contracts [] (pushPackets planId (xs.map spec)) := by
    intro γ xs spec hspec
    apply contracts_pushPackets
    intro made hmade
    obtain ⟨x, -, rfl⟩ := List.mem_map.mp hmade
    exact hspec x
  refine (contracts_pushFiles base none files).before fun flows => ?_
  refine Contracts.after ?_ fun integration => ?_
  · refine (contracts_groupIntegration _ _ _).after fun inputs => ?_
    exact contracts_pushPacket (by simp [productSpec])
  refine (hmapped _ _ fun flow => by simp [fileArtifactSpec]).after fun corrections => ?_
  refine Contracts.after ?_ fun closing => ?_
  · refine (contracts_summarizeToOne (by decide) _ _ _ _ _).after fun root => ?_
    refine (contracts_pushPacket (by simp [productSpec])).after fun closure => ?_
    refine (contracts_pushPacket (by simp [productSpec])).after fun verification => ?_
    exact (contracts_pushPacket (by simp [productSpec])).after fun adversarial => contracts_pure _
  refine (hmapped _ _ fun pair => by simp [fileArtifactSpec]).after fun finals => ?_
  refine (contracts_summarizeToOne (by decide) _ _ _ _ _).after fun root => ?_
  refine (contracts_pushPacket (by simp [productSpec])).after fun verification => ?_
  exact contracts_pushPacket (by simp [productSpec])

end Contracts

namespace WorkPlan

def expand (plan : WorkPlan) (files : List WorkFile) : Option (Except WorkError Unit × WorkPlan) :=
  match validateFiles files with
  | .error error => some (.error error, plan)
  | .ok () =>
    if plan.expanded then
      if plan.expandedFiles = files then some (.ok (), plan)
      else some (.error (.invalidPlan
        "manifest expansion changed after packets were created"), plan)
    else
      match plan.packets.getLast? with
      | none => some (.error (.invalidPlan "base packets are missing"), plan)
      | some manifest => do
        let base ← baseIds plan.packets manifest
        let (_, packets) ← pushFilePackets plan.id base files plan.packets
        return ((plan.withPackets packets).validate, plan.withPackets packets)

theorem expandFiles_eq (plan : WorkPlan) (files : List WorkFile) : plan.expandFiles files =
    (plan.expand files).map fun made => made.1.map fun _ => made.2 := by
  rw [expandFiles, expand]
  cases validateFiles files with
  | error error => rfl
  | ok u =>
    simp only
    split_ifs
    · rfl
    · rfl
    · cases plan.packets.getLast? with
      | none => rfl
      | some manifest =>
        simp only [bind, pure]
        cases baseIds plan.packets manifest with
        | none => rfl
        | some base =>
          cases hpush : pushFilePackets plan.id base files plan.packets with
          | none => simp only [Option.bind_some, hpush, Option.bind_none, Option.map_none]
          | some pushed => simp only [Option.bind_some, hpush, Option.map_some]

/-- Ids that tell the packets apart, ordinals that are their places, and dependencies on packets
before. -/
structure Ordered (plan : WorkPlan) : Prop where
  ids : (plan.packets.map (·.id)).Nodup
  ordinals : ∀ (i : ℕ) (packet : WorkPacket), plan.packets[i]? = some packet →
    packet.ordinal.toNat = i
  dependencies : ∀ (i : ℕ) (packet : WorkPacket), plan.packets[i]? = some packet →
    ∀ id ∈ packet.dependencies, ∃ j < i, ∃ earlier, plan.packets[j]? = some earlier ∧
      earlier.id = id

/-- The expansion returns. If it fails the plan is as before; if not the packets are in order, and
from then on the same files change nothing and others are refused. -/
def ExpandsOnce (plan : WorkPlan) (files : List WorkFile) : Prop :=
  ∃ result left, plan.expand files = some (result, left) ∧
    (result ≠ .ok () → left = plan) ∧
      (result = .ok () → left.Ordered ∧ left.expand files = some (.ok (), left) ∧
        ∀ others, others ≠ files → ∃ error, left.expand others = some (.error error, left))

end WorkPlan

open WorkPlan

variable {plan : WorkPlan} {files : List WorkFile} {packets : List WorkPacket}

theorem Expansion.ordered (h : Expansion plan.id files packets) (hfiles : validateFiles files = .ok ()) :
    (plan.withPackets packets).Ordered := by
  have hlt := h.length_lt hfiles
  refine ⟨nodup_ids h.grows.wired, fun i packet hi => ?_, fun i packet hi id hid => ?_⟩
  · obtain ⟨hilt, -⟩ := List.getElem?_eq_some_iff.mp hi
    have hsmall : i < 2 ^ 64 := by
      have hlength : i < packets.length := hilt
      omega
    rw [(h.placed hi).1.ordinal]
    exact UInt64.toNat_ofNat_of_lt' hsmall
  · obtain ⟨earlier, hearlier, rfl⟩ := List.mem_map.mp ((h.placed hi).2 id hid)
    obtain ⟨j, hj⟩ := List.mem_iff_getElem?.mp hearlier
    obtain ⟨hlength, -⟩ := List.getElem?_eq_some_iff.mp hj
    rw [List.length_take] at hlength
    refine ⟨j, by omega, earlier, ?_, rfl⟩
    rw [List.getElem?_take] at hj
    exact (Option.ite_none_right_eq_some.mp hj).2

theorem expandedFiles_of_expanded {id : String} (h : expandedPackets id files = some packets) :
    contractFiles packets = files := by
  simp only [expandedPackets, bind, Option.bind_eq_some_iff, pure, Option.some.injEq] at h
  obtain ⟨manifest, -, base, -, ⟨last, after⟩, hrun, rfl⟩ := h
  have hbase : contractFiles (basePackets id) = [] := by
    have hstage := Grows.stage_ne .fileContract (basePackets_grows id) (by simp) (by decide)
    rw [contractFiles, List.filter_eq_nil_iff.mpr]
    · rfl
    · intro packet hpacket
      rw [decide_eq_true_eq]
      exact hstage packet hpacket
  rw [contracts_pushFilePackets base files _ _ _ hrun, hbase, List.nil_append]

theorem expand_expanded (h : plan.expanded = true) (hplan : plan.expandedFiles = files)
    (hfiles : validateFiles files = .ok ()) : plan.expand files = some (.ok (), plan) ∧
      ∀ others, others ≠ files → ∃ error, plan.expand others = some (.error error, plan) := by
  constructor
  · rw [expand, hfiles]
    simp only
    rw [if_pos h, if_pos hplan]
  · intro others hothers
    rw [expand]
    cases validateFiles others with
    | error error => exact ⟨error, rfl⟩
    | ok u =>
      simp only
      rw [if_pos h, if_neg fun heq => hothers (heq.symm.trans hplan)]
      exact ⟨_, rfl⟩

theorem Fresh.expandsOnce (hplan : Fresh plan) (files : List WorkFile) : plan.ExpandsOnce files := by
  cases hfiles : validateFiles files with
  | error error =>
    refine ⟨.error error, plan, ?_, fun _ => rfl, fun h => ?_⟩
    · rw [expand, hfiles]
    · cases h
  | ok u =>
    obtain ⟨packets, hpackets, hexpansion, -, hvalid⟩ := expandFiles_fresh hplan hfiles
    refine ⟨.ok (), plan.withPackets packets, ?_, fun h => absurd rfl h, fun _ => ?_⟩
    · simp only [expandedPackets, bind, Option.bind_eq_some_iff, pure,
        Option.some.injEq] at hpackets
      obtain ⟨manifest, hmanifest, base, hbase, ⟨last, after⟩, hrun, rfl⟩ := hpackets
      simp only [expand, hfiles, hplan.expanded, hplan.packets, hmanifest, hbase, hrun,
        Bool.false_eq_true, if_false, bind, Option.bind_some, pure]
      rw [hvalid]
    · refine ⟨hexpansion.ordered hfiles, ?_⟩
      exact expand_expanded rfl (expandedFiles_of_expanded hpackets) hfiles

/-- Every base plan, as `meticulous` and `canonical_from_manifest` make it, expands once. -/
theorem base_plans_expand_once (intent recipeId : String) (atomStack : List String)
    (fingerprint intentHash fingerprintHash : String) (files : List WorkFile) :
    ∃ plan, fromIdentity intent recipeId atomStack fingerprint intentHash fingerprintHash =
      .ok plan ∧ plan.ExpandsOnce files :=
  ⟨_, fromIdentity_ok intent recipeId atomStack fingerprint intentHash fingerprintHash,
    (fresh_basePlan intent recipeId atomStack fingerprint intentHash fingerprintHash).expandsOnce
      files⟩

end AtomVibe.Work
