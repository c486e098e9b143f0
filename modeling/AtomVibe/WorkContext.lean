import AtomVibe.WorkPaths
import AtomVibe.WorkPrompt

namespace AtomVibe.Work

open Checked Text

def truncationMark : String := "\n[context truncated]"

def IsCut (output text : String) : Prop :=
  text = output ∨ ∃ kept : List Char, kept <+: output.toList ∧
    text = String.ofList kept ++ truncationMark

section Truncated

variable {bytes : ℕ} {cs : List Char}

theorem truncated_isPrefix (bytes : ℕ) (cs : List Char) : truncated bytes cs <+: cs := by
  induction cs generalizing bytes with
  | nil => exact List.prefix_rfl
  | cons c cs ih =>
    rw [truncated]
    split
    · exact (List.prefix_cons_inj c).mpr (ih _)
    · exact List.nil_prefix

theorem utf8Len_truncated_le (bytes : ℕ) (cs : List Char) : utf8Len (truncated bytes cs) ≤ bytes := by
  induction cs generalizing bytes with
  | nil => exact Nat.zero_le _
  | cons c cs ih =>
    rw [truncated]
    split
    · rename_i hfits
      have hrest := ih (bytes - c.utf8Size)
      simp only [utf8Len, List.map_cons, List.sum_cons] at hrest ⊢
      omega
    · exact Nat.zero_le _

theorem lt_utf8Len_truncated (h : bytes < utf8Len cs) : bytes < utf8Len (truncated bytes cs) + 4 := by
  induction cs generalizing bytes with
  | nil => exact absurd h (Nat.not_lt_zero _)
  | cons c cs ih =>
    have hsize := c.utf8Size_le_four
    simp only [utf8Len, List.map_cons, List.sum_cons] at h
    rw [truncated]
    split
    · have hrest := @ih (bytes - c.utf8Size) (by simp only [utf8Len]; omega)
      simp only [utf8Len, List.map_cons, List.sum_cons] at hrest ⊢
      omega
    · simp only [utf8Len, List.map_nil, List.sum_nil]
      omega

variable {value : String} {maxBytes : ℕ}

theorem isCut_truncateUtf8 (value : String) (maxBytes : ℕ) :
    IsCut value (truncateUtf8 value maxBytes) := by
  rw [truncateUtf8]
  split
  · exact .inl rfl
  · exact .inr ⟨_, truncated_isPrefix _ _, rfl⟩

theorem size_truncateUtf8_le (value : String) (maxBytes : ℕ) :
    (truncateUtf8 value maxBytes).utf8ByteSize ≤ maxBytes + 20 := by
  have hmark : truncationMark.utf8ByteSize = 20 := by decide
  rw [truncateUtf8]
  split
  · omega
  · have hkept := utf8Len_truncated_le maxBytes value.toList
    change (_ ++ truncationMark).utf8ByteSize ≤ _
    rw [String.utf8ByteSize_append, utf8ByteSize_eq (String.ofList _), String.toList_ofList]
    omega

theorem lt_size_truncateUtf8 (h : maxBytes < value.utf8ByteSize) :
    maxBytes < (truncateUtf8 value maxBytes).utf8ByteSize := by
  have hmark : truncationMark.utf8ByteSize = 20 := by decide
  have hkept := lt_utf8Len_truncated (by rwa [← utf8ByteSize_eq] : maxBytes < utf8Len value.toList)
  rw [truncateUtf8, if_neg (by omega)]
  change _ < (_ ++ truncationMark).utf8ByteSize
  rw [String.utf8ByteSize_append, utf8ByteSize_eq (String.ofList _), String.toList_ofList]
  omega

end Truncated

section Dependencies

variable {completed : List CompletedPacket} {used : ℕ} {dependencies : List String}
  {outputs : List (String × String)}

def Complete (completed : List CompletedPacket) (dependencies : List String) : Prop :=
  ∀ id ∈ dependencies, (completedOutput completed id).isSome = true

def Few (used : ℕ) (dependencies : List String) : Prop :=
  used + dependencies.length * (maxContextPerDependency + 20) <
    maxContextBytes + (maxContextPerDependency + 20)

theorem promptDependencies_cons {id output : String} (h : completedOutput completed id = some output)
    (hroom : used < maxContextBytes) : promptDependencies completed used (id :: dependencies) =
      (promptDependencies completed (used + (truncateUtf8 output (min (maxContextBytes - used)
        maxContextPerDependency)).utf8ByteSize) dependencies).map fun rest =>
          (id, truncateUtf8 output (min (maxContextBytes - used) maxContextPerDependency)) ::
            rest := by
  have hremaining : maxContextBytes - used ≠ 0 := by omega
  rw [promptDependencies, h, okOr_some, ok_bind]
  simp only [if_neg hremaining]
  cases promptDependencies completed _ dependencies with
  | error error => rfl
  | ok rest => rfl

theorem Few.room {id : String} (h : Few used (id :: dependencies)) : used < maxContextBytes := by
  simp only [Few, List.length_cons] at h
  generalize maxContextBytes = most at h ⊢
  generalize maxContextPerDependency = each at h
  rw [Nat.add_mul] at h
  omega

theorem Few.next {id : String} (h : Few used (id :: dependencies)) (output : String) :
    Few (used + (truncateUtf8 output (min (maxContextBytes - used)
      maxContextPerDependency)).utf8ByteSize) dependencies := by
  have hsize := size_truncateUtf8_le output (min (maxContextBytes - used) maxContextPerDependency)
  have hmin := Nat.min_le_right (maxContextBytes - used) maxContextPerDependency
  simp only [Few, List.length_cons] at h ⊢
  generalize maxContextBytes = most at h hsize hmin ⊢
  generalize maxContextPerDependency = each at h hsize hmin ⊢
  rw [Nat.add_mul] at h
  omega

theorem complete_of_prompt (hfew : Few used dependencies)
    (h : promptDependencies completed used dependencies = .ok outputs) :
    Complete completed dependencies := by
  induction dependencies generalizing used outputs with
  | nil => simp [Complete]
  | cons id dependencies ih =>
    cases hid : completedOutput completed id with
    | none =>
      rw [promptDependencies, hid] at h
      cases h
    | some output =>
      rw [promptDependencies_cons hid hfew.room] at h
      cases hrest : promptDependencies completed _ dependencies with
      | error error =>
        rw [hrest] at h
        cases h
      | ok rest =>
        rw [Complete, List.forall_mem_cons, hid]
        exact ⟨rfl, ih (hfew.next output) hrest⟩

theorem exists_prompt (hfew : Few used dependencies) (h : Complete completed dependencies) :
    ∃ outputs, promptDependencies completed used dependencies = .ok outputs ∧
      outputs.map Prod.fst = dependencies ∧ ∀ entry ∈ outputs, ∃ output,
        completedOutput completed entry.1 = some output ∧ IsCut output entry.2 := by
  induction dependencies generalizing used with
  | nil => exact ⟨[], rfl, rfl, by simp⟩
  | cons id dependencies ih =>
    rw [Complete, List.forall_mem_cons] at h
    obtain ⟨output, houtput⟩ := Option.isSome_iff_exists.mp h.1
    obtain ⟨rest, hrest, hnames, hcuts⟩ := ih (hfew.next output) h.2
    refine ⟨(id, truncateUtf8 output (min (maxContextBytes - used) maxContextPerDependency)) ::
      rest, ?_, ?_, ?_⟩
    · rw [promptDependencies_cons houtput hfew.room, hrest]
      rfl
    · rw [List.map_cons, hnames]
    · rw [List.forall_mem_cons]
      exact ⟨⟨output, houtput, isCut_truncateUtf8 _ _⟩, hcuts⟩

def outputsOf (completed : List CompletedPacket) (dependencies : List String) : List String :=
  dependencies.filterMap (completedOutput completed)

def totalBytes (texts : List String) : ℕ := (texts.map String.utf8ByteSize).sum

structure Bounded (used : ℕ) (texts : List String) : Prop where
  each : ∀ text ∈ texts, text.utf8ByteSize ≤ maxContextPerDependency
  total : used + totalBytes texts ≤ maxContextBytes

theorem Bounded.tail {text : String} {texts : List String} (h : Bounded used (text :: texts)) :
    Bounded (used + text.utf8ByteSize) texts where
  each := (List.forall_mem_cons.mp h.each).2
  total := by
    have htotal := h.total
    simp only [totalBytes, List.map_cons, List.sum_cons] at htotal ⊢
    omega

theorem Bounded.cons {text : String} {texts : List String}
    (hsize : text.utf8ByteSize ≤ maxContextPerDependency)
    (h : Bounded (used + text.utf8ByteSize) texts) : Bounded used (text :: texts) where
  each := List.forall_mem_cons.mpr ⟨hsize, h.each⟩
  total := by
    have htotal := h.total
    simp only [totalBytes, List.map_cons, List.sum_cons] at htotal ⊢
    omega

theorem bounded_iff (hfew : Few used dependencies)
    (h : promptDependencies completed used dependencies = .ok outputs) :
    Bounded used (outputs.map Prod.snd) ↔ Bounded used (outputsOf completed dependencies) := by
  induction dependencies generalizing used outputs with
  | nil =>
    obtain rfl : [] = outputs := Except.ok.inj h
    rfl
  | cons id dependencies ih =>
    have hcomplete := complete_of_prompt hfew h
    rw [Complete, List.forall_mem_cons] at hcomplete
    obtain ⟨output, houtput⟩ := Option.isSome_iff_exists.mp hcomplete.1
    have hnext := hfew.next output
    rw [promptDependencies_cons houtput hfew.room] at h
    rw [outputsOf, List.filterMap_cons_some houtput]
    by_cases hfits : output.utf8ByteSize ≤ min (maxContextBytes - used) maxContextPerDependency
    · have huncut : truncateUtf8 output (min (maxContextBytes - used) maxContextPerDependency) =
          output := if_pos hfits
      rw [huncut] at h hnext
      cases hrest : promptDependencies completed (used + output.utf8ByteSize) dependencies with
      | error error =>
        rw [hrest] at h
        cases h
      | ok rest =>
        rw [hrest] at h
        obtain rfl : (id, output) :: rest = outputs := Except.ok.inj h
        have hiff := ih hnext hrest
        have hsize : output.utf8ByteSize ≤ maxContextPerDependency :=
          hfits.trans (Nat.min_le_right _ _)
        constructor
        · exact fun hbounded => .cons hsize (hiff.mp hbounded.tail)
        · exact fun hbounded => .cons hsize (hiff.mpr hbounded.tail)
    · have hcut := lt_size_truncateUtf8 (Nat.lt_of_not_le hfits)
      have hroom := hfew.room
      have hover : ∀ {text : String} {texts : List String},
          min (maxContextBytes - used) maxContextPerDependency < text.utf8ByteSize →
            ¬Bounded used (text :: texts) := by
        intro text texts hlt hbounded
        have heach := hbounded.each text List.mem_cons_self
        have htotal := hbounded.tail.total
        rcases Nat.le_total (maxContextBytes - used) maxContextPerDependency with hle | hle
        · rw [Nat.min_eq_left hle] at hlt
          omega
        · rw [Nat.min_eq_right hle] at hlt
          omega
      refine iff_of_false ?_ (hover (Nat.lt_of_not_le hfits))
      cases hrest : promptDependencies completed _ dependencies with
      | error error =>
        rw [hrest] at h
        cases h
      | ok rest =>
        rw [hrest] at h
        obtain rfl := Except.ok.inj h
        exact hover hcut

end Dependencies

section Prompt

variable {plan : WorkPlan} {packet : WorkPacket} {completed : List CompletedPacket}
  {evidence : String}

theorem prompt_eq_ok {prompt : WorkPrompt} : plan.prompt packet completed evidence = .ok prompt ↔
    ∃ outputs, promptDependencies completed 0 packet.dependencies = .ok outputs ∧
      prompt = ⟨plan.instructions packet, plan.promptData packet evidence outputs⟩ := by
  simp only [WorkPlan.prompt, bind_eq_ok, pure_eq_ok, @eq_comm _ _ prompt]

/-- What a prompt is meant to hold of the packets before: it is made just where they are completed,
and every one of them is in its data, as it is or cut, within the bounds. -/
structure EmbedsOutputs (plan : WorkPlan) (packet : WorkPacket) (completed : List CompletedPacket)
    (evidence : String) : Prop where
  ok_iff : (∃ prompt, plan.prompt packet completed evidence = .ok prompt) ↔
    Complete completed packet.dependencies
  embedded : ∀ prompt, plan.prompt packet completed evidence = .ok prompt →
    ∃ outputs, promptDependencies completed 0 packet.dependencies = .ok outputs ∧
      prompt.data = plan.promptData packet evidence outputs ∧
      outputs.map Prod.fst = packet.dependencies ∧
      (∀ entry ∈ outputs, ∃ output, completedOutput completed entry.1 = some output ∧
        IsCut output entry.2) ∧
      Bounded 0 (outputs.map Prod.snd)

def OutputsFit (completed : List CompletedPacket) (packet : WorkPacket) : Prop :=
  ¬Complete completed packet.dependencies ∨ Bounded 0 (outputsOf completed packet.dependencies)

theorem embedsOutputs_iff (hfew : Few 0 packet.dependencies) :
    EmbedsOutputs plan packet completed evidence ↔ OutputsFit completed packet := by
  constructor
  · intro h
    by_cases hcomplete : Complete completed packet.dependencies
    · obtain ⟨prompt, hprompt⟩ := h.ok_iff.mpr hcomplete
      obtain ⟨outputs, houtputs, -, -, -, hbounded⟩ := h.embedded prompt hprompt
      exact .inr ((bounded_iff hfew houtputs).mp hbounded)
    · exact .inl hcomplete
  · intro h
    refine ⟨⟨?_, fun hcomplete => ?_⟩, fun prompt hprompt => ?_⟩
    · rintro ⟨prompt, hprompt⟩
      obtain ⟨outputs, houtputs, -⟩ := prompt_eq_ok.mp hprompt
      exact complete_of_prompt hfew houtputs
    · obtain ⟨outputs, houtputs, -⟩ := exists_prompt hfew hcomplete
      exact ⟨_, prompt_eq_ok.mpr ⟨outputs, houtputs, rfl⟩⟩
    · obtain ⟨outputs, houtputs, rfl⟩ := prompt_eq_ok.mp hprompt
      have hcomplete := complete_of_prompt hfew houtputs
      obtain ⟨others, hothers, hnames, hcuts⟩ := exists_prompt hfew hcomplete
      obtain rfl : others = outputs := Except.ok.inj (hothers.symm.trans houtputs)
      refine ⟨others, houtputs, rfl, hnames, hcuts, (bounded_iff hfew houtputs).mpr ?_⟩
      exact h.resolve_left fun hnot => hnot hcomplete

end Prompt

section Expanded

variable {intent recipeId fingerprint intentHash fingerprintHash : String} {atomStack : List String}
  {base plan : WorkPlan} {files : List WorkFile} {packet : WorkPacket}
  {completed : List CompletedPacket} {evidence : String}

theorem validateFiles_of_expanded (hplan : base.expandFiles files = some (.ok plan)) :
    validateFiles files = .ok () := by
  rw [WorkPlan.expandFiles] at hplan
  cases hfiles : validateFiles files with
  | error error =>
    rw [hfiles] at hplan
    cases hplan
  | ok u => rfl

theorem few_of_expanded (hbase : fromIdentity intent recipeId atomStack fingerprint intentHash
      fingerprintHash = .ok base) (hplan : base.expandFiles files = some (.ok plan))
    (hpacket : packet ∈ plan.packets) : Few 0 packet.dependencies := by
  obtain rfl := Except.ok.inj ((fromIdentity_ok _ _ _ _ _ _).symm.trans hbase)
  obtain ⟨packets, -, hexpansion, hexpand, -⟩ :=
    expandFiles_fresh (fresh_basePlan _ _ _ _ _ _) (validateFiles_of_expanded hplan)
  obtain rfl := Except.ok.inj (Option.some.inj (hexpand.symm.trans hplan))
  obtain ⟨i, hi⟩ := List.mem_iff_getElem?.mp hpacket
  have hcount := (hexpansion.placed hi).1.few
  simp only [Few, maxContextBytes, maxContextPerDependency]
  omega

/-- A prompt of an expanded plan embeds the outputs its packet depends on within the bounds just
where these are within them: a cut keeps up to the bound, and the mark behind it comes on top. -/
theorem expanded_embeds_iff (hbase : fromIdentity intent recipeId atomStack fingerprint intentHash
      fingerprintHash = .ok base) (hplan : base.expandFiles files = some (.ok plan))
    (hpacket : packet ∈ plan.packets) :
    EmbedsOutputs plan packet completed evidence ↔ OutputsFit completed packet :=
  embedsOutputs_iff (few_of_expanded hbase hplan hpacket)

theorem basePackets_isPrefix (hfiles : validateFiles files = .ok ()) {id : String}
    {packets : List WorkPacket} (h : expandedPackets id files = some packets) :
    basePackets id <+: packets := by
  obtain ⟨hne, -, -⟩ := validateFiles_length hfiles
  obtain ⟨manifest, base, hmanifest, hbase, hknown⟩ := baseIds_basePackets id
  have hgrows := basePackets_grows id
  have hstage : ∀ packet ∈ basePackets id, packet.stage ≠ .finalCorrection :=
    Grows.stage_ne _ hgrows (by simp) (by decide)
  obtain ⟨last, after, hrun, hafter, -⟩ := pushFilePackets_grows hne
    (fun file hfile => (acceptedPath hfiles hfile).nonempty) hgrows.wired hknown hstage
  simp only [expandedPackets, hmanifest, hbase, hrun, Option.bind_some, bind, pure] at h
  obtain rfl := Option.some.inj h
  obtain ⟨entries, rfl, -⟩ := hafter.added
  exact List.prefix_append _ _

theorem second_packet {base : WorkPlan} (hbase : Fresh base) (hfiles : validateFiles files = .ok ()) :
    ∃ plan first packet, base.expandFiles files = some (.ok plan) ∧ first ∈ plan.packets ∧
      packet ∈ plan.packets ∧ packet.dependencies = [first.id] := by
  obtain ⟨packets, hpackets, -, hexpand, -⟩ := expandFiles_fresh hbase hfiles
  have hsub := (basePackets_isPrefix hfiles hpackets).subset
  exact ⟨_, _, _, hexpand, hsub List.mem_cons_self,
    hsub (List.mem_cons_of_mem _ List.mem_cons_self), rfl⟩

end Expanded

def longOutput : String := String.ofList (List.replicate (maxContextPerDependency + 1) 'a')

theorem size_longOutput : longOutput.utf8ByteSize = maxContextPerDependency + 1 := by
  rw [longOutput, utf8ByteSize_eq, String.toList_ofList, utf8Len, List.map_replicate,
    List.sum_replicate]
  exact Nat.mul_one _

theorem long_output_embedded : ∃ base plan first packet,
    fromIdentity "make a tool" "tool" [] "fingerprint" "intent" "print" = .ok base ∧
      base.expandFiles [sourceFile "src/main.rs"] = some (.ok plan) ∧ first ∈ plan.packets ∧
      packet ∈ plan.packets ∧ ¬EmbedsOutputs plan packet [⟨first.id, longOutput⟩] "evidence" := by
  obtain ⟨plan, first, packet, hplan, hfirst, hpacket, hdependencies⟩ := second_packet
    (fresh_basePlan "make a tool" "tool" [] "fingerprint" "intent" "print")
    (show validateFiles [sourceFile "src/main.rs"] = .ok () by decide +kernel)
  have hbase := fromIdentity_ok "make a tool" "tool" [] "fingerprint" "intent" "print"
  refine ⟨_, plan, first, packet, hbase, hplan, hfirst, hpacket, fun h => ?_⟩
  have hfound : completedOutput [⟨first.id, longOutput⟩] first.id = some longOutput := by
    simp [completedOutput]
  rw [embedsOutputs_iff (few_of_expanded hbase hplan hpacket), OutputsFit, hdependencies, outputsOf,
    List.filterMap_cons_some hfound] at h
  rcases h with hmissing | hbounded
  · apply hmissing
    intro id hid
    rw [List.mem_singleton.mp hid, hfound]
    rfl
  · have hsize := hbounded.each longOutput List.mem_cons_self
    rw [size_longOutput] at hsize
    exact absurd hsize (Nat.not_succ_le_self _)

theorem expanded_embeds_one : ∃ base plan packet,
    fromIdentity "make a tool" "tool" [] "fingerprint" "intent" "print" = .ok base ∧
      base.expandFiles [sourceFile "src/main.rs"] = some (.ok plan) ∧ packet ∈ plan.packets ∧
      (EmbedsOutputs plan packet [] "evidence" ↔ OutputsFit [] packet) := by
  obtain ⟨plan, first, packet, hplan, -, hpacket, -⟩ := second_packet
    (fresh_basePlan "make a tool" "tool" [] "fingerprint" "intent" "print")
    (show validateFiles [sourceFile "src/main.rs"] = .ok () by decide +kernel)
  have hbase := fromIdentity_ok "make a tool" "tool" [] "fingerprint" "intent" "print"
  exact ⟨_, plan, packet, hbase, hplan, hpacket, expanded_embeds_iff hbase hplan hpacket⟩

end AtomVibe.Work
