import AtomVibe.Foundations.Dependencies
import AtomVibe.WorkSchedule

namespace AtomVibe.Work

open DependencyLog

structure Placed (planId : String) (place : ℕ) (packet : WorkPacket) : Prop where
  ordinal : packet.ordinal = .ofNat place
  id : packet.id = packetId planId place packet.stage packet.file
  bound : 0 < packet.maxOutputBytes ∧ packet.maxOutputBytes ≤ maxPacketOutputBytes
  few : packet.dependencies.length ≤ 3
  named : ∀ file ∈ packet.file, file.path ≠ ""

abbrev PlanWired (planId : String) : List WorkPacket → Prop :=
  Wired WorkPacket.id WorkPacket.dependencies (Placed planId)

abbrev PlanGrows (planId : String) : List WorkPacket → List Shape → List WorkPacket → Prop :=
  Grows WorkPacket.id WorkPacket.dependencies (Placed planId) WorkPacket.shape

abbrev PacketFeeds : List WorkPacket → String → String → Prop :=
  Feeds WorkPacket.id WorkPacket.dependencies

abbrev Consumed : List WorkPacket → String → String → Prop :=
  Reaches WorkPacket.id WorkPacket.dependencies

namespace PacketSpec

def shape (spec : PacketSpec) : Shape :=
  (spec.stage, spec.contract, (spec.file.map (·.path)).getD "")

structure Fits (spec : PacketSpec) (packets : List WorkPacket) : Prop where
  known : ∀ x ∈ spec.dependencies, x ∈ packets.map (·.id)
  few : spec.dependencies.length ≤ 3
  bound : 0 < spec.maxOutputBytes ∧ spec.maxOutputBytes ≤ maxPacketOutputBytes
  named : ∀ file ∈ spec.file, file.path ≠ ""

end PacketSpec

variable {planId : String} {packets before middle after : List WorkPacket} {shapes : List Shape}

theorem PacketSpec.Fits.grow {spec : PacketSpec} (h : spec.Fits before)
    (hgrows : PlanGrows planId before shapes after) : spec.Fits after :=
  ⟨fun x hx => hgrows.names (h.known x hx), h.few, h.bound, h.named⟩

theorem log_bind {α β : Type} {m : PacketLog α} {a : α} (f : α → PacketLog β)
    (h : m before = some (a, after)) : (m >>= f) before = f a after := by
  simp only [bind, StateT.bind, h, Option.bind_some]

theorem log_pure {α : Type} (a : α) : (pure a : PacketLog α) packets = some (a, packets) := rfl

structure Pushed (spec : PacketSpec) (id : String) (after : List WorkPacket) : Prop where
  made : ∃ packet ∈ after, packet.id = id ∧ packet.shape = spec.shape
  feeds : ∀ x ∈ spec.dependencies, PacketFeeds after x id

theorem Pushed.named {spec : PacketSpec} {id : String} (h : Pushed spec id after) :
    id ∈ after.map (·.id) := by
  obtain ⟨packet, hmem, hid, -⟩ := h.made
  exact List.mem_map.mpr ⟨packet, hmem, hid⟩

theorem pushPacket_grows (spec : PacketSpec) (h : PlanWired planId packets)
    (hfits : spec.Fits packets) : ∃ id after, pushPacket planId spec packets = some (id, after) ∧
      PlanGrows planId packets [spec.shape] after ∧ Pushed spec id after ∧
      ∀ packet ∈ after, packet ∈ packets ∨ packet.id = id := by
  have hmem : spec.packet planId packets.length ∈ packets ++ [spec.packet planId packets.length] :=
    by simp
  have hplaced : Placed planId packets.length (spec.packet planId packets.length) :=
    ⟨rfl, rfl, hfits.bound, hfits.few, hfits.named⟩
  have hgrows : PlanGrows planId packets [(spec.packet planId packets.length).shape] _ :=
    Grows.push h hplaced hfits.known
  refine ⟨_, _, rfl, hgrows, ⟨⟨_, hmem, rfl, rfl⟩, fun x hx => ⟨_, hmem, rfl, hx⟩⟩, ?_⟩
  intro packet hpacket
  rcases List.mem_append.mp hpacket with hold | hnew
  · exact .inl hold
  · exact .inr (by rw [List.mem_singleton.mp hnew])

theorem Pushed.grow {spec : PacketSpec} {id : String} (h : Pushed spec id middle)
    (hgrows : PlanGrows planId middle shapes after) : Pushed spec id after := by
  obtain ⟨packet, hmem, hpacket⟩ := h.made
  exact ⟨⟨packet, hgrows.sub packet hmem, hpacket⟩, fun x hx => (h.feeds x hx).mono hgrows.sub⟩

theorem pushPackets_grows (specs : List PacketSpec) (h : PlanWired planId before)
    (hfits : ∀ spec ∈ specs, spec.Fits before) :
    ∃ ids after, pushPackets planId specs before = some (ids, after) ∧
      PlanGrows planId before (specs.map PacketSpec.shape) after ∧
      List.Forall₂ (fun spec id => Pushed spec id after) specs ids ∧
      ∀ packet ∈ after, packet ∈ before ∨ packet.id ∈ ids := by
  induction specs generalizing before with
  | nil => exact ⟨[], before, rfl, .refl h, .nil, fun packet hpacket => .inl hpacket⟩
  | cons spec specs ih =>
    obtain ⟨hspec, hspecs⟩ := List.forall_mem_cons.mp hfits
    obtain ⟨id, middle, hrun, hgrows, hpushed, hnew⟩ := pushPacket_grows spec h hspec
    obtain ⟨ids, after, hruns, hgrows', hpushed', hnew'⟩ :=
      ih hgrows.wired fun spec hmem => (hspecs spec hmem).grow hgrows
    refine ⟨id :: ids, after, ?_, hgrows.trans hgrows', .cons (hpushed.grow hgrows') hpushed', ?_⟩
    · simp only [pushPackets, List.mapM_cons] at hruns ⊢
      rw [log_bind _ hrun, log_bind _ hruns, log_pure]
    · intro packet hpacket
      rcases hnew' packet hpacket with hmiddle | hid
      · exact (hnew packet hmiddle).imp_right fun hid => by rw [hid]; exact List.mem_cons_self
      · exact .inr (List.mem_cons_of_mem id hid)

theorem exists_of_forall₂ {α β : Type} {r : α → β → Prop} {xs : List α} {ys : List β}
    (h : List.Forall₂ r xs ys) : ∀ x ∈ xs, ∃ y ∈ ys, r x y := by
  induction h with
  | nil => simp
  | @cons x y xs ys hxy _ ih =>
    rw [List.forall_mem_cons]
    refine ⟨⟨y, List.mem_cons_self, hxy⟩, fun x' hx' => ?_⟩
    obtain ⟨y', hy', hr⟩ := ih x' hx'
    exact ⟨y', List.mem_cons_of_mem y hy', hr⟩

section Chunks

variable {α : Type}

theorem length_chunksOfThree (xs : List α) : (chunksOfThree xs).length = thirds xs.length := by
  fun_induction chunksOfThree xs with
  | case1 a b c rest ih =>
    simp only [List.length_cons, ih, thirds]
    omega
  | case2 => simp [thirds]
  | case3 rest hthree hnil =>
    rcases rest with _ | ⟨a, _ | ⟨b, _ | ⟨c, rest⟩⟩⟩
    · exact absurd rfl hnil
    · simp [thirds]
    · simp [thirds]
    · exact absurd rfl (hthree a b c rest)

theorem mem_chunksOfThree {xs chunk : List α} (h : chunk ∈ chunksOfThree xs) :
    chunk.length ≤ 3 ∧ ∀ x ∈ chunk, x ∈ xs := by
  fun_induction chunksOfThree xs with
  | case1 a b c rest ih =>
    rcases List.mem_cons.mp h with rfl | h
    · exact ⟨le_rfl, by simp +contextual⟩
    · obtain ⟨hlength, hsub⟩ := ih h
      exact ⟨hlength, fun x hx => by simp [hsub x hx]⟩
  | case2 => simp at h
  | case3 rest hthree hnil =>
    obtain rfl := List.mem_singleton.mp h
    refine ⟨?_, fun x hx => hx⟩
    rcases chunk with _ | ⟨a, _ | ⟨b, _ | ⟨c, rest⟩⟩⟩
    · simp
    · simp
    · simp
    · exact absurd rfl (hthree a b c rest)

theorem exists_chunk {xs : List α} {x : α} (h : x ∈ xs) : ∃ chunk ∈ chunksOfThree xs, x ∈ chunk := by
  fun_induction chunksOfThree xs with
  | case1 a b c rest ih =>
    by_cases hrest : x ∈ rest
    · obtain ⟨chunk, hchunk, hx⟩ := ih hrest
      exact ⟨chunk, List.mem_cons_of_mem _ hchunk, hx⟩
    · exact ⟨[a, b, c], List.mem_cons_self, by simpa [hrest] using h⟩
  | case2 => simp at h
  | case3 rest => exact ⟨rest, List.mem_singleton_self _, h⟩

end Chunks

theorem pushGroups_grows {inputs : List String} (spec : ℕ → List String → PacketSpec)
    (shape : Shape) (hshape : ∀ group dependencies, (spec group dependencies).shape = shape)
    (hspec : ∀ group dependencies, (spec group dependencies).dependencies = dependencies ∧
      (spec group dependencies).maxOutputBytes = 8 * 1024 ∧ (spec group dependencies).file = none)
    (h : PlanWired planId before) (hinputs : ∀ x ∈ inputs, x ∈ before.map (·.id)) :
    ∃ grouped after, pushGroups planId inputs spec before = some (grouped, after) ∧
      PlanGrows planId before (List.replicate (thirds inputs.length) shape) after ∧
      grouped.length = thirds inputs.length ∧ (∀ x ∈ grouped, x ∈ after.map (·.id)) ∧
      ∀ x ∈ inputs, ∃ id ∈ grouped, PacketFeeds after x id := by
  have hfits : ∀ s ∈ (chunksOfThree inputs).zipIdx.map (fun group => spec (group.2 + 1) group.1),
      s.Fits before := by
    intro s hs
    obtain ⟨⟨chunk, group⟩, hgroup, rfl⟩ := List.mem_map.mp hs
    obtain ⟨hlength, hsub⟩ := mem_chunksOfThree (List.fst_mem_of_mem_zipIdx hgroup)
    obtain ⟨hdependencies, hmax, hfile⟩ := hspec (group + 1) chunk
    refine ⟨?_, by rwa [hdependencies], by rw [hmax]; decide, by simp [hfile]⟩
    rw [hdependencies]
    exact fun x hx => hinputs x (hsub x hx)
  obtain ⟨grouped, after, hrun, hgrows, hpushed, -⟩ := pushPackets_grows _ h hfits
  have hlength : grouped.length = thirds inputs.length := by
    rw [← hpushed.length_eq, List.length_map, List.length_zipIdx, length_chunksOfThree]
  have hshapes : ((chunksOfThree inputs).zipIdx.map fun group =>
      spec (group.2 + 1) group.1).map PacketSpec.shape =
        List.replicate (thirds inputs.length) shape := by
    rw [List.eq_replicate_iff]
    refine ⟨by simp [length_chunksOfThree], fun s hs => ?_⟩
    rw [List.map_map] at hs
    obtain ⟨group, -, rfl⟩ := List.mem_map.mp hs
    exact hshape _ _
  rw [hshapes] at hgrows
  refine ⟨grouped, after, hrun, hgrows, hlength, ?_, ?_⟩
  · intro x hx
    obtain ⟨s, -, hs⟩ := exists_of_forall₂ hpushed.flip x hx
    exact hs.named
  · intro x hx
    obtain ⟨chunk, hchunk, hmem⟩ := exists_chunk hx
    obtain ⟨i, hi, hget⟩ := List.mem_iff_getElem.mp hchunk
    have hgroup : (chunk, i) ∈ (chunksOfThree inputs).zipIdx :=
      List.mem_zipIdx_iff_getElem?.mpr (by rw [List.getElem?_eq_getElem hi, hget])
    obtain ⟨id, hid, hs⟩ := exists_of_forall₂ hpushed _ (List.mem_map_of_mem hgroup)
    exact ⟨id, hid, hs.feeds x (by rwa [(hspec _ _).1])⟩

theorem summarizeToOne_grows (stage : WorkStage) (objective : String) (acceptance : List String)
    {fuel : ℕ} (level : ℕ) {inputs : List String} (hne : inputs ≠ [])
    (hfuel : inputs.length ≤ fuel) (h : PlanWired planId before)
    (hinputs : ∀ x ∈ inputs, x ∈ before.map (·.id)) :
    ∃ root after, summarizeToOne planId stage objective acceptance fuel level inputs before =
        some (root, after) ∧
      PlanGrows planId before
        (List.replicate (reductionPackets inputs.length) (stage, .envelope, "")) after ∧
      root ∈ after.map (·.id) ∧ ∀ x ∈ inputs, Consumed after x root := by
  induction fuel generalizing level inputs before with
  | zero => exact absurd (List.length_eq_zero_iff.mp (Nat.le_zero.mp hfuel)) hne
  | succ fuel ih =>
    obtain ⟨grouped, middle, hrun, hgrows, hlength, hnamed, hfeeds⟩ := pushGroups_grows
      (fun group dependencies => groupSpec stage
        (objective ++ " Level " ++ level.repr ++ ", group " ++ group.repr ++ ".") acceptance
        dependencies)
      (stage, .envelope, "") (fun _ _ => rfl) (fun _ _ => ⟨rfl, rfl, rfl⟩) h hinputs
    have hpos := List.length_pos_iff.mpr hne
    rw [summarizeToOne, log_bind _ hrun, reductionPackets]
    by_cases hlast : inputs.length ≤ 3
    · have hone : thirds inputs.length = 1 := by
        simp only [thirds]
        omega
      obtain ⟨root, rfl⟩ := List.length_eq_one_iff.mp (hlength.trans hone)
      rw [hone] at hgrows
      rw [if_neg (by omega)]
      refine ⟨root, middle, rfl, hgrows, hnamed root (List.mem_singleton_self root), ?_⟩
      intro x hx
      obtain ⟨id, hid, hx⟩ := hfeeds x hx
      obtain rfl := List.mem_singleton.mp hid
      exact .single hx
    · have hlevel : 2 ≤ grouped.length ∧ grouped.length ≤ fuel := by
        simp only [hlength, thirds]
        omega
      obtain ⟨root, after, hrun', hgrows', hroot, hconsumed⟩ := ih (level + 1)
        (show grouped ≠ [] by rintro rfl; simp at hlevel) hlevel.2 hgrows.wired hnamed
      rw [if_pos (by omega), ← List.replicate_append_replicate]
      rw [hlength] at hgrows'
      refine ⟨root, after, ?_, hgrows.trans hgrows', hroot, ?_⟩
      · split
        · simp at hlevel
        · exact hrun'
      · intro x hx
        obtain ⟨id, hid, hx⟩ := hfeeds x hx
        exact (Relation.TransGen.single (hx.mono hgrows'.sub)).trans (hconsumed id hid)

theorem groupIntegration_grows {fuel : ℕ} (level : ℕ) {inputs : List String}
    (hfuel : inputs.length ≤ fuel) (h : PlanWired planId before)
    (hinputs : ∀ x ∈ inputs, x ∈ before.map (·.id)) :
    ∃ last after, groupIntegration planId fuel level inputs before = some (last, after) ∧
      PlanGrows planId before (List.replicate (integrationGroupCount inputs.length)
        (.integrationGroup, .envelope, "")) after ∧
      last.length ≤ 3 ∧ ∀ x ∈ last, x ∈ after.map (·.id) := by
  induction fuel generalizing level inputs before with
  | zero =>
    have hzero : inputs.length = 0 := Nat.le_zero.mp hfuel
    rw [groupIntegration, if_pos (by omega), hzero, integrationGroupCount_eq, if_neg (by decide)]
    exact ⟨inputs, before, rfl, .refl h, by omega, hinputs⟩
  | succ fuel ih =>
    rw [groupIntegration, integrationGroupCount_eq]
    by_cases hsmall : inputs.length ≤ 3
    · rw [if_pos hsmall, if_neg (by omega)]
      exact ⟨inputs, before, rfl, .refl h, hsmall, hinputs⟩
    · obtain ⟨grouped, middle, hrun, hgrows, hlength, hnamed, -⟩ := pushGroups_grows
        (fun group dependencies => groupSpec .integrationGroup
          ("Integrate level " ++ level.repr ++ " group " ++ group.repr ++
            " and summarize only cross-file contracts, defects, and evidence.")
          ["Every input file or group is accounted for.",
            "Cross-file API mismatches are explicit."] dependencies)
        (.integrationGroup, .envelope, "") (fun _ _ => rfl) (fun _ _ => ⟨rfl, rfl, rfl⟩) h hinputs
      have hlevel : grouped.length ≤ fuel := by
        simp only [hlength, thirds]
        omega
      obtain ⟨last, after, hrun', hgrows', hlast⟩ := ih (level + 1) hlevel hgrows.wired hnamed
      rw [if_neg hsmall, if_pos (by omega), ← List.replicate_append_replicate]
      rw [hlength] at hgrows'
      refine ⟨last, after, ?_, hgrows.trans hgrows', hlast⟩
      rw [log_bind _ hrun, hrun']

theorem mem_of_three {α : Type} {l : List α} {a b c : α} (ha : a ∈ l) (hb : b ∈ l) (hc : c ∈ l) :
    ∀ x ∈ [a, b, c], x ∈ l := by
  simp [ha, hb, hc]

theorem named_none {spec : PacketSpec} (h : spec.file = none) :
    ∀ file ∈ spec.file, file.path ≠ "" := by
  simp [h]

theorem named_some {spec : PacketSpec} {file : WorkFile} (h : spec.file = some file)
    (hpath : file.path ≠ "") : ∀ file ∈ spec.file, file.path ≠ "" := by
  simpa [h] using hpath

theorem PacketSpec.Fits.three {spec : PacketSpec} {a b c : String}
    (hnamed : ∀ file ∈ spec.file, file.path ≠ "")
    (hdependencies : spec.dependencies = [a, b, c]) (hmax : spec.maxOutputBytes = 12 * 1024)
    (ha : a ∈ packets.map (·.id)) (hb : b ∈ packets.map (·.id)) (hc : c ∈ packets.map (·.id)) :
    spec.Fits packets := by
  refine ⟨?_, by rw [hdependencies]; rfl, by rw [hmax]; decide, hnamed⟩
  rw [hdependencies]
  exact mem_of_three ha hb hc

structure BaseIds.Known (base : BaseIds) (packets : List WorkPacket) : Prop where
  manifest : base.manifest ∈ packets.map (·.id)
  architecture : base.architecture ∈ packets.map (·.id)
  functional : base.functional ∈ packets.map (·.id)
  quality : base.quality ∈ packets.map (·.id)

theorem BaseIds.Known.grow {base : BaseIds} (h : base.Known before)
    (hgrows : PlanGrows planId before shapes after) : base.Known after :=
  ⟨hgrows.names h.manifest, hgrows.names h.architecture, hgrows.names h.functional,
    hgrows.names h.quality⟩

def fileShapes (file : WorkFile) : List Shape :=
  fileStages.map fun (stage, contract) => (stage, contract, file.path)

theorem pushFile_grows {base : BaseIds} {prior : Option String} {file : WorkFile}
    (hpath : file.path ≠ "") (h : PlanWired planId before) (hbase : base.Known before)
    (hprior : ∀ x ∈ prior, x ∈ before.map (·.id)) :
    ∃ flow after, pushFile planId base prior file before = some (flow, after) ∧
      PlanGrows planId before (fileShapes file) after ∧ flow.file = file ∧
      flow.contract ∈ after.map (·.id) ∧ flow.correction ∈ after.map (·.id) := by
  have hfits : (fileNoteSpec file .fileContract
      ("Define the complete public and private contract for " ++ file.path ++ ".")
      file.acceptance ([base.manifest, base.architecture] ++ prior.toList)).Fits before := by
    refine ⟨?_, by cases prior <;> simp [fileNoteSpec], ?_, named_some rfl hpath⟩
    · intro x hx
      rcases List.mem_append.mp hx with hx | hx
      · rcases List.mem_pair.mp hx with rfl | rfl
        · exact hbase.manifest
        · exact hbase.architecture
      · exact hprior x (by simpa using hx)
    · simp only [fileNoteSpec]
      decide
  obtain ⟨contract, p1, hrun1, hgrows1, hpushed1, -⟩ := pushPacket_grows _ h hfits
  have hbase1 := hbase.grow hgrows1
  obtain ⟨implementation, p2, hrun2, hgrows2, hpushed2, -⟩ := pushPacket_grows
    (fileArtifactSpec file .fileImplementation
      ("Implement only " ++ file.path ++ " against its approved contract.")
      [contract, base.manifest, base.architecture]) hgrows1.wired
    (.three (named_some rfl hpath) rfl rfl hpushed1.named hbase1.manifest hbase1.architecture)
  have hcontract := (hpushed1.grow hgrows2).named
  obtain ⟨review, p3, hrun3, hgrows3, hpushed3, -⟩ := pushPacket_grows
    (fileNoteSpec file .fileReview
      ("Adversarially review " ++ file.path ++ " against every owning requirement.")
      ["List concrete defects and missing evidence.",
        "A proof claim without executable evidence is a defect."]
      [contract, implementation, base.quality]) hgrows2.wired
    (.three (named_some rfl hpath) rfl rfl hcontract hpushed2.named (hbase1.grow hgrows2).quality)
  obtain ⟨correction, p4, hrun4, hgrows4, hpushed4, -⟩ := pushPacket_grows
    (fileArtifactSpec file .fileCorrection
      ("Return a complete corrected " ++ file.path ++ " with every review defect resolved.")
      [contract, implementation, review]) hgrows3.wired
    (.three (named_some rfl hpath) rfl rfl (hgrows3.names hcontract) (hpushed2.grow hgrows3).named hpushed3.named)
  refine ⟨⟨file, contract, correction⟩, p4, ?_, ?_, rfl, ?_, hpushed4.named⟩
  · rw [pushFile, log_bind _ hrun1, log_bind _ hrun2, log_bind _ hrun3, log_bind _ hrun4, log_pure]
  · exact ((hgrows1.trans hgrows2).trans hgrows3).trans hgrows4
  · exact hgrows4.names (hgrows3.names hcontract)

theorem pushFiles_grows {base : BaseIds} {prior : Option String} {files : List WorkFile}
    (hpaths : ∀ file ∈ files, file.path ≠ "") (h : PlanWired planId before) (hbase : base.Known before)
    (hprior : ∀ x ∈ prior, x ∈ before.map (·.id)) :
    ∃ flows after, pushFiles planId base prior files before = some (flows, after) ∧
      PlanGrows planId before (files.flatMap fileShapes) after ∧ flows.map (·.file) = files ∧
      ∀ flow ∈ flows, flow.contract ∈ after.map (·.id) ∧ flow.correction ∈ after.map (·.id) := by
  induction files generalizing prior before with
  | nil => exact ⟨[], before, rfl, .refl h, rfl, by simp⟩
  | cons file files ih =>
    obtain ⟨hpath, hpaths⟩ := List.forall_mem_cons.mp hpaths
    obtain ⟨flow, middle, hrun, hgrows, hfile, hcontract, hcorrection⟩ :=
      pushFile_grows hpath h hbase hprior
    obtain ⟨flows, after, hruns, hgrows', hfiles, hflows⟩ := ih
      hpaths hgrows.wired (hbase.grow hgrows)
      (show ∀ x ∈ some flow.correction, x ∈ middle.map (·.id) by simpa using hcorrection)
    refine ⟨flow :: flows, after, ?_, hgrows.trans hgrows', by simp [hfile, hfiles], ?_⟩
    · rw [pushFiles, log_bind _ hrun, log_bind _ hruns, log_pure]
    · rw [List.forall_mem_cons]
      exact ⟨⟨hgrows'.names hcontract, hgrows'.names hcorrection⟩, hflows⟩

theorem pushIntegration_grows {flows : List FileFlow} (h : PlanWired planId before)
    (hflows : ∀ flow ∈ flows, flow.correction ∈ before.map (·.id)) :
    ∃ integration after, pushIntegration planId flows before = some (integration, after) ∧
      PlanGrows planId before (List.replicate (integrationGroupCount flows.length)
        (.integrationGroup, .envelope, "") ++ [(.integration, .envelope, "")]) after ∧
      integration ∈ after.map (·.id) := by
  have hinputs : ∀ x ∈ flows.map (·.correction), x ∈ before.map (·.id) := by
    intro x hx
    obtain ⟨flow, hflow, rfl⟩ := List.mem_map.mp hx
    exact hflows flow hflow
  have hfuel : (flows.map (·.correction)).length ≤ flows.length := by rw [List.length_map]
  obtain ⟨last, middle, hrun, hgrows, hlength, hlast⟩ :=
    groupIntegration_grows 1 hfuel h hinputs
  rw [List.length_map] at hgrows
  obtain ⟨integration, after, hrun', hgrows', hpushed, -⟩ := pushPacket_grows
    (productSpec .integration
      "Check all corrected files as one product and identify cross-file contract failures."
      ["Every manifest file is present.", "Cross-file APIs agree."] last) hgrows.wired
    ⟨hlast, hlength, by simp only [productSpec]; decide, named_none rfl⟩
  refine ⟨integration, after, ?_, hgrows.trans hgrows', hpushed.named⟩
  rw [pushIntegration, log_bind _ hrun, hrun']

theorem pushArtifacts_grows {α : Type} (xs : List α) (file : α → WorkFile) (stage : WorkStage)
    (spec : α → PacketSpec) (h : PlanWired planId before)
    (hshape : ∀ x ∈ xs, (spec x).shape = (stage, .fileArtifact, (file x).path))
    (hfits : ∀ x ∈ xs, (spec x).Fits before) :
    ∃ ids after, pushPackets planId (xs.map spec) before = some (ids, after) ∧
      PlanGrows planId before ((xs.map file).map fun file =>
        (stage, .fileArtifact, file.path)) after ∧
      ids.length = xs.length ∧ (∀ id ∈ ids, id ∈ after.map (·.id)) ∧
      ∀ packet ∈ after, packet ∈ before ∨ packet.id ∈ ids := by
  obtain ⟨ids, after, hrun, hgrows, hpushed, hnew⟩ := pushPackets_grows (xs.map spec) h
    (by simpa using hfits)
  have hshapes : (xs.map spec).map PacketSpec.shape =
      (xs.map file).map fun file => (stage, PacketContract.fileArtifact, file.path) := by
    rw [List.map_map, List.map_map]
    exact List.map_congr_left hshape
  rw [hshapes] at hgrows
  refine ⟨ids, after, hrun, hgrows, ?_, ?_, hnew⟩
  · rw [← hpushed.length_eq, List.length_map]
  · intro id hid
    obtain ⟨s, -, hs⟩ := exists_of_forall₂ hpushed.flip id hid
    exact hs.named

structure Closing.Known (closing : Closing) (packets : List WorkPacket) : Prop where
  integrationClosure : closing.integrationClosure ∈ packets.map (·.id)
  verification : closing.verification ∈ packets.map (·.id)
  adversarial : closing.adversarial ∈ packets.map (·.id)

theorem pushClosing_grows {base : BaseIds} {integration : String} {inputs : List String}
    (h : PlanWired planId before) (hbase : base.Known before)
    (hintegration : integration ∈ before.map (·.id)) (hne : inputs ≠ [])
    (hinputs : ∀ x ∈ inputs, x ∈ before.map (·.id)) :
    ∃ closing after, pushClosing planId base integration inputs before = some (closing, after) ∧
      PlanGrows planId before (List.replicate (reductionPackets inputs.length)
        (.closureGroup, .envelope, "") ++ [(.integrationClosure, .envelope, ""),
          (.verification, .envelope, ""), (.adversarialReview, .envelope, "")]) after ∧
      closing.Known after := by
  obtain ⟨root, p1, hrun1, hgrows1, hroot, -⟩ := summarizeToOne_grows .closureGroup
    "Validate integration-corrected file groups and reject every unresolved cross-file defect."
    ["Every input is accounted for.", "No known integration risk remains."] 1 hne
    le_rfl h hinputs
  have hbase1 := hbase.grow hgrows1
  obtain ⟨closure, p2, hrun2, hgrows2, hpushed2, -⟩ := pushPacket_grows
    (productSpec .integrationClosure
      "Close integration only after the corrected bundle satisfies all cross-file contracts."
      ["All integration defects are resolved.", "No known risk is deferred."]
      [root, integration, base.quality]) hgrows1.wired
    (.three (named_none rfl) rfl rfl hroot (hgrows1.names hintegration) hbase1.quality)
  have hbase2 := hbase1.grow hgrows2
  obtain ⟨verification, p3, hrun3, hgrows3, hpushed3, -⟩ := pushPacket_grows
    (productSpec .verification
      "Define and evaluate real functional verification for the integrated product."
      ["Smoke checks alone cannot pass.", "Each requirement maps to evidence."]
      [closure, base.functional, base.quality]) hgrows2.wired
    (.three (named_none rfl) rfl rfl hpushed2.named hbase2.functional hbase2.quality)
  have hclosure := (hpushed2.grow hgrows3).named
  obtain ⟨adversarial, p4, hrun4, hgrows4, hpushed4, -⟩ := pushPacket_grows
    (productSpec .adversarialReview
      ("Perform a final hostile review for logic errors, insecure defaults, placeholders, and " ++
        "unverified claims.")
      ["False positives are acceptable; silent defects are not."]
      [verification, closure, base.architecture]) hgrows3.wired
    (.three (named_none rfl) rfl rfl hpushed3.named hclosure (hbase2.grow hgrows3).architecture)
  refine ⟨⟨closure, verification, adversarial⟩, p4, ?_, ?_,
    ⟨hgrows4.names hclosure, (hpushed3.grow hgrows4).named, hpushed4.named⟩⟩
  · rw [pushClosing, log_bind _ hrun1, log_bind _ hrun2, log_bind _ hrun3, log_bind _ hrun4,
      log_pure]
  · exact hgrows1.trans ((hgrows2.trans hgrows3).trans hgrows4)

theorem pushRelease_grows {closing : Closing} {inputs : List String}
    (h : PlanWired planId before) (hclosing : closing.Known before) (hne : inputs ≠ [])
    (hinputs : ∀ x ∈ inputs, x ∈ before.map (·.id)) :
    ∃ last after, pushRelease planId closing inputs before = some (last, after) ∧
      PlanGrows planId before (List.replicate (reductionPackets inputs.length)
        (.releaseGroup, .envelope, "") ++ [(.releaseVerification, .envelope, ""),
          (.finalization, .envelope, "")]) after ∧
      (∃ packet ∈ after, packet.id = last ∧ packet.stage = .finalization) ∧
      ∀ x ∈ inputs, Consumed after x last := by
  obtain ⟨root, p1, hrun1, hgrows1, hroot, hconsumed⟩ := summarizeToOne_grows
    .releaseGroup
    "Validate final-corrected file groups as release candidates and reject every unresolved defect."
    ["Every final file is accounted for.", "No known release risk remains."] 1 hne
    le_rfl h hinputs
  obtain ⟨release, p2, hrun2, hgrows2, hpushed2, -⟩ := pushPacket_grows
    (productSpec .releaseVerification
      ("Re-evaluate the final corrected bundle against the verification and hostile-review " ++
        "findings before harness execution.")
      ["Every prior finding is resolved or disproved with concrete evidence.",
        "No smoke-only claim is accepted."]
      [root, closing.verification, closing.adversarial]) hgrows1.wired
    (.three (named_none rfl) rfl rfl hroot (hgrows1.names hclosing.verification)
      (hgrows1.names hclosing.adversarial))
  obtain ⟨last, p3, hrun3, hgrows3, hpushed3, -⟩ := pushPacket_grows
    (productSpec .finalization
      "Confirm the corrected file bundle is internally consistent and ready for harness execution."
      ["No known defect is deferred.", "No placeholder is accepted."]
      [release, closing.integrationClosure, root]) hgrows2.wired
    (.three (named_none rfl) rfl rfl hpushed2.named (hgrows2.names (hgrows1.names hclosing.integrationClosure))
      (hgrows2.names hroot))
  have hfeeds : PacketFeeds p3 root last := hpushed3.feeds root (by simp [productSpec])
  refine ⟨last, p3, ?_, hgrows1.trans (hgrows2.trans hgrows3), ?_, ?_⟩
  · rw [pushRelease, log_bind _ hrun1, log_bind _ hrun2, hrun3]
  · obtain ⟨packet, hmem, hid, hshape⟩ := hpushed3.made
    exact ⟨packet, hmem, hid, congrArg Prod.fst hshape⟩
  · intro x hx
    exact (((hconsumed x hx).mono hgrows2.sub).mono hgrows3.sub).tail hfeeds

def expansionShapes (files : List WorkFile) : List Shape :=
  files.flatMap fileShapes ++
    (List.replicate (integrationGroupCount files.length) (.integrationGroup, .envelope, "") ++
      [(.integration, .envelope, "")]) ++
    files.map (fun file => (.integrationCorrection, .fileArtifact, file.path)) ++
    (List.replicate (reductionPackets files.length) (.closureGroup, .envelope, "") ++
      [(.integrationClosure, .envelope, ""), (.verification, .envelope, ""),
        (.adversarialReview, .envelope, "")]) ++
    files.map (fun file => (.finalCorrection, .fileArtifact, file.path)) ++
    (List.replicate (reductionPackets files.length) (.releaseGroup, .envelope, "") ++
      [(.releaseVerification, .envelope, ""), (.finalization, .envelope, "")])

theorem scheduledShapes_eq (files : List WorkFile) :
    scheduledShapes files (reductionPackets files.length) =
      baseShapes ++ expansionShapes files := by
  simp only [scheduledShapes, expansionShapes, List.append_assoc]
  rfl

theorem Grows.stage_ne (stage : WorkStage) (hgrows : PlanGrows planId before shapes after)
    (hbefore : ∀ packet ∈ before, packet.stage ≠ stage) (hshapes : ∀ s ∈ shapes, s.1 ≠ stage) :
    ∀ packet ∈ after, packet.stage ≠ stage := by
  obtain ⟨⟨entries, rfl, rfl⟩, -⟩ := hgrows
  intro packet hpacket
  rcases List.mem_append.mp hpacket with hold | hnew
  · exact hbefore packet hold
  · exact hshapes packet.shape (List.mem_map_of_mem hnew)

theorem pushFilePackets_grows {base : BaseIds} {files : List WorkFile} (hne : files ≠ [])
    (hpaths : ∀ file ∈ files, file.path ≠ "") (h : PlanWired planId before) (hbase : base.Known before)
    (hstage : ∀ packet ∈ before, packet.stage ≠ .finalCorrection) :
    ∃ last after, pushFilePackets planId base files before = some (last, after) ∧
      PlanGrows planId before (expansionShapes files) after ∧
      (∃ packet ∈ after, packet.id = last ∧ packet.stage = .finalization) ∧
      ∀ packet ∈ after, packet.stage = .finalCorrection → Consumed after packet.id last := by
  obtain ⟨flows, p1, hrun1, hgrows1, hfiles, hflows⟩ := pushFiles_grows hpaths h
    hbase (show ∀ x ∈ (none : Option String), x ∈ before.map (·.id) by simp)
  have hlength : flows.length = files.length := by rw [← hfiles, List.length_map]
  have hpathOf : ∀ flow ∈ flows, flow.file.path ≠ "" := by
    intro flow hflow
    apply hpaths
    rw [← hfiles]
    exact List.mem_map_of_mem hflow
  obtain ⟨integration, p2, hrun2, hgrows2, hintegration⟩ := pushIntegration_grows hgrows1.wired
    fun flow hflow => (hflows flow hflow).2
  obtain ⟨corrections, p3, hrun3, hgrows3, hcorrections, hnamed3, -⟩ := pushArtifacts_grows
    flows (·.file) .integrationCorrection (fun flow => fileArtifactSpec flow.file .integrationCorrection
      ("Return a complete integration-corrected " ++ flow.file.path ++ " that resolves every " ++
        "applicable cross-file defect without violating its authoritative file contract.")
      [flow.correction, flow.contract, integration]) hgrows2.wired (fun _ _ => rfl)
    fun flow hflow => .three (named_some rfl (hpathOf flow hflow)) rfl rfl (hgrows2.names (hflows flow hflow).2)
      (hgrows2.names (hflows flow hflow).1) hintegration
  have hbase3 := ((hbase.grow hgrows1).grow hgrows2).grow hgrows3
  have hne3 : corrections ≠ [] := by
    rintro rfl
    exact hne (List.length_eq_zero_iff.mp (by rw [← hlength, ← hcorrections]; rfl))
  obtain ⟨closing, p4, hrun4, hgrows4, hclosing⟩ := pushClosing_grows hgrows3.wired hbase3
    (hgrows3.names hintegration) hne3 hnamed3
  have hzip : (flows.zip corrections).map (fun pair => pair.1.file) = files := by
    have hfst : (flows.zip corrections).map Prod.fst = flows := List.map_fst_zip (by omega)
    rw [← hfiles, ← congrArg (List.map (·.file)) hfst, List.map_map]
    rfl
  obtain ⟨finals, p5, hrun5, hgrows5, hfinals, hnamed5, hnew5⟩ := pushArtifacts_grows
    (flows.zip corrections) (fun pair => pair.1.file) .finalCorrection (fun pair => fileArtifactSpec pair.1.file .finalCorrection
      ("Return the complete release candidate for " ++ pair.1.file.path ++ " with every " ++
        "applicable verification and adversarial defect resolved.")
      [pair.2, pair.1.contract, closing.adversarial]) hgrows4.wired (fun _ _ => rfl) (by
    intro pair hpair
    obtain ⟨hflow, hcorrection⟩ := List.of_mem_zip hpair
    exact .three (named_some rfl (hpathOf _ hflow)) rfl rfl (hgrows4.names (hnamed3 _ hcorrection))
      (hgrows4.names (hgrows3.names (hgrows2.names (hflows _ hflow).1))) hclosing.adversarial)
  have hfinals : finals.length = files.length := by
    rw [hfinals, List.length_zip]
    omega
  have hclosing5 : closing.Known p5 := ⟨hgrows5.names hclosing.integrationClosure,
    hgrows5.names hclosing.verification, hgrows5.names hclosing.adversarial⟩
  have hne5 : finals ≠ [] := by
    rintro rfl
    exact hne (List.length_eq_zero_iff.mp hfinals.symm)
  obtain ⟨last, p6, hrun6, hgrows6, hlast, hconsumed⟩ :=
    pushRelease_grows hgrows5.wired hclosing5 hne5 hnamed5
  rw [hfiles] at hgrows3
  rw [hzip] at hgrows5
  rw [hlength] at hgrows2
  rw [hcorrections, hlength] at hgrows4
  rw [hfinals] at hgrows6
  have hbefore := (((hgrows1.trans hgrows2).trans hgrows3).trans hgrows4)
  refine ⟨last, p6, ?_, (hbefore.trans hgrows5).trans hgrows6, hlast, ?_⟩
  · rw [pushFilePackets, log_bind _ hrun1, log_bind _ hrun2]
    rw [pushIntegrationCorrections, log_bind _ hrun3, log_bind _ hrun4]
    rw [pushFinalCorrections, log_bind _ hrun5, hrun6]
  · -- a final correction was pushed by the loop that pushes those, and by no other
    intro packet hpacket hfinal
    have hp4 := Grows.stage_ne .finalCorrection hbefore hstage (by
      simp only [List.forall_mem_append, List.forall_mem_flatMap, fileShapes, fileStages]
      simp)
    have hp5 : packet ∈ p5 := by
      obtain ⟨⟨entries, rfl, hentries⟩, -⟩ := hgrows6
      rcases List.mem_append.mp hpacket with hold | hnew
      · exact hold
      · have hshape := List.mem_map_of_mem (f := WorkPacket.shape) hnew
        rw [hentries] at hshape
        simp [WorkPacket.shape, hfinal] at hshape
    rcases hnew5 packet hp5 with hold | hid
    · exact absurd hfinal (hp4 packet hold)
    · exact hconsumed _ hid

end AtomVibe.Work
