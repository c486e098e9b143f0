import AtomVibe.WorkDag

namespace AtomVibe.Work

open Checked Text Hash ChainFiles DependencyLog

def isIdChar (c : Char) : Bool := isAsciiLowercase c || isAsciiDigit c || c == '-'

theorem utf8Size_of_isIdChar {c : Char} (h : isIdChar c = true) : c.utf8Size = 1 := by
  have hle : c.toNat ≤ 127 := by
    simp only [isIdChar, isAsciiLowercase, isAsciiDigit, Bool.or_eq_true, Bool.and_eq_true,
      decide_eq_true_eq, beq_iff_eq] at h
    rcases h with (⟨-, h⟩ | ⟨-, h⟩) | rfl
    · exact le_trans (UInt32.le_iff_toNat_le.mp h) (by decide)
    · exact le_trans (UInt32.le_iff_toNat_le.mp h) (by decide)
    · decide
  exact Char.utf8Size_eq_one_iff.mpr (UInt32.le_iff_toNat_le.mpr hle)

theorem isIdChar_of_isLowerHex {c : Char} (h : isLowerHex c = true) : isIdChar c = true := by
  simp only [isLowerHex, Bool.or_eq_true, Bool.and_eq_true, decide_eq_true_eq] at h
  simp only [isIdChar, isAsciiLowercase, Bool.or_eq_true, Bool.and_eq_true, decide_eq_true_eq]
  rcases h with hdigit | ⟨ha, hf⟩
  · exact .inl (.inr hdigit)
  · exact .inl (.inl ⟨ha, hf.trans (by decide)⟩)

theorem isIdChar_asStr (stage : WorkStage) : ∀ c ∈ stage.asStr.toList, isIdChar c = true := by
  cases stage <;> exact List.all_eq_true.mp (by decide)

structure SafeId (value : String) : Prop where
  nonempty : value ≠ ""
  size : value.utf8ByteSize ≤ 160
  chars : ∀ c ∈ value.toList, isIdChar c = true

theorem validateId_eq_ok {value : String} : validateId value = .ok () ↔ SafeId value := by
  rw [validateId, refuseIf_eq_ok]
  simp only [not_or, not_lt, Bool.not_eq_false, List.all_eq_true]
  exact ⟨fun ⟨hne, hsize, hchars⟩ => ⟨hne, hsize, hchars⟩, fun h => ⟨h.nonempty, h.size, h.chars⟩⟩

theorem safeId_of_chars {value : String} (hne : value.toList ≠ [])
    (hchars : ∀ c ∈ value.toList, isIdChar c = true) (hlength : value.toList.length ≤ 160) :
    SafeId value := by
  have hsize : ∀ cs : List Char, (∀ c ∈ cs, isIdChar c = true) → utf8Len cs = cs.length := by
    intro cs
    induction cs with
    | nil => exact fun _ => rfl
    | cons c cs ih =>
      intro h
      obtain ⟨hc, hcs⟩ := List.forall_mem_cons.mp h
      have hrest := ih hcs
      simp only [utf8Len, List.map_cons, List.sum_cons, List.length_cons] at hrest ⊢
      rw [hrest, utf8Size_of_isIdChar hc, Nat.add_comm]
  refine ⟨?_, ?_, hchars⟩
  · rintro rfl
    exact hne rfl
  · rwa [utf8ByteSize_eq, hsize _ hchars]

theorem toList_planId (seed : String) : (planId seed).toList =
    "work-".toList ++ (sha256Hex (asBytes seed)).toList.take 24 := by
  simp only [planId, String.toList_append, String.toList_ofList]

section Packets

variable {planId : String} {packets : List WorkPacket}

theorem toList_packetId (planId : String) (ordinal : ℕ) (stage : WorkStage) (file : Option WorkFile) :
    ∃ digest : List Char, (∀ c ∈ digest, isLowerHex c = true) ∧ digest.length ≤ 10 ∧
      (packetId planId ordinal stage file).toList =
        (padded 3 (ordinal + 1)).toList ++ '-' :: (stage.asStr.toList ++ '-' :: digest) := by
  let digest := sha256Hex (asBytes (planId ++ "\x00" ++ ordinal.repr ++ "\x00" ++ stage.asStr ++
    "\x00" ++ (file.map (·.path)).getD ""))
  refine ⟨digest.toList.take 10, fun c hc => isLowerHex_sha256Hex (List.mem_of_mem_take hc),
    List.length_take_le 10 _, ?_⟩
  simp only [packetId, String.toList_append, String.toList_ofList, List.append_assoc]
  rfl

theorem safeId_packetId {ordinal : ℕ} (h : ordinal + 1 < 10 ^ 3) (stage : WorkStage)
    (file : Option WorkFile) : SafeId (packetId planId ordinal stage file) := by
  obtain ⟨digest, hdigest, hlength, htext⟩ := toList_packetId planId ordinal stage file
  apply safeId_of_chars
  · simp [htext]
  · rw [htext]
    intro c hc
    simp only [List.mem_append, List.mem_cons] at hc
    rcases hc with hc | rfl | hc | rfl | hc
    · simp [isIdChar, padded_isAsciiDigit hc]
    · decide
    · exact isIdChar_asStr stage c hc
    · decide
    · exact isIdChar_of_isLowerHex (hdigest c hc)
  · have hstage : stage.asStr.toList.length ≤ 23 := by cases stage <;> decide
    rw [htext, toList_padded (by decide) h]
    simp only [List.length_append, List.length_cons, length_fixedDigits]
    omega

theorem startsWith_packetId (ordinal : ℕ) (stage : WorkStage) (file : Option WorkFile) :
    startsWith (idPrefix ordinal stage) (packetId planId ordinal stage file) = true := by
  rw [startsWith, List.isPrefixOf_iff_prefix]
  simp only [packetId, idPrefix, String.toList_append]
  exact List.prefix_append _ _

theorem packetId_ordinal {planId' : String} {i j : ℕ} {stage stage' : WorkStage}
    {file file' : Option WorkFile}
    (h : packetId planId i stage file = packetId planId' j stage' file') : i = j := by
  obtain ⟨digest, -, -, htext⟩ := toList_packetId planId i stage file
  obtain ⟨digest', -, -, htext'⟩ := toList_packetId planId' j stage' file'
  have hdash : ∀ n, (padded 3 n).toList.count '-' = 0 := by
    intro n
    rw [List.count_eq_zero]
    intro hmem
    exact absurd (padded_isAsciiDigit hmem) (by decide)
  have hnumber := (Separated.append_count (by rw [hdash, hdash])
    (htext.symm.trans ((congrArg String.toList h).trans htext'))).1
  exact Nat.succ_injective (padded_injective 3 (String.toList_inj.mp hnumber))

theorem nodup_ids (h : PlanWired planId packets) : (packets.map (·.id)).Nodup := by
  rw [List.Nodup, List.pairwise_map, List.pairwise_iff_getElem]
  intro i j hi hj hlt heq
  have hplaced : ∀ k (hk : k < packets.length), packets[k].id =
      packetId planId k packets[k].stage packets[k].file :=
    fun k hk => (h.fits_getElem (List.getElem?_eq_getElem hk)).1.id
  rw [hplaced i hi, hplaced j hj] at heq
  exact hlt.ne (packetId_ordinal heq)

theorem validatePackets_of_wired (left : List WorkPacket) {right : List WorkPacket}
    (h : PlanWired planId (left ++ right)) (hsize : (left ++ right).length ≤ 2 ^ 64) :
    validatePackets (left.map (·.id)).reverse left.length right = .ok () := by
  induction right generalizing left with
  | nil => rfl
  | cons packet right ih =>
    obtain ⟨hplaced, hknown⟩ := h.split rfl
    have hordinal : packet.ordinal.toNat = left.length := by
      rw [hplaced.ordinal]
      apply UInt64.toNat_ofNat_of_lt'
      rw [List.length_append, List.length_cons] at hsize
      show left.length < 2 ^ 64
      omega
    have hfresh : packet.id ∉ (left.map (·.id)).reverse := by
      have hnodup := nodup_ids h
      rw [List.map_append, List.map_cons, List.nodup_append] at hnodup
      rw [List.mem_reverse]
      exact fun hmem => hnodup.2.2 _ hmem _ List.mem_cons_self rfl
    have hrest := ih (left ++ [packet]) (by simpa using h) (by simpa using hsize)
    simp only [List.map_append, List.map_cons, List.map_nil, List.reverse_append,
      List.reverse_cons, List.reverse_nil, List.nil_append, List.length_append, List.length_cons,
      List.length_nil, Nat.zero_add, List.singleton_append] at hrest
    simp only [validatePackets, bind_eq_ok, refuseIf_eq_ok, checkAll_eq_ok, not_or, not_not,
      exists_const]
    refine ⟨⟨hordinal, hfresh⟩, ⟨hplaced.bound.1.ne', not_lt.mpr hplaced.bound.2⟩, ?_, hrest⟩
    exact fun x hx => List.mem_cons_of_mem _ (List.mem_reverse.mpr (hknown x hx))

theorem pushBasePacket_grows (definitions : List (WorkStage × String × List String))
    (h : PlanWired planId packets) : PlanGrows planId packets
      (definitions.map fun entry =>
        (entry.1, if entry.1 = .fileManifest then .fileManifest else .envelope, ""))
      ((definitions.zipIdx packets.length).foldl (pushBasePacket planId) packets) := by
  induction definitions generalizing packets with
  | nil => exact .refl h
  | cons entry definitions ih =>
    obtain ⟨stage, objective, acceptance⟩ := entry
    rw [List.zipIdx_cons, List.foldl_cons, List.map_cons]
    have hgrows : PlanGrows planId packets
        [(stage, if stage = .fileManifest then .fileManifest else .envelope, "")]
        (pushBasePacket planId packets ((stage, objective, acceptance), packets.length)) := by
      have hplaced : Placed planId packets.length
          (basePacket planId packets.getLast? ((stage, objective, acceptance), packets.length)) := by
        refine ⟨rfl, rfl, ?_, ?_, by simp [basePacket]⟩
        · by_cases hstage : stage = .fileManifest <;> simp [basePacket, hstage, maxPacketOutputBytes]
        · cases packets.getLast? <;> simp [basePacket]
      refine Grows.push h hplaced fun x hx => ?_
      cases hlast : packets.getLast? with
      | none => simp [basePacket, hlast] at hx
      | some last =>
        obtain rfl : x = last.id := by simpa [basePacket, hlast] using hx
        exact List.mem_map_of_mem (List.mem_of_getLast? hlast)
    have hrest := ih hgrows.wired
    rw [hgrows.length] at hrest
    exact hgrows.trans hrest

end Packets

theorem basePackets_grows (planId : String) : PlanGrows planId [] baseShapes (basePackets planId) :=
  pushBasePacket_grows baseDefinitions .nil

theorem baseIds_basePackets (planId : String) : ∃ manifest base,
    (basePackets planId).getLast? = some manifest ∧
      baseIds (basePackets planId) manifest = some base ∧ base.Known (basePackets planId) := by
  have hlength : (basePackets planId).length = 5 := (basePackets_grows planId).length
  obtain ⟨a, b, c, d, e, h⟩ : ∃ a b c d e, basePackets planId = [a, b, c, d, e] := by
    match hpackets : basePackets planId, hlength with
    | [a, b, c, d, e], _ => exact ⟨a, b, c, d, e, rfl⟩
  rw [h]
  refine ⟨e, ⟨e.id, d.id, b.id, c.id⟩, rfl, rfl, ?_⟩
  constructor <;> simp

structure Fresh (plan : WorkPlan) : Prop where
  schemaVersion : plan.schemaVersion = workSchemaVersion
  id : ∃ seed, plan.id = planId seed
  packets : plan.packets = basePackets plan.id
  expanded : plan.expanded = false

theorem validate_of_wired (plan : WorkPlan) (hschema : plan.schemaVersion = workSchemaVersion)
    (hid : ∃ seed, plan.id = planId seed) (hne : plan.packets ≠ [])
    (h : PlanWired plan.id plan.packets) (hsize : plan.packets.length ≤ 2 ^ 64) :
    plan.validate = .ok () := by
  obtain ⟨seed, hseed⟩ := hid
  have hblank : isBlank plan.id = false := by
    have hchar : 'w' ∈ plan.id.toList := by
      rw [hseed, toList_planId]
      exact List.mem_append_left _ (by decide)
    rw [isBlank, List.all_eq_false]
    exact ⟨'w', hchar, by decide⟩
  simp only [WorkPlan.validate, bind_eq_ok, refuseIf_eq_ok, not_or, not_not, exists_const]
  refine ⟨⟨hschema, by simp [hblank]⟩, hne, ?_⟩
  exact validatePackets_of_wired [] h hsize

theorem fresh_basePlan (intent recipeId : String) (atomStack : List String)
    (fingerprint intentHash fingerprintHash : String) :
    Fresh (basePlan intent recipeId atomStack fingerprint intentHash fingerprintHash) :=
  ⟨rfl, ⟨_, rfl⟩, rfl, rfl⟩

theorem fromIdentity_ok (intent recipeId : String) (atomStack : List String) (fingerprint intentHash
    fingerprintHash : String) :
    fromIdentity intent recipeId atomStack fingerprint intentHash fingerprintHash =
      .ok (basePlan intent recipeId atomStack fingerprint intentHash fingerprintHash) := by
  have hgrows := basePackets_grows (planId (planSeed intentHash recipeId atomStack fingerprintHash))
  have hlength := hgrows.length
  simp only [fromIdentity, bind_eq_ok, pure_eq_ok, and_true]
  refine ⟨(), ?_⟩
  apply validate_of_wired _ rfl ⟨_, rfl⟩ _ hgrows.wired
  · rw [basePlan, hlength]
    decide
  · exact List.length_pos_iff.mp (by rw [basePlan, hlength]; decide)

theorem canonicalFromManifest_eq (intentHash recipeId : String) (atomStack : List String)
    (fingerprintHash : String) (files : List WorkFile) :
    canonicalFromManifest intentHash recipeId atomStack fingerprintHash files =
      (basePlan "manifest-verification" recipeId atomStack "manifest-verification" intentHash
        fingerprintHash).expandFiles files := by
  have h := fromIdentity_ok "manifest-verification" recipeId atomStack "manifest-verification"
    intentHash fingerprintHash
  unfold canonicalFromManifest
  generalize fromIdentity "manifest-verification" recipeId atomStack "manifest-verification"
    intentHash fingerprintHash = made at h ⊢
  subst h
  rfl

theorem meticulous_eq_ok {intent recipeId fingerprint : String} {atomStack : List String}
    {plan : WorkPlan} : meticulous intent recipeId atomStack fingerprint = .ok plan ↔
      (trim intent ≠ "" ∧ (trim intent).utf8ByteSize ≤ maxIntentBytes) ∧
        plan = basePlan (trim intent) recipeId atomStack fingerprint
          (sha256Tagged (asBytes (trim intent))) (sha256Tagged (asBytes fingerprint)) := by
  simp only [meticulous, bind_eq_ok, refuseIf_eq_ok, not_lt, fromIdentity_ok, Except.ok.injEq,
    exists_const, and_assoc, @eq_comm _ plan]

def expandedPackets (planId : String) (files : List WorkFile) : Option (List WorkPacket) := do
  let manifest ← (basePackets planId).getLast?
  let base ← baseIds (basePackets planId) manifest
  let (_, packets) ← pushFilePackets planId base files (basePackets planId)
  return packets

structure Expansion (planId : String) (files : List WorkFile) (packets : List WorkPacket) :
    Prop where
  grows : PlanGrows planId [] (scheduledShapes files (reductionPackets files.length)) packets
  consumed : ∃ last ∈ packets, last.stage = .finalization ∧
    ∀ packet ∈ packets, packet.stage = .finalCorrection → Consumed packets packet.id last.id

theorem expandedPackets_eq (planId : String) {files : List WorkFile} (hne : files ≠ [])
    (hpaths : ∀ file ∈ files, file.path ≠ "") :
    ∃ packets, expandedPackets planId files = some packets ∧ Expansion planId files packets := by
  obtain ⟨manifest, base, hmanifest, hbase, hknown⟩ := baseIds_basePackets planId
  have hgrows := basePackets_grows planId
  have hstage : ∀ packet ∈ basePackets planId, packet.stage ≠ .finalCorrection :=
    Grows.stage_ne _ hgrows (by simp) (by decide)
  obtain ⟨last, packets, hrun, hgrows', ⟨packet, hmem, hid, hlast⟩, hconsumed⟩ :=
    pushFilePackets_grows hne hpaths hgrows.wired hknown hstage
  refine ⟨packets, ?_, ?_, packet, hmem, hlast, ?_⟩
  · simp only [expandedPackets, hmanifest, hbase, hrun, Option.bind_some, bind, pure]
  · rw [scheduledShapes_eq]
    exact hgrows.trans hgrows'
  · rwa [hid]

theorem integrationGroupCount_le (inputs : ℕ) : integrationGroupCount inputs ≤ inputs := by
  induction inputs using Nat.strong_induction_on with
  | _ inputs ih =>
    rw [integrationGroupCount_eq]
    by_cases h : 3 < inputs
    · have hlt : thirds inputs < inputs ∧ 2 * thirds inputs ≤ inputs := by
        simp only [thirds]
        omega
      have hrest := ih _ hlt.1
      rw [if_pos h]
      omega
    · rw [if_neg h]
      omega

theorem reductionPackets_le {inputs : ℕ} (hpos : 0 < inputs) :
    reductionPackets inputs ≤ inputs := by
  induction inputs using Nat.strong_induction_on with
  | _ inputs ih =>
    rw [reductionPackets]
    by_cases h : 3 < inputs
    · have hlt : 0 < thirds inputs ∧ thirds inputs < inputs ∧ 2 * thirds inputs ≤ inputs := by
        simp only [thirds]
        omega
      have hrest := ih _ hlt.2.1 hlt.1
      rw [if_pos h]
      omega
    · rw [if_neg h]
      omega

theorem validateFiles_length {files : List WorkFile} (h : validateFiles files = .ok ()) :
    files ≠ [] ∧ files.length ≤ maxFilesPerPlan ∧ validateFilesFrom [] files = .ok () := by
  simpa only [validateFiles, bind_eq_ok, refuseIf_eq_ok, not_or, not_lt, exists_const,
    and_assoc] using h

structure AcceptedPath (path : String) : Prop where
  nonempty : path ≠ ""
  controls : ∀ c ∈ path.toList, isControl c = false

theorem acceptedPath_of_from {paths : List String} {files : List WorkFile}
    (h : validateFilesFrom paths files = .ok ()) : ∀ file ∈ files, AcceptedPath file.path := by
  induction files generalizing paths with
  | nil => simp
  | cons file files ih =>
    simp only [validateFilesFrom, bind_eq_ok, refuseIf_eq_ok, not_or, not_not, exists_const] at h
    obtain ⟨⟨htrim, hne, -, -, -, hparts, -, -⟩, -, hrest⟩ := h
    rw [← htrim] at hne hparts
    refine List.forall_mem_cons.mpr ⟨⟨hne, fun c hc => ?_⟩, ih hrest⟩
    by_cases hslash : c = '/' ∨ c = '\\'
    · rcases hslash with rfl | rfl <;> decide
    · obtain ⟨hslash, hback⟩ := not_or.mp hslash
      have hmem : c ∈ (replaceChar '\\' '/' file.path).toList := by
        rw [replaceChar, String.toList_ofList, List.mem_map]
        exact ⟨c, hc, if_neg hback⟩
      obtain ⟨part, hpart, hmem⟩ := exists_part hmem hslash
      have hvalid := (List.any_eq_false.mp (Bool.not_eq_true _ ▸ hparts)) part hpart
      simp only [invalidSegment, Bool.or_eq_true, not_or, List.any_eq_true, not_exists, not_and]
        at hvalid
      have hchar := hvalid.1.2 c hmem
      simpa using hchar.1.1.1.1.1.1.1

theorem acceptedPath {files : List WorkFile} (h : validateFiles files = .ok ()) {file : WorkFile}
    (hfile : file ∈ files) : AcceptedPath file.path :=
  acceptedPath_of_from (validateFiles_length h).2.2 file hfile

namespace Expansion

variable {id : String} {files : List WorkFile} {packets : List WorkPacket}

theorem shapes (h : Expansion id files packets) :
    packets.map WorkPacket.shape = scheduledShapes files (reductionPackets files.length) :=
  h.grows.looks_eq

theorem length (h : Expansion id files packets) : packets.length =
    11 + files.length * 6 + integrationGroupCount files.length +
      reductionPackets files.length * 2 := by
  rw [← length_scheduledShapes, ← h.shapes, List.length_map]

theorem length_lt (h : Expansion id files packets) (hfiles : validateFiles files = .ok ()) :
    packets.length < 10 ^ 3 := by
  obtain ⟨hne, hmax, -⟩ := validateFiles_length hfiles
  have hgroups := integrationGroupCount_le files.length
  have hreductions := reductionPackets_le (List.length_pos_iff.mpr hne)
  rw [h.length]
  rw [maxFilesPerPlan] at hmax
  omega

theorem placed (h : Expansion id files packets) {i : ℕ} {packet : WorkPacket}
    (hi : packets[i]? = some packet) :
    Placed id i packet ∧ ∀ x ∈ packet.dependencies, x ∈ (packets.take i).map (·.id) :=
  h.grows.wired.fits_getElem hi

theorem schedule (h : Expansion id files packets) (hfiles : validateFiles files = .ok ())
    {fuel : ℕ} (hfuel : files.length ≤ fuel) :
    validatePacketSchedule fuel packets files = some (.ok ()) := by
  obtain ⟨hne, -, -⟩ := validateFiles_length hfiles
  have hlt := h.length_lt hfiles
  have hexpect : expectDescriptors packets 0
      (scheduledShapes files (reductionPackets files.length)) = some (.ok packets.length) := by
    rw [expectDescriptors_eq_ok, ← h.shapes, List.length_map, Nat.zero_add]
    intro i expected hi
    rw [← h.shapes, List.getElem?_map, Option.map_eq_some_iff] at hi
    obtain ⟨packet, hpacket, rfl⟩ := hi
    obtain ⟨hplaced, -⟩ := h.placed hpacket
    obtain ⟨hilt, -⟩ := List.getElem?_eq_some_iff.mp hpacket
    have hordinal : packet.ordinal.toNat = i := by
      rw [hplaced.ordinal]
      exact UInt64.toNat_ofNat_of_lt' (show i < 2 ^ 64 by omega)
    rw [Nat.zero_add]
    refine ⟨packet, hpacket, ?_⟩
    simp only [expectDescriptor, bind_eq_ok, refuseIf_eq_ok, not_or, not_not]
    refine ⟨(), ?_, hordinal, trivial, ?_⟩
    · rw [hplaced.id]
      exact validateId_eq_ok.mpr (safeId_packetId (by omega) _ _)
    · rw [hplaced.id, WorkPacket.shape, startsWith_packetId]
      decide
  simp only [validatePacketSchedule, reductionToOneCount_eq (List.length_pos_iff.mpr hne) hfuel,
    hexpect, h.length, hne, false_or, ne_eq, not_true_eq_false, if_false]

end Expansion

theorem expandFiles_fresh {plan : WorkPlan} (hplan : Fresh plan) {files : List WorkFile}
    (hfiles : validateFiles files = .ok ()) : ∃ packets,
      expandedPackets plan.id files = some packets ∧ Expansion plan.id files packets ∧
      plan.expandFiles files = some (.ok (plan.withPackets packets)) ∧
      (plan.withPackets packets).validate = .ok () := by
  obtain ⟨hne, -, -⟩ := validateFiles_length hfiles
  obtain ⟨packets, hpackets, hexpansion⟩ := expandedPackets_eq plan.id hne
    fun file hfile => (acceptedPath hfiles hfile).nonempty
  have hvalid : (plan.withPackets packets).validate = .ok () := by
    apply validate_of_wired (plan.withPackets packets) hplan.schemaVersion hplan.id _
      hexpansion.grows.wired
    · have hlt := hexpansion.length_lt hfiles
      show packets.length ≤ 2 ^ 64
      omega
    · apply List.length_pos_iff.mp
      show 0 < packets.length
      rw [hexpansion.length]
      omega
  refine ⟨packets, hpackets, hexpansion, ?_, hvalid⟩
  simp only [expandedPackets, bind, Option.bind_eq_some_iff, pure, Option.some.injEq] at hpackets
  obtain ⟨manifest, hmanifest, base, hbase, ⟨last, after⟩, hrun, rfl⟩ := hpackets
  simp only [WorkPlan.expandFiles, hfiles, hplan.expanded, hplan.packets, hmanifest, hbase, hrun,
    Bool.false_eq_true, if_false, bind, Option.bind_some, pure]
  rw [hvalid]
  rfl

end AtomVibe.Work
