import AtomVibe.WorkReturns

namespace AtomVibe.Work

open Checked Text Json JsonText JsonRoundTrip JsonCodec Hash ChainFiles

theorem lossy_of_isIdChar {c : Char} (h : isIdChar c = true) : lossy c = false := by
  have hone : Lossless (String.ofList [c]) := lossless_of_idChars (by simpa [isIdChar] using h)
  exact hone c (by simp)

theorem SafeId.sanitize_eq {value : String} (h : SafeId value) : sanitize value = value :=
  (sanitize_eq_self_iff value).mpr (lossless_of_forall (fun _ => lossy_of_isIdChar) h.chars)

theorem AcceptedPath.sanitize_eq {path : String} (h : AcceptedPath path) : sanitize path = path :=
  (sanitize_eq_self_iff path).mpr fun c hc => lossy_of_not_control (h.controls c hc)

section Descriptors

variable {id : String} {files : List WorkFile} {packets : List WorkPacket}

theorem scheduledShapes_path {reductions : ℕ} : ∀ shape ∈ scheduledShapes files reductions,
    shape.2.2 = "" ∨ ∃ file ∈ files, shape.2.2 = file.path := by
  have hfile : ∀ file ∈ files, file.path = "" ∨ ∃ other ∈ files, file.path = other.path :=
    fun file hfile => .inr ⟨file, hfile, rfl⟩
  simp only [scheduledShapes, baseShapes, fileStages, List.forall_mem_append,
    List.forall_mem_flatMap, List.forall_mem_map, List.forall_mem_cons, List.mem_replicate]
  simp +contextual [hfile]

theorem Expansion.texts (h : Expansion id files packets) (hfiles : validateFiles files = .ok ())
    {packet : WorkPacket} (hpacket : packet ∈ packets) :
    SafeId packet.id ∧ sanitize packet.filePath = packet.filePath ∧
      ∀ x ∈ packet.dependencies, sanitize x = x := by
  have hsafe : ∀ packet ∈ packets, SafeId packet.id := by
    intro packet hpacket
    obtain ⟨i, hi, hget⟩ := List.mem_iff_getElem.mp hpacket
    have hplaced := (h.placed (List.getElem?_eq_some_iff.mpr ⟨hi, hget⟩)).1
    rw [hplaced.id]
    have hlt := h.length_lt hfiles
    exact safeId_packetId (by omega) _ _
  refine ⟨hsafe packet hpacket, ?_, ?_⟩
  · have hshape : packet.shape ∈ scheduledShapes files (reductionPackets files.length) := by
      rw [← h.shapes]
      exact List.mem_map_of_mem hpacket
    rcases scheduledShapes_path _ hshape with hnone | ⟨file, hfile, hpath⟩
    · rw [show packet.filePath = "" from hnone]
      rfl
    · rw [show packet.filePath = file.path from hpath]
      exact (acceptedPath hfiles hfile).sanitize_eq
  · intro x hx
    obtain ⟨i, hi, hget⟩ := List.mem_iff_getElem.mp hpacket
    have hknown := (h.placed (List.getElem?_eq_some_iff.mpr ⟨hi, hget⟩)).2 x hx
    obtain ⟨other, hother, rfl⟩ := List.mem_map.mp hknown
    exact (hsafe other (List.mem_of_mem_take hother)).sanitize_eq

theorem Expansion.first (h : Expansion id files packets) : ∃ packet rest,
    packets = packet :: rest ∧ packet.id = packetId id 0 .intent none := by
  have hshapes := h.shapes
  cases packets with
  | nil => simp [scheduledShapes, baseShapes] at hshapes
  | cons packet rest =>
    have hlooks : packet.shape = (.intent, .envelope, "") := by
      have hhead := congrArg List.head? hshapes
      simpa [scheduledShapes, baseShapes] using hhead
    have hplaced := (h.placed (i := 0) rfl).1.id
    obtain ⟨hstage, -, hpath⟩ : packet.stage = .intent ∧ packet.contract = .envelope ∧
        packet.filePath = "" := by simpa [WorkPacket.shape] using hlooks
    refine ⟨packet, rest, rfl, ?_⟩
    rw [hplaced, hstage, packetId, packetId]
    rw [WorkPacket.filePath] at hpath
    rw [hpath]
    rfl

theorem Expansion.sameDescriptor (h : Expansion id files packets)
    (hfiles : validateFiles files = .ok ()) {packet : WorkPacket} (hpacket : packet ∈ packets) :
    SameDescriptor packet.descriptor packet := by
  obtain ⟨hid, hpath, hdependencies⟩ := h.texts hfiles hpacket
  obtain ⟨i, hi, hget⟩ := List.mem_iff_getElem.mp hpacket
  have hplaced := (h.placed (List.getElem?_eq_some_iff.mpr ⟨hi, hget⟩)).1
  refine ⟨hid.sanitize_eq, rfl, rfl, rfl, ?_, rfl, ?_⟩
  · exact (List.map_congr_left hdependencies).trans (List.map_id _)
  · rw [WorkPacket.descriptor, hpath]
    cases hfile : packet.file with
    | none => simp [WorkPacket.filePath, hfile, evidenceFile]
    | some file =>
      have hne := hplaced.named file hfile
      simp [WorkPacket.filePath, hfile, evidenceFile, hne]

theorem Expansion.readDescriptors (h : Expansion id files packets)
    (hfiles : validateFiles files = .ok ()) :
    (packets.map fun packet => clean (descriptorDoc packet)).mapM readDescriptor =
      .ok (packets.map WorkPacket.descriptor) := by
  apply mapM_ok
  intro packet hpacket
  obtain ⟨hid, -⟩ := h.texts hfiles hpacket
  obtain ⟨i, hi, hget⟩ := List.mem_iff_getElem.mp hpacket
  exact readDescriptor_clean hid.nonempty
    (h.placed (List.getElem?_eq_some_iff.mpr ⟨hi, hget⟩)).1.bound

end Descriptors

def StoredAs (manifest : String) (files : List WorkFile) (descriptors : List WorkPacket)
    (canonical : WorkPlan) : Prop :=
  ∃ value values identity, parse manifest = .ok value ∧
    (value.get "packets").bind JsonValue.asArray = some values ∧
    values.mapM readDescriptor = .ok descriptors ∧ readIdentity value = .ok identity ∧
    identity.canonical files = some (.ok canonical)

structure WellScheduled (expanded : WorkPlan) (files : List WorkFile) : Prop where
  valid : expanded.validate = .ok ()
  earlier : ∀ (i : ℕ) (packet : WorkPacket), expanded.packets[i]? = some packet →
    ∀ x ∈ packet.dependencies,
      ∃ j < i, ∃ other : WorkPacket, expanded.packets[j]? = some other ∧ other.id = x
  few : ∀ packet ∈ expanded.packets, packet.dependencies.length ≤ 3
  consumed : ∃ last ∈ expanded.packets, last.stage = .finalization ∧ ∀ file ∈ files,
    ∃ packet ∈ expanded.packets, packet.stage = .finalCorrection ∧ packet.filePath = file.path ∧
      Consumed expanded.packets packet.id last.id

def RebuiltFromManifest (expanded : WorkPlan) (files : List WorkFile) : Prop :=
  ∃ descriptors canonical, StoredAs (manifestText expanded) files descriptors canonical ∧
    (∃ fuel, validatePacketSchedule fuel descriptors files = some (.ok ())) ∧
    canonical.id = expanded.id ∧ List.Forall₂ SameDescriptor descriptors canonical.packets

def ExpandsCanonically (plan : WorkPlan) (files : List WorkFile) : Prop :=
  ∃ expanded, plan.expandFiles files = some (.ok expanded) ∧ WellScheduled expanded files ∧
    RebuiltFromManifest expanded files

def storedId (plan : WorkPlan) : String :=
  planId (planSeed (sha256Tagged (asBytes plan.intent)) (sanitize plan.recipeId)
    (plan.atomStack.map sanitize) (sha256Tagged (asBytes plan.fingerprint)))

theorem expectDescriptor_congr {left right : WorkPacket} (h : SameDescriptor left right)
    (ordinal : ℕ) (expected : Shape) :
    expectDescriptor left ordinal expected = expectDescriptor right ordinal expected := by
  obtain ⟨hid, hordinal, hstage, hcontract, -, -, hfile⟩ := h
  have hshape : left.shape = right.shape := by
    rw [WorkPacket.shape, WorkPacket.shape, WorkPacket.filePath, WorkPacket.filePath, hstage,
      hcontract, hfile]
  rw [expectDescriptor, expectDescriptor, hid, hordinal, hshape]

theorem validatePacketSchedule_descriptors {packets : List WorkPacket}
    (h : ∀ packet ∈ packets, SameDescriptor packet.descriptor packet) (fuel : ℕ)
    (files : List WorkFile) :
    validatePacketSchedule fuel (packets.map WorkPacket.descriptor) files =
      validatePacketSchedule fuel packets files := by
  have hexpect : ∀ shapes index, expectDescriptors (packets.map WorkPacket.descriptor) index shapes =
      expectDescriptors packets index shapes := by
    intro shapes
    induction shapes with
    | nil => exact fun index => rfl
    | cons expected rest ih =>
      intro index
      rw [expectDescriptors, expectDescriptors, List.getElem?_map]
      cases hpacket : packets[index]? with
      | none => rfl
      | some packet =>
        have hsame := h packet (List.mem_of_getElem? hpacket)
        simp only [Option.map_some, expectDescriptor_congr hsame, ih]
  simp only [validatePacketSchedule, hexpect, List.length_map]

section Expanded

variable {plan : WorkPlan} {files : List WorkFile} {packets : List WorkPacket}

theorem wellScheduled_of_expansion (h : Expansion plan.id files packets)
    (hvalid : (plan.withPackets packets).validate = .ok ()) :
    WellScheduled (plan.withPackets packets) files := by
  obtain ⟨last, hlast, hstage, hconsumed⟩ := h.consumed
  refine ⟨hvalid, ?_, ?_, last, hlast, hstage, ?_⟩
  · intro i packet hi x hx
    obtain ⟨other, hother, rfl⟩ := List.mem_map.mp ((h.placed hi).2 x hx)
    obtain ⟨j, hj, hget⟩ := List.mem_iff_getElem.mp hother
    rw [List.getElem_take] at hget
    rw [List.length_take, lt_min_iff] at hj
    exact ⟨j, hj.1, other, List.getElem?_eq_some_iff.mpr ⟨hj.2, hget⟩, rfl⟩
  · intro packet hpacket
    obtain ⟨i, hi, hget⟩ := List.mem_iff_getElem.mp hpacket
    exact (h.placed (List.getElem?_eq_some_iff.mpr ⟨hi, hget⟩)).1.few
  · intro file hfile
    have hshape : (WorkStage.finalCorrection, PacketContract.fileArtifact, file.path) ∈
        packets.map WorkPacket.shape := by
      rw [h.shapes, scheduledShapes]
      simp only [List.mem_append]
      exact .inl (.inl (.inr (List.mem_map_of_mem hfile)))
    obtain ⟨packet, hpacket, hlooks⟩ := List.mem_map.mp hshape
    obtain ⟨hfinal, -, hpath⟩ : packet.stage = _ ∧ packet.contract = _ ∧ packet.filePath = _ := by
      simpa [WorkPacket.shape] using hlooks
    exact ⟨packet, hpacket, hfinal, hpath, hconsumed packet hpacket hfinal⟩

theorem storedAs_manifestText (h : Expansion plan.id files packets)
    (hfiles : validateFiles files = .ok ()) {descriptors : List WorkPacket} {canonical : WorkPlan} :
    StoredAs (manifestText (plan.withPackets packets)) files descriptors canonical ↔
      descriptors = packets.map WorkPacket.descriptor ∧ canonical.id = storedId plan ∧
        ∃ rebuilt, expandedPackets (storedId plan) files = some rebuilt ∧
          Expansion (storedId plan) files rebuilt ∧
          canonical = (basePlan "manifest-verification" (sanitize plan.recipeId)
            (plan.atomStack.map sanitize) "manifest-verification"
            (sha256Tagged (asBytes plan.intent))
            (sha256Tagged (asBytes plan.fingerprint))).withPackets rebuilt := by
  have hvalue := parse_manifestText (plan.withPackets packets)
  have hvalues : (clean (manifestDoc (plan.withPackets packets))).get "packets" =
      some (.array (packets.map fun packet => clean (descriptorDoc packet))) := by
    have hget : (manifestDoc (plan.withPackets packets)).get "packets" =
      some (arrayDoc descriptorDoc packets) := rfl
    rw [get_clean hget, arrayDoc, clean, List.map_map]
    rfl
  have hread := h.readDescriptors hfiles
  have hidentity := readIdentity_clean (plan.withPackets packets)
  obtain ⟨rebuilt, hcanonical, hexpanded, hexpansion⟩ := canonical_returns
    { intentHash := sha256Tagged (asBytes plan.intent)
      fingerprintHash := sha256Tagged (asBytes plan.fingerprint)
      atomStack := plan.atomStack.map sanitize
      recipeId := sanitize plan.recipeId } hfiles
  constructor
  · rintro ⟨value, values, identity, hv, hvs, hds, hid, hc⟩
    obtain rfl := Except.ok.inj (hvalue.symm.trans hv)
    rw [hvalues] at hvs
    obtain rfl := Option.some.inj hvs
    obtain rfl := Except.ok.inj (hread.symm.trans hds)
    obtain rfl := Except.ok.inj (hidentity.symm.trans hid)
    obtain rfl := Except.ok.inj (Option.some.inj (hcanonical.symm.trans hc))
    exact ⟨rfl, rfl, rebuilt, hexpanded, hexpansion, rfl⟩
  · rintro ⟨rfl, -, rebuilt', hrebuilt, -, rfl⟩
    obtain rfl := Option.some.inj (hexpanded.symm.trans hrebuilt)
    exact ⟨_, _, _, hvalue, by rw [hvalues]; rfl, hread, hidentity, hcanonical⟩

theorem rebuiltFromManifest_iff (h : Expansion plan.id files packets)
    (hpackets : expandedPackets plan.id files = some packets)
    (hfiles : validateFiles files = .ok ()) :
    RebuiltFromManifest (plan.withPackets packets) files ↔ storedId plan = plan.id := by
  constructor
  · rintro ⟨descriptors, canonical, hstored, -, hid, -⟩
    rw [← ((storedAs_manifestText h hfiles).mp hstored).2.1, hid]
    rfl
  · intro hid
    have hsame : ∀ packet ∈ packets, SameDescriptor packet.descriptor packet :=
      fun packet hpacket => h.sameDescriptor hfiles hpacket
    refine ⟨packets.map WorkPacket.descriptor, _, (storedAs_manifestText h hfiles).mpr
      ⟨rfl, ?_, packets, by rw [hid, hpackets], by rwa [hid], rfl⟩, ⟨files.length, ?_⟩, hid, ?_⟩
    · rfl
    · rw [validatePacketSchedule_descriptors hsame]
      exact h.schedule hfiles le_rfl
    · rw [List.forall₂_map_left_iff]
      exact List.forall₂_same.mpr hsame

end Expanded

/-- An expanded plan always is well scheduled; it is the one rebuilt from its manifest exactly
when its identity survives the escape. -/
theorem expansion_is_canonical_iff {intent recipeId fingerprint : String} {atomStack : List String}
    {plan : WorkPlan} {files : List WorkFile}
    (hplan : meticulous intent recipeId atomStack fingerprint = .ok plan)
    (hfiles : validateFiles files = .ok ()) :
    (∃ expanded, plan.expandFiles files = some (.ok expanded) ∧ WellScheduled expanded files) ∧
      (ExpandsCanonically plan files ↔ storedId plan = plan.id) := by
  have hfresh : Fresh plan := by
    obtain ⟨-, rfl⟩ := meticulous_eq_ok.mp hplan
    exact fresh_basePlan _ _ _ _ _ _
  obtain ⟨packets, hpackets, hexpansion, hexpand, hvalid⟩ := expandFiles_fresh hfresh hfiles
  have hscheduled := wellScheduled_of_expansion hexpansion hvalid
  have hrebuilt := rebuiltFromManifest_iff hexpansion hpackets hfiles
  refine ⟨⟨_, hexpand, hscheduled⟩, ?_⟩
  constructor
  · rintro ⟨expanded, hexpanded, -, hmanifest⟩
    obtain rfl := Except.ok.inj (Option.some.inj (hexpand.symm.trans hexpanded))
    exact hrebuilt.mp hmanifest
  · exact fun hid => ⟨_, hexpand, hscheduled, hrebuilt.mpr hid⟩

def controlPlan : WorkPlan :=
  basePlan "abc" "\x01" [] "abc" (sha256Tagged (asBytes "abc")) (sha256Tagged (asBytes "abc"))

def onlyFile : WorkFile := ⟨"a", "p", ["x"]⟩

theorem meticulous_controlPlan : meticulous "abc" "\x01" [] "abc" = .ok controlPlan := by
  have htrim : trim "abc" = "abc" := by decide
  apply meticulous_eq_ok.mpr
  rw [htrim]
  exact ⟨by decide, rfl⟩

theorem validateFiles_onlyFile : validateFiles [onlyFile] = .ok () := by decide

theorem expansion_is_canonical_of_abc :
    (∃ expanded, controlPlan.expandFiles [onlyFile] = some (.ok expanded) ∧
        WellScheduled expanded [onlyFile]) ∧
      (ExpandsCanonically controlPlan [onlyFile] ↔ storedId controlPlan = controlPlan.id) :=
  expansion_is_canonical_iff meticulous_controlPlan validateFiles_onlyFile

def abcHash : String := "sha256:ba7816bf8f01cfea414140de5dae2223b00361a396177a9cb410ff61f20015ad"

theorem controlPlan_ids : controlPlan.id = "work-652ad33c663eb43b487480ed" ∧
    storedId controlPlan = "work-f200013043647426b35e76cd" := by
  have hhash : sha256Tagged (asBytes "abc") = abcHash := by decide +kernel
  have hrecipe : sanitize "\x01" = " " := by decide
  constructor
  · rw [controlPlan, basePlan, hhash]
    decide +kernel
  · rw [storedId, controlPlan, basePlan, hhash, hrecipe]
    decide +kernel

theorem expansion_may_differ_from_its_manifest :
    meticulous "abc" "\x01" [] "abc" = .ok controlPlan ∧ validateFiles [onlyFile] = .ok () ∧
      ¬∃ expanded descriptors canonical,
        controlPlan.expandFiles [onlyFile] = some (.ok expanded) ∧
          StoredAs (manifestText expanded) [onlyFile] descriptors canonical ∧
          List.Forall₂ SameDescriptor descriptors canonical.packets := by
  refine ⟨meticulous_controlPlan, validateFiles_onlyFile, ?_⟩
  rintro ⟨expanded, descriptors, canonical, hexpanded, hstored, hsame⟩
  have hfresh : Fresh controlPlan := fresh_basePlan _ _ _ _ _ _
  obtain ⟨packets, -, hexpansion, hexpand, -⟩ := expandFiles_fresh hfresh validateFiles_onlyFile
  obtain rfl := Except.ok.inj (Option.some.inj (hexpand.symm.trans hexpanded))
  obtain ⟨rfl, -, rebuilt, -, hrebuilt, rfl⟩ :=
    (storedAs_manifestText hexpansion validateFiles_onlyFile).mp hstored
  obtain ⟨packet, rest, rfl, hid⟩ := hexpansion.first
  obtain ⟨packet', rest', rfl, hid'⟩ := hrebuilt.first
  have hmem : packet ∈ packet :: rest := List.mem_cons_self
  obtain ⟨hsafe, -⟩ := hexpansion.texts validateFiles_onlyFile hmem
  have hfirst := (List.forall₂_cons.mp hsame).1.1
  rw [WorkPacket.descriptor, hsafe.sanitize_eq, hid, hid', controlPlan_ids.1,
    controlPlan_ids.2] at hfirst
  exact absurd hfirst (by decide +kernel)

end AtomVibe.Work
