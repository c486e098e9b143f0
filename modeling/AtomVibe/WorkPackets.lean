import AtomVibe.Foundations.Transition
import AtomVibe.WorkCanonical
import AtomVibe.WorkFence

/-! The packets of a plan in their store: whatever is stored later, what was stored is loaded. -/

namespace AtomVibe.Work

open Checked Text JsonText Hash EvidenceDisk Transition

section Files

variable {files files' files'' : Files} {path : Path}

/-- No file is lost or changed. -/
def Grows (files files' : Files) : Prop :=
  ∀ path bytes, files.lookup path = some bytes → files'.lookup path = some bytes

theorem Grows.trans (h : Grows files files') (h' : Grows files' files'') : Grows files files'' :=
  fun path bytes hlookup => h' path bytes (h path bytes hlookup)

theorem isDir_iff : isDir files path = true ↔ ∃ file bytes, files.lookup file = some bytes ∧
    path <+: file ∧ path.length < file.length := by
  simp only [isDir, List.any_eq_true, Bool.and_eq_true, List.isPrefixOf_iff_prefix, decide_eq_true_eq,
    Prod.exists, Catalog.lookup_eq_some]

theorem splitOn_parts (parts : Path) (h : ∀ part ∈ parts, '/' ∉ part.toList) :
    splitOn '/' (parts.flatMap fun part => '/' :: part.toList) = [] :: parts.map (·.toList) := by
  have hjoined : ∀ cs rest : List Char, '/' ∉ cs → ∀ tail, splitOn '/' rest = [] :: tail →
      splitOn '/' (cs ++ rest) = cs :: tail := by
    intro cs rest hcs tail hrest
    induction cs with
    | nil => exact hrest
    | cons c cs ih =>
      obtain ⟨hc, hcs⟩ := not_or.mp (fun hmem => hcs (List.mem_cons.mpr hmem))
      rw [List.cons_append, splitOn, if_neg (Ne.symm hc), ih hcs]
  induction parts with
  | nil => rfl
  | cons part parts ih =>
    obtain ⟨hpart, hparts⟩ := List.forall_mem_cons.mp h
    rw [List.flatMap_cons, List.cons_append, splitOn, if_pos rfl,
      hjoined _ _ hpart _ (ih hparts), List.map_cons]

theorem resolve_pathText (h : IsCanonical path) : resolve (pathText path) = some path := by
  cases path with
  | nil => decide
  | cons part parts =>
    have hfold : ∀ rest acc : Path, IsCanonical rest → rest.foldl (fun path part =>
        if part = "" ∨ part = "." then path else if part = ".." then path.dropLast
        else path ++ [part]) acc = acc ++ rest := by
      intro rest
      induction rest with
      | nil => simp
      | cons part rest ih =>
        intro acc hrest
        obtain ⟨⟨-, hempty, hdot, hup⟩, hparts⟩ := List.forall_mem_cons.mp hrest
        rw [List.foldl_cons, if_neg (not_or.mpr ⟨hempty, hdot⟩), if_neg hup, ih _ hparts,
          List.append_assoc, List.singleton_append]
    have htext : (pathText (part :: parts)).toList =
        (part :: parts).flatMap fun part => '/' :: part.toList := by
      rw [pathText, if_neg (List.cons_ne_nil _ _), String.toList_ofList]
    rw [resolve, startsWith, htext, splitOn_parts _ fun part hpart => (h part hpart).slash]
    have hparts : ((part :: parts).map (·.toList)).map String.ofList = part :: parts := by
      rw [List.map_map]
      exact (List.map_congr_left fun part _ => String.ofList_toList).trans (List.map_id _)
    rw [if_pos (by rfl), List.map_cons, hparts, List.foldl_cons, if_pos (.inl rfl), hfold _ _ h]
    rfl

end Files

section Names

variable {id safeOutput : String}

theorem SafeId.isPart (h : SafeId id) : IsPart id where
  slash hmem := absurd (h.chars _ hmem) (by decide)
  plain := by
    refine ⟨h.nonempty, ?_, ?_⟩
    · rintro rfl
      exact absurd (h.chars '.' (by decide)) (by decide)
    · rintro rfl
      exact absurd (h.chars '.' (by decide)) (by decide)

theorem isPart_artifactName (safeOutput : String) : IsPart (artifactName safeOutput) where
  slash hmem := by
    rw [artifactName, String.toList_append, List.mem_append] at hmem
    rcases hmem with hmem | hmem
    · exact absurd (isLowerHex_sha256Hex hmem) (by decide)
    · exact absurd hmem (by decide)
  plain := by
    have hsize : (artifactName safeOutput).utf8ByteSize = 68 := by
      rw [artifactName, String.utf8ByteSize_append, utf8ByteSize_sha256Hex]
      rfl
    refine ⟨?_, ?_, ?_⟩ <;>
    · intro h
      rw [h] at hsize
      exact absurd hsize (by decide)

theorem lossless_artifactName (safeOutput : String) : Lossless (artifactName safeOutput) :=
  lossless_append.mpr ⟨fun c hc => lossy_of_isAsciiHexdigit
    (isAsciiHexdigit_of_isLowerHex (isLowerHex_sha256Hex hc)), by decide⟩

theorem lossless_pathText {path : Path} (h : ∀ part ∈ path, Lossless part) : Lossless (pathText path) := by
  rw [pathText]
  split_ifs with hroot
  · decide
  · intro c hc
    rw [String.toList_ofList, List.mem_flatMap] at hc
    obtain ⟨part, hpart, hc⟩ := hc
    rcases List.mem_cons.mp hc with rfl | hc
    · decide
    · exact h part hpart c hc

theorem metadataName_ordinal {packet packet' : WorkPacket}
    (h : metadataName packet = metadataName packet') : packet.ordinal = packet'.ordinal := by
  have hdash : ∀ n, (padded 3 n).toList.count '-' = 0 := by
    intro n
    rw [List.count_eq_zero]
    intro hmem
    exact absurd (padded_isAsciiDigit hmem) (by decide)
  have htext := congrArg String.toList h
  simp only [metadataName, String.toList_append, List.append_assoc] at htext
  have hnumber := (Separated.append_count ((hdash _).trans (hdash _).symm) htext).1
  exact UInt64.toNat_inj.mp (Nat.succ_injective (padded_injective 3 (String.toList_inj.mp hnumber)))

end Names

section Store

variable {rust : RustText} {plan : WorkPlan} {packet : WorkPacket} {output safeOutput model : String}
  {files files' : Files} {store : WorkPlanStore}

theorem context_eq {validated : ValidatedPacketOutput}
    (h : validatePacketOutput rust packet output = .ok validated) :
    validated.context = trim output ∧ isBlank output = false ∧
      output.utf8ByteSize ≤ maxPacketOutputBytes := by
  simp only [validatePacketOutput, bind_eq_ok, refuseIf_eq_ok, not_or, not_lt, Bool.not_eq_true] at h
  obtain ⟨-, ⟨-, hsize⟩, -, hblank, h⟩ := h
  refine ⟨?_, hblank, hsize⟩
  split at h
  · simp only [validateEnvelope, bind_eq_ok, pure_eq_ok] at h
    obtain ⟨_, -, _, -, _, -, _, -, _, -, _, -, _, -, _, -, rfl⟩ := h
    rfl
  · simp only [validateManifest, bind_eq_ok, pure_eq_ok] at h
    obtain ⟨_, -, _, -, _, -, _, -, _, -, _, -, _, -, rfl⟩ := h
    rfl
  · simp only [validateFileArtifact, bind_eq_ok, pure_eq_ok] at h
    obtain ⟨_, -, rfl⟩ := h
    rfl

theorem trim_size_le (s : String) : (trim s).utf8ByteSize ≤ s.utf8ByteSize := by
  have hpart : ((s.toList.dropWhile isWhitespace).reverse.dropWhile isWhitespace).reverse.Sublist
      s.toList := by
    have hback := (List.dropWhile_sublist isWhitespace
      (l := (s.toList.dropWhile isWhitespace).reverse)).reverse
    rw [List.reverse_reverse] at hback
    exact hback.trans (List.dropWhile_sublist _)
  rw [utf8ByteSize_eq, utf8ByteSize_eq, trim, String.toList_ofList]
  exact (hpart.map _).sum_le_sum fun _ _ => Nat.zero_le _

theorem acceptOutput_spec (h : acceptOutput rust plan packet output = .ok safeOutput) :
    plan.validate = .ok () ∧ packet ∈ plan.packets ∧ safeOutput ≠ "" ∧
      safeOutput.utf8ByteSize ≤ maxPacketOutputBytes := by
  simp only [acceptOutput, bind_eq_ok, refuseIf_eq_ok, pure_eq_ok, not_not] at h
  obtain ⟨⟨⟩, hplan, _, hpacket, validated, hvalidated, rfl⟩ := h
  have hshown : ∃ shown, validatePacketOutput rust packet shown = .ok validated := by
    rw [validateSecurePacketOutput] at hvalidated
    split at hvalidated
    · obtain ⟨-, -, hvalidated⟩ := bind_eq_ok.mp hvalidated
      exact ⟨_, hvalidated⟩
    · exact ⟨_, hvalidated⟩
    · exact ⟨_, hvalidated⟩
  obtain ⟨shown, hshown⟩ := hshown
  obtain ⟨hcontext, hblank, hsize⟩ := context_eq hshown
  refine ⟨hplan, hpacket, ?_, ?_⟩
  · rw [hcontext, ne_eq, trim_eq_empty_iff, hblank]
    decide
  · rw [hcontext]
    exact (trim_size_le shown).trans hsize

theorem writeImmutableVerified_spec {path : Path} {bytes : ByteArray} {result : Except WorkError Unit}
    (h : writeImmutableVerified files path bytes = (result, files')) :
    Grows files files' ∧ (∀ other, other ≠ path → files'.lookup other = files.lookup other) ∧
      (result = .ok () → files'.lookup path = some bytes) ∧
      (∀ error, result = .error error → files' = files) := by
  rw [writeImmutableVerified] at h
  split at h
  · next existing hexisting =>
    split_ifs at h with hsame
    · obtain ⟨rfl, rfl⟩ := Prod.mk.inj h
      exact ⟨fun _ _ h => h, fun _ _ => rfl, fun _ => hsame ▸ hexisting, fun _ _ => rfl⟩
    · obtain ⟨rfl, rfl⟩ := Prod.mk.inj h
      exact ⟨fun _ _ h => h, fun _ _ => rfl, fun h => absurd h (by simp), fun _ _ => rfl⟩
  · next hfree =>
    obtain ⟨rfl, rfl⟩ := Prod.mk.inj h
    refine ⟨fun other value hother => ?_, fun other hother => ?_, fun _ => ?_, by simp⟩
    · rw [Catalog.lookup_insert, if_neg, hother]
      rintro rfl
      rw [hfree] at hother
      exact absurd hother (by simp)
    · rw [Catalog.lookup_insert, if_neg hother]
    · rw [Catalog.lookup_insert, if_pos rfl]

def WorkPlanStore.artifactPath (store : WorkPlanStore) (plan : WorkPlan) (safeOutput : String) : Path :=
  store.root ++ [plan.id] ++ ["outputs", artifactName safeOutput]

def WorkPlanStore.recordPath (store : WorkPlanStore) (plan : WorkPlan) (packet : WorkPacket) : Path :=
  store.root ++ [plan.id] ++ [metadataName packet]

theorem planDir_eq_ok {id : String} {dir : Path} :
    store.planDir id = .ok dir ↔ SafeId id ∧ dir = store.root ++ [id] := by
  simp only [WorkPlanStore.planDir, bind_eq_ok, pure_eq_ok, ← validateId_eq_ok]
  exact ⟨fun ⟨_, hid, hdir⟩ => ⟨hid, hdir.symm⟩, fun ⟨hid, hdir⟩ => ⟨(), hid, hdir.symm⟩⟩

theorem metadataPath_eq_ok {path : Path} : store.metadataPath plan packet = .ok path ↔
    SafeId plan.id ∧ SafeId packet.id ∧ path = store.recordPath plan packet := by
  simp only [WorkPlanStore.metadataPath, bind_eq_ok, pure_eq_ok, planDir_eq_ok, ← validateId_eq_ok]
  constructor
  · rintro ⟨⟨⟩, hplan, ⟨⟩, hpacket, _, ⟨-, rfl⟩, rfl⟩
    exact ⟨hplan, hpacket, rfl⟩
  · rintro ⟨hplan, hpacket, rfl⟩
    exact ⟨(), hplan, (), hpacket, _, ⟨hplan, rfl⟩, rfl⟩

theorem canonicalize_artifactPath (hplan : SafeId plan.id) {bytes : ByteArray}
    (hartifact : files.lookup (store.artifactPath plan safeOutput) = some bytes) :
    (diskOf files).canonicalize (pathText (store.artifactPath plan safeOutput)) =
      .ok (store.artifactPath plan safeOutput) := by
  have hparts : IsCanonical (store.artifactPath plan safeOutput) := by
    simp only [IsCanonical, WorkPlanStore.artifactPath, List.forall_mem_append, List.forall_mem_cons]
    exact ⟨⟨store.canonical, hplan.isPart, by simp⟩, ⟨by decide, by decide⟩,
      isPart_artifactName safeOutput, by simp⟩
  have hpresent : isPresent files (store.artifactPath plan safeOutput) = true := by
    rw [isPresent, hartifact]
    rfl
  simp only [diskOf, ofFiles, resolve_pathText hparts, hpresent, if_true]

/-- The record of a packet passes its check as soon as its output is in place. -/
theorem verifyRecord_recordOf (hplan : SafeId plan.id) (hne : safeOutput ≠ "")
    (hartifact : files.lookup (store.artifactPath plan safeOutput) = some safeOutput.toByteArray) :
    store.verifyRecord files plan packet
      (recordOf plan packet model (store.artifactPath plan safeOutput) safeOutput) model = .ok () := by
  have hpart : ∀ part ∈ store.root ++ [plan.id], IsPart part := by
    simp only [List.forall_mem_append, List.forall_mem_singleton]
    exact ⟨store.canonical, hplan.isPart⟩
  have hdir : (diskOf files).canonicalize (pathText (store.root ++ [plan.id])) =
      .ok (store.root ++ [plan.id]) := by
    have hpresent : isPresent files (store.root ++ [plan.id]) = true := by
      rw [isPresent, Bool.or_eq_true, isDir_iff]
      exact .inr ⟨_, _, hartifact, List.prefix_append _ _, by simp [WorkPlanStore.artifactPath]⟩
    simp only [diskOf, ofFiles, resolve_pathText hpart, hpresent, if_true]
  have hread : (diskOf files).read (store.artifactPath plan safeOutput) = .ok safeOutput.toByteArray := by
    simp only [diskOf, ofFiles, hartifact]
  have hunder : isUnder (store.root ++ [plan.id]) (store.artifactPath plan safeOutput) = true :=
    List.isPrefixOf_iff_prefix.mpr (List.prefix_append _ _)
  have hsize : safeOutput.utf8ByteSize ≠ 0 := fun h => hne (String.utf8ByteSize_eq_zero_iff.mp h)
  rw [WorkPlanStore.verifyRecord]
  simp only [recordOf, planDir_eq_ok.mpr ⟨hplan, rfl⟩, hdir, hread,
    canonicalize_artifactPath hplan hartifact, hunder, ioError, Except.mapError,
    ok_bind, String.size_toByteArray, validSha256Tag_sha256Tagged, asBytes]
  simp [refuseIf, hsize]

/-- What a call leaves of a packet it has stored. -/
structure InPlace (store : WorkPlanStore) (plan : WorkPlan) (packet : WorkPacket)
    (model safeOutput : String) (files : Files) : Prop where
  planId : SafeId plan.id
  packetId : SafeId packet.id
  nonempty : safeOutput ≠ ""
  size : safeOutput.utf8ByteSize ≤ maxPacketOutputBytes
  artifact : files.lookup (store.artifactPath plan safeOutput) = some safeOutput.toByteArray
  record : files.lookup (store.recordPath plan packet) =
    some (recordOf plan packet model (store.artifactPath plan safeOutput) safeOutput).toJson.toByteArray

theorem InPlace.grows (h : InPlace store plan packet model safeOutput files) (hgrows : Grows files files') :
    InPlace store plan packet model safeOutput files' :=
  { h with
    artifact := hgrows _ _ h.artifact
    record := hgrows _ _ h.record }

/-- A call stores its packet, or it fails and leaves no record. -/
theorem storePacket_spec {result : Except WorkError StoredPacket}
    (h : store.storePacket rust plan packet output model files = (result, files')) :
    Grows files files' ∧
      ((∃ record safeOutput, result = .ok record ∧ acceptOutput rust plan packet output = .ok safeOutput ∧
          InPlace store plan packet model safeOutput files' ∧
          ∀ path, path.length = store.root.length + 2 → path ≠ store.recordPath plan packet →
            files'.lookup path = files.lookup path) ∨
        (∃ error, result = .error error) ∧
          ∀ path, path.length = store.root.length + 2 → files'.lookup path = files.lookup path) := by
  have hrefl : Grows files files := fun _ _ h => h
  rw [WorkPlanStore.storePacket] at h
  cases haccepted : (do return (← acceptOutput rust plan packet output, ← store.planDir plan.id) :
      Except WorkError (String × Path)) with
  | error error =>
    rw [haccepted] at h
    obtain ⟨rfl, rfl⟩ := Prod.mk.inj h
    exact ⟨hrefl, .inr ⟨⟨_, rfl⟩, fun _ _ => rfl⟩⟩
  | ok accepted =>
    obtain ⟨_, _⟩ := accepted
    rw [haccepted] at h
    simp only [bind_eq_ok, pure_eq_ok, Prod.mk.injEq, planDir_eq_ok] at haccepted
    obtain ⟨safeOutput, haccept, _, ⟨hplan, rfl⟩, rfl, rfl⟩ := haccepted
    obtain ⟨-, -, hne, hsize⟩ := acceptOutput_spec haccept
    have hapart : ∀ path : Path, path.length = store.root.length + 2 →
        path ≠ store.artifactPath plan safeOutput := by
      rintro path hlength rfl
      simp [WorkPlanStore.artifactPath] at hlength
    obtain ⟨written, files₁, hartifact⟩ : ∃ written files₁, writeImmutableVerified files
      (store.artifactPath plan safeOutput) safeOutput.toByteArray = (written, files₁) := ⟨_, _, rfl⟩
    obtain ⟨hgrows, hothers, hwritten, -⟩ := writeImmutableVerified_spec hartifact
    have hkept : ∀ path : Path, path.length = store.root.length + 2 →
        files₁.lookup path = files.lookup path := fun path hlength => hothers path (hapart path hlength)
    have hpath : store.root ++ [plan.id] ++ ["outputs", artifactName safeOutput] =
      store.artifactPath plan safeOutput := rfl
    simp only [hpath, hartifact] at h
    cases written with
    | error error =>
      obtain ⟨rfl, rfl⟩ := Prod.mk.inj h
      exact ⟨hgrows, .inr ⟨⟨_, rfl⟩, hkept⟩⟩
    | ok =>
      cases hmetadata : store.metadataPath plan packet with
      | error error =>
        simp only [hmetadata] at h
        obtain ⟨rfl, rfl⟩ := Prod.mk.inj h
        exact ⟨hgrows, .inr ⟨⟨_, rfl⟩, hkept⟩⟩
      | ok metadata =>
        simp only [hmetadata] at h
        obtain ⟨-, hpacket, rfl⟩ := metadataPath_eq_ok.mp hmetadata
        obtain ⟨recorded, files₂, hrecord⟩ : ∃ recorded files₂, writeImmutableVerified files₁
          (store.recordPath plan packet) (recordOf plan packet model (store.artifactPath plan safeOutput)
            safeOutput).toJson.toByteArray = (recorded, files₂) := ⟨_, _, rfl⟩
        obtain ⟨hgrows', hothers', hwritten', hfailed⟩ := writeImmutableVerified_spec hrecord
        rw [hrecord] at h
        cases recorded with
        | error error =>
          obtain ⟨rfl, rfl⟩ := Prod.mk.inj h
          rw [hfailed error rfl]
          exact ⟨hgrows, .inr ⟨⟨_, rfl⟩, hkept⟩⟩
        | ok =>
          have hplace : InPlace store plan packet model safeOutput files₂ :=
            ⟨hplan, hpacket, hne, hsize, hgrows' _ _ (hwritten rfl), hwritten' rfl⟩
          simp only [verifyRecord_recordOf hplan hne hplace.artifact] at h
          obtain ⟨rfl, rfl⟩ := Prod.mk.inj h
          refine ⟨hgrows.trans hgrows', .inl ⟨_, safeOutput, rfl, haccept, hplace, ?_⟩⟩
          intro path hlength hne
          rw [hothers' path hne, hkept path hlength]

theorem storePacket_fresh (haccept : acceptOutput rust plan packet output = .ok safeOutput)
    (hplan : SafeId plan.id) (hpacket : SafeId packet.id)
    (hartifact : files.lookup (store.artifactPath plan safeOutput) = none)
    (hrecord : files.lookup (store.recordPath plan packet) = none) :
    ∃ record, (store.storePacket rust plan packet output model files).1 = .ok record := by
  obtain ⟨-, -, hne, -⟩ := acceptOutput_spec haccept
  have hapart : store.recordPath plan packet ≠ store.artifactPath plan safeOutput := fun h => by
    simpa [WorkPlanStore.recordPath, WorkPlanStore.artifactPath] using congrArg List.length h
  rw [WorkPlanStore.artifactPath] at hartifact hapart
  simp only [WorkPlanStore.storePacket, haccept, planDir_eq_ok.mpr ⟨hplan, rfl⟩, ok_bind, pure,
    Except.pure, writeImmutableVerified, hartifact, metadataPath_eq_ok.mpr ⟨hplan, hpacket, rfl⟩,
    Catalog.lookup_insert, if_neg hapart, hrecord]
  rw [← WorkPlanStore.artifactPath, verifyRecord_recordOf hplan hne]
  · exact ⟨_, rfl⟩
  · rw [WorkPlanStore.artifactPath, Catalog.lookup_insert, if_neg hapart.symm, Catalog.lookup_insert, if_pos rfl]

theorem sanitized_recordOf (hplan : SafeId plan.id) (hpacket : SafeId packet.id) (hmodel : Lossless model)
    (hroot : ∀ part ∈ store.root, Lossless part) (safeOutput : String) :
    (recordOf plan packet model (store.artifactPath plan safeOutput) safeOutput).sanitized =
      recordOf plan packet model (store.artifactPath plan safeOutput) safeOutput := by
  have hpath : ∀ part ∈ store.artifactPath plan safeOutput, Lossless part := by
    simp only [WorkPlanStore.artifactPath, List.forall_mem_append, List.forall_mem_cons]
    exact ⟨⟨hroot, (sanitize_eq_self_iff _).mp hplan.sanitize_eq, by simp⟩, by decide,
      lossless_artifactName safeOutput, by simp⟩
  have hstage : sanitize packet.stage.asStr = packet.stage.asStr := by cases packet.stage <;> decide
  have hcontract : sanitize packet.contract.asStr = packet.contract.asStr := by
    cases packet.contract <;> decide
  simp only [recordOf, StoredPacket.sanitized, hplan.sanitize_eq, hpacket.sanitize_eq, hstage, hcontract,
    (sanitize_eq_self_iff _).mpr hmodel, (sanitize_eq_self_iff _).mpr (lossless_pathText hpath),
    (sanitize_eq_self_iff _).mpr (lossless_sha256Tagged _)]

theorem InPlace.loads (h : InPlace store plan packet model safeOutput files) (hmodel : Lossless model)
    (hroot : ∀ part ∈ store.root, Lossless part) :
    store.loadPacket plan packet model files = .ok (some ⟨packet.id, safeOutput⟩) := by
  have hread := @readToString_ofFiles id _ _ _ h.record
  have houtput := @readToString_ofFiles id _ _ _ h.artifact
  have hrecord := @fromJson_toJson
    (recordOf plan packet model (store.artifactPath plan safeOutput) safeOutput)
    (lt_of_le_of_lt h.size (by decide))
  rw [sanitized_recordOf h.planId h.packetId hmodel hroot] at hrecord
  rw [WorkPlanStore.loadPacket, metadataPath_eq_ok.mpr ⟨h.planId, h.packetId, rfl⟩, ok_bind, h.record,
    if_neg (by simp), diskOf, hread]
  simp only [ioError, Except.mapError, ok_bind, hrecord,
    verifyRecord_recordOf h.planId h.nonempty h.artifact]
  have hfile := canonicalize_artifactPath h.planId h.artifact
  rw [diskOf] at hfile
  simp only [recordOf, hfile, ok_bind, houtput]
  rfl

theorem loadPacket_none (hplan : SafeId plan.id) (hpacket : SafeId packet.id)
    (h : files.lookup (store.recordPath plan packet) = none) :
    store.loadPacket plan packet model files = .ok none := by
  rw [WorkPlanStore.loadPacket, metadataPath_eq_ok.mpr ⟨hplan, hpacket, rfl⟩, ok_bind, h]
  rfl

end Store

theorem validatePackets_ordinal {packets : List WorkPacket} {ids : List String} {k : ℕ}
    (h : validatePackets ids k packets = .ok ()) {i : ℕ} {packet : WorkPacket}
    (hget : packets[i]? = some packet) : packet.ordinal.toNat = k + i := by
  induction packets generalizing ids k i with
  | nil => simp at hget
  | cons first packets ih =>
    simp only [validatePackets, bind_eq_ok, refuseIf_eq_ok, not_or, not_not] at h
    obtain ⟨_, ⟨hordinal, -⟩, _, -, _, -, hrest⟩ := h
    cases i with
    | zero =>
      cases hget
      exact hordinal
    | succ i =>
      rw [ih hrest hget]
      omega

theorem recordPath_inj {store : WorkPlanStore} {plan : WorkPlan} (h : plan.validate = .ok ())
    {packet packet' : WorkPacket} (hpacket : packet ∈ plan.packets) (hpacket' : packet' ∈ plan.packets)
    (hpath : store.recordPath plan packet = store.recordPath plan packet') : packet = packet' := by
  simp only [WorkPlan.validate, bind_eq_ok] at h
  obtain ⟨_, -, _, -, hpackets⟩ := h
  obtain ⟨i, hi⟩ := List.mem_iff_getElem?.mp hpacket
  obtain ⟨j, hj⟩ := List.mem_iff_getElem?.mp hpacket'
  have hname : metadataName packet = metadataName packet' := by
    simpa [WorkPlanStore.recordPath] using hpath
  have hsame := congrArg UInt64.toNat (metadataName_ordinal hname)
  rw [validatePackets_ordinal hpackets hi, validatePackets_ordinal hpackets hj] at hsame
  obtain rfl : i = j := by omega
  exact Option.some.inj (hi.symm.trans hj)

section Runs

structure PacketCall where
  plan : WorkPlan
  packet : WorkPacket
  output : String
  model : String

variable (rust : RustText) (store : WorkPlanStore)

def storeCall (files : Files) (call : PacketCall) : Except WorkError StoredPacket × Files :=
  store.storePacket rust call.plan call.packet call.output call.model files

theorem storeCall_eq (files : Files) (call : PacketCall) :
    store.storePacket rust call.plan call.packet call.output call.model files =
      ((storeCall rust store files call).1, (storeCall rust store files call).2) := rfl

/-- Whatever is stored before and after, a packet that was stored is loaded with the output that was
accepted for it. -/
theorem stored_packet_loads (hroot : ∀ part ∈ store.root, Lossless part) (files : Files)
    (before after : List PacketCall) (call : PacketCall) (hmodel : Lossless call.model)
    {record : StoredPacket}
    (h : (storeCall rust store (final (storeCall rust store) files before) call).1 = .ok record) :
    ∃ safeOutput, acceptOutput rust call.plan call.packet call.output = .ok safeOutput ∧
      store.loadPacket call.plan call.packet call.model
        (final (storeCall rust store) files (before ++ call :: after)) =
          .ok (some ⟨call.packet.id, safeOutput⟩) := by
  obtain ⟨-, ⟨_, safeOutput, -, haccept, hplace, -⟩ | ⟨⟨error, herror⟩, -⟩⟩ :=
    storePacket_spec (storeCall_eq rust store (final (storeCall rust store) files before) call)
  · have hgrows := invariant (Grows (storeCall rust store
      (final (storeCall rust store) files before) call).2) (fun _ _ h => h)
      (fun files call h => h.trans (storePacket_spec (storeCall_eq rust store files call)).1) after
    rw [final_append, final]
    exact ⟨safeOutput, haccept, (hplace.grows hgrows).loads hmodel hroot⟩
  · exact absurd (h.symm.trans herror) (by simp)

def intentOutput : String :=
  "\x7b\"packet_id\":\"p\",\"status\":\"complete\",\"result\":\"r\",\"checks\":[\"c\"],\"risks\":[]\x7d"

def intentPlan : WorkPlan := ⟨workSchemaVersion, "w", "", "", [], "", [packetOf .envelope], false⟩

def intentCall : PacketCall := ⟨intentPlan, packetOf .envelope, intentOutput, "m"⟩

def workStore : WorkPlanStore := ⟨["work"], List.forall_mem_singleton.mpr ⟨by decide, by decide⟩⟩

theorem stored_intent_loads : ∃ safeOutput,
    acceptOutput asciiText intentPlan (packetOf .envelope) intentOutput = .ok safeOutput ∧
      workStore.loadPacket intentPlan (packetOf .envelope) "m"
        (final (storeCall asciiText workStore) .empty ([] ++ intentCall :: [intentCall])) =
          .ok (some ⟨"p", safeOutput⟩) := by
  have haccept : acceptOutput asciiText intentPlan (packetOf .envelope) intentOutput =
      .ok intentOutput := by decide +kernel
  obtain ⟨record, h⟩ : ∃ record,
      (storeCall asciiText workStore .empty intentCall).1 = .ok record :=
    storePacket_fresh haccept (validateId_eq_ok.mp (by decide)) (validateId_eq_ok.mp (by decide)) rfl rfl
  exact stored_packet_loads asciiText workStore (List.forall_mem_singleton.mpr (by decide)) .empty []
    [intentCall] intentCall (by decide) h

abbrev Past := List (Visit Files PacketCall (Except WorkError StoredPacket))

/-- What the first call that stored the packet has put in. -/
def stored (past : Past) (packet : WorkPacket) : Option CompletedPacket :=
  past.findSome? fun v => if v.input.packet = packet ∧ v.output.isOk then
    (acceptOutput rust v.input.plan packet v.input.output).toOption.map fun output => ⟨packet.id, output⟩
  else none

/-- The packets up to the first that no call has stored. -/
def completed (past : Past) : List WorkPacket → List CompletedPacket
  | [] => []
  | packet :: packets =>
    match stored rust past packet with
    | none => []
    | some item => item :: completed past packets

variable {rust store} {plan : WorkPlan} {model : String}

theorem stored_concat (past : Past)
    (v : Visit Files PacketCall (Except WorkError StoredPacket)) (packet : WorkPacket) :
    stored rust (past ++ [v]) packet = (stored rust past packet).or (stored rust [v] packet) := by
  rw [stored, List.findSome?_append]
  rfl

/-- Each packet of the plan that was stored is in place, and each other one has no record. -/
def Held (rust : RustText) (store : WorkPlanStore) (plan : WorkPlan) (model : String) (past : Past)
    (files : Files) : Prop :=
  ∀ packet ∈ plan.packets,
    (stored rust past packet = none ∧ files.lookup (store.recordPath plan packet) = none) ∨
    ∃ safeOutput, stored rust past packet = some ⟨packet.id, safeOutput⟩ ∧
      InPlace store plan packet model safeOutput files

theorem Held.step {past : Past} {files : Files}
    (h : Held rust store plan model past files) {call : PacketCall} (hplan : call.plan = plan)
    (hmodel : call.model = model) :
    Held rust store plan model (past ++ [visit (storeCall rust store) files call])
      (storeCall rust store files call).2 := by
  subst hplan hmodel
  intro packet hpacket
  obtain ⟨hgrows, hspec⟩ := storePacket_spec (storeCall_eq rust store files call)
  have hlength : (store.recordPath call.plan packet).length = store.root.length + 2 := by
    simp [WorkPlanStore.recordPath]
  rw [stored_concat]
  rcases h packet hpacket with ⟨hnone, hfree⟩ | ⟨safeOutput, hsome, hplace⟩
  · rw [hnone, Option.none_or]
    rcases hspec with ⟨record, safeOutput, hok, haccept, hplace, hothers⟩ | ⟨⟨error, herror⟩, hothers⟩
    · by_cases hsame : call.packet = packet
      · subst hsame
        refine .inr ⟨safeOutput, ?_, hplace⟩
        simp [stored, visit, hok, haccept, Except.isOk, Except.toBool, Except.toOption]
      · refine .inl ⟨by simp [stored, visit, hsame], ?_⟩
        obtain ⟨hvalid, hmem, -⟩ := acceptOutput_spec haccept
        rw [← hfree]
        exact hothers _ hlength fun hpath => hsame (recordPath_inj hvalid hmem hpacket hpath.symm)
    · refine .inl ⟨?_, (hothers _ hlength).trans hfree⟩
      simp [stored, visit, herror, Except.isOk, Except.toBool]
  · rw [hsome]
    exact .inr ⟨safeOutput, rfl, hplace.grows hgrows⟩

theorem Held.loads {past : Past} {files : Files}
    (h : Held rust store plan model past files) (hplan : SafeId plan.id) (hmodel : Lossless model)
    (hroot : ∀ part ∈ store.root, Lossless part) {packets : List WorkPacket}
    (hpackets : ∀ packet ∈ packets, packet ∈ plan.packets ∧ SafeId packet.id) :
    store.loadFrom plan model files packets = .ok (completed rust past packets) := by
  induction packets with
  | nil => rfl
  | cons packet packets ih =>
    obtain ⟨⟨hmem, hid⟩, hrest⟩ := List.forall_mem_cons.mp hpackets
    rw [WorkPlanStore.loadFrom, completed]
    rcases h packet hmem with ⟨hnone, hfree⟩ | ⟨safeOutput, hsome, hplace⟩
    · rw [loadPacket_none hplan hid hfree, hnone]
      rfl
    · rw [hplace.loads hmodel hroot, hsome, ok_bind]
      simp only [ih hrest, ok_bind]
      rfl

end Runs

end AtomVibe.Work
