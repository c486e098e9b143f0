import AtomVibe.ChainFiles
import AtomVibe.WorkExpansion

namespace AtomVibe.Work

open Checked Text

def thirds (n : ℕ) : ℕ := (n + 2) / 3

def integrationGroupCountFrom (inputs total : ℕ) : ℕ :=
  if 3 < inputs then integrationGroupCountFrom (thirds inputs) (total + thirds inputs) else total
termination_by inputs
decreasing_by simp only [thirds]; omega

def integrationGroupCount (inputs : ℕ) : ℕ := integrationGroupCountFrom inputs 0

def reductionToOneCountFrom : ℕ → ℕ → ℕ → Option ℕ
  | 0, _, _ => none
  | fuel + 1, inputs, total =>
    let inputs := thirds inputs
    let total := total + inputs
    if inputs = 1 then some total else reductionToOneCountFrom fuel inputs total

def reductionToOneCount (fuel inputs : ℕ) : Option ℕ := reductionToOneCountFrom fuel inputs 0

def validateId (value : String) : Except WorkError Unit :=
  refuseIf (value = "" ∨ 160 < value.utf8ByteSize ∨
    value.toList.all (fun c => isAsciiLowercase c || isAsciiDigit c || c == '-') = false)
    (.invalidPlan ("unsafe work id: " ++ value))

abbrev Shape := WorkStage × PacketContract × String

def WorkPacket.shape (packet : WorkPacket) : Shape :=
  (packet.stage, packet.contract, packet.filePath)

def idPrefix (ordinal : ℕ) (stage : WorkStage) : String :=
  padded 3 (ordinal + 1) ++ "-" ++ stage.asStr ++ "-"

def expectDescriptor (packet : WorkPacket) (ordinal : ℕ) (expected : Shape) :
    Except WorkError Unit := do
  validateId packet.id
  refuseIf (packet.ordinal.toNat ≠ ordinal ∨ packet.shape ≠ expected ∨
      startsWith (idPrefix ordinal expected.1) packet.id = false)
    (.invalidPlan ("work packet descriptor " ++ ordinal.repr ++
      " violates the meticulous schedule"))

/-- The loops of `validate_packet_schedule`, one expectation after the other from `index` on; an
index past the descriptors is a panic. -/
def expectDescriptors (descriptors : List WorkPacket) :
    ℕ → List Shape → Option (Except WorkError ℕ)
  | index, [] => some (.ok index)
  | index, expected :: rest =>
    match descriptors[index]? with
    | none => none
    | some packet =>
      match expectDescriptor packet index expected with
      | .error error => some (.error error)
      | .ok () => expectDescriptors descriptors (index + 1) rest

def baseShapes : List Shape :=
  [(.intent, .envelope, ""), (.functionalRequirements, .envelope, ""),
    (.qualityRequirements, .envelope, ""), (.architecture, .envelope, ""),
    (.fileManifest, .fileManifest, "")]

def fileStages : List (WorkStage × PacketContract) :=
  [(.fileContract, .envelope), (.fileImplementation, .fileArtifact), (.fileReview, .envelope),
    (.fileCorrection, .fileArtifact)]

def scheduledShapes (files : List WorkFile) (reductions : ℕ) : List Shape :=
  baseShapes ++
    (files.flatMap fun file => fileStages.map fun (stage, contract) =>
      (stage, contract, file.path)) ++
    List.replicate (integrationGroupCount files.length) (.integrationGroup, .envelope, "") ++
    [(.integration, .envelope, "")] ++
    files.map (fun file => (.integrationCorrection, .fileArtifact, file.path)) ++
    List.replicate reductions (.closureGroup, .envelope, "") ++
    [(.integrationClosure, .envelope, ""), (.verification, .envelope, ""),
      (.adversarialReview, .envelope, "")] ++
    files.map (fun file => (.finalCorrection, .fileArtifact, file.path)) ++
    List.replicate reductions (.releaseGroup, .envelope, "") ++
    [(.releaseVerification, .envelope, ""), (.finalization, .envelope, "")]

/-- `none` where the source does not return within `fuel` turns of its loop, or panics. -/
def validatePacketSchedule (fuel : ℕ) (descriptors : List WorkPacket) (files : List WorkFile) :
    Option (Except WorkError Unit) :=
  match reductionToOneCount fuel files.length with
  | none => none
  | some reductions =>
    let expectedCount :=
      11 + files.length * 6 + integrationGroupCount files.length + reductions * 2
    if files = [] ∨ descriptors.length ≠ expectedCount then
      some (.error (.invalidPlan
        ("work packet schedule does not match manifest files: expected " ++ expectedCount.repr ++
          ", got " ++ descriptors.length.repr)))
    else
      match expectDescriptors descriptors 0 (scheduledShapes files reductions) with
      | none => none
      | some (.error error) => some (.error error)
      | some (.ok index) =>
        if index ≠ descriptors.length then
          some (.error (.invalidPlan "work packet schedule has trailing descriptors"))
        else some (.ok ())

theorem integrationGroupCountFrom_eq (inputs total : ℕ) :
    integrationGroupCountFrom inputs total = total + integrationGroupCount inputs := by
  induction inputs using Nat.strong_induction_on generalizing total with
  | _ inputs ih =>
    rw [integrationGroupCount, integrationGroupCountFrom.eq_1 inputs total,
      integrationGroupCountFrom.eq_1 inputs 0]
    by_cases h : 3 < inputs
    · have hlt : thirds inputs < inputs := by
        simp only [thirds]
        omega
      rw [if_pos h, if_pos h, ih _ hlt, ih _ hlt (0 + _)]
      omega
    · rw [if_neg h, if_neg h, Nat.add_zero]

theorem integrationGroupCount_eq (inputs : ℕ) : integrationGroupCount inputs =
    if 3 < inputs then thirds inputs + integrationGroupCount (thirds inputs) else 0 := by
  rw [integrationGroupCount, integrationGroupCountFrom]
  by_cases h : 3 < inputs
  · rw [if_pos h, if_pos h, integrationGroupCountFrom_eq, Nat.zero_add]
  · rw [if_neg h, if_neg h]

def reductionPackets (inputs : ℕ) : ℕ :=
  if 3 < inputs then thirds inputs + reductionPackets (thirds inputs) else 1
termination_by inputs
decreasing_by simp only [thirds]; omega

theorem reductionToOneCountFrom_eq {fuel inputs : ℕ} (total : ℕ) (hpos : 0 < inputs)
    (hfuel : inputs ≤ fuel) :
    reductionToOneCountFrom fuel inputs total = some (total + reductionPackets inputs) := by
  induction fuel generalizing inputs total with
  | zero => omega
  | succ fuel ih =>
    rw [reductionToOneCountFrom, reductionPackets]
    by_cases h : 3 < inputs
    · have hlevel : thirds inputs ≠ 1 ∧ 0 < thirds inputs ∧ thirds inputs ≤ fuel := by
        simp only [thirds]
        omega
      rw [if_neg hlevel.1, if_pos h, ih _ hlevel.2.1 hlevel.2.2, Nat.add_assoc]
    · have hlevel : thirds inputs = 1 := by
        simp only [thirds]
        omega
      rw [hlevel, if_pos rfl, if_neg h]

theorem reductionToOneCount_eq {fuel inputs : ℕ} (hpos : 0 < inputs) (hfuel : inputs ≤ fuel) :
    reductionToOneCount fuel inputs = some (reductionPackets inputs) := by
  rw [reductionToOneCount, reductionToOneCountFrom_eq 0 hpos hfuel, Nat.zero_add]

theorem reductionToOneCount_zero (fuel : ℕ) : reductionToOneCount fuel 0 = none := by
  have h : ∀ total, reductionToOneCountFrom fuel 0 total = none := by
    induction fuel with
    | zero => exact fun total => rfl
    | succ fuel ih => exact fun total => ih _
  exact h 0

theorem length_scheduledShapes (files : List WorkFile) (reductions : ℕ) :
    (scheduledShapes files reductions).length =
      11 + files.length * 6 + integrationGroupCount files.length + reductions * 2 := by
  have hfiles : (files.flatMap fun file => fileStages.map fun (stage, contract) =>
      ((stage, contract, file.path) : Shape)).length = files.length * 4 := by
    simp [List.length_flatMap, fileStages]
  simp only [scheduledShapes, List.length_append, hfiles, List.length_replicate, List.length_map,
    List.length_cons, List.length_nil, baseShapes]
  omega

theorem expectDescriptors_returns {descriptors : List WorkPacket} (index : ℕ) {shapes : List Shape}
    (h : index + shapes.length ≤ descriptors.length) :
    ∃ result, expectDescriptors descriptors index shapes = some result := by
  induction shapes generalizing index with
  | nil => exact ⟨_, rfl⟩
  | cons expected rest ih =>
    rw [List.length_cons] at h
    have hlt : index < descriptors.length := by omega
    rw [expectDescriptors, List.getElem?_eq_getElem hlt]
    cases hexpect : expectDescriptor descriptors[index] index expected with
    | error error => exact ⟨.error error, by simp only [hexpect]⟩
    | ok u =>
      obtain ⟨result, hresult⟩ := ih (index + 1) (by omega)
      exact ⟨result, by simp only [hexpect, hresult]⟩

theorem expectDescriptors_eq_ok {descriptors : List WorkPacket} {index : ℕ} {shapes : List Shape}
    (h : ∀ i expected, shapes[i]? = some expected → ∃ packet,
      descriptors[index + i]? = some packet ∧ expectDescriptor packet (index + i) expected = .ok ()) :
    expectDescriptors descriptors index shapes = some (.ok (index + shapes.length)) := by
  induction shapes generalizing index with
  | nil => rfl
  | cons expected rest ih =>
    obtain ⟨packet, hpacket, hexpect⟩ := h 0 expected rfl
    rw [Nat.add_zero] at hpacket hexpect
    rw [expectDescriptors, hpacket]
    simp only [hexpect]
    rw [ih fun i next hi => ?_, List.length_cons, Nat.add_right_comm, Nat.add_assoc]
    have hnext := h (i + 1) next (by simpa using hi)
    rwa [show index + (i + 1) = index + 1 + i by omega] at hnext

theorem validatePacketSchedule_returns_iff (descriptors : List WorkPacket)
    (files : List WorkFile) :
    (∃ fuel, validatePacketSchedule fuel descriptors files ≠ none) ↔ files ≠ [] := by
  constructor
  · rintro ⟨fuel, h⟩ rfl
    apply h
    rw [validatePacketSchedule, List.length_nil, reductionToOneCount_zero]
  · intro hfiles
    have hpos := List.length_pos_iff.mpr hfiles
    refine ⟨files.length, ?_⟩
    rw [validatePacketSchedule, reductionToOneCount_eq hpos le_rfl]
    simp only [hfiles, false_or]
    by_cases hlength : descriptors.length = 11 + files.length * 6 +
        integrationGroupCount files.length + reductionPackets files.length * 2
    · rw [if_neg (not_not.mpr hlength)]
      have hreach : 0 + (scheduledShapes files (reductionPackets files.length)).length ≤
          descriptors.length := by
        rw [length_scheduledShapes]
        omega
      obtain ⟨result, hresult⟩ := expectDescriptors_returns 0 hreach
      rw [hresult]
      cases result with
      | error error => simp
      | ok index =>
        simp only
        split_ifs <;> simp
    · rw [if_pos hlength]
      simp

end AtomVibe.Work
