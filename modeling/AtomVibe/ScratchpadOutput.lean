import AtomVibe.ByteOffsets
import AtomVibe.TurnExecution

namespace AtomVibe.ScratchpadOutput

open Text Hash Secrets Scratchpad

variable (text artifact hash : String)

def outputHeader : String :=
  "Provider output artifact: " ++ artifact ++ "\nOutput hash: " ++ hash ++ "\n"

def wholeOutput : String := outputHeader artifact hash ++ "Output:\n" ++ text

def CutOutput (out : String) : Prop :=
  ∃ kept, kept <+: text.toList ∧ out = outputHeader artifact hash ++
    "Output projection (full output remains in artifact):\n" ++ String.ofList kept ++
      "\n[projection truncated]"

structure FitsEntry : Prop where
  bounded : (Runtime.scratchpadOutput text artifact hash).utf8ByteSize ≤ maxEntryBytes
  cut : Runtime.scratchpadOutput text artifact hash = wholeOutput text artifact hash ∨
    CutOutput text artifact hash (Runtime.scratchpadOutput text artifact hash)
  whole : (wholeOutput text artifact hash).utf8ByteSize ≤ maxEntryBytes →
    Runtime.scratchpadOutput text artifact hash = wholeOutput text artifact hash
  appended : validateContent (redactSensitiveText (Runtime.scratchpadOutput text artifact hash)) = .ok ()

theorem floorBoundary_eq (cs : List Char) (n : ℕ) :
    Runtime.floorBoundary cs n = floorCharBoundary cs n := by
  induction n with
  | zero => rfl
  | succ n ih => rw [Runtime.floorBoundary, floorCharBoundary, ih]

theorem size_append (s t : String) : (s ++ t).utf8ByteSize = s.utf8ByteSize + t.utf8ByteSize :=
  String.utf8ByteSize_append

def available : ℕ := maxEntryBytes - ((outputHeader artifact hash).utf8ByteSize + 64)

def outputStop : ℕ := floorCharBoundary text.toList (min text.utf8ByteSize (available artifact hash))

theorem scratchpadOutput_eq : Runtime.scratchpadOutput text artifact hash =
    if outputStop text artifact hash = text.utf8ByteSize then wholeOutput text artifact hash
    else outputHeader artifact hash ++ "Output projection (full output remains in artifact):\n" ++
      String.ofList (takeBytes (outputStop text artifact hash) text.toList) ++
        "\n[projection truncated]" := by
  rw [outputStop, ← floorBoundary_eq]
  unfold Runtime.scratchpadOutput wholeOutput available outputHeader
  rfl

theorem scratchpadOutput_whole (h : text.utf8ByteSize ≤ available artifact hash) :
    Runtime.scratchpadOutput text artifact hash = wholeOutput text artifact hash := by
  have hstop : outputStop text artifact hash = text.utf8ByteSize := by
    rw [outputStop, Nat.min_eq_left h, utf8ByteSize_eq]
    exact floorCharBoundary_of_boundary (isCharBoundary_end _)
  rw [scratchpadOutput_eq, if_pos hstop]

theorem scratchpadOutput_cut (h : available artifact hash < text.utf8ByteSize) :
    CutOutput text artifact hash (Runtime.scratchpadOutput text artifact hash) ∧
      maxEntryBytes < (Runtime.scratchpadOutput text artifact hash).utf8ByteSize := by
  have hstop : outputStop text artifact hash =
      floorCharBoundary text.toList (available artifact hash) := by
    rw [outputStop, Nat.min_eq_right h.le]
  have hle := floorCharBoundary_le text.toList (available artifact hash)
  have hnear := @le_floorCharBoundary_add_three text.toList (available artifact hash)
    (by rw [← utf8ByteSize_eq]; exact h.le)
  have hkept : (String.ofList (takeBytes (outputStop text artifact hash)
      text.toList)).utf8ByteSize = outputStop text artifact hash := by
    rw [utf8ByteSize_eq, String.toList_ofList, hstop, utf8Len_takeBytes_floor]
  have hopen : "Output projection (full output remains in artifact):\n".utf8ByteSize = 53 := by
    decide
  have hclose : "\n[projection truncated]".utf8ByteSize = 23 := by decide
  rw [scratchpadOutput_eq, if_neg (by omega)]
  refine ⟨⟨_, takeBytes_isFront _ _, rfl⟩, ?_⟩
  rw [size_append, size_append, size_append, hkept, hopen, hclose, hstop]
  unfold available at hnear ⊢
  generalize maxEntryBytes = limit at hnear ⊢
  omega

theorem isBlank_front {s : String} (h : isBlank s = false) (t : String) :
    isBlank (s ++ t) = false := by
  rw [isBlank] at h
  rw [isBlank, String.toList_append, List.all_append, h, Bool.false_and]

theorem isBlank_redact {value : String} (h : isBlank value = false) :
    isBlank (redactSensitiveText value) = false := by
  rw [redactSensitiveText]
  split
  · exact h
  · rename_i hspans
    obtain ⟨span, spans, hcons⟩ := List.exists_cons_of_ne_nil hspans
    have hmark : ∃ c ∈ "[REDACTED]".toList, isWhitespace c = false := ⟨'R', by decide⟩
    obtain ⟨c, hc, hvisible⟩ := hmark
    rw [hcons, isBlank, String.toList_ofList, redactFrom, if_neg (Nat.not_lt_zero _),
      List.all_eq_false]
    refine ⟨c, ?_, by simp [hvisible]⟩
    exact List.mem_append_left _ (List.mem_append_right _ hc)

theorem isBlank_output : isBlank (Runtime.scratchpadOutput text artifact hash) = false := by
  have hfirst : isBlank "Provider output artifact: " = false := by decide +kernel
  have hheader : isBlank (outputHeader artifact hash) = false := by
    unfold outputHeader
    exact isBlank_front (isBlank_front (isBlank_front (isBlank_front hfirst _) _) _) _
  by_cases hstop : outputStop text artifact hash = text.utf8ByteSize
  · rw [scratchpadOutput_eq, if_pos hstop, wholeOutput]
    exact isBlank_front (isBlank_front hheader _) _
  · rw [scratchpadOutput_eq, if_neg hstop]
    exact isBlank_front (isBlank_front (isBlank_front hheader _) _) _

theorem validateContent_iff {value : String} (h : isBlank value = false) :
    validateContent value = .ok () ↔ value.utf8ByteSize ≤ maxEntryBytes := by
  rw [validateContent, h, Bool.false_or]
  by_cases hsize : maxEntryBytes < value.utf8ByteSize
  · rw [if_pos (decide_eq_true hsize)]
    exact ⟨fun hok => (by cases hok), fun hle => absurd hle (not_le.mpr hsize)⟩
  · rw [if_neg (by simpa using hsize)]
    exact ⟨fun _ => not_lt.mp hsize, fun _ => rfl⟩

/-- The pad takes an output exactly when nothing is cut from it and the redaction of its
credentials leaves it the room. -/
theorem scratchpad_output_fits_iff : FitsEntry text artifact hash ↔
    text.utf8ByteSize ≤ available artifact hash ∧
      (wholeOutput text artifact hash).utf8ByteSize ≤ maxEntryBytes ∧
        (redactSensitiveText (wholeOutput text artifact hash)).utf8ByteSize ≤ maxEntryBytes := by
  have hblank := isBlank_redact (isBlank_output text artifact hash)
  rcases Nat.lt_or_ge (available artifact hash) text.utf8ByteSize with hcut | hwhole
  · obtain ⟨-, hlong⟩ := scratchpadOutput_cut text artifact hash hcut
    constructor
    · intro h
      have hbounded := h.bounded
      omega
    · rintro ⟨hfits, -⟩
      omega
  · have hout := scratchpadOutput_whole text artifact hash hwhole
    constructor
    · intro h
      have happended := (validateContent_iff hblank).mp h.appended
      exact ⟨hwhole, hout ▸ h.bounded, hout ▸ happended⟩
    · rintro ⟨-, hbounded, hredacted⟩
      exact ⟨hout ▸ hbounded, .inl hout, fun _ => hout,
        (validateContent_iff hblank).mpr (hout ▸ hredacted)⟩

def longOutput : String := String.ofList (List.replicate maxEntryBytes 'a')

theorem long_output_refused : ¬FitsEntry longOutput "outputs/build-1/output.txt"
    (sha256Tagged (asBytes longOutput)) := by
  intro h
  have hsize : longOutput.utf8ByteSize = maxEntryBytes := by
    have hchar : Char.utf8Size 'a' = 1 := by decide
    rw [utf8ByteSize_eq, longOutput, String.toList_ofList, utf8Len, List.map_replicate, hchar,
      List.sum_replicate_nat, Nat.mul_one]
  have hpositive : 0 < maxEntryBytes := by decide
  obtain ⟨-, hlong⟩ := scratchpadOutput_cut longOutput "outputs/build-1/output.txt"
    (sha256Tagged (asBytes longOutput)) (by
      rw [hsize, available]
      generalize maxEntryBytes = limit at hpositive ⊢
      omega)
  exact absurd h.bounded (not_le.mpr hlong)

end AtomVibe.ScratchpadOutput
