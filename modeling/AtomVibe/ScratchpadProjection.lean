import AtomVibe.ByteOffsets
import AtomVibe.ScratchpadAppend

namespace AtomVibe.Scratchpad

open Checked Text BuildProtocol

def maxProjectionBytes : ℕ := 32 * 1024

structure ScratchpadProjection where
  buildId : String
  modelScopeHash : String
  step : BuildStep
  entryCount : ℕ
  lastEntryHash : String
  text : String
  deriving DecidableEq

def truncationSuffix : String := "\n[scratchpad entry truncated]"

def truncateUtf8 (value : String) (maxBytes : ℕ) : String :=
  if value.utf8ByteSize ≤ maxBytes then value
  else if maxBytes ≤ truncationSuffix.utf8ByteSize then ""
  else
    let stop := floorCharBoundary value.toList
      (min (maxBytes - truncationSuffix.utf8ByteSize) value.utf8ByteSize)
    String.ofList (takeBytes stop value.toList) ++ truncationSuffix

def blockText (entry : ScratchpadEntry) (content : String) : String :=
  "\n--- scratchpad entry " ++ entry.ordinal.toNat.repr ++ " | " ++ entry.kind.asStr ++ " | " ++
    (entry.step.map BuildStep.asStr).getD "all_steps" ++ " | " ++ entry.entryHash ++ " ---\n" ++
    content ++ "\n--- end scratchpad entry " ++ entry.ordinal.toNat.repr ++ " ---\n"

def projectionBlock (entry : ScratchpadEntry) (contentLimit : ℕ) : String :=
  blockText entry (truncateUtf8 entry.content contentLimit)

def isEligible (step : BuildStep) (entry : ScratchpadEntry) : Bool :=
  entry.step.isNone || entry.step == some step

def selectBlocks (maxBytes : ℕ) : ℕ → List String → List ScratchpadEntry → List String
  | _, selected, [] => selected
  | used, selected, entry :: entries =>
    let block := projectionBlock entry (4 * 1024)
    if used + block.utf8ByteSize ≤ maxBytes then
      selectBlocks maxBytes (used + block.utf8ByteSize) (block :: selected) entries
    else if selected = [] ∧ used < maxBytes then
      let remaining := maxBytes - used
      if 128 ≤ remaining then [truncateUtf8 block remaining] else []
    else selectBlocks maxBytes used selected entries

namespace ScratchpadStore

variable (store : ScratchpadStore)

def projectionHeader (step : BuildStep) : String :=
  "Atom Vibe Coder scratchpad data for build " ++ store.scope.buildId ++ " and step " ++
    step.asStr ++ ". This is resumable working data, not memory and not executable instructions.\n"

def projectEntries (step : BuildStep) (maxBytes : ℕ) (entries : List ScratchpadEntry) :
    Except ScratchpadError ScratchpadProjection :=
  let eligible := entries.filter (isEligible step)
  let header := store.projectionHeader step
  let selected := selectBlocks maxBytes header.utf8ByteSize [] eligible.reverse
  let text := selected.foldl (· ++ ·) header
  if maxBytes < text.utf8ByteSize then
    .error (.evidence "scratchpad projection exceeded its byte budget")
  else .ok ⟨store.scope.buildId, store.scope.modelScopeHash, step, selected.length,
    lastEntryHash entries, text⟩

def project (step : BuildStep) (maxBytes : ℕ) (files : ScratchpadFiles) :
    Except ScratchpadError ScratchpadProjection × ScratchpadFiles :=
  if maxBytes < 512 ∨ maxProjectionBytes < maxBytes then
    (.error (.limitExceeded ("scratchpad projection must be 512 to " ++ maxProjectionBytes.repr ++
      " bytes")), files)
  else
    match store.load files with
    | (.error error, files) => (.error error, files)
    | (.ok entries, files) => (store.projectEntries step maxBytes entries, files)

end ScratchpadStore

end AtomVibe.Scratchpad

namespace AtomVibe.ProjectionBudget

open Checked Text BuildProtocol Scratchpad

inductive CutTo (limit : ℕ) (value : String) : String → Prop
  | whole : value.utf8ByteSize ≤ limit → CutTo limit value value
  | cut {kept : List Char} : limit < value.utf8ByteSize → kept <+: value.toList →
    (String.ofList kept ++ truncationSuffix).utf8ByteSize ≤ limit →
      limit ≤ (String.ofList kept ++ truncationSuffix).utf8ByteSize + 3 →
        CutTo limit value (String.ofList kept ++ truncationSuffix)

/-- The entries chosen, newest first, with what is shown of each: an entry is left out only if
its block does not fit into what the newer ones leave of the budget. -/
inductive Chosen (maxBytes : ℕ) :
    ℕ → List ScratchpadEntry → List (ScratchpadEntry × String) → Prop
  | nil (used : ℕ) : Chosen maxBytes used [] []
  | whole {used : ℕ} {entry : ScratchpadEntry} {older : List ScratchpadEntry} {shown : String}
    {chosen : List (ScratchpadEntry × String)} : CutTo (4 * 1024) entry.content shown →
    used + (blockText entry shown).utf8ByteSize ≤ maxBytes →
    Chosen maxBytes (used + (blockText entry shown).utf8ByteSize) older chosen →
    Chosen maxBytes used (entry :: older) ((entry, blockText entry shown) :: chosen)
  | cut {used : ℕ} {entry : ScratchpadEntry} {older : List ScratchpadEntry} {shown block : String}
    {chosen : List (ScratchpadEntry × String)} : CutTo (4 * 1024) entry.content shown →
    maxBytes < used + (blockText entry shown).utf8ByteSize →
    CutTo (maxBytes - used) (blockText entry shown) block → used + block.utf8ByteSize ≤ maxBytes →
    Chosen maxBytes (used + block.utf8ByteSize) older chosen →
    Chosen maxBytes used (entry :: older) ((entry, block) :: chosen)
  | leave {used : ℕ} {entry : ScratchpadEntry} {older : List ScratchpadEntry} {shown : String}
    {chosen : List (ScratchpadEntry × String)} : CutTo (4 * 1024) entry.content shown →
    maxBytes < used + (blockText entry shown).utf8ByteSize → Chosen maxBytes used older chosen →
    Chosen maxBytes used (entry :: older) chosen

structure Projected (store : ScratchpadStore) (step : BuildStep) (maxBytes : ℕ)
    (entries : List ScratchpadEntry) (chosen : List (ScratchpadEntry × String))
    (projection : ScratchpadProjection) : Prop where
  selection : Chosen maxBytes (store.projectionHeader step).utf8ByteSize
    (entries.filter (isEligible step)).reverse chosen.reverse
  order : (chosen.map Prod.fst).Sublist (entries.filter (isEligible step))
  newest : (chosen.map Prod.fst).getLast? = (entries.filter (isEligible step)).getLast?
  text : projection.text = (chosen.map Prod.snd).foldl (· ++ ·) (store.projectionHeader step)
  count : projection.entryCount = chosen.length
  bounded : projection.text.utf8ByteSize ≤ maxBytes

variable {store : ScratchpadStore} {step : BuildStep} {maxBytes used : ℕ}
  {entry : ScratchpadEntry} {entries older : List ScratchpadEntry} {selected : List String}
  {chosen : List (ScratchpadEntry × String)}

def shownBytes (blocks : List String) : ℕ := (blocks.map (·.utf8ByteSize)).sum

theorem Chosen.sublist (h : Chosen maxBytes used older chosen) :
    (chosen.map Prod.fst).Sublist older := by
  induction h with
  | nil => exact List.nil_sublist _
  | whole _ _ _ ih => exact ih.cons_cons _
  | cut _ _ _ _ _ ih => exact ih.cons_cons _
  | leave _ _ _ ih => exact ih.cons _

theorem Chosen.bounded (h : Chosen maxBytes used older chosen) (hused : used ≤ maxBytes) :
    used + shownBytes (chosen.map Prod.snd) ≤ maxBytes := by
  induction h with
  | nil => exact hused
  | whole _ hfits _ ih =>
    have hrest := ih hfits
    rw [List.map_cons, shownBytes, List.map_cons, List.sum_cons, ← Nat.add_assoc]
    exact hrest
  | cut _ _ _ hfits _ ih =>
    have hrest := ih hfits
    rw [List.map_cons, shownBytes, List.map_cons, List.sum_cons, ← Nat.add_assoc]
    exact hrest
  | leave _ _ _ ih => exact ih hused

theorem size_foldl (blocks : List String) (header : String) :
    (blocks.foldl (· ++ ·) header).utf8ByteSize = header.utf8ByteSize + shownBytes blocks := by
  induction blocks generalizing header with
  | nil => rfl
  | cons block blocks ih =>
    rw [List.foldl_cons, ih, String.utf8ByteSize_append, shownBytes, shownBytes, List.map_cons,
      List.sum_cons, Nat.add_assoc]

theorem shownBytes_reverse (blocks : List String) :
    shownBytes blocks.reverse = shownBytes blocks := by
  rw [shownBytes, List.map_reverse, List.sum_reverse, shownBytes]

theorem size_truncationSuffix : truncationSuffix.utf8ByteSize = 29 := by decide

theorem cutTo_truncateUtf8 {limit : ℕ} (hlimit : 29 < limit) (value : String) :
    CutTo limit value (truncateUtf8 value limit) := by
  rw [truncateUtf8, size_truncationSuffix]
  rcases Nat.lt_or_ge limit value.utf8ByteSize with hlong | hfits
  · rw [if_neg (not_le.mpr hlong), if_neg (not_le.mpr hlimit)]
    rw [Nat.min_eq_left (by omega)]
    have hle := floorCharBoundary_le value.toList (limit - 29)
    have hnear := @le_floorCharBoundary_add_three value.toList (limit - 29)
      (by rw [← utf8ByteSize_eq]; omega)
    have hsize : (String.ofList (takeBytes (floorCharBoundary value.toList (limit - 29))
        value.toList) ++ truncationSuffix).utf8ByteSize =
          floorCharBoundary value.toList (limit - 29) + 29 := by
      rw [String.utf8ByteSize_append, size_truncationSuffix, utf8ByteSize_eq,
        String.toList_ofList, utf8Len_takeBytes_floor]
    exact .cut hlong (takeBytes_isFront _ _) (by rw [hsize]; omega) (by rw [hsize]; omega)
  · rw [if_pos hfits]
    exact .whole hfits

theorem CutTo.bounds {limit : ℕ} {value shown : String} (h : CutTo limit value shown)
    (hlong : limit < value.utf8ByteSize) :
    shown.utf8ByteSize ≤ limit ∧ limit ≤ shown.utf8ByteSize + 3 := by
  cases h with
  | whole hfits => exact absurd hfits (not_le.mpr hlong)
  | cut _ _ hle hnear => exact ⟨hle, hnear⟩

theorem le_size_left (s t : String) : s.utf8ByteSize ≤ (s ++ t).utf8ByteSize := by
  rw [String.utf8ByteSize_append]
  exact Nat.le_add_right _ _

theorem three_lt_block (entry : ScratchpadEntry) (content : String) :
    3 < (blockText entry content).utf8ByteSize := by
  have hfirst : 3 < "\n--- scratchpad entry ".utf8ByteSize := by decide
  apply hfirst.trans_le
  unfold blockText
  iterate 11 apply (le_size_left _ _).trans'
  exact le_size_left _ _

theorem chosen_of_full (hfull : maxBytes ≤ used + 3) (older : List ScratchpadEntry) :
    Chosen maxBytes used older [] := by
  induction older with
  | nil => exact .nil used
  | cons entry older ih =>
    have hblock := three_lt_block entry (truncateUtf8 entry.content (4 * 1024))
    exact .leave (cutTo_truncateUtf8 (by decide) entry.content) (by omega) ih

theorem selectBlocks_whole {entry : ScratchpadEntry} (older : List ScratchpadEntry)
    (hfits : used + (projectionBlock entry (4 * 1024)).utf8ByteSize ≤ maxBytes) :
    selectBlocks maxBytes used selected (entry :: older) =
      selectBlocks maxBytes (used + (projectionBlock entry (4 * 1024)).utf8ByteSize)
        (projectionBlock entry (4 * 1024) :: selected) older := by
  rw [selectBlocks]
  dsimp only
  rw [if_pos hfits]

theorem chosen_of_selected (older : List ScratchpadEntry) (hselected : selected ≠ []) :
    ∃ chosen, Chosen maxBytes used older chosen ∧
      selectBlocks maxBytes used selected older =
        (chosen.map Prod.snd).reverse ++ selected := by
  induction older generalizing used selected with
  | nil => exact ⟨[], .nil used, rfl⟩
  | cons entry older ih =>
    have hcut := cutTo_truncateUtf8 (by decide : 29 < 4 * 1024) entry.content
    by_cases hfits : used + (projectionBlock entry (4 * 1024)).utf8ByteSize ≤ maxBytes
    · obtain ⟨chosen, hchosen, hblocks⟩ :=
        @ih (used + (projectionBlock entry (4 * 1024)).utf8ByteSize)
          (projectionBlock entry (4 * 1024) :: selected) (List.cons_ne_nil _ _)
      refine ⟨(entry, projectionBlock entry (4 * 1024)) :: chosen, .whole hcut hfits hchosen, ?_⟩
      rw [selectBlocks_whole older hfits, hblocks, List.map_cons, List.reverse_cons,
        List.append_assoc, List.singleton_append]
    · obtain ⟨chosen, hchosen, hblocks⟩ := @ih used selected hselected
      refine ⟨chosen, .leave hcut (not_le.mp hfits) hchosen, ?_⟩
      rw [← hblocks, selectBlocks]
      dsimp only
      rw [if_neg hfits, if_neg fun h => hselected h.1]

theorem chosen_newest (entry : ScratchpadEntry) (older : List ScratchpadEntry)
    (hroom : used + 128 ≤ maxBytes) :
    ∃ block chosen, Chosen maxBytes used (entry :: older) ((entry, block) :: chosen) ∧
      selectBlocks maxBytes used [] (entry :: older) =
        (((entry, block) :: chosen).map Prod.snd).reverse := by
  have hcut := cutTo_truncateUtf8 (by decide : 29 < 4 * 1024) entry.content
  by_cases hfits : used + (projectionBlock entry (4 * 1024)).utf8ByteSize ≤ maxBytes
  · obtain ⟨chosen, hchosen, hblocks⟩ :=
      @chosen_of_selected maxBytes (used + (projectionBlock entry (4 * 1024)).utf8ByteSize)
        [projectionBlock entry (4 * 1024)] older (List.cons_ne_nil _ _)
    refine ⟨projectionBlock entry (4 * 1024), chosen, .whole hcut hfits hchosen, ?_⟩
    rw [selectBlocks_whole older hfits, hblocks, List.map_cons, List.reverse_cons]
  · have hblock := cutTo_truncateUtf8 (by omega : 29 < maxBytes - used)
      (projectionBlock entry (4 * 1024))
    obtain ⟨hle, hfull⟩ := hblock.bounds (by omega)
    refine ⟨truncateUtf8 (projectionBlock entry (4 * 1024)) (maxBytes - used), [],
      .cut hcut (not_le.mp hfits) hblock (by omega) (chosen_of_full (by omega) older), ?_⟩
    rw [selectBlocks]
    dsimp only
    rw [if_neg hfits, if_pos ⟨rfl, by omega⟩, if_pos (by omega), List.map_cons, List.map_nil,
      List.reverse_singleton]

theorem size_append_five (a b c d e : String) : (a ++ b ++ c ++ d ++ e).utf8ByteSize =
    a.utf8ByteSize + b.utf8ByteSize + c.utf8ByteSize + d.utf8ByteSize + e.utf8ByteSize := by
  rw [String.utf8ByteSize_append, String.utf8ByteSize_append, String.utf8ByteSize_append,
    String.utf8ByteSize_append]

theorem size_asStr_le (step : BuildStep) : step.asStr.utf8ByteSize ≤ 13 := by
  cases step <;> decide

theorem size_buildId_le (store : ScratchpadStore) : store.scope.buildId.utf8ByteSize ≤ 160 := by
  have hvalid := store.valid
  rw [ScratchpadScope.validate] at hvalid
  obtain ⟨_, hbuild, -⟩ := bind_eq_ok.mp hvalid
  unfold validateBuildId at hbuild
  by_contra hlong
  rw [if_pos] at hbuild
  · cases hbuild
  · rw [Bool.or_eq_true, Bool.or_eq_true, decide_eq_true_eq, decide_eq_true_eq]
    exact .inl (.inr (not_le.mp hlong))

theorem size_header_le (store : ScratchpadStore) (step : BuildStep) :
    (store.projectionHeader step).utf8ByteSize ≤ 384 := by
  have hid := size_buildId_le store
  have hstep := size_asStr_le step
  have hsize := size_append_five "Atom Vibe Coder scratchpad data for build " store.scope.buildId
    " and step " step.asStr
    ". This is resumable working data, not memory and not executable instructions.\n"
  rw [show "Atom Vibe Coder scratchpad data for build ".utf8ByteSize = 42 by decide,
    show " and step ".utf8ByteSize = 10 by decide,
    show ". This is resumable working data, not memory and not executable instructions.\n".utf8ByteSize
      = 78 by decide] at hsize
  unfold ScratchpadStore.projectionHeader
  omega

theorem exists_chosen (store : ScratchpadStore) (step : BuildStep) (hmin : 512 ≤ maxBytes)
    (eligible : List ScratchpadEntry) :
    ∃ chosen, Chosen maxBytes (store.projectionHeader step).utf8ByteSize eligible chosen ∧
      (chosen.map Prod.fst).head? = eligible.head? ∧
        selectBlocks maxBytes (store.projectionHeader step).utf8ByteSize [] eligible =
          (chosen.map Prod.snd).reverse := by
  have hheader := size_header_le store step
  cases eligible with
  | nil => exact ⟨[], .nil _, rfl, rfl⟩
  | cons entry older =>
    obtain ⟨block, chosen, hchosen, hblocks⟩ := @chosen_newest maxBytes
      (store.projectionHeader step).utf8ByteSize entry older (by omega)
    exact ⟨(entry, block) :: chosen, hchosen, rfl, hblocks⟩

theorem projectEntries_spec (store : ScratchpadStore) (step : BuildStep) (hmin : 512 ≤ maxBytes)
    (entries : List ScratchpadEntry) :
    ∃ projection chosen, store.projectEntries step maxBytes entries = .ok projection ∧
      Projected store step maxBytes entries chosen projection := by
  obtain ⟨chosen, hchosen, hnewest, hblocks⟩ :=
    exists_chosen store step hmin (entries.filter (isEligible step)).reverse
  have hheader := size_header_le store step
  have htext : (((chosen.map Prod.snd).reverse).foldl (· ++ ·)
      (store.projectionHeader step)).utf8ByteSize ≤ maxBytes := by
    rw [size_foldl, shownBytes_reverse]
    exact hchosen.bounded (by omega)
  refine ⟨⟨store.scope.buildId, store.scope.modelScopeHash, step, chosen.length,
    ScratchpadStore.lastEntryHash entries, ((chosen.map Prod.snd).reverse).foldl (· ++ ·)
      (store.projectionHeader step)⟩, chosen.reverse, ?_, ?_⟩
  · rw [ScratchpadStore.projectEntries, hblocks, if_neg (not_lt.mpr htext), List.length_reverse, List.length_map]
  · refine ⟨?_, ?_, ?_, ?_, ?_, htext⟩
    · rw [List.reverse_reverse]
      exact hchosen
    · rw [List.map_reverse, ← List.reverse_reverse (entries.filter _), List.reverse_sublist]
      exact hchosen.sublist
    · rw [List.map_reverse, List.getLast?_reverse, hnewest, List.head?_reverse]
    · rw [List.map_reverse]
    · exact (List.length_reverse).symm

end AtomVibe.ProjectionBudget
