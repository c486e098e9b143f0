import AtomVibe.ScratchpadAppend

namespace AtomVibe.ScratchpadBinding

open HashChain Hash Scratchpad ScratchpadStore ScratchpadChain ScratchpadAppend

def preimages (scope : ScratchpadScope) (entries : List ScratchpadEntry) : List (List UInt8) :=
  entries.map fun entry => hashPreimage scope entry.hashInput

def contents (entries : List ScratchpadEntry) : List (List UInt8) :=
  entries.map fun entry => asBytes entry.content

theorem validated_unique {scope : ScratchpadScope} {m n : UInt64} {g h : String}
    {entry entry' : ScratchpadEntry} (hv : Validated scope m g entry)
    (hv' : Validated scope n h entry')
    (hpreimage : sha256 (hashPreimage scope entry.hashInput) =
      sha256 (hashPreimage scope entry'.hashInput) →
      hashPreimage scope entry.hashInput = hashPreimage scope entry'.hashInput)
    (hcontent : sha256 (asBytes entry.content) = sha256 (asBytes entry'.content) →
      asBytes entry.content = asBytes entry'.content)
    (hhash : entry.entryHash = entry'.entryHash) : entry = entry' := by
  have hinput : entry.hashInput = entry'.hashInput := by
    refine hashPreimage_inj (hpreimage (sha256Tagged_inj.mp ?_))
    rw [hv.entryHash, hv'.entryHash] at hhash
    exact hhash
  have hc : entry.content = entry'.content := by
    refine asBytes_injective (hcontent (sha256Tagged_inj.mp ?_))
    rw [← hv.contentHash, ← hv'.contentHash]
    exact congrArg EntryHashInput.contentHash hinput
  have hversion := hv.version.trans hv'.version.symm
  have hid := hv.buildId.trans hv'.buildId.symm
  have hmodel := hv.modelScope.trans hv'.modelScope.symm
  obtain ⟨v, o, b, m, s, k, c, ch, p, e, q, t⟩ := entry
  obtain ⟨v', o', b', m', s', k', c', ch', p', e', q', t'⟩ := entry'
  simp only [ScratchpadEntry.hashInput, EntryHashInput.mk.injEq] at hinput hc hversion hid hmodel hhash
  obtain ⟨rfl, rfl, rfl, rfl, rfl, rfl, rfl⟩ := hinput
  subst hc hversion hid hmodel hhash
  rfl

theorem entries_unique {store store' : ScratchpadStore} {files files' : ScratchpadFiles}
    {es es' : List ScratchpadEntry} (hscope : store'.scope = store.scope)
    (h : Accepts store files es) (h' : Accepts store' files' es')
    (hpreimage : CollisionFree sha256 (preimages store.scope es) (preimages store.scope es'))
    (hcontent : CollisionFree sha256 (contents es) (contents es'))
    (hlast : lastEntryHash es = lastEntryHash es') : es = es' := by
  have hchain' := h'.chain
  rw [hscope] at hchain'
  have hunique : ∀ e ∈ es, ∀ e' ∈ es', e.entryHash = e'.entryHash → e = e' := by
    intro e he e' he' hhash
    obtain ⟨_, _, hv⟩ := h.chain.validated e he
    obtain ⟨_, _, hv'⟩ := hchain'.validated e' he'
    exact validated_unique hv hv'
      (hpreimage _ (List.mem_map_of_mem he) _ (List.mem_map_of_mem he'))
      (hcontent _ (List.mem_map_of_mem he) _ (List.mem_map_of_mem he')) hhash
  have hne : ∀ (ds : List ScratchpadEntry) (e : ScratchpadEntry) (n : UInt64) (g : String),
      Validated store.scope n g e → lastEntryHash [] ≠ lastEntryHash (ds ++ [e]) := by
    intro ds e n g hv heq
    rw [lastEntryHash, lastEntryHash, List.getLast?_concat, Option.map_some, Option.getD_some,
      hv.entryHash, computeEntryHash] at heq
    have := congrArg String.toList heq
    rw [toList_sha256Tagged] at this
    simp at this
  rcases List.eq_nil_or_concat' es with rfl | ⟨ds, e, rfl⟩
  · rcases List.eq_nil_or_concat' es' with rfl | ⟨ds', e', rfl⟩
    · rfl
    · obtain ⟨n, g, hv⟩ := hchain'.validated e' (by simp)
      exact absurd hlast (hne ds' e' n g hv)
  · rcases List.eq_nil_or_concat' es' with rfl | ⟨ds', e', rfl⟩
    · obtain ⟨n, g, hv⟩ := h.chain.validated e (by simp)
      exact absurd hlast.symm (hne ds e n g hv)
    obtain rfl : e = e' := by
      refine hunique e (by simp) e' (by simp) ?_
      simpa [lastEntryHash] using hlast
    -- the ordinal of the shared last entry fixes the length of both chains
    have hlength : (ds ++ [e]).length = (ds' ++ [e]).length := by
      have hlt : ∀ n, n ≤ maxScratchpadEntries → n < UInt64.size :=
        fun n hn => lt_of_le_of_lt hn (by decide)
      have hn := h.chain.last_ordinal
      rw [hchain'.last_ordinal, Nat.zero_add, Nat.zero_add] at hn
      have hsame := congrArg UInt64.toNat hn
      have hcount := h.count
      have hcount' := h'.count
      rw [List.length_append, List.length_singleton] at hcount hcount' ⊢
      rw [UInt64.toNat_ofNat_of_lt' (hlt _ hcount'),
        UInt64.toNat_ofNat_of_lt' (hlt _ hcount)] at hsame
      simpa using hsame.symm
    exact linked_unique h.chain.linked hchain'.linked hunique hlength (by simp)

end AtomVibe.ScratchpadBinding
