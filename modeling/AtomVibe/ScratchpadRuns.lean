import AtomVibe.Foundations.Transition
import AtomVibe.ScratchpadSeal

namespace AtomVibe.ScratchpadRuns

open Text JsonText HashChain Hash Secrets Transition BuildProtocol ChainFiles Scratchpad
open ScratchpadStore ScratchpadCodec ScratchpadChain ScratchpadAppend ScratchpadSeal

inductive PadOp
  | append (now : UInt64) (step : Option BuildStep) (kind : ScratchpadEntryKind) (content : String)
    (sourceIds : List String)
  | sealPad (now : UInt64) (modified : Option ℕ)
  | load

inductive PadResult
  | appended (result : Except ScratchpadError ScratchpadEntry)
  | closed (result : Except ScratchpadError Unit)
  | loaded (result : Except ScratchpadError (List ScratchpadEntry))

def runPad (store : ScratchpadStore) (files : ScratchpadFiles) : PadOp → PadResult × ScratchpadFiles
  | .append now step kind content sourceIds =>
    let done := store.append now step kind content sourceIds files
    (.appended done.1, done.2)
  | .sealPad now modified =>
    let done := ScratchpadSeal.sealPad store now modified files
    (.closed done.1, done.2)
  | .load =>
    let done := store.load files
    (.loaded done.1, done.2)

abbrev PadVisit := Visit ScratchpadFiles PadOp PadResult

structure Orderly (store : ScratchpadStore) (earlier later : PadVisit) : Prop where
  grows : ∀ entries entries', earlier.output = .loaded (.ok entries) →
    later.output = .loaded (.ok entries') → entries <+: entries'
  kept : ∀ entry result, earlier.output = .appended (.ok entry) → later.output = .loaded result →
    ∃ entries, result = .ok entries ∧ entry ∈ entries
  refused : earlier.output = .closed (.ok ()) → ∀ result, later.output = .appended result →
    result = .error .sealed
  final : earlier.output = .closed (.ok ()) → ∀ result, later.output = .loaded result →
    ∃ entries, (store.load earlier.before).1 = .ok entries ∧ result = .ok entries

def Numbered (visit : PadVisit) : Prop :=
  ∀ entries, visit.output = .loaded (.ok entries) → ∀ k entry, entries[k]? = some entry →
    entry.ordinal.toNat = k + 1

/-- The condition on the calls: the content of an append that gets to its write reads back, and the
file system dates a new seal by the clock the seal was made with. -/
def Faithful (store : ScratchpadStore) (files : ScratchpadFiles) : PadOp → Prop
  | .append _ _ _ content sourceIds => ∀ entries, (store.load files).1 = .ok entries →
      Admitted files entries content sourceIds → Lossless (redactSensitiveText content)
  | .sealPad now modified => files.sealFile = none →
      ∀ ms, modified = some ms → ms ≤ now.toNat + sealClockToleranceMs
  | .load => True

section Steps

variable {store : ScratchpadStore} {files files' : ScratchpadFiles} {entries : List ScratchpadEntry}

theorem Accepts.unique (h : Accepts store files entries) {entries' : List ScratchpadEntry}
    (h' : Accepts store files entries') : entries = entries' :=
  Except.ok.inj ((load_eq_ok.mpr h).symm.trans (load_eq_ok.mpr h'))

structure Later (store : ScratchpadStore) (files files' : ScratchpadFiles) : Prop where
  entries : ∀ entries, Accepts store files entries → ∃ entries', Accepts store files' entries' ∧
    entries <+: entries' ∧ (files.sealFile.isSome → entries' = entries)
  closed : files.sealFile.isSome → files'.sealFile.isSome

theorem Later.refl (files : ScratchpadFiles) : Later store files files :=
  ⟨fun entries h => ⟨entries, h, List.prefix_refl _, fun _ => rfl⟩, id⟩

theorem Later.trans {files'' : ScratchpadFiles} (h : Later store files files')
    (h' : Later store files' files'') : Later store files files'' := by
  constructor
  · intro entries haccepts
    obtain ⟨entries₁, haccepts₁, hinit₁, hsealed₁⟩ := h.entries entries haccepts
    obtain ⟨entries₂, haccepts₂, hinit₂, hsealed₂⟩ := h'.entries entries₁ haccepts₁
    exact ⟨entries₂, haccepts₂, hinit₁.trans hinit₂, fun hsome =>
      (hsealed₂ (h.closed hsome)).trans (hsealed₁ hsome)⟩
  · intro hsome
    exact h'.closed (h.closed hsome)

theorem later_same (h : Accepts store files entries) (h' : Accepts store files' entries)
    (hclosed : files.sealFile.isSome → files'.sealFile.isSome) : Later store files files' := by
  constructor
  · intro entries₀ h₀
    obtain rfl := Accepts.unique h₀ h
    exact ⟨entries₀, h', List.prefix_refl _, fun _ => rfl⟩
  · exact hclosed

theorem append_sealed (hsome : files.sealFile.isSome) (now : UInt64) (step : Option BuildStep)
    (kind : ScratchpadEntryKind) (content : String) (sourceIds : List String) :
    store.append now step kind content sourceIds files = (.error .sealed, files) := by
  rw [append, if_pos hsome]

theorem append_step (h : Accepts store files entries) {now : UInt64} {step : Option BuildStep}
    {kind : ScratchpadEntryKind} {content : String} {sourceIds : List String}
    (hfaithful : Faithful store files (.append now step kind content sourceIds)) :
    (∃ entry, (store.append now step kind content sourceIds files).1 = .ok entry ∧
      files.sealFile = none ∧
      Accepts store (store.append now step kind content sourceIds files).2 (entries ++ [entry])) ∨
    ((∃ error, (store.append now step kind content sourceIds files).1 = .error error) ∧
      Accepts store (store.append now step kind content sourceIds files).2 entries ∧
      (files.sealFile.isSome →
        (store.append now step kind content sourceIds files).2.sealFile.isSome)) := by
  have hatomic := appendAtomic_of_lossless h now step kind
    (hfaithful entries (load_eq_ok.mpr h))
  by_cases hsome : files.sealFile.isSome
  · right
    rw [append_sealed hsome]
    exact ⟨⟨_, rfl⟩, h, fun _ => hsome⟩
  · have hnone : files.sealFile = none := by simpa using hsome
    cases hresult : (store.append now step kind content sourceIds files).1 with
    | ok entry =>
      left
      exact ⟨entry, rfl, hnone, load_eq_ok.mp (hatomic.accepted entry hresult).1⟩
    | error error =>
      right
      exact ⟨⟨error, rfl⟩, load_eq_ok.mp (hatomic.rejected error hresult), fun h => absurd h hsome⟩

theorem seal_step (h : Accepts store files entries) {now : UInt64} {modified : Option ℕ}
    (hfaithful : Faithful store files (.sealPad now modified)) :
    Accepts store (ScratchpadSeal.sealPad store now modified files).2 entries ∧
      (files.sealFile.isSome →
        (ScratchpadSeal.sealPad store now modified files).2.sealFile.isSome) ∧
      ((ScratchpadSeal.sealPad store now modified files).1 = .ok () →
        (ScratchpadSeal.sealPad store now modified files).2.sealFile.isSome) := by
  have hscope := accepts_withScope h
  rw [ScratchpadSeal.sealPad, loadUnlocked_of_accepts h]
  simp only [writeSeal, show (withScope store files).sealFile = files.sealFile from rfl]
  cases hfile : files.sealFile with
  | none =>
    have hverify := verifySeal_sealBody h now modified (hfaithful hfile)
    simp only [hverify]
    exact ⟨⟨hscope.scope, hscope.chain, hscope.count, hscope.bytes, hverify⟩, by simp, by simp⟩
  | some file =>
    have hsame : { withScope store files with sealFile := some file } = withScope store files := by
      rw [← hfile]
      rfl
    by_cases hbytes : file.bytes = (sealBody store entries now).toByteArray
    · simp only [if_pos hbytes, hsame]
      exact ⟨hscope, fun _ => by simp [withScope, hfile], fun _ => by simp [withScope, hfile]⟩
    · simp only [if_neg hbytes]
      exact ⟨hscope, fun _ => by simp [withScope, hfile], by simp⟩

theorem load_step (h : Accepts store files entries) :
    (store.load files).1 = .ok entries ∧ Accepts store (store.load files).2 entries ∧
      (store.load files).2.sealFile = files.sealFile := by
  rw [load, loadUnlocked_of_accepts h]
  exact ⟨rfl, accepts_withScope h, rfl⟩

theorem later_step (h : ∃ entries, Accepts store files entries) (op : PadOp)
    (hop : Faithful store files op) : (∃ entries, Accepts store (runPad store files op).2 entries) ∧
      Later store files (runPad store files op).2 := by
  obtain ⟨entries, h⟩ := h
  cases op with
  | append now step kind content sourceIds =>
    rcases append_step h hop with ⟨entry, -, hnone, hafter⟩ | ⟨-, hafter, hclosed⟩
    · refine ⟨⟨_, hafter⟩, fun entries₀ h₀ => ?_, fun hsome => ?_⟩
      · obtain rfl := Accepts.unique h₀ h
        exact ⟨_, hafter, List.prefix_append _ _, fun hsome => absurd hsome (by simp [hnone])⟩
      · exact absurd hsome (by simp [hnone])
    · exact ⟨⟨entries, hafter⟩, later_same h hafter hclosed⟩
  | sealPad now modified =>
    obtain ⟨hafter, hclosed, -⟩ := seal_step h hop
    exact ⟨⟨entries, hafter⟩, later_same h hafter hclosed⟩
  | load =>
    obtain ⟨-, hafter, hfile⟩ := load_step h
    exact ⟨⟨entries, hafter⟩, later_same h hafter fun hsome => by
      rw [← hfile] at hsome
      exact hsome⟩

end Steps

section Runs

variable {store : ScratchpadStore} {files : ScratchpadFiles} {op : PadOp}

theorem loaded_visit {result : Except ScratchpadError (List ScratchpadEntry)}
    (h : (visit (runPad store) files op).output = .loaded result) :
    op = .load ∧ result = (store.load files).1 := by
  cases op <;> simp only [visit, runPad, PadResult.loaded.injEq, reduceCtorEq] at h
  exact ⟨rfl, h.symm⟩

theorem appended_visit {result : Except ScratchpadError ScratchpadEntry}
    (h : (visit (runPad store) files op).output = .appended result) :
    ∃ now step kind content sourceIds, op = .append now step kind content sourceIds ∧
      result = (store.append now step kind content sourceIds files).1 := by
  cases op <;> simp only [visit, runPad, PadResult.appended.injEq, reduceCtorEq] at h
  exact ⟨_, _, _, _, _, rfl, h.symm⟩

theorem closed_visit {result : Except ScratchpadError Unit}
    (h : (visit (runPad store) files op).output = .closed result) :
    ∃ now modified, op = .sealPad now modified ∧
      result = (ScratchpadSeal.sealPad store now modified files).1 := by
  cases op <;> simp only [visit, runPad, PadResult.closed.injEq, reduceCtorEq] at h
  exact ⟨_, _, rfl, h.symm⟩

theorem numbered_visit (files : ScratchpadFiles) (op : PadOp) :
    Numbered (visit (runPad store) files op) := by
  intro entries hloaded k entry hk
  obtain ⟨-, hresult⟩ := loaded_visit hloaded
  have haccepts := load_eq_ok.mp hresult.symm
  obtain ⟨hlt, -⟩ := List.getElem?_eq_some_iff.mp hk
  have hfile := List.getElem?_eq_getElem (haccepts.chain.length_eq ▸ hlt)
  obtain ⟨_, entry', hentry, hr⟩ := ReadChain.Chain.get haccepts.chain hfile
  obtain rfl := Option.some.inj (hk.symm.trans hentry)
  rw [hr.validated.ordinal, Nat.zero_add]
  exact toNat_ordinal (lt_of_lt_of_le hlt haccepts.count)

theorem orderly_visits {files' : ScratchpadFiles} {op' : PadOp}
    (h : ∃ entries, Accepts store files entries) (hop : Faithful store files op)
    (hlater : Later store (runPad store files op).2 files') :
    Orderly store (visit (runPad store) files op) (visit (runPad store) files' op') := by
  obtain ⟨entries, h⟩ := h
  constructor
  · intro entries₁ entries₂ hearlier hlate
    obtain ⟨rfl, hresult⟩ := loaded_visit hearlier
    obtain ⟨-, hresult'⟩ := loaded_visit hlate
    obtain ⟨hload, hafter, -⟩ := load_step h
    obtain rfl := Except.ok.inj (hresult.trans hload)
    obtain ⟨entries', h', hinit, -⟩ := hlater.entries _ hafter
    obtain rfl := Accepts.unique (load_eq_ok.mp hresult'.symm) h'
    exact hinit
  · intro entry result hearlier hlate
    obtain ⟨now, step, kind, content, sourceIds, rfl, hresult⟩ := appended_visit hearlier
    obtain ⟨-, rfl⟩ := loaded_visit hlate
    rcases append_step h hop with ⟨entry', hok, -, hafter⟩ | ⟨⟨error, herror⟩, -, -⟩
    · obtain rfl := Except.ok.inj (hresult.trans hok)
      obtain ⟨entries', h', hinit, -⟩ := hlater.entries _ hafter
      exact ⟨entries', load_eq_ok.mpr h', hinit.subset (by simp)⟩
    · rw [herror] at hresult
      exact absurd hresult (by simp)
  · intro hearlier result hlate
    obtain ⟨now, modified, rfl, hresult⟩ := closed_visit hearlier
    obtain ⟨_, _, _, _, _, rfl, rfl⟩ := appended_visit hlate
    have hsome := hlater.closed ((seal_step h hop).2.2 hresult.symm)
    rw [append_sealed hsome]
  · intro hearlier result hlate
    obtain ⟨now, modified, rfl, hresult⟩ := closed_visit hearlier
    obtain ⟨-, rfl⟩ := loaded_visit hlate
    obtain ⟨hafter, -, hclosed⟩ := seal_step h hop
    obtain ⟨entries', h', -, hsame⟩ := hlater.entries _ hafter
    obtain rfl := hsame (hclosed hresult.symm)
    exact ⟨entries', load_eq_ok.mpr h, load_eq_ok.mpr h'⟩

def OrderlyRun (store : ScratchpadStore) (files : ScratchpadFiles) (ops : List PadOp) : Prop :=
  (∀ visit ∈ trace (runPad store) files ops, Numbered visit) ∧
    (trace (runPad store) files ops).Pairwise (Orderly store)

/-- From any directory that loads, the faithful calls of any handles keep the pad append-only,
numbered without gaps and final once it is sealed. -/
theorem faithful_runs_orderly {entries : List ScratchpadEntry}
    (hload : (store.load files).1 = .ok entries) (ops : List PadOp)
    (hops : Guarded (runPad store) (Faithful store) files ops) : OrderlyRun store files ops := by
  have h0 : ∃ entries, Accepts store files entries := ⟨entries, load_eq_ok.mp hload⟩
  have hvisits := guarded_visits (Faithful store) (fun t => ∃ entries, Accepts store t entries) h0
    (fun t op ht hop => (later_step ht op hop).1) ops hops
  have hpairs := guarded_pairwise (Faithful store) (fun t => ∃ entries, Accepts store t entries)
    (Later store) Later.refl (fun _ _ _ => Later.trans) h0
    (fun t op ht hop => later_step ht op hop) ops hops
  constructor
  · intro v hv
    rw [(hvisits v hv).1]
    exact numbered_visit _ _
  · apply hpairs.imp_of_mem
    intro v w hv hw hlater
    obtain ⟨hvisit, hbefore, -⟩ := hvisits v hv
    rw [hvisit] at hlater
    rw [hvisit, (hvisits w hw).1]
    exact orderly_visits hbefore (hops v hv) hlater

def notedRun : List PadOp :=
  [.append 1 none .observation "queue drained" [], .load, .sealPad 2 (some 3),
    .append 4 none .checkpoint "queue refilled" [], .load]

theorem faithful_runs_orderly_note : OrderlyRun samplePad freshFiles notedRun := by
  apply faithful_runs_orderly (load_eq_ok.mpr (accepts_fresh samplePad)) notedRun
  intro v hv
  have hdrained : Lossless (redactSensitiveText "queue drained") := by decide +kernel
  have hrefilled : Lossless (redactSensitiveText "queue refilled") := by decide +kernel
  have hfaithful : ∀ op ∈ notedRun, Faithful samplePad v.before op := by
    simp only [notedRun, List.forall_mem_cons, List.not_mem_nil, false_imp_iff, implies_true,
      and_true]
    refine ⟨fun _ _ _ => hdrained, trivial, fun _ ms hms => ?_, fun _ _ _ => hrefilled, trivial⟩
    obtain rfl := Option.some.inj hms
    decide
  apply hfaithful
  rw [← map_input_trace (runPad samplePad) freshFiles notedRun]
  exact List.mem_map_of_mem hv

theorem unreadable_of_append {entries : List ScratchpadEntry} (h : Accepts store files entries)
    (now : UInt64) (step : Option BuildStep) (kind : ScratchpadEntryKind) {content : String}
    {sourceIds : List String} (ha : Admitted files entries content sourceIds)
    (hne : sha256Tagged (asBytes (sanitize (redactSensitiveText content))) ≠
      sha256Tagged (asBytes (redactSensitiveText content))) :
    ∀ entries', (store.load (store.append now step kind content sourceIds files).2).1 ≠
      .ok entries' := by
  intro entries' hload
  rcases append_cases h now step kind content sourceIds with
    ⟨-, entry, hvalid, hcontent, happend, hfiles⟩ | ⟨hna, -⟩
  · rw [happend] at hload
    have hchain := (load_eq_ok.mp hload).chain
    rw [hfiles] at hchain
    obtain ⟨_, read, -, -, hr⟩ := ReadChain.Chain.of_concat hchain
    have hparsed := hr.parsed
    simp only [readToString_toByteArray, Checked.ok_bind, parseEntry_entryToJson,
      Except.ok.injEq] at hparsed
    have hhash := hr.validated.contentHash
    rw [← hparsed] at hhash
    simp only [sanitizeEntry, hcontent] at hhash
    apply hne
    rw [← hhash, hvalid.contentHash, hcontent]
    exact (sanitize_eq_self_iff _).mpr (lossless_sha256Tagged _)
  · exact hna ha

theorem OrderlyRun.loads {now now' : UInt64} {step step' : Option BuildStep}
    {kind kind' : ScratchpadEntryKind} {content content' : String} {sourceIds sourceIds' : List String}
    (h : OrderlyRun store files [.append now step kind content sourceIds,
      .append now' step' kind' content' sourceIds', .load]) {entry : ScratchpadEntry}
    (hok : (store.append now step kind content sourceIds files).1 = .ok entry) :
    ∃ entries, (store.load (store.append now' step' kind' content' sourceIds'
      (store.append now step kind content sourceIds files).2).2).1 = .ok entries := by
  obtain ⟨hkept, -⟩ := List.pairwise_cons.mp h.2
  have hlater := hkept _ (List.mem_cons_of_mem _ List.mem_cons_self)
  obtain ⟨entries, hresult, -⟩ := hlater.kept entry _ (congrArg PadResult.appended hok) rfl
  exact ⟨entries, hresult⟩

def spoiledRun : List PadOp :=
  [.append 1 none .observation "queue drained" [], .append 2 none .observation "\x1b[31mfailed" [],
    .load]

theorem runs_not_orderly : ¬OrderlyRun samplePad freshFiles spoiledRun := by
  intro horderly
  have hfresh := accepts_fresh samplePad
  have hlossless : Lossless (redactSensitiveText "queue drained") := by decide +kernel
  have hadmitted : Admitted freshFiles [] "queue drained" [] :=
    ⟨rfl, by decide, by decide +kernel, by decide +kernel, rfl⟩
  have hatomic : AppendAtomic samplePad freshFiles [] 1 none .observation "queue drained" [] :=
    appendAtomic_of_lossless hfresh 1 none .observation fun _ => hlossless
  obtain ⟨entry, hok⟩ := hatomic.complete hadmitted
  obtain ⟨hload, hcontent⟩ := hatomic.accepted entry hok
  have hunsealed :
      (samplePad.append 1 none .observation "queue drained" [] freshFiles).2.sealFile = none := by
    rcases append_cases hfresh 1 none .observation "queue drained" [] with
      ⟨-, _, -, -, happend, -⟩ | ⟨hna, -⟩
    · rw [happend]
      rfl
    · exact absurd hadmitted hna
  have hbytes : contentBytes [entry] + (redactSensitiveText "\x1b[31mfailed").utf8ByteSize ≤
      maxScratchpadBytes := by
    simp only [contentBytes, List.map_cons, List.map_nil, List.sum_cons, List.sum_nil, hcontent]
    decide +kernel
  have hspoils := @unreadable_of_append _ _ _ (load_eq_ok.mp hload) 2 none .observation
    "\x1b[31mfailed" [] ⟨hunsealed, by simp [maxScratchpadEntries], hbytes, by decide +kernel, rfl⟩
    (show sha256Tagged (asBytes (sanitize (redactSensitiveText "\x1b[31mfailed"))) ≠
      sha256Tagged (asBytes (redactSensitiveText "\x1b[31mfailed")) by decide +kernel)
  obtain ⟨entries, hentries⟩ := horderly.loads hok
  exact hspoils entries hentries

end Runs

end AtomVibe.ScratchpadRuns
