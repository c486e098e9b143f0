import AtomVibe.NativeReports
import AtomVibe.WikiRecall

namespace AtomVibe.Native

open Text Secrets JsonText Proof Learning LedgerFields CoreRuntime Transition PartialRun Recency LineLog
open JsonGrammar

variable {Graph : Type} {host : Host Graph} {state next : AppState Graph}

theorem mem_dropBytes {n : ℕ} {cs : List Char} {c : Char} (h : c ∈ dropBytes n cs) : c ∈ cs := by
  induction cs generalizing n with
  | nil => exact h
  | cons first cs ih =>
    rw [dropBytes] at h
    split at h
    · exact h
    · exact List.mem_cons_of_mem _ (ih h)

theorem mem_takeBytes {n : ℕ} {cs : List Char} {c : Char} (h : c ∈ takeBytes n cs) : c ∈ cs := by
  induction cs generalizing n with
  | nil => exact h
  | cons first cs ih =>
    rw [takeBytes] at h
    split at h
    · cases h
    · rcases List.mem_cons.mp h with rfl | h
      · exact List.mem_cons_self
      · exact List.mem_cons_of_mem _ (ih h)

theorem mem_redactFrom {cs : List Char} {c : Char} {cursor : ℕ} {spans : List Span}
    (h : c ∈ redactFrom cs cursor spans) : c ∈ cs ∨ c ∈ "[REDACTED]".toList := by
  induction spans generalizing cursor with
  | nil => exact .inl (mem_dropBytes h)
  | cons span spans ih =>
    rw [redactFrom] at h
    split at h
    · exact ih h
    · rcases List.mem_append.mp h with h | h
      · rcases List.mem_append.mp h with h | h
        · exact .inl (mem_dropBytes (mem_takeBytes h))
        · exact .inr h
      · exact ih h

theorem lossless_redact {value : String} (h : Lossless value) :
    Lossless (redactSensitiveText value) := by
  rw [redactSensitiveText]
  split
  · exact h
  · intro c hc
    rw [String.toList_ofList] at hc
    rcases mem_redactFrom hc with hc | hc
    · exact h c hc
    · exact (show Lossless "[REDACTED]" by decide) c hc

theorem lossless_sanitizeText (value : String) (limit : ℕ) : Lossless (sanitizeText value limit) := by
  apply lossless_redact
  intro c hc
  rw [String.toList_ofList] at hc
  have hmem := List.mem_of_mem_take hc
  have hclean := lossless_sanitize value
  rw [sanitize] at hclean
  exact hclean c (by rw [String.toList_ofList]; exact hmem)

theorem lossless_hex16 (value : UInt64) : Lossless (hex16 value) := by
  intro c hc
  simp only [hex16, Hash.hexByte, String.toList_ofList, List.mem_flatMap, List.mem_cons,
    List.not_mem_nil, or_false] at hc
  have hhex : ∀ n, lossy (Hash.hexDigit n) = false := by
    intro n
    have h := Hash.isLowerHex_hexDigit n
    simp only [Hash.isLowerHex, isAsciiDigit, Bool.or_eq_true, Bool.and_eq_true,
      decide_eq_true_eq] at h
    rcases h with ⟨h1, h2⟩ | ⟨h1, h2⟩
    · exact lossy_of_between h1 h2 (by decide)
    · exact lossy_of_between h1 h2 (by decide)
  obtain ⟨shift, -, rfl | rfl⟩ := hc
  · exact hhex _
  · exact hhex _

theorem faithful_newLearningRecord (stamp : RecordStamp) (input : LearningRecordInput) :
    (newLearningRecord stamp input).Faithful where
  lossless := by
    have hatoms : ∀ text ∈ (newLearningRecord stamp input).atomStack, Lossless text := by
      intro text htext
      simp only [newLearningRecord, List.mem_map] at htext
      obtain ⟨value, -, rfl⟩ := htext
      exact lossless_sanitizeText _ _
    have hcandidate : ∀ text ∈ ((newLearningRecord stamp input).candidateVerification.map
        fun candidate => [candidate.manifestPath, candidate.manifestHash, candidate.bundleHash]).getD
          [], Lossless text := by
      cases hcase : input.candidateVerification with
      | none => simp [newLearningRecord, hcase]
      | some candidate =>
        simp only [newLearningRecord, hcase, Option.map_some, Option.getD_some,
          List.forall_mem_cons, List.not_mem_nil, false_imp_iff, implies_true, and_true]
        exact ⟨lossless_sanitizeText _ _, lossless_sanitizeText _ _, lossless_sanitizeText _ _⟩
    rw [LearningRecord.texts, List.forall_mem_append, List.forall_mem_append]
    refine ⟨⟨?_, hatoms⟩, hcandidate⟩
    simp only [newLearningRecord, List.forall_mem_cons, List.not_mem_nil, false_imp_iff,
      implies_true, and_true]
    exact ⟨lossless_hex16 _, lossless_sanitizeText _ _, lossless_sanitizeText _ _,
      lossless_sanitizeText _ _, lossless_sanitizeText _ _, lossless_sanitizeText _ _,
      lossless_sanitizeText _ _, lossless_sanitizeText _ _, lossless_sanitizeText _ _,
      lossless_sanitizeText _ _, lossless_sanitizeText _ _, lossless_sanitizeText _ _,
      lossless_sanitizeText _ _, lossless_sanitizeText _ _⟩
  work := by
    intro h
    exact absurd h (show usesWork learningSchemaVersion ≠ false by decide)
  harness := by
    intro h
    exact absurd h (show usesHarness learningSchemaVersion ≠ false by decide)
  candidate := fun h => absurd rfl h

section Concat

variable (records : List LearningRecord) (record : LearningRecord)

theorem fromRecords_concat : LearningSummary.fromRecords (records ++ [record]) =
    (LearningSummary.fromRecords records).add record.outcome := by
  cases h : record.outcome <;>
    simp [LearningSummary.fromRecords, LearningSummary.add, List.countP_append, h]

theorem effectiveRecords_concat (limit : ℕ) :
    effectiveRecords (effectiveRecords records limit ++ [record]) limit =
      effectiveRecords (records ++ [record]) limit := by
  have hpairwise := (@pairwise_latest _ _ _ LearningRecord.memoryKey records).sublist
    (List.drop_sublist ((latest LearningRecord.memoryKey records).length - limit) _)
  simp only [Wiki.effectiveRecords_eq]
  rw [← foldl_remember (records ++ [record]), List.foldl_concat, foldl_remember, remember,
    latest_concat]
  congr 3
  exact latest_of_pairwise hpairwise

def attemptKey (record : LearningRecord) : String × String := (record.intent, record.gate)

theorem attemptsOf_concat : attemptsOf (records ++ [record]) =
    (attemptsOf records).insert (attemptKey record) (match attemptsOf records (attemptKey record) with
      | some attempt => max attempt record.attempt
      | none => record.attempt) := by
  rw [attemptsOf, List.foldl_concat]
  rfl

def greatest (records : List LearningRecord) (key : String × String) : ℕ :=
  ((attemptsOf records key).map UInt32.toNat).getD 0

def attemptsFor (records : List LearningRecord) (key : String × String) : List ℕ :=
  (records.filter fun record => attemptKey record = key).map fun record => record.attempt.toNat

end Concat

theorem attempt_ne_zero {record : LearningRecord} {v : Verifiers} (h : record.validate v = .ok ()) :
    record.attempt ≠ 0 := by
  have hstructure := LearningRecord.validate_structure h
  simp only [LearningRecord.validateStructure, Checked.bind_eq_ok, Checked.refuseIf_eq_ok,
    exists_const, not_or] at hstructure
  obtain ⟨-, _, -, hpositive, -⟩ := hstructure
  exact hpositive.2

theorem toNat_next {attempts : LearningAttempts} {key : String × String}
    (h : attempts.next key ≠ 0) :
    (attempts.next key).toNat = ((attempts key).map UInt32.toNat).getD 0 + 1 := by
  have hne : (attempts.next key).toNat ≠ 0 := fun hzero => h (UInt32.toNat_inj.mp hzero)
  rw [LearningAttempts.next, UInt32.toNat_add] at hne ⊢
  have hlt := ((attempts key).getD 0).toNat_lt
  have hmap : ((attempts key).map UInt32.toNat).getD 0 = ((attempts key).getD 0).toNat := by
    cases attempts key <;> rfl
  rw [hmap]
  simp only [UInt32.toNat_one] at hne ⊢
  omega

structure Continues (old added : List LearningRecord) (key : String × String) : Prop where
  numbers : attemptsFor added key =
    List.range' (greatest old key + 1) (attemptsFor added key).length
  greatest : greatest (old ++ added) key = greatest old key + (attemptsFor added key).length

theorem continues_nil (old : List LearningRecord) (key : String × String) :
    Continues old [] key := ⟨rfl, by rw [List.append_nil]; rfl⟩

theorem attemptsFor_concat (records : List LearningRecord) (record : LearningRecord)
    (key : String × String) : attemptsFor (records ++ [record]) key =
      attemptsFor records key ++ if attemptKey record = key then [record.attempt.toNat] else [] := by
  rw [attemptsFor, List.filter_append, List.map_append, attemptsFor]
  by_cases h : attemptKey record = key <;> simp [h]

theorem attemptsOf_next {records : List LearningRecord} {record : LearningRecord}
    (h : record.attempt.toNat = greatest records (attemptKey record) + 1) :
    attemptsOf (records ++ [record]) =
      (attemptsOf records).insert (attemptKey record) record.attempt := by
  rw [attemptsOf_concat]
  rw [greatest] at h
  cases hbefore : attemptsOf records (attemptKey record) with
  | none => rfl
  | some attempt =>
    rw [hbefore, Option.map_some, Option.getD_some] at h
    have hle : attempt ≤ record.attempt := by
      rw [UInt32.le_iff_toNat_le]
      omega
    change LearningAttempts.insert _ _ (if attempt ≤ record.attempt then record.attempt else attempt) = _
    rw [if_pos hle]

theorem greatest_concat {records : List LearningRecord} {record : LearningRecord}
    (h : record.attempt.toNat = greatest records (attemptKey record) + 1) (key : String × String) :
    greatest (records ++ [record]) key =
      if attemptKey record = key then record.attempt.toNat else greatest records key := by
  rw [greatest, attemptsOf_next h, LearningAttempts.insert]
  by_cases hkey : attemptKey record = key
  · rw [if_pos hkey, ← hkey, Function.update_self, Option.map_some, Option.getD_some]
  · rw [if_neg hkey, Function.update_of_ne (Ne.symm hkey), greatest]

theorem Continues.concat {old added : List LearningRecord} {record : LearningRecord}
    {key : String × String} (h : Continues old added key)
    (hattempt : record.attempt.toNat = AtomVibe.Native.greatest (old ++ added) (attemptKey record) + 1) :
    Continues old (added ++ [record]) key := by
  have hconcat := attemptsFor_concat added record key
  have hgreatest := greatest_concat hattempt key
  rw [List.append_assoc] at hgreatest
  by_cases hkey : attemptKey record = key
  · rw [if_pos hkey] at hconcat hgreatest
    rw [hkey, h.greatest] at hattempt
    constructor
    · rw [hconcat, List.length_append, List.length_singleton, List.range'_1_concat, ← h.numbers,
        hattempt]
      congr 2
      omega
    · rw [hgreatest, hconcat, hattempt, List.length_append, List.length_singleton]
      omega
  · rw [if_neg hkey, List.append_nil] at hconcat
    rw [if_neg hkey] at hgreatest
    exact ⟨by rw [hconcat]; exact h.numbers, by rw [hgreatest, hconcat]; exact h.greatest⟩

def CleanIntent (intent : String) : Prop := sanitizeText intent maxLongField = intent

theorem newLearningRecord_fields (stamp : RecordStamp) (input : LearningRecordInput) :
    (newLearningRecord stamp input).intent = sanitizeText input.intent maxLongField ∧
      (newLearningRecord stamp input).gate = sanitizeText input.gate maxShortField ∧
      (newLearningRecord stamp input).attempt = input.attempt := by
  simp only [newLearningRecord, and_self]

structure NextLesson (attempts : LearningAttempts) (record : LearningRecord) (key : String × String) :
    Prop where
  made : ∃ stamp input, record = newLearningRecord stamp input
  counted : key = attemptKey record
  attempt : record.attempt = attempts.next key

theorem sanitize_gates : ∀ gate ∈ ["native-provider-execution", "native-proof-route", fastBuildGate],
    sanitizeText gate maxShortField = gate := by
  decide +kernel

theorem runGate_mem (state : RuntimeState) : runGate state ∈
    ["native-provider-execution", "native-proof-route", fastBuildGate] := by
  rw [runGate]
  split <;> decide

theorem runLesson_next {intent : String} {machine machine' : Machine} {mid : AppState Graph}
    {record : LearningRecord} {key : String × String} (hclean : CleanIntent intent)
    (h : RunLesson intent machine mid record key machine') :
    NextLesson mid.app.learningAttempts record key := by
  obtain ⟨-, hintent, hrecord, rfl⟩ := h
  rw [NativeApp.currentLearningRecord, learningRecordFromState, hintent,
    Option.map_eq_some_iff] at hrecord
  obtain ⟨outcome, -, hrecord⟩ := hrecord
  dsimp only at hrecord
  obtain ⟨hname, hgate, hattempt⟩ := newLearningRecord_fields machine.stamp _
  rw [hrecord] at hname hgate hattempt
  rw [sanitize_gates _ (runGate_mem mid.app.runtime.state)] at hgate
  refine ⟨⟨machine.stamp, _, hrecord.symm⟩, rfl, ?_⟩
  rw [hattempt, hname, hgate, hclean]

theorem fastBuildLesson_made {state : AppState Graph} {build : FastBuild} {machine : Machine}
    {record : LearningRecord} (h : state.fastBuildLesson build machine = some record) :
    record.gate = fastBuildGate ∧ ∃ stamp input, record = newLearningRecord stamp input := by
  have hgate : sanitizeText fastBuildGate maxShortField = fastBuildGate :=
    sanitize_gates _ (by simp)
  rw [AppState.fastBuildLesson] at h
  split at h
  · cases h
  · split at h
    · rw [fastBuildSuccessRecord, fastBuildRecord] at h
      have hmade := (Option.some.inj h).symm
      exact ⟨by rw [hmade, (newLearningRecord_fields _ _).2.1, hgate], _, _, hmade⟩
    · split at h
      · cases h
      · rw [fastBuildFailureRecord, fastBuildRecord] at h
        have hmade := (Option.some.inj h).symm
        exact ⟨by rw [hmade, (newLearningRecord_fields _ _).2.1, hgate], _, _, hmade⟩

theorem buildLesson_next {intent : String} {build : FastBuild} {machine machine' : Machine}
    {mid : AppState Graph} {record : LearningRecord} {key : String × String}
    (hclean : CleanIntent intent) (h : BuildLesson intent build machine mid record key machine') :
    NextLesson mid.app.learningAttempts record key := by
  obtain ⟨-, hintent, hrecord, rfl⟩ := h
  obtain ⟨hname, hattempt⟩ := fastBuildLesson_spec hrecord
  obtain ⟨hgate, hmade⟩ := fastBuildLesson_made hrecord
  rw [hintent, hclean] at hname
  rw [hintent] at hattempt
  exact ⟨hmade, by rw [attemptKey, hname, hgate], hattempt⟩

def lessonIntent (state : AppState Graph) : AppCall → Option String
  | .runCurrentIntent input _ => some (currentIntent input)
  | .completeProviderExecutionReport _ _ => some state.app.lastIntent
  | .completeFastBuild (.ok _) _ _ => some state.app.lastIntent
  | _ => none

theorem callLesson_next {call : AppCall} {machine : Machine} {mid : AppState Graph}
    {record : LearningRecord} {key : String × String}
    (hclean : ∀ intent, lessonIntent state call = some intent → CleanIntent intent)
    (h : CallLesson state call mid record key machine) :
    NextLesson mid.app.learningAttempts record key ∧ keptBy call = some machine := by
  cases call with
  | runCurrentIntent input machine' =>
    exact ⟨runLesson_next (hclean _ rfl) h, congrArg some h.1.symm⟩
  | completeProviderExecutionReport delivery machine' =>
    exact ⟨runLesson_next (hclean _ rfl) h, congrArg some h.1.symm⟩
  | completeFastBuild result memory machine' =>
    cases result with
    | error reason => exact h.elim
    | ok build => exact ⟨buildLesson_next (hclean _ rfl) h, congrArg some h.1.symm⟩
  | _ => exact h.elim

structure AccountsOf (records : List LearningRecord) (app : NativeApp Graph) : Prop where
  learningRecords : app.learningRecords = effectiveRecords records defaultGraphMemoryLimit
  learningSummary : app.learningSummary = .fromRecords records
  learningAttempts : app.learningAttempts = attemptsOf records

structure Balanced (ledger : LearningStore) (old : List LearningRecord) (state : AppState Graph) :
    Prop where
  kept : state.app.learningStore = some ledger
  apart : ∀ store, state.app.store = some store → store.path ≠ ledger.path
  ended : Blanks (ledger.tail state.disk)
  balance : ∃ added, ledger.readRecords state.disk = .ok (old ++ added) ∧
    AccountsOf (old ++ added) state.app ∧ ∀ key, Continues old added key

section Ledgers

variable {ledger : LearningStore} {old : List LearningRecord}

theorem readRecords_congr {disk disk' : Disk}
    (h : disk'.lookup ledger.path = disk.lookup ledger.path) :
    ledger.readRecords disk' = ledger.readRecords disk ∧ ledger.tail disk' = ledger.tail disk := by
  rw [LearningStore.readRecords, LearningStore.readRecords, LearningStore.tail, LearningStore.tail, h]
  exact ⟨rfl, rfl⟩

theorem Balanced.same (h : Balanced ledger old state) (hsame : SameBooks state next) :
    Balanced ledger old next := by
  obtain ⟨hread, htail⟩ := readRecords_congr (hsame.files ledger.path h.apart)
  obtain ⟨added, hrecords, haccounts, hnumbers⟩ := h.balance
  refine ⟨hsame.learningStore.trans h.kept, ?_, htail ▸ h.ended, added, hread.trans hrecords,
    ⟨?_, ?_, ?_⟩, hnumbers⟩
  · rw [hsame.store]
    exact h.apart
  · exact hsame.learningRecords.trans haccounts.learningRecords
  · exact hsame.learningSummary.trans haccounts.learningSummary
  · exact hsame.learningAttempts.trans haccounts.learningAttempts

theorem ledger_append {disk : Disk} {records : List LearningRecord} {record : LearningRecord}
    {v : Verifiers} (hread : ledger.readRecords disk = .ok records)
    (hended : Blanks (ledger.tail disk)) (hvalid : record.validate v = .ok ())
    (hfaithful : record.Faithful) :
    ledger.readRecords (ledger.append v record disk).2 = .ok (records ++ [record]) ∧
      Blanks (ledger.tail (ledger.append v record disk).2) := by
  obtain ⟨-, hafter, -⟩ := (LearningStore.keeps_iff ledger v record disk records hvalid hread).mpr
    ⟨hfaithful, hended⟩
  refine ⟨hafter, ?_⟩
  rw [LearningStore.readRecords, Checked.mapError_eq_ok] at hread
  obtain ⟨text, htext, -⟩ := Checked.bind_eq_ok.mp hread
  have hmade : (ledger.append v record disk).2.lookup ledger.path =
      some (LineLog.append record.toJson (disk.lookup ledger.path)) := by
    rw [LearningStore.append, hvalid]
    exact (Catalog.lookup_insert _ _ _ _).trans (if_pos rfl)
  rw [LearningStore.tail, hmade, readToString_append _ htext]
  dsimp only
  rw [openLine_append]
  exact JsonGrammar.blanks_nil

def CleanFaults (machine : Machine) : Prop :=
  ∀ fault, machine.learningFault = some fault → fault.written = 0

theorem appendLesson_refused {app : NativeApp Graph} {machine : Machine} {record : LearningRecord}
    {disk disk' : Disk} {reason : String} (hclean : CleanFaults machine)
    (h : app.appendLesson machine record disk = (.error reason, disk')) : disk' = disk := by
  rw [NativeApp.appendLesson] at h
  split at h
  · cases h
  · dsimp only at h
    split at h
    · exact (Prod.mk.inj h).2.symm
    · rename_i fault _ hfault
      rw [← (Prod.mk.inj h).2, AppendFault.leave, if_pos (hclean fault hfault)]
    · cases h

theorem appendLesson_kept {app : NativeApp Graph} {machine : Machine} {record : LearningRecord}
    {disk disk' : Disk} (hledger : app.learningStore = some ledger)
    (h : app.appendLesson machine record disk = (.ok (), disk')) :
    record.validate machine.verifiers = .ok () ∧
      disk' = (ledger.append machine.verifiers record disk).2 := by
  rw [NativeApp.appendLesson, hledger] at h
  dsimp only at h
  split at h
  · cases h
  · cases h
  · rename_i hvalid _
    exact ⟨hvalid, (Prod.mk.inj h).2.symm⟩

theorem Balanced.booked {mid after : AppState Graph} {machine : Machine} {record : LearningRecord}
    {key : String × String} (h : Balanced ledger old mid) (hclean : CleanFaults machine)
    (hnext : NextLesson mid.app.learningAttempts record key)
    (hbooked : Booked host mid machine record key after) : Balanced ledger old after := by
  cases hbooked with
  | refused happend =>
    rw [appendLesson_refused hclean happend]
    exact h
  | kept happend learned =>
    obtain ⟨added, hread, haccounts, hnumbers⟩ := h.balance
    obtain ⟨hvalid, hdisk⟩ := appendLesson_kept h.kept happend
    obtain ⟨⟨stamp, input, hmade⟩, hkey, hattempt⟩ := hnext
    have hfaithful : record.Faithful := hmade ▸ faithful_newLearningRecord stamp input
    obtain ⟨hafter, hended⟩ := ledger_append hread h.ended hvalid hfaithful
    have hpositive := attempt_ne_zero hvalid
    rw [hattempt] at hpositive
    have hnumber : record.attempt.toNat = greatest (old ++ added) (attemptKey record) + 1 := by
      rw [hattempt, toNat_next hpositive, haccounts.learningAttempts, hkey, greatest]
    refine ⟨h.kept, h.apart, hdisk ▸ hended, added ++ [record], ?_, ⟨?_, ?_, ?_⟩, fun key =>
      (hnumbers key).concat hnumber⟩
    · rw [hdisk, hafter, List.append_assoc]
    · change effectiveRecords (mid.app.learningRecords ++ [record]) defaultGraphMemoryLimit = _
      rw [haccounts.learningRecords, effectiveRecords_concat, List.append_assoc]
    · change mid.app.learningSummary.add record.outcome = _
      rw [haccounts.learningSummary, ← fromRecords_concat, List.append_assoc]
    · change mid.app.learningAttempts.insert key record.attempt = _
      rw [← List.append_assoc, attemptsOf_next hnumber, ← haccounts.learningAttempts, hkey]

inductive ShellCall (Graph : Type)
  | act (call : AppCall)
  | reopen (provider : CoreProviderConfig) (store : Option ProofStore) (graph : Graph)

def shellStep (host : Host Graph) (state : AppState Graph) :
    ShellCall Graph → Option (Unit × AppState Graph)
  | .act call => (act host state call).map fun made => ((), made.2)
  | .reopen provider store graph =>
    (NativeApp.newWithStores host provider store state.app.learningStore graph state.disk).map
      fun app => ((), ⟨app, state.disk⟩)

abbrev ShellVisit (Graph : Type) := Visit (AppState Graph) (ShellCall Graph) Unit

/-- The shell is opened on a readable ledger with these records, whose last line is ended, and its
proofs go elsewhere. -/
structure OpenedOn (host : Host Graph) (ledger : LearningStore) (old : List LearningRecord)
    (state : AppState Graph) : Prop where
  opened : ∃ provider store graph,
    NativeApp.newWithStores host provider store (some ledger) graph state.disk = some state.app
  apart : ∀ store, state.app.store = some store → store.path ≠ ledger.path
  readable : ledger.readRecords state.disk = .ok old
  ended : Blanks (ledger.tail state.disk)

/-- The lesson of a call is about a clean intent, and a failing append leaves nothing in the ledger;
the proofs go elsewhere. -/
def Steady (ledger : LearningStore) (visit : ShellVisit Graph) : Prop :=
  match visit.input with
  | .act call =>
    (∀ intent, lessonIntent visit.before call = some intent → CleanIntent intent) ∧
      ∀ machine, keptBy call = some machine → CleanFaults machine
  | .reopen _ store _ => ∀ proofs, store = some proofs → proofs.path ≠ ledger.path

theorem newWithStores_spec {provider : CoreProviderConfig} {store : Option ProofStore} {graph : Graph}
    {disk : Disk} {app : NativeApp Graph} {records : List LearningRecord}
    (hread : ledger.readRecords disk = .ok records)
    (h : NativeApp.newWithStores host provider store (some ledger) graph disk = some app) :
    app.learningStore = some ledger ∧ app.store = store ∧ AccountsOf records app := by
  unfold NativeApp.newWithStores at h
  simp only [Option.bind_some, hread, Except.toOption, Option.getD_some] at h
  cases store with
  | none =>
    obtain ⟨runtime, -, hmade⟩ := Option.bind_eq_some_iff.mp h
    rw [← Option.some.inj hmade]
    exact ⟨rfl, rfl, rfl, rfl, rfl⟩
  | some proofs =>
    obtain ⟨runtime, -, hmade⟩ := Option.bind_eq_some_iff.mp h
    rw [← Option.some.inj hmade]
    exact ⟨rfl, rfl, rfl, rfl, rfl⟩

theorem OpenedOn.balanced (h : OpenedOn host ledger old state) : Balanced ledger old state := by
  obtain ⟨provider, store, graph, happ⟩ := h.opened
  obtain ⟨hledger, -, haccounts⟩ := newWithStores_spec h.readable happ
  refine ⟨hledger, h.apart, h.ended, [], ?_, ?_, continues_nil old⟩
  · rw [List.append_nil, h.readable]
  · rw [List.append_nil]
    exact haccounts

theorem Balanced.step {call : ShellCall Graph} {done : Unit} (h : Balanced ledger old state)
    (made : shellStep host state call = some (done, next))
    (hsteady : Steady ledger ⟨state, call, done, next⟩) : Balanced ledger old next := by
  cases call with
  | act call =>
    rw [shellStep, Option.map_eq_some_iff] at made
    obtain ⟨⟨answer, after⟩, hact, hmade⟩ := made
    obtain ⟨-, rfl⟩ := Prod.mk.inj hmade
    obtain ⟨hclean, hfaults⟩ := hsteady
    cases (act_acted hact).filed with
    | nothing same => exact h.same same
    | lesson before lesson booked rest =>
      obtain ⟨hnext, hkept⟩ := callLesson_next hclean lesson
      exact ((h.same before).booked (hfaults _ hkept) hnext booked).same rest
  | reopen provider store graph =>
    rw [shellStep, Option.map_eq_some_iff] at made
    obtain ⟨app, happ, hmade⟩ := made
    obtain ⟨-, rfl⟩ := Prod.mk.inj hmade
    obtain ⟨added, hread, -, hnumbers⟩ := h.balance
    rw [h.kept] at happ
    obtain ⟨hledger, hstore, haccounts⟩ := newWithStores_spec hread happ
    refine ⟨hledger, ?_, h.ended, added, hread, haccounts, hnumbers⟩
    rw [hstore]
    exact hsteady

theorem balanced {past : List (ShellVisit Graph)}
    (h : Run (shellStep host) (OpenedOn host ledger old) past state)
    (hsteady : ∀ visit ∈ past, Steady ledger visit) : Balanced ledger old state := by
  apply h.guarded_induction (Steady ledger) fun _ state => Balanced ledger old state
  · exact fun state hopened => hopened.balanced
  · exact fun past visit hinv made hok => hinv.step made hok
  · exact hsteady

theorem Balanced.unchanged (h : Balanced ledger old state) (h' : Balanced ledger old next)
    (hsame : next.disk.lookup ledger.path = state.disk.lookup ledger.path) :
    SameAccounts state.app next.app := by
  obtain ⟨added, hread, haccounts, -⟩ := h.balance
  obtain ⟨added', hread', haccounts', -⟩ := h'.balance
  rw [(readRecords_congr hsame).1, hread] at hread'
  obtain hrecords := Except.ok.inj hread'
  rw [← hrecords] at haccounts'
  exact ⟨haccounts'.learningRecords.trans haccounts.learningRecords.symm,
    haccounts'.learningSummary.trans haccounts.learningSummary.symm,
    haccounts'.learningAttempts.trans haccounts.learningAttempts.symm⟩

/-- In every run of steady calls the accounts are those of the ledger, the attempts recorded for an
intent and a gate go on one by one from the greatest there was, and a call that leaves the ledger as
it was leaves the accounts as they were. -/
theorem learning_accounts_true {past : List (ShellVisit Graph)}
    (h : Run (shellStep host) (OpenedOn host ledger old) past state)
    (hsteady : ∀ visit ∈ past, Steady ledger visit) :
    (∃ added, ledger.readRecords state.disk = .ok (old ++ added) ∧
        state.app.learningSummary = .fromRecords (old ++ added) ∧
        state.app.learningRecords = effectiveRecords (old ++ added) defaultGraphMemoryLimit ∧
        ∀ key, attemptsFor added key =
          List.range' (greatest old key + 1) (attemptsFor added key).length) ∧
      ∀ before visit after, past = before ++ visit :: after →
        visit.after.disk.lookup ledger.path = visit.before.disk.lookup ledger.path →
          SameAccounts visit.before.app visit.after.app := by
  obtain ⟨added, hread, haccounts, hnumbers⟩ := (balanced h hsteady).balance
  refine ⟨⟨added, hread, haccounts.learningSummary, haccounts.learningRecords,
    fun key => (hnumbers key).numbers⟩, fun before visit after hpast hsame => ?_⟩
  obtain ⟨hbefore, made⟩ := h.split hpast
  rw [hpast] at hsteady
  have hbalanced := balanced hbefore fun other hother => hsteady other (List.mem_append_left _ hother)
  exact hbalanced.unchanged (hbalanced.step made (hsteady visit (by simp))) hsame

end Ledgers

theorem runLesson_made {intent : String} {machine machine' : Machine} {mid : AppState Graph}
    {record : LearningRecord} {key : String × String}
    (h : RunLesson intent machine mid record key machine') :
    ∃ stamp input, record = newLearningRecord stamp input := by
  obtain ⟨-, -, hrecord, -⟩ := h
  rw [NativeApp.currentLearningRecord, learningRecordFromState, Option.map_eq_some_iff] at hrecord
  obtain ⟨outcome, -, hrecord⟩ := hrecord
  exact ⟨_, _, hrecord.symm⟩

theorem filed_grown {ledger : LearningStore} {records : List LearningRecord}
    {lesson : AppState Graph → LearningRecord → String × String → Machine → Prop}
    (h : Filed host state next lesson)
    (hmade : ∀ mid record key machine, lesson mid record key machine →
      ∃ stamp input, record = newLearningRecord stamp input)
    (hkept : state.app.learningStore = some ledger) (hstore : state.app.store = none)
    (hread : ledger.readRecords state.disk = .ok records) (hended : Blanks (ledger.tail state.disk))
    (hcounted : next.app.learningSummary ≠ state.app.learningSummary) :
    ∃ record, ledger.readRecords next.disk = .ok (records ++ [record]) ∧
      Blanks (ledger.tail next.disk) ∧
      next.app.learningRecords =
        effectiveRecords (state.app.learningRecords ++ [record]) defaultGraphMemoryLimit := by
  have hnone : ∀ {app : NativeApp Graph}, app.store = none →
      ∀ store, app.store = some store → store.path ≠ ledger.path := by
    intro app hnone store hsome
    rw [hnone] at hsome
    cases hsome
  cases h with
  | nothing same => exact absurd same.learningSummary hcounted
  | @lesson mid after machine record key before made booked rest =>
    obtain ⟨hreadMid, htailMid⟩ := readRecords_congr (before.files ledger.path (hnone hstore))
    cases booked with
    | refused happend =>
      exact absurd (rest.learningSummary.trans before.learningSummary) hcounted
    | kept happend learned =>
      obtain ⟨hvalid, hdisk⟩ := appendLesson_kept (before.learningStore.trans hkept) happend
      obtain ⟨stamp, input, hrecord⟩ := hmade mid record key machine made
      obtain ⟨hafter, hendedAfter⟩ := ledger_append (hreadMid.trans hread) (htailMid ▸ hended) hvalid
        (hrecord ▸ faithful_newLearningRecord stamp input)
      have hfiles := rest.files ledger.path (hnone (before.store.trans hstore))
      obtain ⟨hreadNext, htailNext⟩ := readRecords_congr hfiles
      rw [← hdisk] at hafter hendedAfter
      refine ⟨record, hreadNext.trans hafter, htailNext ▸ hendedAfter, ?_⟩
      rw [rest.learningRecords, ← before.learningRecords]
      rfl

theorem getLast_effectiveRecords (records : List LearningRecord) (record : LearningRecord) :
    (effectiveRecords (records ++ [record]) defaultGraphMemoryLimit).getLast? = some record := by
  rw [Wiki.effectiveRecords_eq, latest_concat, show defaultGraphMemoryLimit = 255 + 1 from rfl,
    List.rtake_concat_succ, List.getLast?_concat]

def keylessProvider : CoreProviderConfig := { sampleProvider with apiKeyPresent := false }

def lessonLedger : LearningStore := ⟨"learning.jsonl"⟩

def keylessState : AppState Unit :=
  ⟨{ memoryApp keylessProvider with learningStore := some lessonLedger }, Catalog.empty⟩

theorem opened_keylessState : OpenedOn sampleHost lessonLedger [] keylessState where
  opened := ⟨keylessProvider, none, (), rfl⟩
  apart := fun _ h => absurd h (by simp [keylessState, memoryApp])
  readable := rfl
  ended := blanks_nil

theorem learning_accounts_true_x : ∃ state,
    Run (shellStep sampleHost) (OpenedOn sampleHost lessonLedger [])
      [⟨keylessState, .act (.runCurrentIntent "x" sampleMachine), (), state⟩] state ∧
    ∃ added, lessonLedger.readRecords state.disk = .ok ([] ++ added) ∧
      state.app.learningSummary = .fromRecords ([] ++ added) := by
  have hgrounded : Grounded keylessState.app.runtime := grounded_withGraph keylessProvider ()
  obtain ⟨state, hran, -⟩ := runCurrentIntent_returns hgrounded sampleHost "x" sampleMachine
  have hstep : shellStep sampleHost keylessState (.act (.runCurrentIntent "x" sampleMachine)) =
      some ((), state) := by
    rw [shellStep, act, hran]
    rfl
  have hrun := Run.call (.start opened_keylessState) hstep
  have hsteady : ∀ visit ∈ [⟨keylessState, .act (.runCurrentIntent "x" sampleMachine), (), state⟩],
      Steady lessonLedger visit := by
    intro visit hvisit
    rw [List.mem_singleton.mp hvisit]
    constructor
    · intro intent hintent
      rw [← Option.some.inj hintent, CleanIntent]
      decide +kernel
    · intro machine hmachine
      rw [← Option.some.inj hmachine]
      intro fault hfault
      cases hfault
  obtain ⟨⟨added, hread, hsummary, -⟩, -⟩ := learning_accounts_true hrun hsteady
  exact ⟨state, hrun, added, hread, hsummary⟩

def muddled : String := "a\x01b"

def muddledRun (state : AppState Unit) : Option (Unit × AppState Unit) :=
  shellStep sampleHost state (.act (.runCurrentIntent muddled sampleMachine))

def lastLesson (state : AppState Unit) : ℕ × Option ((String × String) × UInt32) :=
  (state.app.learningSummary.total,
    state.app.learningRecords.getLast?.map fun record => (attemptKey record, record.attempt))

def muddledKey : String × String := ("a b", "native-provider-execution")

set_option maxRecDepth 100000 in
theorem muddled_once : (muddledRun keylessState).map (fun made => lastLesson made.2) =
    some (1, some (muddledKey, 1)) := by
  decide +kernel

set_option maxRecDepth 100000 in
theorem muddled_twice :
    ((muddledRun keylessState).bind fun made => muddledRun made.2).map
      (fun made => lastLesson made.2) = some (2, some (muddledKey, 1)) := by
  decide +kernel

theorem muddledRun_filed {state next : AppState Unit} {done : Unit} {records : List LearningRecord}
    (h : muddledRun state = some (done, next)) (hkept : state.app.learningStore = some lessonLedger)
    (hstore : state.app.store = none) (hread : lessonLedger.readRecords state.disk = .ok records)
    (hended : Blanks (lessonLedger.tail state.disk))
    (hcounted : next.app.learningSummary ≠ state.app.learningSummary) :
    next.app.learningStore = some lessonLedger ∧ next.app.store = none ∧
      ∃ record, lessonLedger.readRecords next.disk = .ok (records ++ [record]) ∧
        Blanks (lessonLedger.tail next.disk) ∧ next.app.learningRecords.getLast? = some record := by
  rw [muddledRun, shellStep, Option.map_eq_some_iff] at h
  obtain ⟨made, hact, hmade⟩ := h
  obtain ⟨-, rfl⟩ := Prod.mk.inj hmade
  have hfiled := (act_acted hact).filed
  obtain ⟨record, hafter, hblank, hlast⟩ := filed_grown hfiled
    (fun mid record key machine lesson => runLesson_made lesson) hkept hstore hread hended hcounted
  exact ⟨hfiled.learningStore.trans hkept, hfiled.store.trans hstore, record, hafter, hblank,
    by rw [hlast, getLast_effectiveRecords]⟩

theorem second_attempt_uncounted : ∃ past state,
    Run (shellStep sampleHost) (OpenedOn sampleHost lessonLedger []) past state ∧
      ∃ key added, lessonLedger.readRecords state.disk = .ok ([] ++ added) ∧
        attemptsFor added key ≠
          List.range' (greatest [] key + 1) (attemptsFor added key).length := by
  obtain ⟨⟨done, once⟩, honce, hlessonOnce⟩ := Option.map_eq_some_iff.mp muddled_once
  have htwice := muddled_twice
  rw [honce, Option.bind_some] at htwice
  obtain ⟨⟨done', twice⟩, htwice, hlessonTwice⟩ := Option.map_eq_some_iff.mp htwice
  obtain ⟨htotalOnce, hlastOnce⟩ := Prod.mk.inj hlessonOnce
  obtain ⟨htotalTwice, hlastTwice⟩ := Prod.mk.inj hlessonTwice
  dsimp only at htwice htotalOnce hlastOnce htotalTwice hlastTwice
  obtain ⟨hkept, hstore, first, hread, hended, hfirst⟩ := muddledRun_filed honce rfl rfl
    opened_keylessState.readable opened_keylessState.ended fun hsame => by
      rw [hsame] at htotalOnce
      exact absurd htotalOnce (by decide)
  obtain ⟨-, -, second, hreadTwice, -, hsecond⟩ := muddledRun_filed htwice hkept hstore hread hended
    fun hsame => by
      rw [hsame, htotalOnce] at htotalTwice
      exact absurd htotalTwice (by decide)
  rw [hfirst] at hlastOnce
  rw [hsecond] at hlastTwice
  obtain ⟨hkeyFirst, hattemptFirst⟩ := Prod.mk.inj (Option.some.inj hlastOnce)
  obtain ⟨hkeySecond, hattemptSecond⟩ := Prod.mk.inj (Option.some.inj hlastTwice)
  have hattempts : attemptsFor [first, second] muddledKey = [1, 1] := by
    simp [attemptsFor, hkeyFirst, hkeySecond, hattemptFirst, hattemptSecond]
  refine ⟨_, twice, Run.call (Run.call (.start opened_keylessState) honce) htwice, muddledKey,
    [first, second], hreadTwice, ?_⟩
  rw [hattempts]
  decide

end AtomVibe.Native
