import AtomVibe.Foundations.Transition
import Mathlib.Data.Finset.Card

/-! A queue behind a mutex and a condition variable, in any interleaving of the threads' turns with
the lock. -/

namespace AtomVibe.FairQueue

open Transition PartialRun

variable {ι α : Type} [DecidableEq ι]

structure Inner (α : Type) where
  items : List α
  isSealed : Bool

structure State (ι α : Type) where
  inner : Inner α
  /-- A thread has panicked with the lock. -/
  poisoned : Bool
  /-- Those blocked in `cvar.wait`. -/
  asleep : Finset ι
  /-- Those woken there that have not had the lock since. -/
  woken : Finset ι
  /-- The seals whose `notify_all` is still to come. -/
  notices : ℕ

def new : State ι α := ⟨⟨[], false⟩, false, ∅, ∅, 0⟩

/-- One turn with the lock. `push` says whom `notify_one` wakes; `seal` lets go of the lock before
its `notify_all`; a thread may also wake for no reason. -/
inductive Turn (ι α : Type)
  | push (item : α) (wakes : Option ι)
  | «seal»
  | notifyAll
  | pop (thread : ι)
  | wake (thread : ι)

inductive Outcome (α : Type)
  | done
  | got (item : α)
  | drained
  | waits
  | panics
  deriving DecidableEq

def notifyOne (s : State ι α) : Option ι → Option (State ι α)
  | none => if s.asleep = ∅ then some s else none
  | some thread => if thread ∈ s.asleep then
      some { s with asleep := s.asleep.erase thread, woken := insert thread s.woken }
    else none

/-- `lock().unwrap()` panics on a poisoned lock, and so does `wait(g).unwrap()`. -/
def push (debugAssertions : Bool) (s : State ι α) (item : α) (wakes : Option ι) :
    Option (Outcome α × State ι α) :=
  if s.poisoned then some (.panics, s)
  else if debugAssertions && s.inner.isSealed then some (.panics, { s with poisoned := true })
  else (notifyOne { s with inner := { s.inner with items := s.inner.items ++ [item] } } wakes).map
    fun next => (.done, next)

def «seal» (s : State ι α) : Outcome α × State ι α :=
  if s.poisoned then (.panics, s)
  else (.done, { s with inner := { s.inner with isSealed := true }, notices := s.notices + 1 })

def notifyAll (s : State ι α) : Option (Outcome α × State ι α) :=
  if s.notices = 0 then none
  else some (.done, { s with notices := s.notices - 1, asleep := ∅, woken := s.woken ∪ s.asleep })

/-- One pass through the loop of `pop`. -/
def pop (s : State ι α) (thread : ι) : Option (Outcome α × State ι α) :=
  if thread ∈ s.asleep then none
  else if s.poisoned then some (.panics, { s with woken := s.woken.erase thread })
  else match s.inner.items with
  | item :: rest => some (.got item,
      { s with inner := { s.inner with items := rest }, woken := s.woken.erase thread })
  | [] =>
    if s.inner.isSealed then some (.drained, { s with woken := s.woken.erase thread })
    else some (.waits,
      { s with woken := s.woken.erase thread, asleep := insert thread s.asleep })

def wake (s : State ι α) (thread : ι) : Option (Outcome α × State ι α) :=
  if thread ∈ s.asleep then
    some (.done, { s with asleep := s.asleep.erase thread, woken := insert thread s.woken })
  else none

def step (debugAssertions : Bool) (s : State ι α) : Turn ι α → Option (Outcome α × State ι α)
  | .push item wakes => push debugAssertions s item wakes
  | .«seal» => some («seal» s)
  | .notifyAll => notifyAll s
  | .pop thread => pop s thread
  | .wake thread => wake s thread

abbrev Call (ι α : Type) := Visit (State ι α) (Turn ι α) (Outcome α)

def puts (v : Call ι α) : Option α :=
  match v.input, v.output with
  | .push item _, .done => some item
  | _, _ => none

def takes (v : Call ι α) : Option α :=
  match v.output with
  | .got item => some item
  | _ => none

def pushed (past : List (Call ι α)) : List α := past.filterMap puts

def delivered (past : List (Call ι α)) : List α := past.filterMap takes

def Late (v : Call ι α) : Prop :=
  v.before.inner.isSealed = true ∧ ∃ item wakes, v.input = .push item wakes

/-- Nobody sleeps while there is more to do than the woken threads will see to, nor behind the last
notice of a seal. -/
structure Awake (s : State ι α) : Prop where
  apart : Disjoint s.asleep s.woken
  enough : s.poisoned = false → s.asleep.Nonempty → s.inner.items.length ≤ s.woken.card
  told : s.inner.isSealed = true → s.asleep.Nonempty → 0 < s.notices

variable {debug : Bool} {s t : State ι α} {o : Outcome α} {thread : ι}

omit [DecidableEq ι] in
theorem awake_new : Awake (new : State ι α) :=
  ⟨Finset.disjoint_empty_left _, fun _ h => absurd h (by simp [new]), fun _ h => absurd h (by simp [new])⟩

theorem Awake.rouse (h : Awake s) (hthread : thread ∈ s.asleep) :
    Disjoint (s.asleep.erase thread) (insert thread s.woken) ∧
      (insert thread s.woken).card = s.woken.card + 1 := by
  have hnot : thread ∉ s.woken := Finset.disjoint_left.mp h.apart hthread
  refine ⟨?_, Finset.card_insert_of_notMem hnot⟩
  apply Finset.disjoint_insert_right.mpr
  exact ⟨Finset.notMem_erase _ _, h.apart.mono_left (Finset.erase_subset _ _)⟩

theorem push_spec {item : α} {wakes : Option ι} (h : push debug s item wakes = some (o, t)) :
    (o = .panics ∧ t.inner = s.inner ∧ (t = s ∨
      t = { s with poisoned := true } ∧ debug = true ∧ s.inner.isSealed = true)) ∨
    (o = .done ∧ s.poisoned = false ∧ t.poisoned = false ∧ t.notices = s.notices ∧
      t.inner = { s.inner with items := s.inner.items ++ [item] } ∧
        (s.asleep = ∅ ∧ t.asleep = ∅ ∧ t.woken = s.woken ∨ ∃ thread ∈ s.asleep,
          t.asleep = s.asleep.erase thread ∧ t.woken = insert thread s.woken)) := by
  unfold push at h
  split_ifs at h with hpoisoned hsealed
  · obtain ⟨rfl, rfl⟩ := Prod.mk.inj (Option.some.inj h)
    exact .inl ⟨rfl, rfl, .inl rfl⟩
  · obtain ⟨rfl, rfl⟩ := Prod.mk.inj (Option.some.inj h)
    exact .inl ⟨rfl, rfl, .inr ⟨rfl, by simpa using hsealed⟩⟩
  · obtain ⟨next, hnext, hsame⟩ := Option.map_eq_some_iff.mp h
    obtain ⟨rfl, rfl⟩ := Prod.mk.inj hsame
    right
    cases wakes with
    | none =>
      simp only [notifyOne] at hnext
      split_ifs at hnext with hempty
      obtain rfl := Option.some.inj hnext
      exact ⟨rfl, by simpa using hpoisoned, by simpa using hpoisoned, rfl, rfl,
        .inl ⟨hempty, hempty, rfl⟩⟩
    | some thread =>
      simp only [notifyOne] at hnext
      split_ifs at hnext with hthread
      obtain rfl := Option.some.inj hnext
      exact ⟨rfl, by simpa using hpoisoned, by simpa using hpoisoned, rfl, rfl,
        .inr ⟨thread, hthread, rfl, rfl⟩⟩

theorem pop_spec (h : pop s thread = some (o, t)) : thread ∉ s.asleep ∧
    t.woken = s.woken.erase thread ∧ t.notices = s.notices ∧ t.poisoned = s.poisoned ∧
      t.inner.isSealed = s.inner.isSealed ∧
      ((o = .panics ∧ s.poisoned = true ∧ t.asleep = s.asleep ∧ t.inner.items = s.inner.items) ∨
        (∃ item, o = .got item ∧ t.asleep = s.asleep ∧ s.inner.items = item :: t.inner.items) ∨
        (s.inner.items = [] ∧ t.inner.items = [] ∧
          (o = .drained ∧ s.inner.isSealed = true ∧ t.asleep = s.asleep ∨
            o = .waits ∧ s.inner.isSealed = false ∧ t.asleep = insert thread s.asleep))) := by
  unfold pop at h
  split at h
  · exact absurd h (by simp)
  · rename_i hasleep
    split at h
    · rename_i hpoisoned
      obtain ⟨rfl, rfl⟩ := Prod.mk.inj (Option.some.inj h)
      exact ⟨hasleep, rfl, rfl, rfl, rfl, .inl ⟨rfl, hpoisoned, rfl, rfl⟩⟩
    · cases hitems : s.inner.items with
      | cons item rest =>
        rw [hitems] at h
        obtain ⟨rfl, rfl⟩ := Prod.mk.inj (Option.some.inj h)
        exact ⟨hasleep, rfl, rfl, rfl, rfl, .inr (.inl ⟨item, rfl, rfl, rfl⟩)⟩
      | nil =>
        rw [hitems] at h
        simp only at h
        split_ifs at h with hsealed
        · obtain ⟨rfl, rfl⟩ := Prod.mk.inj (Option.some.inj h)
          exact ⟨hasleep, rfl, rfl, rfl, rfl, .inr (.inr ⟨rfl, hitems, .inl ⟨rfl, hsealed, rfl⟩⟩)⟩
        · obtain ⟨rfl, rfl⟩ := Prod.mk.inj (Option.some.inj h)
          exact ⟨hasleep, rfl, rfl, rfl, rfl, .inr (.inr ⟨rfl, hitems,
            .inr ⟨rfl, by simpa using hsealed, rfl⟩⟩)⟩

omit [DecidableEq ι] in
theorem seal_spec (h : «seal» s = (o, t)) : o = .panics ∧ t = s ∨
    o = .done ∧ t = { s with inner := { s.inner with isSealed := true }, notices := s.notices + 1 } := by
  unfold «seal» at h
  split_ifs at h
  · obtain ⟨rfl, rfl⟩ := Prod.mk.inj h
    exact .inl ⟨rfl, rfl⟩
  · obtain ⟨rfl, rfl⟩ := Prod.mk.inj h
    exact .inr ⟨rfl, rfl⟩

theorem notifyAll_spec (h : notifyAll s = some (o, t)) : o = .done ∧
    t = { s with notices := s.notices - 1, asleep := ∅, woken := s.woken ∪ s.asleep } := by
  unfold notifyAll at h
  split_ifs at h
  obtain ⟨rfl, rfl⟩ := Prod.mk.inj (Option.some.inj h)
  exact ⟨rfl, rfl⟩

theorem wake_spec (h : wake s thread = some (o, t)) : o = .done ∧ thread ∈ s.asleep ∧
    t = { s with asleep := s.asleep.erase thread, woken := insert thread s.woken } := by
  unfold wake at h
  split_ifs at h with hthread
  obtain ⟨rfl, rfl⟩ := Prod.mk.inj (Option.some.inj h)
  exact ⟨rfl, hthread, rfl⟩

theorem Awake.push {item : α} {wakes : Option ι} (hs : Awake s)
    (h : push debug s item wakes = some (o, t)) : Awake t := by
  obtain ⟨happart, henough, htold⟩ := hs
  rcases push_spec h with ⟨-, -, rfl | ⟨rfl, -, -⟩⟩ |
    ⟨-, hpoisoned, -, hnotices, hinner, ⟨-, hempty, hwoken⟩ | ⟨thread, hthread, hasleep, hwoken⟩⟩
  · exact ⟨happart, henough, htold⟩
  · exact ⟨happart, fun hfalse => absurd hfalse (by simp), htold⟩
  · refine ⟨?_, ?_, ?_⟩
    · rw [hempty]
      exact Finset.disjoint_empty_left _
    · rw [hempty]
      exact fun _ hnonempty => absurd hnonempty (by simp)
    · rw [hempty]
      exact fun _ hnonempty => absurd hnonempty (by simp)
  · obtain ⟨hdisjoint, hcard⟩ := Awake.rouse ⟨happart, henough, htold⟩ hthread
    refine ⟨?_, ?_, ?_⟩
    · rw [hasleep, hwoken]
      exact hdisjoint
    · intro _ _
      have hroom := henough hpoisoned ⟨thread, hthread⟩
      rw [hinner, hwoken, hcard, List.length_append, List.length_singleton]
      exact Nat.succ_le_succ hroom
    · rw [hinner, hnotices]
      exact fun hsealed _ => htold hsealed ⟨thread, hthread⟩

theorem Awake.pop (hs : Awake s) (h : pop s thread = some (o, t)) : Awake t := by
  obtain ⟨happart, henough, htold⟩ := hs
  obtain ⟨hthread, hwoken, hnotices, hpoisoned, hsealed, hcases⟩ := pop_spec h
  have hstays : Disjoint s.asleep t.woken := by
    rw [hwoken]
    exact happart.mono_right (Finset.erase_subset _ _)
  rcases hcases with ⟨-, hbroken, hasleep, -⟩ | ⟨item, -, hasleep, hitems⟩ |
    ⟨-, hitems, ⟨-, -, hasleep⟩ | ⟨-, hopen, hasleep⟩⟩
  · refine ⟨hasleep ▸ hstays, ?_, ?_⟩
    · rw [hpoisoned, hbroken]
      exact fun hfalse => absurd hfalse (by simp)
    · rw [hsealed, hasleep, hnotices]
      exact htold
  · refine ⟨hasleep ▸ hstays, ?_, ?_⟩
    · rw [hpoisoned, hasleep]
      intro hsound hnonempty
      have hroom := henough hsound hnonempty
      have herase := Finset.pred_card_le_card_erase (s := s.woken) (a := thread)
      rw [hitems, List.length_cons] at hroom
      rw [hwoken]
      omega
    · rw [hsealed, hasleep, hnotices]
      exact htold
  · refine ⟨hasleep ▸ hstays, ?_, ?_⟩
    · rw [hitems]
      exact fun _ _ => Nat.zero_le _
    · rw [hsealed, hasleep, hnotices]
      exact htold
  · refine ⟨?_, ?_, ?_⟩
    · rw [hasleep, Finset.disjoint_insert_left]
      exact ⟨hwoken ▸ Finset.notMem_erase _ _, hstays⟩
    · rw [hitems]
      exact fun _ _ => Nat.zero_le _
    · rw [hsealed, hopen]
      exact fun hfalse => absurd hfalse (by simp)

theorem Awake.step {turn : Turn ι α} (hs : Awake s) (h : step debug s turn = some (o, t)) :
    Awake t := by
  cases turn with
  | push item wakes => exact hs.push h
  | pop thread => exact hs.pop h
  | «seal» =>
    rcases seal_spec (Option.some.inj h) with ⟨-, rfl⟩ | ⟨-, rfl⟩
    · exact hs
    · exact ⟨hs.apart, hs.enough, fun _ _ => Nat.succ_pos _⟩
  | notifyAll =>
    obtain ⟨-, rfl⟩ := notifyAll_spec h
    exact ⟨Finset.disjoint_empty_left _, fun _ hnonempty => absurd hnonempty (by simp),
      fun _ hnonempty => absurd hnonempty (by simp)⟩
  | wake thread =>
    obtain ⟨-, hthread, rfl⟩ := wake_spec h
    obtain ⟨hdisjoint, hcard⟩ := hs.rouse hthread
    refine ⟨hdisjoint, fun hsound _ => ?_, fun hsealed _ => hs.told hsealed ⟨thread, hthread⟩⟩
    have hroom := hs.enough hsound ⟨thread, hthread⟩
    simp only [hcard]
    omega

/-- What is in the queue and what is put in come out at the front or stay. -/
theorem step_items {turn : Turn ι α} (h : step debug s turn = some (o, t)) :
    s.inner.items ++ (puts ⟨s, turn, o, t⟩).toList =
      (takes ⟨s, turn, o, t⟩).toList ++ t.inner.items := by
  cases turn with
  | push item wakes =>
    rcases push_spec h with ⟨rfl, hinner, -⟩ | ⟨rfl, -, -, -, hinner, -⟩
    · simp [puts, takes, hinner]
    · simp [puts, takes, hinner]
  | pop thread =>
    obtain ⟨-, -, -, -, -, ⟨rfl, -, -, hitems⟩ | ⟨item, rfl, -, hitems⟩ |
      ⟨hbefore, hafter, ⟨rfl, -⟩ | ⟨rfl, -⟩⟩⟩ := pop_spec h
    · simp [puts, takes, hitems]
    · simp [puts, takes, hitems]
    · simp [puts, takes, hbefore, hafter]
    · simp [puts, takes, hbefore, hafter]
  | «seal» =>
    rcases seal_spec (Option.some.inj h) with ⟨rfl, rfl⟩ | ⟨rfl, rfl⟩ <;> simp [puts, takes]
  | notifyAll =>
    obtain ⟨rfl, rfl⟩ := notifyAll_spec h
    simp [puts, takes]
  | wake thread =>
    obtain ⟨rfl, -, rfl⟩ := wake_spec h
    simp [puts, takes]

/-- A lock is poisoned by a push that comes too late, and not without debug assertions. -/
theorem step_poisoned {turn : Turn ι α} (h : step debug s turn = some (o, t))
    (hpoisoned : t.poisoned = true) :
    s.poisoned = true ∨ debug = true ∧ Late (⟨s, turn, o, t⟩ : Call ι α) := by
  cases turn with
  | push item wakes =>
    rcases push_spec h with ⟨-, -, rfl | ⟨-, hdebug, hsealed⟩⟩ | ⟨-, -, hsound, -⟩
    · exact .inl hpoisoned
    · exact .inr ⟨hdebug, hsealed, item, wakes, rfl⟩
    · exact absurd (hsound.symm.trans hpoisoned) (by simp)
  | pop thread => exact .inl ((pop_spec h).2.2.2.1 ▸ hpoisoned)
  | «seal» =>
    rcases seal_spec (Option.some.inj h) with ⟨-, rfl⟩ | ⟨-, rfl⟩
    · exact .inl hpoisoned
    · exact .inl hpoisoned
  | notifyAll =>
    obtain ⟨-, rfl⟩ := notifyAll_spec h
    exact .inl hpoisoned
  | wake thread =>
    obtain ⟨-, -, rfl⟩ := wake_spec h
    exact .inl hpoisoned

theorem drained_spec {turn : Turn ι α} (h : step debug s turn = some (.drained, t)) :
    s.inner.isSealed = true ∧ s.inner.items = [] := by
  cases turn with
  | push item wakes =>
    rcases push_spec h with ⟨hne, -⟩ | ⟨hne, -⟩ <;> exact absurd hne (by simp)
  | pop thread =>
    obtain ⟨-, -, -, -, -, ⟨hne, -⟩ | ⟨item, hne, -⟩ | ⟨hbefore, -, ⟨-, hsealed, -⟩ | ⟨hne, -⟩⟩⟩ :=
      pop_spec h
    · exact absurd hne (by simp)
    · exact absurd hne (by simp)
    · exact ⟨hsealed, hbefore⟩
    · exact absurd hne (by simp)
  | «seal» => rcases seal_spec (Option.some.inj h) with ⟨hne, -⟩ | ⟨hne, -⟩ <;> exact absurd hne (by simp)
  | notifyAll => exact absurd (notifyAll_spec h).1 (by simp)
  | wake thread => exact absurd (wake_spec h).1 (by simp)

structure Orderly (debug : Bool) (past : List (Call ι α)) (s : State ι α) : Prop where
  awake : Awake s
  kept : pushed past = delivered past ++ s.inner.items
  broken : s.poisoned = true → debug = true ∧ ∃ v ∈ past, Late v

theorem orderly {past : List (Call ι α)} (h : Run (step debug) (· = new) past s) :
    Orderly debug past s := by
  refine h.induction (Orderly debug) ?_ ?_
  · rintro s rfl
    exact ⟨awake_new, rfl, fun hpoisoned => absurd hpoisoned (by simp [new])⟩
  · rintro past v ⟨hawake, hkept, hbroken⟩ hmade
    refine ⟨hawake.step hmade, ?_, ?_⟩
    · have hitems := step_items hmade
      rw [pushed, List.filterMap_append, ← pushed, delivered, List.filterMap_append, ← delivered,
        hkept, List.append_assoc]
      have hputs : List.filterMap puts [v] = (puts v).toList := by
        cases hv : puts v <;> simp [hv]
      have htakes : List.filterMap takes [v] = (takes v).toList := by
        cases hv : takes v <;> simp [hv]
      rw [hputs, htakes, hitems, List.append_assoc]
    · intro hpoisoned
      rcases step_poisoned hmade hpoisoned with hbefore | ⟨hdebug, hlate⟩
      · obtain ⟨hdebug, w, hw, hlate⟩ := hbroken hbefore
        exact ⟨hdebug, w, List.mem_append_left _ hw, hlate⟩
      · exact ⟨hdebug, v, by simp, hlate⟩

/-- In every interleaving the items come out once each in the order they went in; a thread is told
that the queue is drained only when it is sealed and has delivered everything; none sleeps while
more items wait than threads are awake to take them, or behind the last notice of a seal; and the
lock is only ever poisoned by a push behind the seal, where debug assertions are on. -/
theorem fair_queue {past : List (Call ι α)} (h : Run (step debug) (· = new) past s) :
    pushed past = delivered past ++ s.inner.items ∧
      (∀ earlier v later, past = earlier ++ v :: later → v.output = .drained →
        v.before.inner.isSealed = true ∧ delivered earlier = pushed earlier) ∧
      (s.poisoned = false → s.asleep.Nonempty → s.inner.items.length ≤ s.woken.card) ∧
      (s.inner.isSealed = true → s.notices = 0 → s.asleep = ∅) ∧
      (s.poisoned = true → debug = true ∧ ∃ v ∈ past, Late v) := by
  obtain ⟨hawake, hkept, hbroken⟩ := orderly h
  refine ⟨hkept, ?_, hawake.enough, ?_, hbroken⟩
  · intro earlier v later hpast hdrained
    obtain ⟨hrun, hmade⟩ := h.split hpast
    rw [hdrained] at hmade
    obtain ⟨hsealed, hitems⟩ := drained_spec hmade
    have hearlier := (orderly hrun).kept
    rw [hitems, List.append_nil] at hearlier
    exact ⟨hsealed, hearlier.symm⟩
  · intro hsealed hnotices
    by_contra hasleep
    have htold := hawake.told hsealed (Finset.nonempty_iff_ne_empty.mpr hasleep)
    exact absurd hnotices htold.ne'

/-- A thread waits for its item, is woken by the push and takes it; behind the seal it is told that
the queue is drained. -/
theorem fair_queue_x : ∃ past, ∃ s : State (Fin 2) ℕ, Run (step true) (· = new) past s ∧
    delivered past = [7] ∧ pushed past = delivered past ++ s.inner.items := by
  have hrun : ∃ past, ∃ s : State (Fin 2) ℕ, Run (step true) (· = new) past s ∧ delivered past = [7] :=
    ⟨_, _, .call (i := .pop 0) (.call (i := .«seal») (.call (i := .pop 0) (.call (i := .push 7 (some 0))
      (.call (i := .pop 0) (.start rfl) rfl) rfl) rfl) rfl) rfl, rfl⟩
  obtain ⟨past, s, hrun, hdelivered⟩ := hrun
  exact ⟨past, s, hrun, hdelivered, (fair_queue hrun).1⟩

end AtomVibe.FairQueue
