import Mathlib.Data.Nat.Basic
import Mathlib.Logic.Function.Basic
import Mathlib.Logic.Relation
import Mathlib.Tactic.SplitIfs
import Mathlib.Tactic.ByContra

/-!
Leases on a path: the lock file, the kernel's locks on its inodes, and what a process does from
the moment it opens the file until it has let go of it. A process of the model is one attempt at a
lease; the kernel may give the number of an inode to a new file once nothing has it open.
-/

namespace AtomVibe.FileLease

inductive Phase (Inode : Type)
  | outside
  | opened (file : Inode)
  | waiting (file : Inode)
  | locked (file : Inode)
  | stale (file : Inode)
  | guarded (file : Inode)
  | writing (file : Inode)
  | leased (file : Inode)
  | reading (file found : Inode)
  | removing (file : Inode)
  | unlocking (file : Inode)
  | crashed

variable {Process Inode : Type}

namespace Phase

def holds : Phase Inode → Option Inode
  | locked file | stale file | guarded file | writing file | leased file | reading file _
  | removing file | unlocking file => some file
  | _ => none

/-- The inode of a live lease: from the comparison of the inodes on, until the file is removed or
left in its place. -/
def live : Phase Inode → Option Inode
  | guarded file | writing file | leased file | reading file _ | removing file => some file
  | _ => none

def open' : Phase Inode → List Inode
  | opened file | waiting file => [file]
  | reading file found => [file, found]
  | phase => phase.holds.toList

def trying : Phase Inode → Bool
  | opened _ | waiting _ | locked _ | stale _ => true
  | _ => false

theorem holds_of_live {phase : Phase Inode} {file : Inode} (h : phase.live = some file) :
    phase.holds = some file := by
  cases phase <;> simp_all [live, holds]

end Phase

/-- What the path names, what stands in the files, whose locks there are. -/
structure State (Process Inode : Type) where
  name : Option Inode
  content : Inode → String
  lock : Inode → Option Process
  phase : Process → Phase Inode

variable [DecidableEq Process] [DecidableEq Inode]

namespace State

def move (s : State Process Inode) (p : Process) (phase : Phase Inode) : State Process Inode :=
  { s with phase := Function.update s.phase p phase }

def write (s : State Process Inode) (file : Inode) (text : String) : State Process Inode :=
  { s with content := Function.update s.content file text }

def release (s : State Process Inode) (p : Process) : State Process Inode :=
  { s with lock := fun file => if s.lock file = some p then none else s.lock file }

def crash (s : State Process Inode) (p : Process) : State Process Inode :=
  (s.release p).move p .crashed

end State

/-- One step of one process, in the order `acquire_platform_guard`, `write_owner` and the two
`drop`s have. Each call on the file system may fail; a process may crash at any point. -/
inductive Step (token : Process → String) : State Process Inode → State Process Inode → Prop
  | find {s} {p : Process} {file : Inode} (from_ : s.phase p = .outside)
      (named : s.name = some file) : Step token s (s.move p (.opened file))
  | create {s} {p : Process} {file : Inode} (from_ : s.phase p = .outside) (named : s.name = none)
      (unused : ∀ q, file ∉ (s.phase q).open') :
      Step token s (({ s with name := some file }.write file "").move p (.opened file))
  | wouldBlock {s} {p q : Process} {file : Inode} (from_ : s.phase p = .opened file)
      (other : s.lock file = some q) : Step token s (s.move p (.waiting file))
  | flock {s} {p : Process} {file : Inode} (from_ : s.phase p = .opened file)
      (free : s.lock file = none) :
      Step token s ({ s with lock := Function.update s.lock file (some p) }.move p (.locked file))
  | same {s} {p : Process} {file : Inode} (from_ : s.phase p = .locked file)
      (named : s.name = some file) : Step token s (s.move p (.guarded file))
  | differs {s} {p : Process} {file : Inode} (from_ : s.phase p = .locked file) :
      Step token s (s.move p (.stale file))
  | close {s} {p : Process} (from_ : (s.phase p).trying = true) :
      Step token s ((s.release p).move p .outside)
  | write {s} {p : Process} {file : Inode} (text : String)
      (from_ : s.phase p = .guarded file ∨ s.phase p = .writing file) :
      Step token s ((s.write file text).move p (.writing file))
  | written {s} {p : Process} {file : Inode} (from_ : s.phase p = .writing file) :
      Step token s ((s.write file (token p)).move p (.leased file))
  | notWritten {s} {p : Process} {file : Inode}
      (from_ : s.phase p = .guarded file ∨ s.phase p = .writing file) :
      Step token s (s.move p (.unlocking file))
  | read {s} {p : Process} {file found : Inode} (from_ : s.phase p = .leased file)
      (named : s.name = some found) : Step token s (s.move p (.reading file found))
  | own {s} {p : Process} {file found : Inode} (from_ : s.phase p = .reading file found)
      (text : s.content found = token p) : Step token s (s.move p (.removing file))
  | notOwn {s} {p : Process} {file : Inode}
      (from_ : s.phase p = .leased file ∨ ∃ found, s.phase p = .reading file found) :
      Step token s (s.move p (.unlocking file))
  | unlink {s} {p : Process} {file : Inode} (from_ : s.phase p = .removing file) :
      Step token s ({ s with name := none }.move p (.unlocking file))
  | notRemoved {s} {p : Process} {file : Inode} (from_ : s.phase p = .removing file) :
      Step token s (s.move p (.unlocking file))
  | unlock {s} {p : Process} {file : Inode} (from_ : s.phase p = .unlocking file) :
      Step token s ((s.release p).move p .outside)
  | crash {s} {p : Process} : Step token s (s.crash p)

inductive Reachable (token : Process → String) : State Process Inode → Prop
  | start (name : Option Inode) (content : Inode → String) :
      Reachable token ⟨name, content, fun _ => none, fun _ => .outside⟩
  | step {s s'} (before : Reachable token s) (step : Step token s s') : Reachable token s'

structure Consistent (s : State Process Inode) : Prop where
  held : ∀ p file, s.lock file = some p ↔ (s.phase p).holds = some file
  named : ∀ p file, (s.phase p).live = some file → s.name = some file

variable {s : State Process Inode} {p : Process} {phase : Phase Inode}

omit [DecidableEq Process] [DecidableEq Inode] in
theorem Consistent.exclusive (h : Consistent s) {q : Process} (hp : (s.phase p).live ≠ none)
    (hq : (s.phase q).live ≠ none) : p = q := by
  obtain ⟨file, hfile⟩ := Option.ne_none_iff_exists'.mp hp
  obtain ⟨other, hother⟩ := Option.ne_none_iff_exists'.mp hq
  have hsame : file = other := Option.some.inj ((h.named p file hfile).symm.trans
    (h.named q other hother))
  subst hsame
  have hlock := (h.held p file).mpr (Phase.holds_of_live hfile)
  have hlock' := (h.held q file).mpr (Phase.holds_of_live hother)
  exact Option.some.inj (hlock.symm.trans hlock')

omit [DecidableEq Inode] in
theorem Consistent.move (h : Consistent s) (hholds : phase.holds = (s.phase p).holds)
    (hlive : ∀ file, phase.live = some file → s.name = some file) : Consistent (s.move p phase) := by
  constructor
  · intro q file
    by_cases hq : q = p
    · subst hq
      simp only [State.move, Function.update_self, hholds]
      exact h.held q file
    · simp only [State.move, Function.update_of_ne hq]
      exact h.held q file
  · intro q file
    by_cases hq : q = p
    · subst hq
      simp only [State.move, Function.update_self]
      exact hlive file
    · simp only [State.move, Function.update_of_ne hq]
      exact h.named q file

omit [DecidableEq Process] in
theorem Consistent.write (h : Consistent s) (file : Inode) (text : String) :
    Consistent (s.write file text) := ⟨h.held, h.named⟩

omit [DecidableEq Inode] in
theorem Consistent.release (h : Consistent s) (hholds : phase.holds = none) :
    Consistent ((s.release p).move p phase) := by
  have hlive : phase.live = none := by
    by_contra hne
    obtain ⟨file, hfile⟩ := Option.ne_none_iff_exists'.mp hne
    rw [Phase.holds_of_live hfile] at hholds
    exact absurd hholds (by simp)
  constructor
  · intro q file
    simp only [State.move, State.release]
    by_cases hq : q = p
    · subst hq
      simp only [Function.update_self, hholds]
      split_ifs with hlock <;> simp [hlock]
    · simp only [Function.update_of_ne hq, ← h.held q file]
      split_ifs with hlock
      · simp [hlock, Ne.symm hq]
      · rfl
  · intro q file
    by_cases hq : q = p
    · subst hq
      simp [State.move, hlive]
    · simp only [State.move, State.release, Function.update_of_ne hq]
      exact h.named q file

theorem consistent_step {token : Process → String} {s' : State Process Inode} (h : Consistent s)
    (hstep : Step token s s') : Consistent s' := by
  cases hstep with
  | find from_ named => exact h.move (by rw [from_]; rfl) (by simp [Phase.live])
  | @create p file from_ named unused =>
    have hnone : ∀ q f, (s.phase q).live ≠ some f := by
      intro q f hlive
      rw [h.named q f hlive] at named
      exact absurd named (by simp)
    have hnamed : Consistent { s with name := some file } :=
      ⟨h.held, fun q f hlive => absurd hlive (hnone q f)⟩
    exact (hnamed.write file "").move
      (show (Phase.opened file).holds = (s.phase p).holds by rw [from_]; rfl) (by simp [Phase.live])
  | wouldBlock from_ other => exact h.move (by rw [from_]; rfl) (by simp [Phase.live])
  | @flock p file from_ free =>
    have hnone : (s.phase p).holds = none := by rw [from_]; rfl
    constructor
    · intro q f
      simp only [State.move]
      by_cases hq : q = p
      · subst hq
        rw [Function.update_self]
        by_cases hf : f = file
        · subst hf
          simp [Phase.holds]
        · rw [Function.update_of_ne hf, h.held, hnone]
          simp [Phase.holds, Ne.symm hf]
      · rw [Function.update_of_ne hq]
        by_cases hf : f = file
        · subst hf
          have hbefore := h.held q f
          rw [free] at hbefore
          rw [Function.update_self, ← hbefore]
          simp [Ne.symm hq]
        · rw [Function.update_of_ne hf, h.held]
    · intro q f
      simp only [State.move]
      by_cases hq : q = p
      · subst hq
        simp [Phase.live]
      · rw [Function.update_of_ne hq]
        exact h.named q f
  | same from_ named =>
    refine h.move (by rw [from_]; rfl) ?_
    rintro _ ⟨⟩
    exact named
  | differs from_ => exact h.move (by rw [from_]; rfl) (by simp [Phase.live])
  | close from_ => exact h.release rfl
  | @write p file text from_ =>
    refine (h.write file text).move (p := p) ?_ ?_
    · rcases from_ with from_ | from_ <;> exact (congrArg Phase.holds from_).symm
    · rintro _ ⟨⟩
      rcases from_ with from_ | from_ <;> exact h.named p file (by rw [from_]; rfl)
  | @written p file from_ =>
    refine (h.write file (token p)).move (p := p) (congrArg Phase.holds from_).symm ?_
    rintro _ ⟨⟩
    exact h.named p file (by rw [from_]; rfl)
  | @notWritten p file from_ =>
    refine h.move ?_ (by simp [Phase.live])
    rcases from_ with from_ | from_ <;> rw [from_] <;> rfl
  | @read p file found from_ named =>
    refine h.move (by rw [from_]; rfl) ?_
    rintro _ ⟨⟩
    exact h.named p file (by rw [from_]; rfl)
  | @own p file found from_ text =>
    refine h.move (by rw [from_]; rfl) ?_
    rintro _ ⟨⟩
    exact h.named p file (by rw [from_]; rfl)
  | @notOwn p file from_ =>
    refine h.move ?_ (by simp [Phase.live])
    rcases from_ with from_ | ⟨found, from_⟩ <;> rw [from_] <;> rfl
  | @unlink p file from_ =>
    -- the process that removes the name has the only live lease
    have hother : ∀ q, q ≠ p → (s.phase q).live = none := by
      intro q hq
      by_contra hlive
      exact hq (h.exclusive hlive (by rw [from_]; simp [Phase.live]))
    constructor
    · intro q f
      have hheld := h.held q f
      by_cases hq : q = p
      · subst hq
        rw [from_] at hheld
        simpa [State.move, Phase.holds] using hheld
      · simpa [State.move, Function.update_of_ne hq] using hheld
    · intro q f
      by_cases hq : q = p
      · subst hq
        simp [State.move, Phase.live]
      · simp [State.move, Function.update_of_ne hq, hother q hq]
  | notRemoved from_ => exact h.move (by rw [from_]; rfl) (by simp [Phase.live])
  | unlock from_ => exact h.release rfl
  | crash => exact h.release rfl

theorem consistent_reachable {token : Process → String} (h : Reachable token s) :
    Consistent s := by
  induction h with
  | start name content => exact ⟨by simp [Phase.holds], by simp [Phase.live]⟩
  | step before step ih => exact consistent_step ih step

def Free (s : State Process Inode) : Prop := ∀ file, s.name = some file → s.lock file = none

omit [DecidableEq Inode] in
theorem free_crash (h : Consistent s) (hlive : (s.phase p).live ≠ none) : Free (s.crash p) := by
  obtain ⟨file, hfile⟩ := Option.ne_none_iff_exists'.mp hlive
  intro other hother
  have hnamed : s.name = some other := hother
  obtain rfl : file = other := Option.some.inj ((h.named p file hfile).symm.trans hnamed)
  have hlock := (h.held p file).mpr (Phase.holds_of_live hfile)
  simp [State.crash, State.move, State.release, hlock]

theorem acquires_opened (token : Process → String) {file : Inode} (hp : s.phase p = .opened file)
    (hname : s.name = some file) (hlock : s.lock file = none) :
    ∃ s', Relation.ReflTransGen (Step token) s s' ∧ (s'.phase p).live ≠ none := by
  have hflock : Step token s _ := .flock hp hlock
  have hsame : Step token _ ((({ s with
      lock := Function.update s.lock file (some p) } : State Process Inode).move p
        (.locked file)).move p (.guarded file)) :=
    .same (by simp [State.move]) hname
  exact ⟨_, (Relation.ReflTransGen.single hflock).tail hsame, by simp [State.move, Phase.live]⟩

theorem acquires (token : Process → String) (h : Consistent s) (hfree : Free s)
    (hp : s.phase p = .outside)
    (hfresh : s.name = none → ∃ file, ∀ q, file ∉ (s.phase q).open') :
    ∃ s', Relation.ReflTransGen (Step token) s s' ∧ (s'.phase p).live ≠ none := by
  cases hname : s.name with
  | some file =>
    have hfind : Step token s (s.move p (.opened file)) := .find hp hname
    have hopened : ((s.move p (.opened file)).phase p) = .opened file := by simp [State.move]
    obtain ⟨s', hrun, hlive⟩ := acquires_opened token hopened hname (hfree file hname)
    exact ⟨s', hrun.head hfind, hlive⟩
  | none =>
    obtain ⟨file, hunused⟩ := hfresh hname
    have hlock : s.lock file = none := by
      by_contra hne
      obtain ⟨q, hq⟩ := Option.ne_none_iff_exists'.mp hne
      have hholds := (h.held q file).mp hq
      refine hunused q ?_
      cases hphase : s.phase q <;> rw [hphase] at hholds <;>
        simp_all [Phase.holds, Phase.open']
    have hcreate : Step token s _ := .create hp hname hunused
    have hopened : ((({ s with name := some file } : State Process Inode).write file "").move p
        (.opened file)).phase p = .opened file := by simp [State.move]
    obtain ⟨s', hrun, hlive⟩ := acquires_opened token hopened rfl hlock
    exact ⟨s', hrun.head hcreate, hlive⟩

/-- In every state that is reached one process at most has a live lease. A crashed one holds no
lock; when the process with the lease crashes, or in any other state with nobody in the way, each
process that starts can acquire the path. -/
theorem lease_exclusive (token : Process → String) (s : State Process Inode)
    (h : Reachable token s) :
    (∀ p q, (s.phase p).live ≠ none → (s.phase q).live ≠ none → p = q) ∧
      (∀ file p, s.lock file = some p → s.phase p ≠ .crashed) ∧
      (∀ p, (s.phase p).live ≠ none → ∀ q, (s.crash p).phase q = .outside →
        ∃ s', Relation.ReflTransGen (Step token) (s.crash p) s' ∧ (s'.phase q).live ≠ none) ∧
      (Free s → (s.name = none → ∃ file, ∀ q, file ∉ (s.phase q).open') →
        ∀ q, s.phase q = .outside →
          ∃ s', Relation.ReflTransGen (Step token) s s' ∧ (s'.phase q).live ≠ none) := by
  have hs := consistent_reachable h
  refine ⟨fun p q hp hq => hs.exclusive hp hq, fun file p hlock hcrashed => ?_,
    fun p hlive q hq => ?_, fun hfree hfresh q hq => acquires token hs hfree hq hfresh⟩
  · have hholds := (hs.held p file).mp hlock
    rw [hcrashed] at hholds
    exact absurd hholds (by simp [Phase.holds])
  · have hcrash : Consistent (s.crash p) := consistent_step hs (Step.crash : Step token s _)
    obtain ⟨file, hfile⟩ := Option.ne_none_iff_exists'.mp hlive
    refine acquires token hcrash (free_crash hs hlive) hq fun hnone => ?_
    have hnamed : (s.crash p).name = some file := hs.named p file hfile
    rw [hnamed] at hnone
    exact absurd hnone (by simp)

theorem lease_exclusive_two : ∃ s : State ℕ ℕ, (s.phase 0).live = some 7 ∧
    (∀ q, (s.phase q).live ≠ none → q = 0) ∧
    ∃ s', Relation.ReflTransGen (Step fun p : ℕ => toString p) (s.crash 0) s' ∧
      (s'.phase 1).live ≠ none := by
  let token : ℕ → String := fun p => toString p
  have hstart : Reachable token (⟨none, fun _ => "", fun _ => none, fun _ => .outside⟩ :
      State ℕ ℕ) := .start _ _
  have hcreate := hstart.step (@Step.create _ _ _ _ token _ 0 7 rfl rfl
    (by simp [Phase.open', Phase.holds]))
  have hflock := hcreate.step (@Step.flock _ _ _ _ token _ 0 7 (by simp [State.move]) rfl)
  have hsame := hflock.step (@Step.same _ _ _ _ token _ 0 7 (by simp [State.move]) rfl)
  obtain ⟨hone, -, hcrash, -⟩ := lease_exclusive token _ hsame
  refine ⟨_, ?_, fun q hq => hone q 0 hq ?_, hcrash 0 ?_ 1 ?_⟩ <;>
    simp [State.crash, State.release, State.move, State.write, Phase.live]

end AtomVibe.FileLease
