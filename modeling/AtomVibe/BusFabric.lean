import Mathlib.Data.List.Destutter
import AtomVibe.BusRoutes

namespace AtomVibe.Bus

open Transition SpiderwebBus

def Touches (bus : SpiderwebBus) (node : String) (thread : ThreadId) : Prop :=
  ∃ env ∈ bus.envelopes, env.threadId = thread ∧ (env.source = node ∨ env.target = node)

structure Woven (bus : SpiderwebBus) : Prop where
  distinct : (bus.threads.map (·.id)).Nodup
  fresh : ∀ thread ∈ bus.threads, thread.id < bus.nextThreadId
  placed : ∀ env ∈ bus.envelopes, env.threadId ∈ bus.threads.map (·.id)
  nodes : ∀ thread ∈ bus.threads, ∀ node, node ∈ thread.nodes ↔ Touches bus node thread.id

section Lists

variable {α : Type} [DecidableEq α]

theorem mem_pushUnique {values : List α} {value x : α} :
    x ∈ pushUnique values value ↔ x ∈ values ∨ x = value := by
  unfold pushUnique
  split_ifs with h
  · constructor
    · exact .inl
    · rintro (hx | rfl)
      · exact hx
      · exact h
  · simp

theorem mem_foldl_pushUnique {xs values : List α} {x : α} :
    x ∈ xs.foldl pushUnique values ↔ x ∈ values ∨ x ∈ xs := by
  induction xs generalizing values with
  | nil => simp
  | cons y ys ih => rw [List.foldl_cons, ih, mem_pushUnique, List.mem_cons, or_assoc]

omit [DecidableEq α] in
theorem map_modifyFirst {β : Type} {p : α → Bool} {f : α → α} {g : α → β}
    (h : ∀ x, g (f x) = g x) (xs : List α) : (modifyFirst p f xs).map g = xs.map g := by
  induction xs with
  | nil => rfl
  | cons x xs ih =>
    unfold modifyFirst
    split_ifs
    · rw [List.map_cons, List.map_cons, h]
    · rw [List.map_cons, List.map_cons, ih]

omit [DecidableEq α] in
theorem mem_modifyFirst {κ : Type} [DecidableEq κ] {key : α → κ} {k : κ} {f : α → α} {xs : List α}
    (hnodup : (xs.map key).Nodup) {x : α} :
    x ∈ modifyFirst (fun y => key y == k) f xs ↔
      ∃ y ∈ xs, x = if key y = k then f y else y := by
  induction xs with
  | nil => simp [modifyFirst]
  | cons y ys ih =>
    rw [List.map_cons, List.nodup_cons] at hnodup
    unfold modifyFirst
    by_cases hy : key y = k
    · rw [if_pos (by simpa using hy), List.mem_cons, List.exists_mem_cons_iff, if_pos hy]
      have hrest : ∀ z ∈ ys, key z ≠ k := by
        rintro z hz rfl
        exact hnodup.1 (by rw [hy]; exact List.mem_map_of_mem hz)
      refine or_congr Iff.rfl ⟨fun hx => ⟨x, hx, (if_neg (hrest x hx)).symm⟩, ?_⟩
      rintro ⟨z, hz, rfl⟩
      rwa [if_neg (hrest z hz)]
    · rw [if_neg (by simpa using hy), List.mem_cons, ih hnodup.2, List.exists_mem_cons_iff,
        if_neg hy]

theorem mem_destutter_ne [LinearOrder α] (xs : List α) {x : α} :
    x ∈ xs.destutter (· ≠ ·) ↔ x ∈ xs := by
  have hfrom : ∀ (ys : List α) (y : α), x ∈ ys.destutter' (· ≠ ·) y ↔ x = y ∨ x ∈ ys := by
    intro ys
    induction ys with
    | nil => simp
    | cons z zs ih =>
      intro y
      by_cases h : y = z
      · subst h
        rw [List.destutter'_cons_neg _ (by simp), ih, List.mem_cons, or_self_left]
      · rw [List.destutter'_cons_pos _ h, List.mem_cons, ih, List.mem_cons]
  cases xs with
  | nil => simp
  | cons y ys => rw [List.destutter_cons', hfrom, List.mem_cons]

end Lists

section Intersections

variable {bus : SpiderwebBus}

def crossings (bus : SpiderwebBus) : List (String × List ThreadId) :=
  bus.intersections.map fun item => (item.node, item.threads)

def sortThreads (threads : List ThreadId) : List ThreadId :=
  (threads.insertionSort (· ≤ ·)).destutter (· ≠ ·)

theorem mem_sortThreads {threads : List ThreadId} {t : ThreadId} :
    t ∈ sortThreads threads ↔ t ∈ threads := by
  rw [sortThreads, mem_destutter_ne, List.mem_insertionSort]

theorem mem_crossings {node : String} {threads : List ThreadId} :
    (node, threads) ∈ crossings bus ↔
      ∃ item ∈ bus.intersections, item.node = node ∧ item.threads = threads := by
  simp [crossings]

theorem mem_crossings_add {node : String} {threads : List ThreadId} {transfer : TransferPolicy}
    {item : String × List ThreadId} :
    item ∈ crossings (bus.addIntersection node threads transfer) ↔
      item ∈ crossings bus ∨ item = (node, sortThreads threads) := by
  let isThere := fun item : Intersection => item.node == node && item.threads == sortThreads threads
  have hadd : bus.addIntersection node threads transfer =
      if bus.intersections.any isThere then
        if transfer = .backpressure then
          { bus with
            intersections := modifyFirst isThere (fun item => { item with transfer })
              bus.intersections }
        else bus
      else { bus with
        intersections := bus.intersections ++ [⟨node, sortThreads threads, transfer⟩] } := rfl
  by_cases hany : bus.intersections.any isThere = true
  · have hmem : (node, sortThreads threads) ∈ crossings bus := by
      obtain ⟨item, hitem, hkey⟩ := List.any_eq_true.mp hany
      simp only [isThere, Bool.and_eq_true, beq_iff_eq] at hkey
      exact mem_crossings.mpr ⟨item, hitem, hkey⟩
    have hsame : crossings (bus.addIntersection node threads transfer) = crossings bus := by
      rw [hadd, if_pos hany]
      split_ifs
      · exact map_modifyFirst (f := fun item : Intersection => { item with transfer })
          (g := fun item => (item.node, item.threads)) (fun _ => rfl) _
      · rfl
    rw [hsame, or_iff_left_of_imp]
    rintro rfl
    exact hmem
  · rw [hadd, if_neg hany]
    simp [crossings]

theorem mem_crossEndpoints {threads : List ThreadId} {transfer : TransferPolicy}
    {endpoints : List String} {item : String × List ThreadId} :
    item ∈ crossings (crossEndpoints threads transfer bus endpoints) ↔
      item ∈ crossings bus ∨
        (1 < threads.length ∧ item.2 = sortThreads threads ∧ item.1 ∈ endpoints) := by
  induction endpoints generalizing bus with
  | nil => simp [crossEndpoints]
  | cons endpoint endpoints ih =>
    have hcons : crossEndpoints threads transfer bus (endpoint :: endpoints) = crossEndpoints
        threads transfer (if 1 < threads.length then bus.addIntersection endpoint threads transfer
          else bus) endpoints := rfl
    rw [hcons, ih]
    by_cases hlength : 1 < threads.length
    · rw [if_pos hlength, mem_crossings_add, Prod.ext_iff, List.mem_cons]
      tauto
    · simp [hlength]

end Intersections

section Emissions

variable {bus : SpiderwebBus} {draft : EnvelopeDraft}

def joined (bus : SpiderwebBus) (draft : EnvelopeDraft) : ThreadId := (bus.threadFor draft.parent).1

theorem touches_emit {node : String} {t : ThreadId} : Touches (bus.emit draft).2 node t ↔
    Touches bus node t ∨ (t = joined bus draft ∧ (draft.source = node ∨ draft.target = node)) := by
  simp only [Touches, envelopes_emit, List.mem_append, List.mem_singleton, or_and_right, exists_or,
    exists_eq_left, newEnvelope, joined]
  exact or_congr Iff.rfl (and_congr eq_comm Iff.rfl)

theorem recordFabric_threads (id : EnvelopeId) (threadId : ThreadId) :
    (bus.recordFabric id threadId draft).threads = (bus.joinThread id threadId draft).threads ∧
      (bus.recordFabric id threadId draft).nextThreadId = bus.nextThreadId ∧
      crossings (bus.recordFabric id threadId draft) = crossings (crossEndpoints
        (pushUnique (bus.crossingThreads threadId [draft.source, draft.target]) threadId)
        (transferFor draft.kind) (bus.joinThread id threadId draft)
        [draft.source, draft.target]) := by
  have hcross : ∀ threads transfer (b : SpiderwebBus) endpoints,
      (crossEndpoints threads transfer b endpoints).threads = b.threads ∧
        (crossEndpoints threads transfer b endpoints).nextThreadId = b.nextThreadId := by
    intro threads transfer b endpoints
    induction endpoints generalizing b with
    | nil => exact ⟨rfl, rfl⟩
    | cons endpoint endpoints ih =>
      obtain ⟨hthreads, hnext⟩ := ih (if 1 < threads.length then
        b.addIntersection endpoint threads transfer else b)
      have hadd : (if 1 < threads.length then b.addIntersection endpoint threads transfer
          else b).threads = b.threads ∧ (if 1 < threads.length then
          b.addIntersection endpoint threads transfer else b).nextThreadId = b.nextThreadId := by
        unfold addIntersection
        dsimp only
        split_ifs <;> exact ⟨rfl, rfl⟩
      exact ⟨hthreads.trans hadd.1, hnext.trans hadd.2⟩
  have hframe : ∀ b : SpiderwebBus,
      ((b.recordPreload id threadId draft).recordBackpressure id threadId draft).threads =
          b.threads ∧
        ((b.recordPreload id threadId draft).recordBackpressure id threadId draft).nextThreadId =
          b.nextThreadId ∧
        crossings ((b.recordPreload id threadId draft).recordBackpressure id threadId draft) =
          crossings b := by
    intro b
    unfold recordPreload recordBackpressure
    split_ifs <;> exact ⟨rfl, rfl, rfl⟩
  unfold recordFabric
  dsimp only
  obtain ⟨hthreads, hnext, hcrossings⟩ := hframe (crossEndpoints
    (pushUnique (bus.crossingThreads threadId [draft.source, draft.target]) threadId)
    (transferFor draft.kind) (bus.joinThread id threadId draft) [draft.source, draft.target])
  obtain ⟨hthreads', hnext'⟩ := hcross
    (pushUnique (bus.crossingThreads threadId [draft.source, draft.target]) threadId)
    (transferFor draft.kind) (bus.joinThread id threadId draft) [draft.source, draft.target]
  exact ⟨hthreads.trans hthreads', hnext.trans hnext', hcrossings⟩

theorem woven_origin (origin : Origin) : Woven origin.bus := by
  cases origin <;>
    exact ⟨.nil, by simp [Origin.bus, SpiderwebBus.new], by simp [Origin.bus, SpiderwebBus.new],
      by simp [Origin.bus, SpiderwebBus.new]⟩

theorem Woven.not_touches (h : Woven bus) {node : String} {t : ThreadId}
    (ht : t ∉ bus.threads.map (·.id)) : ¬Touches bus node t := by
  rintro ⟨env, henv, rfl, -⟩
  exact ht (h.placed env henv)

theorem Woven.threadFor (h : Woven bus) (parent : Option EnvelopeId) :
    Woven (bus.threadFor parent).2 ∧
      (bus.threadFor parent).1 ∈ (bus.threadFor parent).2.threads.map (·.id) := by
  unfold SpiderwebBus.threadFor
  cases hthread : bus.threadForParent parent with
  | some threadId =>
    refine ⟨h, ?_⟩
    simp only [threadForParent, Option.bind_eq_some_iff, Option.map_eq_some_iff] at hthread
    obtain ⟨p, -, env, henv, rfl⟩ := hthread
    exact h.placed env (List.mem_of_find?_eq_some henv)
  | none =>
    have hnew : bus.nextThreadId ∉ bus.threads.map (·.id) := by
      rw [List.mem_map]
      rintro ⟨thread, hmem, heq⟩
      exact absurd (h.fresh thread hmem) (by rw [heq]; exact lt_irrefl _)
    refine ⟨⟨?_, ?_, ?_, ?_⟩, by simp [createThread]⟩
    · simp only [createThread, List.map_append, List.map_cons, List.map_nil]
      exact List.nodup_append.mpr ⟨h.distinct, List.nodup_singleton _, by
        rintro t ht _ hlast rfl
        rw [List.mem_singleton] at hlast
        exact hnew (hlast ▸ ht)⟩
    · intro thread hmem
      rcases List.mem_append.mp hmem with hmem | hmem
      · exact Nat.lt_succ_of_lt (h.fresh thread hmem)
      · rw [List.mem_singleton.mp hmem]
        exact Nat.lt_succ_self _
    · intro env henv
      simp only [createThread, List.map_append]
      exact List.mem_append_left _ (h.placed env henv)
    · intro thread hmem node
      rcases List.mem_append.mp hmem with hmem | hmem
      · exact h.nodes thread hmem node
      · rw [List.mem_singleton.mp hmem]
        exact iff_of_false List.not_mem_nil (h.not_touches hnew)

def joinedThread (id : EnvelopeId) (draft : EnvelopeDraft) (thread : FabricThread) : FabricThread :=
  { thread with
    envelopes := thread.envelopes ++ [id]
    layers := pushUnique thread.layers draft.layer
    nodes := [draft.source, draft.target].foldl pushUnique thread.nodes }

theorem threads_emit : (bus.emit draft).2.threads =
    modifyFirst (fun thread => thread.id == joined bus draft) (joinedThread bus.nextId draft)
      (bus.threadFor draft.parent).2.threads :=
  (recordFabric_threads _ _).1

theorem Woven.emit (h : Woven bus) (draft : EnvelopeDraft) : Woven (bus.emit draft).2 := by
  obtain ⟨hwoven, hjoined⟩ := h.threadFor draft.parent
  have henvs : (bus.threadFor draft.parent).2.envelopes = bus.envelopes := by
    unfold SpiderwebBus.threadFor
    split <;> rfl
  have htouch : ∀ node t, Touches (bus.threadFor draft.parent).2 node t ↔ Touches bus node t := by
    intro node t
    rw [Touches, henvs]
    rfl
  have hids : (bus.emit draft).2.threads.map (·.id) =
      (bus.threadFor draft.parent).2.threads.map (·.id) := by
    rw [threads_emit]
    exact map_modifyFirst (f := joinedThread bus.nextId draft) (g := (·.id)) (fun _ => rfl) _
  have hmem : ∀ thread, thread ∈ (bus.emit draft).2.threads ↔
      ∃ y ∈ (bus.threadFor draft.parent).2.threads,
        thread = if y.id = joined bus draft then joinedThread bus.nextId draft y else y := by
    intro thread
    rw [threads_emit]
    exact mem_modifyFirst hwoven.distinct
  refine ⟨by rw [hids]; exact hwoven.distinct, ?_, ?_, ?_⟩
  · intro thread hthread
    have hnext : (bus.emit draft).2.nextThreadId = (bus.threadFor draft.parent).2.nextThreadId :=
      (recordFabric_threads _ _).2.1
    obtain ⟨y, hy, rfl⟩ := (hmem thread).mp hthread
    rw [hnext]
    split_ifs <;> exact hwoven.fresh y hy
  · intro env henv
    rw [hids]
    rw [envelopes_emit] at henv
    rcases List.mem_append.mp henv with henv | henv
    · exact hwoven.placed env (by rw [henvs]; exact henv)
    · rw [List.mem_singleton.mp henv]
      exact hjoined
  · intro thread hthread node
    obtain ⟨y, hy, rfl⟩ := (hmem thread).mp hthread
    have hnodes := hwoven.nodes y hy node
    rw [htouch] at hnodes
    rw [touches_emit]
    split_ifs with hid
    · have hsame : (joinedThread bus.nextId draft y).id = joined bus draft := hid
      rw [hsame, ← hid, ← hnodes, joinedThread, mem_foldl_pushUnique]
      simp [eq_comm]
    · rw [hnodes]
      simp [hid]

theorem mem_crossingThreads {threadId t : ThreadId} {endpoints : List String} :
    t ∈ bus.crossingThreads threadId endpoints ↔ ∃ thread ∈ bus.threads, thread.id = t ∧
      t ≠ threadId ∧ ∃ endpoint ∈ endpoints, endpoint ∈ thread.nodes := by
  have hfold : ∀ (threads : List FabricThread) ids,
      t ∈ threads.foldl (fun ids thread => pushUnique ids thread.id) ids ↔
        t ∈ ids ∨ ∃ thread ∈ threads, thread.id = t := by
    intro threads
    induction threads with
    | nil => simp
    | cons thread threads ih =>
      intro ids
      rw [List.foldl_cons, ih, mem_pushUnique, List.exists_mem_cons_iff, or_assoc, eq_comm (a := t)]
  rw [crossingThreads, hfold]
  simp only [List.not_mem_nil, false_or, List.mem_filter, Bool.and_eq_true, bne_iff_ne,
    List.any_eq_true, List.contains_iff_mem]
  constructor
  · rintro ⟨thread, ⟨hthread, hne, hend⟩, rfl⟩
    exact ⟨thread, hthread, rfl, hne, hend⟩
  · rintro ⟨thread, hthread, rfl, hne, hend⟩
    exact ⟨thread, ⟨hthread, hne, hend⟩, rfl⟩

theorem crossings_emit (h : Woven bus) (draft : EnvelopeDraft) : ∃ threads : List ThreadId,
    (∀ t, t ∈ threads ↔
      t = joined bus draft ∨ Touches bus draft.source t ∨ Touches bus draft.target t) ∧
    ∀ item, item ∈ crossings (bus.emit draft).2 ↔ item ∈ crossings bus ∨
      ((∃ t ∈ threads, t ≠ joined bus draft) ∧ item.2 = threads ∧
        (item.1 = draft.source ∨ item.1 = draft.target)) := by
  obtain ⟨hwoven, -⟩ := h.threadFor draft.parent
  have henvs : (bus.threadFor draft.parent).2.envelopes = bus.envelopes := by
    unfold SpiderwebBus.threadFor
    split <;> rfl
  let pushed := (bus.threadFor draft.parent).2.pushEnvelope bus.nextId (joined bus draft) draft
  let crossing := pushed.crossingThreads (joined bus draft) [draft.source, draft.target]
  have hcrossing : ∀ t, t ∈ crossing ↔ t ≠ joined bus draft ∧
      (Touches bus draft.source t ∨ Touches bus draft.target t) := by
    intro t
    have hnodes : ∀ thread ∈ (bus.threadFor draft.parent).2.threads, ∀ node,
        node ∈ thread.nodes ↔ Touches bus node thread.id := by
      intro thread hthread node
      rw [hwoven.nodes thread hthread node, Touches, henvs]
      rfl
    rw [mem_crossingThreads]
    constructor
    · rintro ⟨thread, hthread, rfl, hne, endpoint, hend, hin⟩
      refine ⟨hne, ?_⟩
      rw [hnodes thread hthread] at hin
      rcases List.mem_pair.mp hend with rfl | rfl
      · exact .inl hin
      · exact .inr hin
    · rintro ⟨hne, htouches⟩
      have hplaced : ∀ node, Touches bus node t → ∃ thread ∈ pushed.threads, thread.id = t := by
        rintro node ⟨env, henv, rfl, -⟩
        exact List.mem_map.mp (hwoven.placed env (by rw [henvs]; exact henv))
      rcases htouches with htouches | htouches
      · obtain ⟨thread, hthread, rfl⟩ := hplaced _ htouches
        exact ⟨thread, hthread, rfl, hne, _, by simp, (hnodes thread hthread _).mpr htouches⟩
      · obtain ⟨thread, hthread, rfl⟩ := hplaced _ htouches
        exact ⟨thread, hthread, rfl, hne, _, by simp, (hnodes thread hthread _).mpr htouches⟩
  have hpush : pushUnique crossing (joined bus draft) = crossing ++ [joined bus draft] := by
    rw [pushUnique, if_neg]
    intro hmem
    exact ((hcrossing _).mp hmem).1 rfl
  have hitems : crossings (bus.emit draft).2 = crossings (crossEndpoints
      (pushUnique crossing (joined bus draft)) (transferFor draft.kind)
      (pushed.joinThread bus.nextId (joined bus draft) draft) [draft.source, draft.target]) :=
    (recordFabric_threads _ _).2.2
  have hbefore : crossings (pushed.joinThread bus.nextId (joined bus draft) draft) =
      crossings bus := by
    simp only [pushed, crossings, joinThread, pushEnvelope]
    unfold SpiderwebBus.threadFor
    split <;> rfl
  have hthreads : ∀ t, t ∈ sortThreads (crossing ++ [joined bus draft]) ↔
      t = joined bus draft ∨ Touches bus draft.source t ∨ Touches bus draft.target t := by
    intro t
    rw [mem_sortThreads, List.mem_append, List.mem_singleton, hcrossing]
    by_cases ht : t = joined bus draft <;> simp [ht]
  refine ⟨sortThreads (crossing ++ [joined bus draft]), hthreads, fun item => ?_⟩
  rw [hitems, mem_crossEndpoints, hbefore, hpush, List.length_append, List.length_singleton,
    List.mem_pair]
  have hlength : 1 < crossing.length + 1 ↔
      ∃ t ∈ sortThreads (crossing ++ [joined bus draft]), t ≠ joined bus draft := by
    rw [Nat.lt_add_left_iff_pos, List.length_pos_iff_exists_mem]
    refine exists_congr fun t => ?_
    rw [mem_sortThreads, List.mem_append, List.mem_singleton]
    constructor
    · intro ht
      exact ⟨.inl ht, ((hcrossing t).mp ht).1⟩
    · rintro ⟨ht | ht, hne⟩
      · exact ht
      · exact absurd ht hne
  rw [hlength]

end Emissions

section Runs

variable {bus : SpiderwebBus}

def Covered (bus : SpiderwebBus) : Prop :=
  ∀ node t t', t ≠ t' → Touches bus node t → Touches bus node t' →
    ∃ item ∈ bus.intersections, item.node = node ∧ t ∈ item.threads ∧ t' ∈ item.threads

def OnNode (bus : SpiderwebBus) : Prop :=
  ∀ item ∈ bus.intersections, ∀ t ∈ item.threads, Touches bus item.node t

def Paired (bus : SpiderwebBus) (draft : EnvelopeDraft) : Prop :=
  ∀ t, t ≠ joined bus draft → (Touches bus draft.source t ↔ Touches bus draft.target t)

theorem covered_iff : Covered bus ↔ ∀ node t t', t ≠ t' → Touches bus node t →
    Touches bus node t' → ∃ threads, (node, threads) ∈ crossings bus ∧ t ∈ threads ∧
      t' ∈ threads := by
  refine forall_congr' fun node => forall_congr' fun t => forall_congr' fun t' =>
    imp_congr_right fun _ => imp_congr_right fun _ => imp_congr_right fun _ => ?_
  constructor
  · rintro ⟨item, hitem, rfl, ht, ht'⟩
    exact ⟨item.threads, mem_crossings.mpr ⟨item, hitem, rfl, rfl⟩, ht, ht'⟩
  · rintro ⟨threads, hmem, ht, ht'⟩
    obtain ⟨item, hitem, hnode, rfl⟩ := mem_crossings.mp hmem
    exact ⟨item, hitem, hnode, ht, ht'⟩

theorem onNode_iff : OnNode bus ↔ ∀ item ∈ crossings bus, ∀ t ∈ item.2,
    Touches bus item.1 t := by
  simp only [OnNode, crossings, List.forall_mem_map]

theorem Covered.emit (hwoven : Woven bus) (h : Covered bus) (draft : EnvelopeDraft) :
    Covered (bus.emit draft).2 := by
  obtain ⟨threads, hthreads, hitems⟩ := crossings_emit hwoven draft
  rw [covered_iff] at h ⊢
  intro node t t' hne ht ht'
  -- a thread that touches the node for the first time is the envelope's own
  have hnew : ∀ s, Touches (bus.emit draft).2 node s → ¬Touches bus node s →
      s = joined bus draft ∧ (node = draft.source ∨ node = draft.target) := by
    intro s hs hbefore
    rcases touches_emit.mp hs with hs | ⟨rfl, hend⟩
    · exact absurd hs hbefore
    · exact ⟨rfl, hend.imp Eq.symm Eq.symm⟩
  have hold : ∀ s, Touches (bus.emit draft).2 node s → s ≠ joined bus draft →
      Touches bus node s := fun s hs hs' => by
    rcases touches_emit.mp hs with hs | ⟨rfl, -⟩
    · exact hs
    · exact absurd rfl hs'
  have hmeet : ∀ s, s ≠ joined bus draft → Touches bus node s →
      (node = draft.source ∨ node = draft.target) → (node, threads) ∈ crossings
        (bus.emit draft).2 ∧ joined bus draft ∈ threads ∧ s ∈ threads := by
    intro s hs htouch hend
    have hmem : s ∈ threads := by
      rw [hthreads]
      rcases hend with rfl | rfl
      · exact .inr (.inl htouch)
      · exact .inr (.inr htouch)
    exact ⟨(hitems _).mpr (.inr ⟨⟨s, hmem, hs⟩, rfl, hend⟩), (hthreads _).mpr (.inl rfl), hmem⟩
  by_cases hb : Touches bus node t
  · by_cases hb' : Touches bus node t'
    · obtain ⟨found, hmem, hfound⟩ := h node t t' hne hb hb'
      exact ⟨found, (hitems _).mpr (.inl hmem), hfound⟩
    · obtain ⟨rfl, hend⟩ := hnew t' ht' hb'
      obtain ⟨hmem, hown, hother⟩ := hmeet t hne hb hend
      exact ⟨threads, hmem, hother, hown⟩
  · obtain ⟨rfl, hend⟩ := hnew t ht hb
    obtain ⟨hmem, hown, hother⟩ := hmeet t' hne.symm (hold t' ht' hne.symm) hend
    exact ⟨threads, hmem, hown, hother⟩

theorem exact_emit (hwoven : Woven bus) {draft : EnvelopeDraft} (hpaired : Paired bus draft)
    {item : String × List ThreadId} (h : item ∈ crossings (bus.emit draft).2) :
    item ∈ crossings bus ∨ ∀ t, t ∈ item.2 ↔ Touches (bus.emit draft).2 item.1 t := by
  obtain ⟨threads, hthreads, hitems⟩ := crossings_emit hwoven draft
  rcases (hitems item).mp h with h | ⟨-, hsame, hend⟩
  · exact .inl h
  · refine .inr fun t => ?_
    rw [hsame, hthreads, touches_emit]
    by_cases ht : t = joined bus draft
    · exact iff_of_true (.inl ht) (.inr ⟨ht, hend.imp Eq.symm Eq.symm⟩)
    · have hpair := hpaired t ht
      rcases hend with hend | hend <;> rw [hend] <;> simp [ht, hpair]

theorem OnNode.emit (hwoven : Woven bus) (h : OnNode bus) {draft : EnvelopeDraft}
    (hpaired : Paired bus draft) : OnNode (bus.emit draft).2 := by
  rw [onNode_iff] at h ⊢
  intro item hitem t ht
  rcases exact_emit hwoven hpaired hitem with hbefore | hexact
  · exact touches_emit.mpr (.inl (h item hbefore t ht))
  · exact (hexact t).mp ht

theorem paired_of_onNode (hwoven : Woven bus) {draft : EnvelopeDraft}
    (h : OnNode (bus.emit draft).2) : Paired bus draft := by
  obtain ⟨threads, hthreads, hitems⟩ := crossings_emit hwoven draft
  rw [onNode_iff] at h
  have hboth : ∀ t, t ≠ joined bus draft →
      (Touches bus draft.source t ∨ Touches bus draft.target t) → ∀ node,
        (node = draft.source ∨ node = draft.target) → Touches bus node t := by
    intro t hne htouch node hend
    have hmem : t ∈ threads := (hthreads t).mpr (.inr htouch)
    have hnode := h (node, threads) ((hitems _).mpr (.inr ⟨⟨t, hmem, hne⟩, rfl, hend⟩)) t hmem
    rcases touches_emit.mp hnode with hnode | ⟨heq, -⟩
    · exact hnode
    · exact absurd heq hne
  intro t hne
  exact ⟨fun hs => hboth t hne (.inl hs) _ (.inr rfl), fun ht => hboth t hne (.inr ht) _ (.inl rfl)⟩

/-- In every run two threads that touch a node meet in an intersection recorded for it. The threads
of an intersection all touch its node, in every state, exactly if at each call each other thread
that touches one of the two nodes touches both; then each intersection lists all the threads that
touched its node when it was recorded. -/
theorem intersections_sound_iff (origin : Origin) (calls : List BusCall) :
    (∀ v ∈ trace busStep origin.bus calls, Covered v.after) ∧
      ((∀ v ∈ trace busStep origin.bus calls, OnNode v.after) ↔
        Guarded busStep (fun bus call => Paired bus call.draft) origin.bus calls) ∧
      (Guarded busStep (fun bus call => Paired bus call.draft) origin.bus calls →
        ∀ item ∈ (final busStep origin.bus calls).intersections,
          ∃ v ∈ trace busStep origin.bus calls,
            ∀ t, t ∈ item.threads ↔ Touches v.after item.node t) := by
  have hstep : ∀ bus call, Woven bus ∧ Covered bus → True →
      Woven (busStep bus call).2 ∧ Covered (busStep bus call).2 := by
    rintro bus call ⟨hwoven, hcovered⟩ -
    rw [busStep_eq]
    exact ⟨hwoven.emit _, hcovered.emit hwoven _⟩
  have hstart : Woven origin.bus ∧ Covered origin.bus := by
    refine ⟨woven_origin origin, ?_⟩
    rintro node t t' - ⟨env, henv, -⟩
    cases origin <;> exact absurd henv List.not_mem_nil
  have hvisits := guarded_visits (fun _ _ => True) (fun bus => Woven bus ∧ Covered bus) hstart hstep
    calls (fun _ _ => trivial)
  have hempty : origin.bus.intersections = [] := by cases origin <;> rfl
  refine ⟨fun v hv => (hvisits v hv).2.2.2, ⟨fun h v hv => ?_, fun hg v hv => ?_⟩, fun hg => ?_⟩
  · obtain ⟨hvisit, ⟨hwoven, -⟩, -⟩ := hvisits v hv
    have hafter := h v hv
    rw [hvisit, visit, busStep_eq] at hafter
    exact paired_of_onNode hwoven hafter
  · have hkeep : ∀ bus call, Woven bus ∧ OnNode bus → Paired bus call.draft →
        Woven (busStep bus call).2 ∧ OnNode (busStep bus call).2 := by
      rintro bus call ⟨hwoven, hnode⟩ hpaired
      rw [busStep_eq]
      exact ⟨hwoven.emit _, hnode.emit hwoven hpaired⟩
    have hbegin : Woven origin.bus ∧ OnNode origin.bus := by
      refine ⟨woven_origin origin, ?_⟩
      rw [OnNode, hempty]
      simp
    exact (guarded_visits _ (fun bus => Woven bus ∧ OnNode bus) hbegin hkeep calls hg v hv).2.2.2
  · refine (guarded_induction (fun bus call => Paired bus call.draft) (fun past bus => Woven bus ∧
      ∀ item ∈ bus.intersections, ∃ v ∈ past, ∀ t, t ∈ item.threads ↔
        Touches v.after item.node t) ?_ ?_ calls hg).2
    · rw [hempty]
      exact ⟨woven_origin origin, by simp⟩
    · rintro past bus call ⟨hwoven, hrecorded⟩ hpaired
      refine ⟨by rw [busStep_eq]; exact hwoven.emit _, fun item hitem => ?_⟩
      have hcross : (item.node, item.threads) ∈ crossings (bus.emit call.draft).2 := by
        rw [← busStep_eq]
        exact mem_crossings.mpr ⟨item, hitem, rfl, rfl⟩
      rcases exact_emit hwoven hpaired hcross with hbefore | hexact
      · obtain ⟨other, hother, hnode, hthreads⟩ := mem_crossings.mp hbefore
        obtain ⟨v, hv, hexact⟩ := hrecorded other hother
        rw [hnode, hthreads] at hexact
        exact ⟨v, List.mem_append_left _ hv, hexact⟩
      · refine ⟨visit busStep bus call, List.mem_append_right _ List.mem_cons_self, ?_⟩
        rw [visit, busStep_eq]
        exact hexact

theorem intersection_off_node :
    let bus := final busStep Origin.new.bus
      [.l0Transport .intentIngress "operator-a" "planner" "a",
        .l0Transport .intentIngress "operator-b" "planner" "b"]
    ⟨"operator-b", [1, 2], .sharedNode⟩ ∈ bus.intersections ∧ ¬Touches bus "operator-b" 1 ∧
      ¬OnNode bus := by
  have hmem : (⟨"operator-b", [1, 2], .sharedNode⟩ : Intersection) ∈ (final busStep Origin.new.bus
      [.l0Transport .intentIngress "operator-a" "planner" "a",
        .l0Transport .intentIngress "operator-b" "planner" "b"]).intersections := by
    decide +kernel
  have hnot : ¬Touches (final busStep Origin.new.bus
      [.l0Transport .intentIngress "operator-a" "planner" "a",
        .l0Transport .intentIngress "operator-b" "planner" "b"]) "operator-b" 1 := by
    unfold Touches
    decide +kernel
  exact ⟨hmem, hnot, fun h => hnot (h _ hmem 1 (by decide))⟩

end Runs

end AtomVibe.Bus
