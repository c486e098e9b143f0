import AtomVibe.ScratchpadChain
import AtomVibe.WorkExpanded

namespace AtomVibe.Work

open Text Hash PrefixCode HashChain

structure PlanRequest where
  intent : String
  recipeId : String
  atomStack : List String
  fingerprint : String

namespace PlanRequest

def plan (request : PlanRequest) : Except WorkError WorkPlan :=
  meticulous request.intent request.recipeId request.atomStack request.fingerprint

def hashed (request : PlanRequest) : List (List UInt8) :=
  [asBytes (trim request.intent), asBytes request.fingerprint]

def seed (request : PlanRequest) : String :=
  planSeed (sha256Tagged (asBytes (trim request.intent))) request.recipeId request.atomStack
    (sha256Tagged (asBytes request.fingerprint))

structure Same (a b : PlanRequest) : Prop where
  intent : trim a.intent = trim b.intent
  recipeId : a.recipeId = b.recipeId
  atomStack : a.atomStack = b.atomStack
  fingerprint : a.fingerprint = b.fingerprint

/-- The recipe of `b` goes on, behind a NUL, as the encoded atoms of `a` do up to another. -/
def Imitates (a b : PlanRequest) : Prop :=
  ∃ shared, b.recipeId = a.recipeId ++ "\x00" ++ shared ∧
    encodeSequence a.atomStack = shared ++ "\x00" ++ encodeSequence b.atomStack

end PlanRequest

def idDigest (seed : List UInt8) : List Char := (sha256Hex seed).toList.take 24

theorem planId_eq_iff {s t : String} :
    planId s = planId t ↔ idDigest (asBytes s) = idDigest (asBytes t) := by
  rw [planId, planId, ← String.toList_inj, String.toList_append, String.toList_append,
    List.append_cancel_left_eq, String.toList_ofList, String.toList_ofList]
  rfl

theorem encodeSequence_eq (values : List String) :
    encodeSequence values = Scratchpad.encodeSequence values := by
  have hfold : ∀ encoded : String, (values.foldl
      (fun encoded value => encoded ++ value.utf8ByteSize.repr ++ ":" ++ value) encoded).toList =
        encoded.toList ++ values.flatMap Scratchpad.encodeValue := by
    induction values with
    | nil => simp
    | cons value values ih =>
      intro encoded
      rw [List.foldl_cons, ih, List.flatMap_cons, Scratchpad.encodeValue]
      simp
  rw [← String.toList_inj]
  simpa [encodeSequence, Scratchpad.encodeSequence] using hfold ""

theorem encodeSequence_injective : Function.Injective encodeSequence := by
  intro xs ys h
  rw [encodeSequence_eq, encodeSequence_eq] at h
  exact ScratchpadChain.encodeSequence_injective h

theorem length_sha256Tagged (bytes : List UInt8) : (sha256Tagged bytes).toList.length = 71 := by
  rw [toList_sha256Tagged, List.length_append, length_sha256Hex]
  decide

namespace PlanRequest

variable {a b : PlanRequest}

theorem toList_seed (request : PlanRequest) : request.seed.toList =
    "work-v3\x00".toList ++ ((sha256Tagged (asBytes (trim request.intent))).toList ++
      ('\x00' :: ((request.recipeId.toList ++ '\x00' :: (encodeSequence request.atomStack).toList) ++
        '\x00' :: (sha256Tagged (asBytes request.fingerprint)).toList))) := by
  have hversion : workSchemaVersion.toNat.repr = "3" := by decide
  delta seed planSeed
  rw [hversion]
  simp

theorem recipe_cases (h : a.recipeId.toList ++ '\x00' :: (encodeSequence a.atomStack).toList =
    b.recipeId.toList ++ '\x00' :: (encodeSequence b.atomStack).toList) :
    (a.recipeId = b.recipeId ∧ a.atomStack = b.atomStack) ∨ Imitates a b ∨ Imitates b a := by
  have hcase : ∀ {a b : PlanRequest} {more : List Char},
      b.recipeId.toList = a.recipeId.toList ++ more →
      '\x00' :: (encodeSequence a.atomStack).toList =
        more ++ '\x00' :: (encodeSequence b.atomStack).toList →
      (a.recipeId = b.recipeId ∧ a.atomStack = b.atomStack) ∨ Imitates a b := by
    intro a b more hrecipe hatoms
    cases more with
    | nil =>
      rw [List.append_nil] at hrecipe
      refine .inl ⟨(String.toList_injective hrecipe).symm, ?_⟩
      exact encodeSequence_injective (String.toList_injective (List.cons.inj hatoms).2)
    | cons c shared =>
      obtain ⟨rfl, hrest⟩ := List.cons.inj hatoms
      refine .inr ⟨String.ofList shared, ?_, ?_⟩
      · rw [← String.toList_inj, hrecipe]
        simp
      · rw [← String.toList_inj, hrest]
        simp
  rcases List.append_eq_append_iff.mp h with ⟨more, hrecipe, hatoms⟩ | ⟨more, hrecipe, hatoms⟩
  · rcases hcase hrecipe hatoms with hsame | himitates
    · exact .inl hsame
    · exact .inr (.inl himitates)
  · rcases hcase hrecipe hatoms with hsame | himitates
    · exact .inl ⟨hsame.1.symm, hsame.2.symm⟩
    · exact .inr (.inr himitates)

theorem seed_of_imitates (hintent : trim a.intent = trim b.intent)
    (hfingerprint : a.fingerprint = b.fingerprint) (h : Imitates a b) : a.seed = b.seed := by
  obtain ⟨shared, hrecipe, hatoms⟩ := h
  rw [← String.toList_inj, toList_seed, toList_seed, hintent, hfingerprint, hrecipe, hatoms]
  simp

theorem parts_of_seed (hfree : CollisionFree sha256 a.hashed b.hashed) (h : a.seed = b.seed) :
    trim a.intent = trim b.intent ∧ a.fingerprint = b.fingerprint ∧
      a.recipeId.toList ++ '\x00' :: (encodeSequence a.atomStack).toList =
        b.recipeId.toList ++ '\x00' :: (encodeSequence b.atomStack).toList := by
  have hlist := congrArg String.toList h
  rw [toList_seed, toList_seed, List.append_cancel_left_eq] at hlist
  obtain ⟨hintent, hrest⟩ := List.append_inj hlist
    (by rw [length_sha256Tagged, length_sha256Tagged])
  obtain ⟨hmiddle, hfingerprint⟩ := List.append_inj' (List.cons.inj hrest).2
    (by rw [List.length_cons, List.length_cons, length_sha256Tagged, length_sha256Tagged])
  have hsame : ∀ {x y : String}, asBytes x ∈ a.hashed → asBytes y ∈ b.hashed →
      (sha256Tagged (asBytes x)).toList = (sha256Tagged (asBytes y)).toList → x = y := by
    intro x y hx hy heq
    exact asBytes_injective
      (hfree _ hx _ hy (sha256Tagged_inj.mp (String.toList_injective heq)))
  refine ⟨hsame (by simp [hashed]) (by simp [hashed]) hintent, ?_, hmiddle⟩
  exact hsame (by simp [hashed]) (by simp [hashed]) (List.cons.inj hfingerprint).2

/-- Two plans with one id are made for the same request, unless the recipe of one imitates the
atoms of the other, for the same intent and fingerprint. -/
theorem same_iff_not_imitates {p q : WorkPlan} (hp : a.plan = .ok p) (hq : b.plan = .ok q)
    (hseeds : CollisionFree idDigest [asBytes a.seed] [asBytes b.seed])
    (hfree : CollisionFree sha256 a.hashed b.hashed) :
    (p.id = q.id → Same a b) ↔
      ¬(trim a.intent = trim b.intent ∧ a.fingerprint = b.fingerprint ∧
        (Imitates a b ∨ Imitates b a)) := by
  obtain ⟨-, rfl⟩ := meticulous_eq_ok.mp hp
  obtain ⟨-, rfl⟩ := meticulous_eq_ok.mp hq
  change (planId a.seed = planId b.seed → Same a b) ↔ _
  constructor
  · rintro h ⟨hintent, hfingerprint, himitates⟩
    have hseed : a.seed = b.seed := by
      rcases himitates with himitates | himitates
      · exact seed_of_imitates hintent hfingerprint himitates
      · exact (seed_of_imitates hintent.symm hfingerprint.symm himitates).symm
    have hrecipe := (h (congrArg planId hseed)).recipeId
    rcases himitates with ⟨shared, hlonger, -⟩ | ⟨shared, hlonger, -⟩ <;>
      rw [hrecipe] at hlonger <;>
      have hlength := congrArg (fun s : String => s.toList.length) hlonger <;>
      simp at hlength
  · intro hnot hid
    have hseed : a.seed = b.seed := asBytes_injective
      (hseeds _ List.mem_cons_self _ List.mem_cons_self (planId_eq_iff.mp hid))
    obtain ⟨hintent, hfingerprint, hrecipe⟩ := parts_of_seed hfree hseed
    rcases recipe_cases hrecipe with ⟨hsame, hatoms⟩ | himitates
    · exact ⟨hintent, hsame, hatoms, hfingerprint⟩
    · exact absurd ⟨hintent, hfingerprint, himitates⟩ hnot

theorem plan_ok {request : PlanRequest} (hne : trim request.intent ≠ "")
    (hsize : (trim request.intent).utf8ByteSize ≤ maxIntentBytes) :
    ∃ p, request.plan = .ok p ∧ p.id = planId request.seed :=
  ⟨_, meticulous_eq_ok.mpr ⟨⟨hne, hsize⟩, rfl⟩, rfl⟩

end PlanRequest

open PlanRequest

def appRequest (recipeId : String) (atomStack : List String) : PlanRequest :=
  ⟨"Build an app", recipeId, atomStack, "Build an app"⟩

theorem app_imitates : Imitates (appRequest "r" ["\x00"]) (appRequest "r\x001:" []) :=
  ⟨"1:", by decide +kernel, by decide +kernel⟩

theorem app_seed : (appRequest "r" ["\x00"]).seed = (appRequest "r\x001:" []).seed :=
  seed_of_imitates rfl rfl app_imitates

theorem app_plan (recipeId : String) (atomStack : List String) :
    ∃ p, (appRequest recipeId atomStack).plan = .ok p ∧
      p.id = planId (appRequest recipeId atomStack).seed :=
  @plan_ok (appRequest recipeId atomStack)
    (show trim "Build an app" ≠ "" by decide +kernel)
    (show (trim "Build an app").utf8ByteSize ≤ maxIntentBytes by decide +kernel)

theorem recipe_imitates_atoms : ∃ p q, (appRequest "r" ["\x00"]).plan = .ok p ∧
    (appRequest "r\x001:" []).plan = .ok q ∧ p.id = q.id ∧
      ¬Same (appRequest "r" ["\x00"]) (appRequest "r\x001:" []) := by
  obtain ⟨p, hp, hpid⟩ := app_plan "r" ["\x00"]
  obtain ⟨q, hq, hqid⟩ := app_plan "r\x001:" []
  refine ⟨p, q, hp, hq, ?_, fun hsame => absurd hsame.recipeId (by decide)⟩
  exact hpid.trans ((congrArg planId app_seed).trans hqid.symm)

theorem app_requests_not_told_apart : ∃ p q, (appRequest "r" ["\x00"]).plan = .ok p ∧
    (appRequest "r\x001:" []).plan = .ok q ∧
      ((p.id = q.id → Same (appRequest "r" ["\x00"]) (appRequest "r\x001:" [])) ↔
        ¬(trim "Build an app" = trim "Build an app" ∧ "Build an app" = "Build an app" ∧
          (Imitates (appRequest "r" ["\x00"]) (appRequest "r\x001:" []) ∨
            Imitates (appRequest "r\x001:" []) (appRequest "r" ["\x00"])))) := by
  obtain ⟨p, hp, -⟩ := app_plan "r" ["\x00"]
  obtain ⟨q, hq, -⟩ := app_plan "r\x001:" []
  have hseeds : CollisionFree idDigest [asBytes (appRequest "r" ["\x00"]).seed]
      [asBytes (appRequest "r\x001:" []).seed] := by
    intro x hx y hy _
    rw [List.mem_singleton.mp hx, List.mem_singleton.mp hy, app_seed]
  have hhashed : ∀ recipeId atomStack, (appRequest recipeId atomStack).hashed =
      [asBytes "Build an app", asBytes "Build an app"] := by
    intro recipeId atomStack
    have htrim : trim "Build an app" = "Build an app" := by decide +kernel
    exact congrArg (fun text => [asBytes text, asBytes "Build an app"]) htrim
  refine ⟨p, q, hp, hq, same_iff_not_imitates hp hq hseeds ?_⟩
  rw [hhashed, hhashed]
  simp [CollisionFree]

end AtomVibe.Work
