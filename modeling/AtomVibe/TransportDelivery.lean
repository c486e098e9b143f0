import AtomVibe.ProviderTransport

namespace AtomVibe.TransportDelivery

open Checked Text Hash Secrets Provider LastMarker ProviderTransport

section Reads

variable {limit : ℕ} {bytes : List UInt8} {chunks : List (List UInt8)} {reads : Reads}

def Gives (reads : Reads) (bytes : List UInt8) : Prop :=
  ∃ chunks : List (List UInt8), [] ∉ chunks ∧ reads = chunks.map .ok ∧ chunks.flatten = bytes

theorem readBoundedStream_chunks (hne : [] ∉ chunks) (hbytes : bytes.length ≤ limit) :
    readBoundedStream limit bytes (chunks.map .ok) =
      if bytes.length + chunks.flatten.length ≤ limit then .ok (bytes ++ chunks.flatten)
      else .error .responseTooLarge := by
  induction chunks generalizing bytes with
  | nil => simp [readBoundedStream, hbytes]
  | cons chunk chunks ih =>
    obtain ⟨hchunk, hchunks⟩ := not_or.mp (mt List.mem_cons.mpr hne)
    rw [List.map_cons, readBoundedStream, if_neg (Ne.symm hchunk), List.flatten_cons,
      List.length_append]
    by_cases hlimit : limit < bytes.length + chunk.length
    · rw [if_pos hlimit, if_neg (by omega)]
    · rw [if_neg hlimit, ih hchunks (by rw [List.length_append]; omega), List.length_append,
        List.append_assoc, Nat.add_assoc]

theorem readBoundedStream_gives (h : Gives reads bytes) :
    readBoundedStream limit [] reads =
      if bytes.length ≤ limit then .ok bytes else .error .responseTooLarge := by
  obtain ⟨chunks, hne, rfl, rfl⟩ := h
  rw [readBoundedStream_chunks hne (Nat.zero_le _), List.length_nil, Nat.zero_add, List.nil_append]

end Reads

theorem fromUtf8_asBytes (s : String) : fromUtf8 (asBytes s) = some s := by
  rw [fromUtf8, asBytes, Array.toArray_toList]
  exact fromUTF8?_toByteArray s

theorem length_asBytes (s : String) : (asBytes s).length = s.utf8ByteSize := by
  rw [asBytes, Array.length_toList]
  rfl

section Framing

variable {body : String} {status : UInt16}

def framed (body : String) (status : UInt16) : String :=
  body ++ statusMarker ++ status.toNat.repr

theorem statusMarker_eq : ∃ rest, statusMarker.toList = '\n' :: rest ∧ '\n' ∉ rest :=
  ⟨statusMarker.toList.tail, by decide, by decide⟩

theorem digit_ne_newline (n : ℕ) : '\n' ∉ n.repr.toList := by
  intro h
  rw [Nat.toList_repr] at h
  exact absurd (toDigits_isAsciiDigit h) (by decide)

theorem parseU16_repr (status : UInt16) : parseU16 status.toNat.repr = some status := by
  have hlt : status.toNat < UInt16.size := status.toNat_lt_size
  have hsize : UInt16.size ≤ UInt64.size := by decide
  have hwide : (UInt64.ofNat status.toNat).toNat = status.toNat :=
    UInt64.toNat_ofNat_of_lt' (lt_of_lt_of_le hlt hsize)
  have hparse := parseU64_repr (UInt64.ofNat status.toNat)
  rw [hwide] at hparse
  rw [parseU16, hparse, Option.bind_some, hwide, if_pos hlt]
  simp

theorem isWhitespace_of_digit {c : Char} (h : isAsciiDigit c = true) : isWhitespace c = false := by
  simp only [isAsciiDigit, Bool.and_eq_true, decide_eq_true_eq, Char.le_def] at h
  have hrange : 48 ≤ c.toNat ∧ c.toNat ≤ 57 := h
  simp only [isWhitespace]
  simp
  omega

theorem trim_of_visible {s : String} (h : ∀ c ∈ s.toList, isWhitespace c = false) :
    trim s = s := by
  have hfront : s.toList.dropWhile isWhitespace = s.toList := by
    rw [List.dropWhile_eq_self_iff]
    intro hlen
    simp [h _ (List.getElem_mem hlen)]
  have hback : s.toList.reverse.dropWhile isWhitespace = s.toList.reverse := by
    rw [List.dropWhile_eq_self_iff]
    intro hlen
    have hlast := h _ (List.mem_reverse.mp (List.getElem_mem hlen))
    simpa using hlast
  rw [trim, hfront, hback, List.reverse_reverse, String.ofList_toList]

theorem trim_repr (n : ℕ) : trim n.repr = n.repr := by
  apply trim_of_visible
  intro c hc
  rw [Nat.toList_repr] at hc
  exact isWhitespace_of_digit (toDigits_isAsciiDigit hc)

theorem splitCurlResponse_framed (body : String) (status : UInt16) :
    splitCurlResponse (asBytes (framed body status)) =
      .ok (body, (some status).filter fun value => 100 ≤ value && value ≤ 599) := by
  obtain ⟨rest, hmarker, hrest⟩ := statusMarker_eq
  have hsplit := splitLast_append hrest (digit_ne_newline status.toNat) body.toList
  rw [splitCurlResponse, fromUtf8_asBytes]
  simp only [framed, String.toList_append, hmarker]
  rw [List.append_assoc, hsplit]
  simp only [String.ofList_toList, trim_repr, parseU16_repr]

structure Succeeds (launch : Launch) (body : String) (stderr : Reads) : Prop where
  ended : ∃ status stdout, 200 ≤ status ∧ status ≤ 299 ∧
    Gives stdout (asBytes (framed body status)) ∧ launch.ended = .exited (some 0) stdout stderr

def Diagnosed (stderr : Reads) : Prop :=
  ∃ bytes text, readBoundedStream maxCurlStderrBytes [] stderr = .ok bytes ∧
    fromUtf8 bytes = some text

theorem framed_fits (hlow : 200 ≤ status) (hhigh : status ≤ 299) :
    (asBytes (framed body status)).length ≤
        maxProviderResponseBytes + statusMarker.utf8ByteSize + 3 ↔
      body.utf8ByteSize ≤ maxProviderResponseBytes := by
  have hdigits : ∀ n : ℕ, 200 ≤ n → n ≤ 299 → n.repr.utf8ByteSize = 3 := by
    decide +kernel
  have hthree := hdigits status.toNat (UInt16.le_iff_toNat_le.mp hlow)
    (UInt16.le_iff_toNat_le.mp hhigh)
  rw [length_asBytes, framed, String.utf8ByteSize_append, String.utf8ByteSize_append, hthree]
  omega

theorem read_not_transient (limit : ℕ) (bytes : List UInt8) (reads : Reads)
    {error : ProviderTransportError}
    (h : readBoundedStream limit bytes reads = .error error) :
    isTransientLaunchFailure error = false := by
  induction reads generalizing bytes with
  | nil => exact absurd h (by simp [readBoundedStream])
  | cons read reads ih =>
    cases read with
    | error reason =>
      obtain rfl := Except.error.inj h
      rfl
    | ok chunk =>
      rw [readBoundedStream] at h
      split_ifs at h
      · obtain rfl := Except.error.inj h
        rfl
      · exact ih _ h

theorem outcome_succeeds {launch : Launch} {stderr : Reads} (h : Succeeds launch body stderr)
    (apiKey : String) :
    (maxProviderResponseBytes < body.utf8ByteSize ∧
      outcome launch apiKey = .error .responseTooLarge) ∨
    (body.utf8ByteSize ≤ maxProviderResponseBytes ∧ Diagnosed stderr ∧
      outcome launch apiKey = .ok body) ∨
    (body.utf8ByteSize ≤ maxProviderResponseBytes ∧ ¬Diagnosed stderr ∧
      ∃ error, outcome launch apiKey = .error error ∧ isTransientLaunchFailure error = false) := by
  obtain ⟨status, stdout, hlow, hhigh, hgives, hended⟩ := h.ended
  have hfits := @framed_fits body status hlow hhigh
  rw [outcome, hended, runCurl, readBoundedStream_gives hgives]
  by_cases hsize : body.utf8ByteSize ≤ maxProviderResponseBytes
  · rw [if_pos (hfits.mpr hsize), ok_bind]
    right
    cases hstderr : readBoundedStream maxCurlStderrBytes [] stderr with
    | error error =>
      right
      refine ⟨hsize, ?_, error, rfl, ?_⟩
      · rintro ⟨bytes, _, hbytes, -⟩
        rw [hstderr] at hbytes
        exact absurd hbytes (by simp)
      · exact read_not_transient _ _ _ hstderr
    | ok bytes =>
      cases htext : fromUtf8 bytes with
      | none =>
        right
        refine ⟨hsize, ?_, .io "curl stderr was not valid UTF-8", ?_, rfl⟩
        · rintro ⟨bytes', text, hbytes, hutf⟩
          obtain rfl := Except.ok.inj (hstderr.symm.trans hbytes)
          rw [htext] at hutf
          exact absurd hutf (by simp)
        · simp only [ok_bind, pure, Except.pure, classifyCurlCapture, htext]
      | some text =>
        left
        refine ⟨hsize, ⟨bytes, text, hstderr, htext⟩, ?_⟩
        have hvalid : (100 ≤ status && status ≤ 599) = true := by
          simp only [Bool.and_eq_true, decide_eq_true_eq, UInt16.le_iff_toNat_le] at *
          exact ⟨le_trans (by decide) hlow, le_trans hhigh (by decide)⟩
        simp only [ok_bind, pure, Except.pure, classifyCurlCapture, htext,
          splitCurlResponse_framed, Option.filter_some, hvalid, if_true, Option.any_some]
        rw [if_neg]
        simp [hlow, hhigh]
  · left
    rw [if_neg fun h => hsize (hfits.mp h)]
    exact ⟨not_le.mp hsize, rfl⟩

end Framing

section Launches

variable {launch : Launch} {curl : ℕ → Launch} {apiKey : String}

def LooksUnlaunched (launch : Launch) : Prop :=
  ∃ code stdout stderr printed diagnostics text,
    launch.ended = .exited code stdout stderr ∧
    readBoundedStream (maxProviderResponseBytes + statusMarker.utf8ByteSize + 3) [] stdout =
      .ok printed ∧
    readBoundedStream maxCurlStderrBytes [] stderr = .ok diagnostics ∧
    fromUtf8 diagnostics = some text ∧
    (∀ value, code = some value → ¬(1 ≤ value ∧ value ≤ 99)) ∧
    ((∃ body, splitCurlResponse printed = .ok (body, none)) ∨
      (code ≠ some 0 ∧ ∃ error, splitCurlResponse printed = .error error))

theorem transient_curlFailed (code : Option Int32) (status : Option UInt16) (stderr body : String) :
    isTransientLaunchFailure (.curlFailed code status stderr body) = true ↔
      status = none ∧ ∀ value, code = some value → ¬(1 ≤ value ∧ value ≤ 99) := by
  cases status with
  | some status => cases code <;> simp [isTransientLaunchFailure]
  | none =>
    cases code with
    | none => simp [isTransientLaunchFailure]
    | some value =>
      simp only [isTransientLaunchFailure, Bool.not_eq_true', Bool.and_eq_false_iff,
        decide_eq_false_iff_not, true_and, Option.some.injEq, forall_eq', not_and_or]

theorem splitCurlResponse_io {stdout : List UInt8} {error : ProviderTransportError}
    (h : splitCurlResponse stdout = .error error) : isTransientLaunchFailure error = false := by
  unfold splitCurlResponse at h
  split at h
  · obtain rfl := Except.error.inj h
    rfl
  · split at h
    · obtain rfl := Except.error.inj h
      rfl
    · exact absurd h (by simp)

theorem transient_iff : (∃ error, outcome launch apiKey = .error error ∧
    isTransientLaunchFailure error = true) ↔ LooksUnlaunched launch := by
  obtain ⟨sent, ended⟩ := launch
  rw [outcome, LooksUnlaunched]
  cases ended with
  | failed reason => simp [runCurl, bind, Except.bind, isTransientLaunchFailure]
  | exited code stdout stderr =>
    simp only [CurlEnd.exited.injEq, runCurl]
    cases hstdout : readBoundedStream (maxProviderResponseBytes + statusMarker.utf8ByteSize + 3) []
        stdout with
    | error error =>
      have hfinal := read_not_transient _ _ _ hstdout
      simp [bind, Except.bind, hfinal, ↓existsAndEq, hstdout]
    | ok printed =>
    cases hstderr : readBoundedStream maxCurlStderrBytes [] stderr with
    | error error =>
      have hfinal := read_not_transient _ _ _ hstderr
      simp [bind, Except.bind, hfinal, ↓existsAndEq, hstderr]
    | ok diagnostics =>
    cases htext : fromUtf8 diagnostics with
    | none =>
      simp [bind, Except.bind, pure, Except.pure, classifyCurlCapture, htext, ↓existsAndEq, hstderr,
        isTransientLaunchFailure]
    | some text =>
    cases hsplit : splitCurlResponse printed with
    | error framing =>
      have hfinal := splitCurlResponse_io hsplit
      by_cases hcode : code = some 0
      · simp [bind, Except.bind, pure, Except.pure, classifyCurlCapture, htext, ↓existsAndEq,
          hstdout, hstderr, hsplit, hcode, hfinal]
      · simp [bind, Except.bind, pure, Except.pure, classifyCurlCapture, htext, ↓existsAndEq,
          hstdout, hstderr, hsplit, hcode, transient_curlFailed]
    | ok split =>
      obtain ⟨body, status⟩ := split
      cases status with
      | none =>
        simp [bind, Except.bind, pure, Except.pure, classifyCurlCapture, htext, ↓existsAndEq,
          hstdout, hstderr, hsplit, transient_curlFailed]
      | some status =>
        have hnot : ¬∃ error, classifyCurlCapture ⟨code, printed, diagnostics⟩ apiKey =
            .error error ∧ isTransientLaunchFailure error = true := by
          rintro ⟨error, herror, htransient⟩
          simp only [classifyCurlCapture, htext, hsplit] at herror
          split_ifs at herror
          obtain rfl := Except.error.inj herror
          exact absurd ((transient_curlFailed _ _ _ _).mp htransient).1 (by simp)
        refine iff_of_false hnot ?_
        rintro ⟨_, _, _, _, _, _, ⟨rfl, rfl, rfl⟩, hprinted, -, -, -, hframing⟩
        obtain rfl := Except.ok.inj (hstdout.symm.trans hprinted)
        rw [hsplit] at hframing
        simp at hframing

theorem attempts_spec (curl : ℕ → Launch) (apiKey : String) (remaining attempt : ℕ) :
    ∃ count ≤ remaining,
      (attempts curl apiKey remaining attempt).1 =
        (List.range (count + 1)).map (fun i => curl (attempt + i)) ∧
      (attempts curl apiKey remaining attempt).2 = outcome (curl (attempt + count)) apiKey ∧
      (∀ i < count, LooksUnlaunched (curl (attempt + i))) ∧
      (count < remaining → ¬LooksUnlaunched (curl (attempt + count))) := by
  induction remaining generalizing attempt with
  | zero => exact ⟨0, le_rfl, by simp [attempts], by simp [attempts], by simp, by simp⟩
  | succ remaining ih =>
    rw [attempts]
    have hstop : ¬LooksUnlaunched (curl attempt) → ∃ count ≤ remaining + 1,
        [curl attempt] = (List.range (count + 1)).map (fun i => curl (attempt + i)) ∧
        outcome (curl attempt) apiKey = outcome (curl (attempt + count)) apiKey ∧
        (∀ i < count, LooksUnlaunched (curl (attempt + i))) ∧
        (count < remaining + 1 → ¬LooksUnlaunched (curl (attempt + count))) := by
      intro hno
      exact ⟨0, Nat.zero_le _, by simp, by simp, by simp, fun _ => hno⟩
    cases hresult : outcome (curl attempt) apiKey with
    | ok body =>
      rw [hresult] at hstop
      apply hstop
      rw [← @transient_iff _ apiKey, hresult]
      simp
    | error error =>
      rw [hresult] at hstop
      by_cases htransient : isTransientLaunchFailure error = true
      · obtain ⟨count, hcount, hlaunches, hlast, hbefore, hafter⟩ := ih (attempt + 1)
        simp only [if_pos htransient]
        refine ⟨count + 1, Nat.succ_le_succ hcount, ?_, ?_, ?_, ?_⟩
        · have hshift : (List.range (count + 1)).map (fun i => curl (attempt + 1 + i)) =
              ((List.range (count + 1)).map Nat.succ).map (fun i => curl (attempt + i)) := by
            rw [List.map_map]
            apply List.map_congr_left
            intro i _
            rw [Function.comp_apply, Nat.succ_eq_add_one, Nat.add_assoc, Nat.add_comm 1 i]
          rw [hlaunches, hshift, @List.range_succ_eq_map (count + 1), List.map_cons]
          rfl
        · rw [hlast]
          congr 2
          omega
        · intro i hi
          cases i with
          | zero => exact transient_iff.mp ⟨error, hresult, htransient⟩
          | succ i =>
            have hi' := hbefore i (by omega)
            rwa [show attempt + 1 + i = attempt + (i + 1) by omega] at hi'
        · intro hlt
          have hlast' := hafter (by omega)
          rwa [show attempt + 1 + count = attempt + (count + 1) by omega] at hlast'
      · simp only [if_neg htransient]
        apply hstop
        rw [← @transient_iff _ apiKey, hresult]
        rintro ⟨error', herror, htrue⟩
        obtain rfl := Except.error.inj herror
        exact htransient htrue

theorem not_looksUnlaunched_of_succeeds {body : String} {stderr : Reads}
    (h : Succeeds launch body stderr) : ¬LooksUnlaunched launch := by
  rw [← @transient_iff _ ""]
  rintro ⟨error, herror, htransient⟩
  rcases outcome_succeeds h "" with ⟨-, hlarge⟩ | ⟨-, -, hok⟩ | ⟨-, -, error', herror', hfinal⟩
  · obtain rfl := Except.error.inj (herror.symm.trans hlarge)
    exact absurd htransient (by decide)
  · rw [herror] at hok
    exact absurd hok (by simp)
  · obtain rfl := Except.error.inj (herror.symm.trans herror')
    rw [hfinal] at htransient
    exact absurd htransient (by decide)

end Launches

section Post

structure Delivers (done : List Launch × Except ProviderTransportError String) : Prop where
  bounded : done.1.length ≤ 3
  once : ∀ launch ∈ done.1.dropLast, launch.sent = false
  exact : ∀ launch ∈ done.1, ∀ body stderr, Succeeds launch body stderr →
    done.2 = if body.utf8ByteSize ≤ maxProviderResponseBytes then .ok body
      else .error .responseTooLarge

def curlOf (request : ProviderHttpRequest) (path : String)
    (launch : ℕ → List String → String → Launch) (attempt : ℕ) : Launch :=
  launch attempt (curlArgs ("@" ++ path) request.timeoutSeconds) (curlConfig request)

/-- Launches after which `curl` is launched again have not sent; and where it succeeds, its
diagnostics can be read, unless the body is too large, and the file of the request is removed. -/
structure Harmless (temp : TempBody) (curl : ℕ → Launch) : Prop where
  unsent : ∀ n < 2, (∀ m ≤ n, LooksUnlaunched (curl m)) → (curl n).sent = false
  clean : ∀ n ≤ 2, (∀ m < n, LooksUnlaunched (curl m)) → ∀ body stderr,
    Succeeds (curl n) body stderr → temp.cleanup = .ok () ∧
      (body.utf8ByteSize ≤ maxProviderResponseBytes → Diagnosed stderr)

theorem postJson_made {request : ProviderHttpRequest} {temp : TempBody}
    {launch : ℕ → List String → String → Launch} {path : String}
    (hrequest : validateRequest request = .ok ()) (hcreated : temp.created = .ok path) :
    ∃ count ≤ 2,
      (postJson request temp launch).1 =
        (List.range (count + 1)).map (curlOf request path launch) ∧
      (postJson request temp launch).2 = (match temp.cleanup with
        | .ok () => outcome (curlOf request path launch count) request.apiKey
        | .error error => .error (.io ("provider temp cleanup failed: " ++ error))) ∧
      (∀ i < count, LooksUnlaunched (curlOf request path launch i)) ∧
      (count < 2 → ¬LooksUnlaunched (curlOf request path launch count)) := by
  obtain ⟨count, hcount, hlaunches, hlast, hbefore, hafter⟩ :=
    attempts_spec (curlOf request path launch) request.apiKey 2 0
  simp only [Nat.zero_add] at hlaunches hlast hbefore hafter
  refine ⟨count, hcount, ?_, ?_, hbefore, hafter⟩
  · rw [postJson, hrequest, hcreated, ← hlaunches]
    cases temp.cleanup <;> rfl
  · rw [postJson, hrequest, hcreated, ← hlast]
    cases temp.cleanup <;> rfl

/-- A provider call sends at most once and gives the body back exactly when its launches are
harmless. -/
theorem delivers_iff (request : ProviderHttpRequest) (temp : TempBody)
    (launch : ℕ → List String → String → Launch) :
    Delivers (postJson request temp launch) ↔ ∀ path, validateRequest request = .ok () →
      temp.created = .ok path → Harmless temp (curlOf request path launch) := by
  have hnone : ∀ error, Delivers ([], .error error) :=
    fun error => ⟨by simp, by simp, by simp⟩
  cases hrequest : validateRequest request with
  | error error => simpa [postJson, hrequest] using hnone error
  | ok _ =>
  cases hcreated : temp.created with
  | error reason => simpa [postJson, hrequest, hcreated] using hnone _
  | ok path =>
  obtain ⟨count, hcount, hlaunches, hresult, hbefore, hafter⟩ := postJson_made hrequest hcreated
  simp only [Except.ok.injEq, forall_eq', forall_const]
  generalize curlOf request path launch = curl at *
  generalize postJson request temp launch = done at *
  -- The launches before the last are those after which the loop went on.
  have hearlier : done.1.dropLast = (List.range count).map curl := by
    rw [hlaunches, List.range_succ, List.map_append, List.map_singleton, List.dropLast_concat]
  have hlast : curl count ∈ done.1 := by
    rw [hlaunches]
    exact List.mem_map_of_mem List.self_mem_range_succ
  have hreached : ∀ n ≤ 2, (∀ m < n, LooksUnlaunched (curl m)) → n ≤ count := by
    intro n hn hall
    by_contra hlt
    exact hafter (by omega) (hall count (by omega))
  constructor
  · rintro ⟨-, honce, hexact⟩
    constructor
    · intro n hn hall
      have hlt := hreached (n + 1) (by omega) fun m hm => hall m (by omega)
      apply honce
      rw [hearlier]
      exact List.mem_map_of_mem (List.mem_range.mpr hlt)
    · intro n hn hall body stderr hsucceeds
      have hle := hreached n hn hall
      have hge : ¬n < count := fun hlt =>
        not_looksUnlaunched_of_succeeds hsucceeds (hbefore n hlt)
      obtain rfl : n = count := by omega
      have hanswer := hexact (curl n) hlast body stderr hsucceeds
      rw [hresult] at hanswer
      cases hcleanup : temp.cleanup with
      | error error =>
        rw [hcleanup] at hanswer
        split_ifs at hanswer
        exact absurd (Except.error.inj hanswer) (by simp)
      | ok _ =>
        refine ⟨rfl, fun hsize => ?_⟩
        rw [hcleanup, if_pos hsize] at hanswer
        rcases outcome_succeeds hsucceeds request.apiKey with
          ⟨hlarge, -⟩ | ⟨-, hdiagnosed, -⟩ | ⟨-, -, error, herror, -⟩
        · omega
        · exact hdiagnosed
        · exact absurd (herror.symm.trans hanswer) (by simp)
  · rintro ⟨hunsent, hclean⟩
    constructor
    · rw [hlaunches, List.length_map, List.length_range]
      omega
    · intro sent hsent
      rw [hearlier] at hsent
      obtain ⟨n, hn, rfl⟩ := List.mem_map.mp hsent
      have hlt := List.mem_range.mp hn
      exact hunsent n (by omega) fun m hm => hbefore m (by omega)
    · intro made hmade body stderr hsucceeds
      rw [hlaunches] at hmade
      obtain ⟨n, hn, rfl⟩ := List.mem_map.mp hmade
      have hle := List.mem_range.mp hn
      have hge : ¬n < count := fun hlt =>
        not_looksUnlaunched_of_succeeds hsucceeds (hbefore n hlt)
      obtain rfl : n = count := by omega
      obtain ⟨hcleanup, hdiagnosed⟩ := hclean n hcount hbefore body stderr hsucceeds
      rw [hresult, hcleanup]
      rcases outcome_succeeds hsucceeds request.apiKey with
        ⟨hlarge, houtcome⟩ | ⟨hsize, -, houtcome⟩ | ⟨hsize, hunread, -⟩
      · rw [if_neg (by omega)]
        exact houtcome
      · rw [if_pos hsize]
        exact houtcome
      · exact absurd (hdiagnosed hsize) hunread

def sampleRequest : ProviderHttpRequest :=
  ⟨"https://api.example.com/v1/chat", "Authorization", "Bearer", "key", "\x7b\x7d", 60⟩

def killedAfterSending : ℕ → List String → String → Launch :=
  fun _ _ _ => ⟨true, .exited none [] []⟩

theorem delivers_not_killed :
    ¬Delivers (postJson sampleRequest ⟨.ok "/tmp/body.json", .ok ()⟩ killedAfterSending) := by
  intro h
  have hsent : (postJson sampleRequest ⟨.ok "/tmp/body.json", .ok ()⟩
      killedAfterSending).1.dropLast.map Launch.sent = [true, true] := by decide +kernel
  have hnone := List.map_congr_left fun launch hlaunch => h.once launch hlaunch
  rw [hsent] at hnone
  have htrue : true ∈ List.map (fun _ => false) (postJson sampleRequest
      ⟨.ok "/tmp/body.json", .ok ()⟩ killedAfterSending).1.dropLast := by
    rw [← hnone]
    simp
  obtain ⟨_, -, hfalse⟩ := List.mem_map.mp htrue
  exact absurd hfalse (by decide)

end Post

end AtomVibe.TransportDelivery
