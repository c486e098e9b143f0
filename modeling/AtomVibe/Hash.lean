import AtomVibe.Json

namespace AtomVibe.Hash

open Text JsonText PrefixCode

structure State where
  a : UInt32
  b : UInt32
  c : UInt32
  d : UInt32
  e : UInt32
  f : UInt32
  g : UInt32
  h : UInt32
  deriving DecidableEq

def initial : State :=
  ⟨0x6a09e667, 0xbb67ae85, 0x3c6ef372, 0xa54ff53a, 0x510e527f, 0x9b05688c, 0x1f83d9ab, 0x5be0cd19⟩

def round : List UInt32 :=
  [0x428a2f98, 0x71374491, 0xb5c0fbcf, 0xe9b5dba5, 0x3956c25b, 0x59f111f1, 0x923f82a4, 0xab1c5ed5,
    0xd807aa98, 0x12835b01, 0x243185be, 0x550c7dc3, 0x72be5d74, 0x80deb1fe, 0x9bdc06a7, 0xc19bf174,
    0xe49b69c1, 0xefbe4786, 0x0fc19dc6, 0x240ca1cc, 0x2de92c6f, 0x4a7484aa, 0x5cb0a9dc, 0x76f988da,
    0x983e5152, 0xa831c66d, 0xb00327c8, 0xbf597fc7, 0xc6e00bf3, 0xd5a79147, 0x06ca6351, 0x14292967,
    0x27b70a85, 0x2e1b2138, 0x4d2c6dfc, 0x53380d13, 0x650a7354, 0x766a0abb, 0x81c2c92e, 0x92722c85,
    0xa2bfe8a1, 0xa81a664b, 0xc24b8b70, 0xc76c51a3, 0xd192e819, 0xd6990624, 0xf40e3585, 0x106aa070,
    0x19a4c116, 0x1e376c08, 0x2748774c, 0x34b0bcb5, 0x391c0cb3, 0x4ed8aa4a, 0x5b9cca4f, 0x682e6ff3,
    0x748f82ee, 0x78a5636f, 0x84c87814, 0x8cc70208, 0x90befffa, 0xa4506ceb, 0xbef9a3f7, 0xc67178f2]

def rotateRight (x n : UInt32) : UInt32 := (x >>> n) ||| (x <<< (32 - n))

def chunksExact {α : Type} (size : ℕ) : ℕ → List α → List (List α)
  | 0, _ => []
  | count + 1, xs => xs.take size :: chunksExact size count (xs.drop size)

def fromBeBytes (bytes : List UInt8) : UInt32 :=
  bytes.foldl (fun word byte => word <<< 8 ||| byte.toUInt32) 0

def toBeBytes (width n : ℕ) : List UInt8 :=
  (List.range width).reverse.map fun i => UInt8.ofNat (n / 256 ^ i)

def fillSchedule : ℕ → List UInt32 → List UInt32
  | 0, schedule => schedule
  | turns + 1, schedule =>
    let word := fun back => schedule.getD (schedule.length - back) 0
    let s0 := rotateRight (word 15) 7 ^^^ rotateRight (word 15) 18 ^^^ (word 15 >>> 3)
    let s1 := rotateRight (word 2) 17 ^^^ rotateRight (word 2) 19 ^^^ (word 2 >>> 10)
    fillSchedule turns (schedule ++ [word 16 + s0 + word 7 + s1])

def schedule (chunk : List UInt8) : List UInt32 :=
  fillSchedule 48 ((chunksExact 4 16 chunk).map fromBeBytes)

def compressRound (s : State) (constant word : UInt32) : State :=
  let sum1 := rotateRight s.e 6 ^^^ rotateRight s.e 11 ^^^ rotateRight s.e 25
  let choose := (s.e &&& s.f) ^^^ (~~~s.e &&& s.g)
  let temp1 := s.h + sum1 + choose + constant + word
  let sum0 := rotateRight s.a 2 ^^^ rotateRight s.a 13 ^^^ rotateRight s.a 22
  let majority := (s.a &&& s.b) ^^^ (s.a &&& s.c) ^^^ (s.b &&& s.c)
  let temp2 := sum0 + majority
  ⟨temp1 + temp2, s.a, s.b, s.c, s.d + temp1, s.e, s.f, s.g⟩

def compress (s : State) (chunk : List UInt8) : State :=
  let t := (round.zip (schedule chunk)).foldl (fun t kw => compressRound t kw.1 kw.2) s
  ⟨s.a + t.a, s.b + t.b, s.c + t.c, s.d + t.d, s.e + t.e, s.f + t.f, s.g + t.g, s.h + t.h⟩

def padMessage (bytes : List UInt8) : List UInt8 :=
  bytes ++ 0x80 :: List.replicate ((119 - bytes.length % 64) % 64) 0 ++
    toBeBytes 8 (bytes.length * 8 % 2 ^ 64)

def State.words (s : State) : List UInt32 := [s.a, s.b, s.c, s.d, s.e, s.f, s.g, s.h]

def sha256 (bytes : List UInt8) : List UInt8 :=
  let message := padMessage bytes
  let state := (chunksExact 64 (message.length / 64) message).foldl compress initial
  state.words.flatMap fun word => toBeBytes 4 word.toNat

def hexDigit (n : UInt8) : Char := "0123456789abcdef".toList.getD n.toNat '0'

def hexByte (byte : UInt8) : List Char := [hexDigit (byte >>> 4), hexDigit (byte &&& 0x0f)]

def sha256Hex (bytes : List UInt8) : String := String.ofList ((sha256 bytes).flatMap hexByte)

def sha256Tagged (bytes : List UInt8) : String := "sha256:" ++ sha256Hex bytes

def asBytes (value : String) : List UInt8 := value.toByteArray.data.toList

def validSha256Tag (value : String) : Bool :=
  value.utf8ByteSize == "sha256:".utf8ByteSize + 64 && startsWith "sha256:" value &&
    (value.toList.drop "sha256:".length).all isAsciiHexdigit

example : sha256Hex (asBytes "abc") =
    "ba7816bf8f01cfea414140de5dae2223b00361a396177a9cb410ff61f20015ad" := by
  decide +kernel

theorem asBytes_injective : Function.Injective asBytes := by
  intro s t h
  rw [← String.toByteArray_inj]
  exact ByteArray.ext (Array.toList_inj.mp h)

theorem length_sha256 (bytes : List UInt8) : (sha256 bytes).length = 32 := by
  simp [sha256, State.words, toBeBytes]

def isLowerHex (c : Char) : Bool := isAsciiDigit c || ('a' ≤ c && c ≤ 'f')

theorem isLowerHex_hexDigit (n : UInt8) : isLowerHex (hexDigit n) = true := by
  by_cases hn : n.toNat < 16
  · have h : ∀ k < 16, isLowerHex ("0123456789abcdef".toList.getD k '0') = true := by decide
    exact h n.toNat hn
  · have h : hexDigit n = '0' := by
      rw [hexDigit, List.getD_eq_getElem?_getD, List.getElem?_eq_none (by simpa using hn)]
      rfl
    rw [h]
    decide

theorem isLowerHex_sha256Hex {bytes : List UInt8} {c : Char}
    (h : c ∈ (sha256Hex bytes).toList) : isLowerHex c = true := by
  simp only [sha256Hex, hexByte, String.toList_ofList, List.mem_flatMap, List.mem_cons,
    List.not_mem_nil, or_false] at h
  obtain ⟨byte, -, rfl | rfl⟩ := h
  · exact isLowerHex_hexDigit (byte >>> 4)
  · exact isLowerHex_hexDigit (byte &&& 0x0f)

theorem selfDelimiting_hexByte : SelfDelimiting hexByte := by
  intro a b s t h
  simp only [hexByte, List.cons_append, List.nil_append, List.cons.injEq] at h
  obtain ⟨hhi, hlo, hst⟩ := h
  refine ⟨?_, hst⟩
  have hdigit : ∀ i < 16, ∀ j < 16, "0123456789abcdef".toList.getD i '0' =
      "0123456789abcdef".toList.getD j '0' → i = j := by decide +kernel
  have hnibble : ∀ n < 256, (UInt8.ofNat n >>> 4).toNat < 16 ∧ (UInt8.ofNat n &&& 0x0f).toNat < 16 ∧
      (UInt8.ofNat n >>> 4).toNat * 16 + (UInt8.ofNat n &&& 0x0f).toNat = n := by decide +kernel
  have ha := hnibble a.toNat a.toNat_lt
  have hb := hnibble b.toNat b.toNat_lt
  rw [UInt8.ofNat_toNat] at ha hb
  have h1 := hdigit _ ha.1 _ hb.1 hhi
  have h2 := hdigit _ ha.2.1 _ hb.2.1 hlo
  exact UInt8.toNat_inj.mp (by rw [← ha.2.2, ← hb.2.2, h1, h2])

theorem sha256Hex_inj {xs ys : List UInt8} : sha256Hex xs = sha256Hex ys ↔ sha256 xs = sha256 ys := by
  refine ⟨fun h => ?_, fun h => by rw [sha256Hex, h, sha256Hex]⟩
  exact selfDelimiting_hexByte.flatMap_injective (fun byte => by simp [hexByte])
    (String.ofList_injective h)

theorem toList_sha256Tagged (bytes : List UInt8) :
    (sha256Tagged bytes).toList = "sha256:".toList ++ (sha256Hex bytes).toList := by
  simp [sha256Tagged]

theorem sha256Tagged_inj {xs ys : List UInt8} :
    sha256Tagged xs = sha256Tagged ys ↔ sha256 xs = sha256 ys := by
  rw [← sha256Hex_inj, ← String.toList_inj, toList_sha256Tagged, toList_sha256Tagged,
    List.append_cancel_left_eq, String.toList_inj]

theorem length_sha256Hex (bytes : List UInt8) : (sha256Hex bytes).toList.length = 64 := by
  simp [sha256Hex, hexByte, List.length_flatMap, length_sha256]

theorem utf8Size_of_isLowerHex {c : Char} (h : isLowerHex c = true) : c.utf8Size = 1 := by
  have hle : c.toNat ≤ 127 := by
    simp only [isLowerHex, isAsciiDigit, Bool.or_eq_true, Bool.and_eq_true,
      decide_eq_true_eq, Char.le_def] at h
    rcases h with ⟨-, h⟩ | ⟨-, h⟩
    · exact le_trans (UInt32.le_iff_toNat_le.mp h) (by decide)
    · exact le_trans (UInt32.le_iff_toNat_le.mp h) (by decide)
  exact Char.utf8Size_eq_one_iff.mpr (UInt32.le_iff_toNat_le.mpr hle)

theorem utf8Len_of_isLowerHex {cs : List Char} (h : ∀ c ∈ cs, isLowerHex c = true) :
    utf8Len cs = cs.length := by
  induction cs with
  | nil => rfl
  | cons c cs ih =>
    simp only [utf8Len, List.map_cons, List.sum_cons, List.length_cons] at ih ⊢
    rw [ih fun d hd => h d (List.mem_cons_of_mem _ hd),
      utf8Size_of_isLowerHex (h c List.mem_cons_self)]
    omega

theorem isAsciiHexdigit_of_isLowerHex {c : Char} (h : isLowerHex c = true) :
    isAsciiHexdigit c = true := by
  simp only [isLowerHex, Bool.or_eq_true] at h
  simp only [isAsciiHexdigit, Bool.or_eq_true]
  exact .inl h

theorem utf8ByteSize_sha256Hex (bytes : List UInt8) : (sha256Hex bytes).utf8ByteSize = 64 := by
  rw [utf8ByteSize_eq, utf8Len_of_isLowerHex fun _ hc => isLowerHex_sha256Hex hc,
    length_sha256Hex]

theorem all_isAsciiHexdigit_sha256Hex (bytes : List UInt8) :
    (sha256Hex bytes).toList.all isAsciiHexdigit = true :=
  List.all_eq_true.mpr fun _ hc => isAsciiHexdigit_of_isLowerHex (isLowerHex_sha256Hex hc)

theorem validSha256Tag_sha256Tagged (bytes : List UInt8) :
    validSha256Tag (sha256Tagged bytes) = true := by
  have hsize : (sha256Tagged bytes).utf8ByteSize = "sha256:".utf8ByteSize + 64 := by
    rw [sha256Tagged, String.utf8ByteSize_append, utf8ByteSize_sha256Hex]
  have hinit : startsWith "sha256:" (sha256Tagged bytes) = true := by
    rw [startsWith, toList_sha256Tagged]
    exact List.isPrefixOf_iff_prefix.mpr (List.prefix_append _ _)
  have hdrop : (sha256Tagged bytes).toList.drop "sha256:".length = (sha256Hex bytes).toList := by
    rw [toList_sha256Tagged]
    exact List.drop_left
  simp only [validSha256Tag, hsize, hinit, hdrop, beq_self_eq_true, Bool.and_true, Bool.true_and]
  exact all_isAsciiHexdigit_sha256Hex bytes

theorem lossy_of_isAsciiHexdigit {c : Char} (h : isAsciiHexdigit c = true) : lossy c = false := by
  simp only [isAsciiHexdigit, isAsciiDigit, Bool.or_eq_true, Bool.and_eq_true,
    decide_eq_true_eq] at h
  rcases h with (⟨h1, h2⟩ | ⟨h1, h2⟩) | ⟨h1, h2⟩
  · exact lossy_of_between h1 h2 (by decide)
  · exact lossy_of_between h1 h2 (by decide)
  · exact lossy_of_between h1 h2 (by decide)

theorem lossless_of_validSha256Tag {value : String} (h : validSha256Tag value = true) :
    Lossless value := by
  simp only [validSha256Tag, Bool.and_eq_true, startsWith] at h
  obtain ⟨⟨-, hinit⟩, hhex⟩ := h
  obtain ⟨rest, hrest⟩ := List.isPrefixOf_iff_prefix.mp hinit
  have hdrop : value.toList.drop "sha256:".length = rest := by
    rw [← hrest]
    exact List.drop_left
  rw [hdrop] at hhex
  intro c hc
  rw [← hrest] at hc
  rcases List.mem_append.mp hc with hc | hc
  · exact (show Lossless "sha256:" by decide) c hc
  · exact lossy_of_isAsciiHexdigit (List.all_eq_true.mp hhex c hc)

theorem lossless_sha256Tagged (bytes : List UInt8) : Lossless (sha256Tagged bytes) :=
  lossless_of_validSha256Tag (validSha256Tag_sha256Tagged bytes)

end AtomVibe.Hash
