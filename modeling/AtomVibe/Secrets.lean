import Mathlib.Data.List.Sort
import AtomVibe.Hash

namespace AtomVibe.Secrets

open Text Hash

abbrev Span := ℕ × ℕ

def asciiBytes (s : String) : List UInt8 := s.toList.map fun c => UInt8.ofNat c.toNat

def charOf (byte : UInt8) : Char := Char.ofNat byte.toNat

def byteLowercase (byte : UInt8) : UInt8 := if 0x41 ≤ byte && byte ≤ 0x5a then byte + 32 else byte

def isByteAlphanumeric (byte : UInt8) : Bool := isAsciiAlphanumeric (charOf byte)

def isByteWhitespace (byte : UInt8) : Bool :=
  byte == 0x20 || byte == 0x09 || byte == 0x0a || byte == 0x0c || byte == 0x0d

def labelChar (byte : UInt8) : Bool :=
  isByteAlphanumeric byte || charOf byte == '_' || charOf byte == '-'

def credentialChar (byte : UInt8) : Bool :=
  isByteAlphanumeric byte || charOf byte == '_' || charOf byte == '-' || charOf byte == '.'

def base64url (byte : UInt8) : Bool :=
  isByteAlphanumeric byte || charOf byte == '_' || charOf byte == '-'

def jwtChar (byte : UInt8) : Bool := base64url byte || charOf byte == '.'

def isQuote (c : Char) : Bool := c == '"' || c == '\'' || c == (Char.ofNat 0x60)

def assignmentDelimiter (byte : UInt8) : Bool :=
  isByteWhitespace byte || isQuote (charOf byte) ||
    [',', ';', '&', '}', ']', ')'].contains (charOf byte)

def scanForward (p : UInt8 → Bool) (bytes : List UInt8) (index : ℕ) : ℕ :=
  index + ((bytes.drop index).takeWhile p).length

def scanBackward (p : UInt8 → Bool) (bytes : List UInt8) (index : ℕ) : ℕ :=
  index - ((bytes.take index).reverse.takeWhile p).length

def startsWithIgnoreAsciiCase (bytes : List UInt8) (start : ℕ) (needle : String) : Bool :=
  ((bytes.drop start).take needle.length).map byteLowercase == (asciiBytes needle).map byteLowercase

def precededBy (p : UInt8 → Bool) (bytes : List UInt8) (start : ℕ) : Bool :=
  0 < start && (bytes[start - 1]?).any p

def credentialPrefixes : List String :=
  ["sk-", "ghp_", "github_pat_", "xoxb-", "xoxp-", "hf_", "akia", "aiza"]

def collectPrefixedTokens (bytes : List UInt8) : List Span :=
  (List.range bytes.length).filterMap fun start =>
    if precededBy (fun byte => isByteAlphanumeric byte || charOf byte == '_') bytes start then none
    else match credentialPrefixes.find? (startsWithIgnoreAsciiCase bytes start) with
      | none => none
      | some found =>
        let stop := scanForward credentialChar bytes (start + found.length)
        if stop - start > 12 then some (start, stop) else none

def isJwt (token : List UInt8) : Bool :=
  let segments := splitOn (UInt8.ofNat '.'.toNat) token
  segments.length == 3 && 24 ≤ token.length &&
    (asciiBytes "eyJ").isPrefixOf (segments.getD 0 []) &&
    segments.all fun segment => 6 ≤ segment.length && segment.all base64url

def collectJwts (bytes : List UInt8) : ℕ → ℕ → List Span
  | 0, _ => []
  | fuel + 1, start =>
    match bytes[start]? with
    | none => []
    | some byte =>
      if jwtChar byte then
        let stop := scanForward jwtChar bytes start
        (if isJwt ((bytes.drop start).take (stop - start)) then [(start, stop)] else []) ++
          collectJwts bytes fuel stop
      else collectJwts bytes fuel (start + 1)

def collectBearerTokens (bytes : List UInt8) : List Span :=
  (List.range bytes.length).filterMap fun start =>
    if !startsWithIgnoreAsciiCase bytes start "bearer" ||
        precededBy isByteAlphanumeric bytes start then none
    else
      let tokenStart := start + "bearer".length
      if (bytes[tokenStart]?).any isByteAlphanumeric then none
      else
        let tokenStart := scanForward isByteWhitespace bytes tokenStart
        let stop := scanForward credentialChar bytes tokenStart
        if 5 ≤ stop - tokenStart then some (tokenStart, stop) else none

def skipForwardWhitespace (cs : List Char) (index : ℕ) : ℕ :=
  index + utf8Len ((dropBytes index cs).takeWhile isWhitespace)

def skipBackwardLabelSpacing (cs : List Char) (index : ℕ) : ℕ :=
  index - utf8Len ((takeBytes index cs).reverse.takeWhile fun c => isWhitespace c || isQuote c)

def sensitiveLabel (label : String) : Bool :=
  ["api_key", "apikey", "api-key", "x-api-key", "key", "token", "access_token", "access-token",
    "password", "passwd", "secret", "client_secret", "client-secret", "authorization",
    "auth"].contains label

def shouldRedactAssignment (label : String) (candidate : List Char) : Bool :=
  let candidate := trim (String.ofList candidate)
  if candidate.utf8ByteSize < 5 || candidate.toList.all isAsciiDigit ||
      ["none", "null", "false", "true", "example", "placeholder", "redacted"].contains
        (toAsciiLowercase candidate) ||
      startsWith "$\x7b" candidate || startsWith "\x7b\x7b" candidate || startsWith "[" candidate
  then false
  else if label = "key" then 16 ≤ candidate.utf8ByteSize
  else true

def closingQuote (quote : UInt8) (bytes : List UInt8) (start : ℕ) : ℕ → ℕ → ℕ
  | 0, stop => stop
  | fuel + 1, stop =>
    match bytes[stop]? with
    | none => stop
    | some byte =>
      if byte = quote && (stop == start || bytes[stop - 1]? != some (UInt8.ofNat '\\'.toNat)) then stop
      else closingQuote quote bytes start fuel (stop + 1)

def collectAssignments (cs : List Char) (bytes : List UInt8) : List Span :=
  (List.range bytes.length).filterMap fun separator =>
    if !(bytes[separator]?).any (fun byte => charOf byte == '=' || charOf byte == ':') then none
    else
      let labelEnd := skipBackwardLabelSpacing cs separator
      let labelStart := scanBackward labelChar bytes labelEnd
      let label := toAsciiLowercase (String.ofList (slice labelStart labelEnd cs))
      if labelStart = labelEnd || !sensitiveLabel label then none
      else
        let start := skipForwardWhitespace cs (separator + 1)
        let quote := (bytes[start]?).filter fun byte => isQuote (charOf byte)
        let start := if quote.isSome then start + 1 else start
        let start :=
          if startsWithIgnoreAsciiCase bytes start "bearer" then
            skipForwardWhitespace cs (start + "bearer".length)
          else start
        let stop := match quote with
          | some quote => closingQuote quote bytes start (bytes.length + 1) start
          | none => scanForward (fun byte => !assignmentDelimiter byte) bytes start
        if shouldRedactAssignment label (slice start stop cs) then some (start, stop) else none

def mergeSpan (cs : List Char) (merged : List Span) (span : Span) : List Span :=
  if span.2 ≤ span.1 || !isCharBoundary span.1 cs || !isCharBoundary span.2 cs then merged
  else match merged with
    | [] => [span]
    | last :: rest =>
      if span.1 ≤ last.2 then (last.1, max last.2 span.2) :: rest else span :: last :: rest

def credentialSpans (value : String) : List Span :=
  let bytes := asBytes value
  let spans := collectPrefixedTokens bytes ++ collectJwts bytes (bytes.length + 1) 0 ++
    collectBearerTokens bytes ++ collectAssignments value.toList bytes
  let sorted := spans.insertionSort fun s t => s.1 < t.1 ∨ (s.1 = t.1 ∧ s.2 ≤ t.2)
  (sorted.foldl (mergeSpan value.toList) []).reverse

def containsCredentialMaterial (value : String) : Bool := credentialSpans value != []

def redactFrom (cs : List Char) : ℕ → List Span → List Char
  | cursor, [] => dropBytes cursor cs
  | cursor, (start, stop) :: spans =>
    if start < cursor then redactFrom cs cursor spans
    else slice cursor start cs ++ "[REDACTED]".toList ++ redactFrom cs stop spans

def redactSensitiveText (value : String) : String :=
  let spans := credentialSpans value
  if spans = [] then value else String.ofList (redactFrom value.toList 0 spans)

theorem redactSensitiveText_of_clean {value : String}
    (h : containsCredentialMaterial value = false) : redactSensitiveText value = value := by
  have hs : credentialSpans value = [] := by simpa [containsCredentialMaterial] using h
  simp [redactSensitiveText, hs]

example : redactSensitiveText "api_key=secret-value" = "api_key=[REDACTED]" := by decide +kernel

end AtomVibe.Secrets
