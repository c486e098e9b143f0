import AtomVibe.Foundations.Searches
import AtomVibe.ProviderCall

namespace AtomVibe.ProviderTransport

open Text Hash Secrets Provider LastMarker

def maxCurlStderrBytes : ℕ := 64 * 1024

def statusMarker : String := "\n__MATH_ATOMS_HTTP_STATUS__:"

abbrev Reads := List (Except String (List UInt8))

def readBoundedStream (limit : ℕ) :
    List UInt8 → Reads → Except ProviderTransportError (List UInt8)
  | bytes, [] => .ok bytes
  | _, .error reason :: _ => .error (.io reason)
  | bytes, .ok chunk :: reads =>
    if chunk = [] then .ok bytes
    else if limit < bytes.length + chunk.length then .error .responseTooLarge
    else readBoundedStream limit (bytes ++ chunk) reads

inductive CurlEnd
  /-- The process did not start, did not take its configuration or could not be waited for. -/
  | failed (reason : String)
  /-- A process killed by a signal has no code. -/
  | exited (code : Option Int32) (stdout stderr : Reads)

structure Launch where
  /-- The request may have gone out, whatever the end of the process looks like. -/
  sent : Bool
  ended : CurlEnd

structure CurlCapture where
  code : Option Int32
  stdout : List UInt8
  stderr : List UInt8

def runCurl : CurlEnd → Except ProviderTransportError CurlCapture
  | .failed reason => .error (.io reason)
  | .exited code stdout stderr => do
    let stdout ← readBoundedStream (maxProviderResponseBytes + statusMarker.utf8ByteSize + 3) []
      stdout
    let stderr ← readBoundedStream maxCurlStderrBytes [] stderr
    return ⟨code, stdout, stderr⟩

def fromUtf8 (bytes : List UInt8) : Option String := String.fromUTF8? ⟨bytes.toArray⟩

def parseU16 (s : String) : Option UInt16 :=
  (parseU64 s).bind fun n => if n.toNat < UInt16.size then some (UInt16.ofNat n.toNat) else none

def splitCurlResponse (stdout : List UInt8) :
    Except ProviderTransportError (String × Option UInt16) :=
  match fromUtf8 stdout with
  | none => .error (.io "provider response was not valid UTF-8")
  | some stdout =>
    match splitLast statusMarker.toList stdout.toList with
    | none => .error (.io "curl response omitted the HTTP status marker")
    | some (body, status) =>
      .ok (String.ofList body, (parseU16 (trim (String.ofList status))).filter fun value =>
        100 ≤ value && value ≤ 599)

def replaceSub (pattern new : List Char) : ℕ → List Char → List Char
  | 0, cs => cs
  | fuel + 1, cs =>
    match findSub pattern cs with
    | some (before, after) => before ++ new ++ replaceSub pattern new fuel after
    | none => cs

def floorBoundary (cs : List Char) : ℕ → ℕ
  | 0 => 0
  | stop + 1 => if isCharBoundary (stop + 1) cs then stop + 1 else floorBoundary cs stop

def safeDiagnostic (body apiKey : String) : String :=
  let exact := if apiKey = "" then body
    else String.ofList (replaceSub apiKey.toList "[REDACTED]".toList body.length body.toList)
  let redacted := redactSensitiveText exact
  if redacted.utf8ByteSize ≤ 700 then redacted
  else String.ofList (takeBytes (floorBoundary redacted.toList 700) redacted.toList) ++ "..."

def classifyCurlCapture (capture : CurlCapture) (apiKey : String) :
    Except ProviderTransportError String :=
  match fromUtf8 capture.stderr with
  | none => .error (.io "curl stderr was not valid UTF-8")
  | some stderr =>
    match splitCurlResponse capture.stdout with
    | .ok (body, httpStatus) =>
      if capture.code ≠ some 0 ∨ ¬httpStatus.any (fun value => 200 ≤ value && value ≤ 299) then
        .error (.curlFailed capture.code httpStatus (safeDiagnostic stderr apiKey)
          (safeDiagnostic body apiKey))
      else .ok body
    | .error framing =>
      if capture.code ≠ some 0 then
        .error (.curlFailed capture.code none (safeDiagnostic stderr apiKey) "")
      else .error framing

def isTransientLaunchFailure : ProviderTransportError → Bool
  | .curlFailed none none _ _ => true
  | .curlFailed (some code) none _ _ => !(1 ≤ code && code ≤ 99)
  | _ => false

def outcome (launch : Launch) (apiKey : String) : Except ProviderTransportError String := do
  let capture ← runCurl launch.ended
  classifyCurlCapture capture apiKey

def attempts (curl : ℕ → Launch) (apiKey : String) :
    ℕ → ℕ → List Launch × Except ProviderTransportError String
  | 0, attempt => ([curl attempt], outcome (curl attempt) apiKey)
  | remaining + 1, attempt =>
    match outcome (curl attempt) apiKey with
    | .ok body => ([curl attempt], .ok body)
    | .error error =>
      if isTransientLaunchFailure error then
        let later := attempts curl apiKey remaining (attempt + 1)
        (curl attempt :: later.1, later.2)
      else ([curl attempt], .error error)

def validateCurlField (value : String) : Except ProviderTransportError Unit :=
  if value.toList.any isControl then
    .error (.io "provider transport field contains control characters")
  else .ok ()

def curlEscape (input : String) : String :=
  String.ofList (input.toList.flatMap fun c =>
    if c = '\\' then ['\\', '\\'] else if c = '"' then ['\\', '"'] else [c])

def curlConfig (request : ProviderHttpRequest) : String :=
  let authValue := if isBlank request.authScheme then request.apiKey
    else trim request.authScheme ++ " " ++ request.apiKey
  "url = \"" ++ curlEscape request.endpoint ++ "\"\nrequest = \"POST\"\nheader = \"" ++
    curlEscape request.authHeader ++ ": " ++ curlEscape authValue ++
    "\"\nheader = \"Content-Type: application/json\"\n"

def curlArgs (bodyArg : String) (timeoutSeconds : UInt64) : List String :=
  ["--silent", "--show-error", "--fail-with-body", "--connect-timeout", "10", "--max-time",
    timeoutSeconds.toNat.repr, "--write-out", statusMarker ++ "%\x7bhttp_code\x7d", "--config", "-",
    "--data-binary", bodyArg]

structure TempBody where
  created : Except String String
  cleanup : Except String Unit

def validateRequest (request : ProviderHttpRequest) : Except ProviderTransportError Unit := do
  if maxProviderResponseBytes < request.bodyJson.utf8ByteSize then .error .responseTooLarge
  validateCurlField request.endpoint
  validateCurlField request.authHeader
  validateCurlField request.authScheme
  validateCurlField request.apiKey

/-- The launches of `curl`, and what comes of them. `launch` is what the process does with its
arguments and its configuration at each attempt. -/
def postJson (request : ProviderHttpRequest) (temp : TempBody)
    (launch : ℕ → List String → String → Launch) :
    List Launch × Except ProviderTransportError String :=
  match validateRequest request with
  | .error error => ([], .error error)
  | .ok () =>
    match temp.created with
    | .error reason => ([], .error (.io reason))
    | .ok path =>
      let done := attempts
        (fun attempt => launch attempt (curlArgs ("@" ++ path) request.timeoutSeconds)
          (curlConfig request)) request.apiKey 2 0
      match temp.cleanup with
      | .ok () => done
      | .error error => (done.1, .error (.io ("provider temp cleanup failed: " ++ error)))

end AtomVibe.ProviderTransport
