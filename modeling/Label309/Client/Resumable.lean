import Label309.Client.Http
import Label309.Merkle

/-!
# The chunked upload

A session is created or resumed, its missing chunks are sent, and it is completed. A cancel of the
caller is polled at every step, and a session that is known by then is abandoned.
-/
namespace Label309
open Traced

/-- Sources above this size are uploaded in chunks. -/
def defaultResumableThresholdBytes : UInt64 := 50331648

/-- The chunk size that is asked for. -/
def defaultResumableChunkBytes : UInt64 := 50331648

/-- The attempts for one chunk. -/
def chunkRetryAttempts : ℕ := 3

/-- In milliseconds, as the other durations. -/
def attemptPollInterval : ℕ := 1000

/-- The time for an attempt to settle, in milliseconds. -/
def attemptPollTimeout : ℕ := 600000

/-- How often a completion that lacks chunks is tried again. -/
def completeRetryAttempts : ℕ := 2

/-- The longest sleep between two looks at the cancel token, in milliseconds. -/
def cancelPollSlice : ℕ := 50

/-! ## Inputs and bodies -/

/-- The source of an upload: a file or bytes in memory. -/
inductive ResumableSource
  | path (p : String)
  | bytes (b : List UInt8)

/-- What a caller is told of the progress. -/
structure UploadProgress where
  bytesSent : UInt64
  totalBytes : UInt64
  chunkIndex : UInt32
  chunksTotal : UInt32

/-- The callbacks of the caller act on the state of the host. -/
structure ResumableUploadInput (σ : Type) where
  target : String
  source : ResumableSource
  contentType : Option String
  thresholdBytes : Option UInt64
  chunkBytes : Option UInt64
  resumeSessionId : Option String
  idempotencyKey : Option String
  onProgress : Option (UploadProgress → σ → σ)
  cancel : Option (σ → Bool × σ)
  onSessionCreated : Option (String → σ → σ)

/-- Why one upload was rejected. -/
structure UploadError where
  code : String
  detail : String

/-- The answer for one uploaded blob. -/
inductive UploadEntry
  | success (idx : UInt64) (ok : Bool) (uri sha256 : String) (bytes : UInt64)
  | failure (idx : UInt64) (ok : Bool) (error : UploadError)

structure UploadsResponse where
  uploads : List UploadEntry

/-- A session that was opened, with the grid of the gateway. -/
structure UploadSessionCreated where
  sessionId : String
  chunkBytes : UInt64
  chunkCount : UInt32
  received : List UInt32

/-- The content was stored before. -/
structure UploadSessionDeduplicated where
  uri : String
  sha256 : String
  bytes : UInt64

/-- A session as the gateway reports it. -/
structure UploadSessionStatus where
  sessionId : String
  state : String
  sha256 : String
  totalBytes : UInt64
  chunkBytes : UInt64
  chunkCount : UInt32
  missing : List UInt32
  attemptId : Option String
  uri : Option String

/-- The acknowledgement of one chunk. -/
structure UploadSessionChunkAck where
  index : UInt32
  remaining : UInt32
  complete : Bool

/-- The attempt that a completion reserved. -/
structure UploadAttemptStatus where
  state : String
  sha256 : String
  bytes : UInt64
  uri : Option String
  chargedUsdMicros : Option UInt64
  reason : Option String

/-- Where the content is stored. -/
structure ResumableUploadResult where
  uri : String
  sha256 : Option String
  bytes : Option UInt64
  chargedUsdMicros : Option UInt64
  deduplicated : Bool
  sessionId : Option String

/-- Why an upload failed. -/
inductive ResumableUploadError
  | http (e : ClientError)
  | source (message : String)
  | sourceTruncated (index : UInt32) (offset sourceLen : UInt64)
  | insufficientFunds (e : Label309HttpError)
  | failed (message : String)
  | uploadRejected (error : UploadError)
  | decode (message : String)
  | protocol (message : String)
  | cancelled
  | abandonFailed (sessionId : String) (source : ClientError)

/-- What the JSON library reads of the typed bodies. -/
structure UploadBodies where
  uploads : List UInt8 → Except String UploadsResponse
  created : List UInt8 → Except String UploadSessionCreated
  deduplicated : List UInt8 → Except String UploadSessionDeduplicated
  status : List UInt8 → Except String UploadSessionStatus
  chunkAck : List UInt8 → Except String UploadSessionChunkAck
  attempt : List UInt8 → Except String UploadAttemptStatus

/-- The clock and the files. -/
structure UploadHost (σ : Type) where
  now : σ → ℕ × σ
  sleep : ℕ → σ → σ
  fileLen : String → σ → Except String UInt64 × σ
  fileContents : String → σ → Except String (List UInt8) × σ
  fileRead : String → (offset want : UInt64) → σ → Except String (List UInt8) × σ

/-- The chunks of a session and those that are missing. -/
structure SessionGrid where
  sessionId : String
  chunkBytes : UInt64
  chunkCount : UInt32
  totalBytes : UInt64
  declaredSha256Hex : String
  missing : List UInt32

/-- A session is created, unless the content is there already. -/
inductive CreateOutcome
  | deduplicated (d : UploadSessionDeduplicated)
  | created (c : UploadSessionCreated)

/-! ## Texts -/

/-- A character that a path segment keeps. -/
def isUnreserved (b : UInt8) : Bool :=
  isAsciiAlphanumeric b || (utf8Bytes "-_.!~*'()").contains b

def upperHexDigit (n : ℕ) : Char := if n < 10 then Char.ofNat (48 + n) else Char.ofNat (55 + n)

/-- Percent-encode a segment of a path. -/
def encodePathSegment (segment : String) : String :=
  String.ofList ((utf8Bytes segment).flatMap fun b =>
    if isUnreserved b then [Char.ofNat b.toNat]
    else ['%', upperHexDigit (b.toNat / 16), upperHexDigit (b.toNat % 16)])

def base64Alphabet : List Char :=
  "ABCDEFGHIJKLMNOPQRSTUVWXYZabcdefghijklmnopqrstuvwxyz0123456789+/".toList

def base64Char (n : ℕ) : Char := base64Alphabet.getD (n % 64) 'A'

/-- Standard base64 with padding. -/
def base64Standard : List UInt8 → String
  | [] => ""
  | [a] =>
      let n := a.toNat * 65536
      String.ofList [base64Char (n / 262144), base64Char (n / 4096), '=', '=']
  | [a, b] =>
      let n := a.toNat * 65536 + b.toNat * 256
      String.ofList [base64Char (n / 262144), base64Char (n / 4096), base64Char (n / 64), '=']
  | a :: b :: c :: rest =>
      let n := a.toNat * 65536 + b.toNat * 256 + c.toNat
      String.ofList [base64Char (n / 262144), base64Char (n / 4096), base64Char (n / 64),
        base64Char n] ++ base64Standard rest

example : base64Standard (utf8Bytes "fooba") = "Zm9vYmE=" := by decide

/-- The key of a completion when the caller gives none. -/
def defaultIdempotencyKey (declaredSha256Hex : String) : String :=
  "resumable-" ++ declaredSha256Hex

/-! ## Error classes -/

/-- A client error that no retry can mend. -/
def isTerminalChunkError : ResumableUploadError → Bool
  | .http (.http e) =>
      400 ≤ e.problem.status && e.problem.status < 500 && e.problem.status != 408 &&
        e.problem.status != 429
  | .http _ => false
  | _ => true

/-- The refusal that names missing chunks. -/
def isIncompleteUploadError : ResumableUploadError → Bool
  | .http (.http e) => e.problem.status == 409 && e.problem.code == "incomplete-upload"
  | _ => false

/-! ## The chunk grid -/

/-- The bytes of the first chunks, at most all of them. -/
def chunkSpanBytes (session : SessionGrid) (chunksDone : UInt32) : UInt64 :=
  min (chunksDone.toUInt64 * session.chunkBytes) session.totalBytes

/-- A subtraction that stops at zero. -/
def saturatingSub32 (a b : UInt32) : UInt32 := if b ≤ a then a - b else 0

/-- Subtraction that stops at zero. -/
def saturatingSub64 (a b : UInt64) : UInt64 := if b ≤ a then a - b else 0

/-- An addition that stops at the largest word. -/
def saturatingAdd64 (a b : UInt64) : UInt64 := if a.toNat + b.toNat < 2 ^ 64 then a + b else -1

/-- The next index, or the largest. -/
def saturatingSucc32 (a : UInt32) : UInt32 := if a.toNat + 1 < 2 ^ 32 then a + 1 else a

/-- The bytes of the chunks that a session has. -/
def ackedBytes (session : SessionGrid) : UInt64 :=
  chunkSpanBytes session (saturatingSub32 session.chunkCount (UInt32.ofNat session.missing.length))

section Upload
variable {σ : Type}

/-- A step of the upload. -/
abbrev Upload (σ α : Type) := Program (World σ Exchange) ResumableUploadError α

/-- A step of the host that asks the gateway nothing. -/
def onHost {α : Type} (f : σ → α × σ) : Upload σ α :=
  ofStep fun w => (.ok (f w.host).1, { w with host := (f w.host).2 })

/-- A file operation, with its error under the name of the file. -/
def onFile {α : Type} (path : String) (f : σ → Except String α × σ) : Upload σ α :=
  ofStep fun w =>
    ((f w.host).1.mapError fun e => .source (path ++ ": " ++ e), { w with host := (f w.host).2 })

/-- A call of the gateway, with its error. -/
def viaHttp {α : Type} (m : Program (World σ Exchange) ClientError α) : Upload σ α :=
  mapError .http m

/-- Decode a body, or report its shape. -/
def parseBody {α : Type} (decoder : List UInt8 → Except String α) (body : List UInt8) :
    Upload σ α :=
  match decoder body with
  | .ok value => pure value
  | .error e => throw (.decode e)

section Source
variable (sha256 : List UInt8 → Digest) (host : UploadHost σ)

/-- The size of the source. -/
def sourceLen : ResumableSource → Upload σ UInt64
  | .bytes b => pure (UInt64.ofNat b.length)
  | .path p => onFile p (host.fileLen p)

/-- The whole source. -/
def readSource : ResumableSource → Upload σ (List UInt8)
  | .bytes b => pure b
  | .path p => onFile p (host.fileContents p)

/-- One pass over the source. -/
def streamSha256 : ResumableSource → Upload σ Digest
  | .bytes b => pure (sha256 b)
  | .path p => do
      let contents ← onFile p (host.fileContents p)
      pure (sha256 contents)

/-- The chunk at an index, bounded by the declared total. -/
def readChunk (source : ResumableSource) (index : UInt32) (chunkBytes totalBytes : UInt64) :
    Upload σ (List UInt8) :=
  let offset := index.toUInt64 * chunkBytes
  if totalBytes ≤ offset then pure []
  else
    let want := min (saturatingSub64 totalBytes offset) chunkBytes
    match source with
    | .bytes b =>
        let sourceLen := UInt64.ofNat b.length
        let stop := saturatingAdd64 offset want
        if sourceLen ≤ offset ∨ sourceLen < stop then
          throw (.sourceTruncated index offset sourceLen)
        else pure ((b.drop offset.toNat).take (stop.toNat - offset.toNat))
    | .path p => do
        let sourceLen ← onFile p (host.fileLen p)
        if sourceLen ≤ offset ∨ sourceLen < saturatingAdd64 offset want then
          throw (.sourceTruncated index offset sourceLen)
        let buf ← onFile p (host.fileRead p offset want)
        if buf.length ≠ want.toNat then
          throw (.sourceTruncated index offset
            (saturatingAdd64 offset (UInt64.ofNat buf.length)))
        pure buf

end Source

/-! ## Cancelling -/

/-- Whether the caller asks to stop now. -/
def isCancelled (input : ResumableUploadInput σ) : Upload σ Bool :=
  match input.cancel with
  | none => pure false
  | some poll => onHost poll

/-- Tell the caller, if he listens. -/
def reportProgress (input : ResumableUploadInput σ) (progress : UploadProgress) : Upload σ Unit :=
  match input.onProgress with
  | none => pure ()
  | some cb => onHost fun s => ((), cb progress s)

section Session
variable (json : JsonPrimitives) (bodies : UploadBodies) (sha256 : List UInt8 → Digest)
  (host : UploadHost σ) (config : NamespaceConfig σ) (input : ResumableUploadInput σ)

/-- The address of all sessions. -/
def sessionsUrl : String := config.baseUrl ++ "/poe/uploads/sessions"

/-- The address of one session. -/
def sessionUrl (sessionId : String) : String :=
  config.baseUrl ++ "/poe/uploads/sessions/" ++ encodePathSegment sessionId

/-- A session that is gone already is abandoned. -/
def abandonSession (sessionId : String) : Program (World σ Exchange) ClientError Unit := do
  let response ← sendRaw config (sessionUrl config sessionId) .delete
    (jsonHeaders config.apiKey none) .none
  if response.status = 404 ∨ response.status = 410 then pure ()
  else
    match throwIfNotOk json response with
    | .ok _ => pure ()
    | .error e => throw e

/-- The error of the upload, after a cancelled session is abandoned. -/
def abandonOnCancel {α : Type} (sessionId : String) (err : ResumableUploadError) : Upload σ α :=
  match err with
  | .cancelled =>
      ExceptT.mk (StateT.mk fun w => (exec (abandonSession json config sessionId) w).map fun out =>
        match out.1 with
        | .ok () => (.error .cancelled, out.2)
        | .error source => (.error (.abandonFailed sessionId source), out.2))
  | err => throw err

/-- Abandon the session when a step of the upload is cancelled. -/
def orAbandon {α : Type} (sessionId : String) (m : Upload σ α) : Upload σ α :=
  onOutcome m fun
    | .ok a => pure a
    | .error err => abandonOnCancel json config sessionId err

/-! ## Sessions -/

/-- The members of the body in the order of their keys. -/
def createBody (wholeSha256 : Digest) (totalBytes chunkRequest : UInt64) : JsonValue :=
  .object ([("chunk_bytes", .unsigned chunkRequest)] ++
    (input.contentType.map fun ct => ("content_type", JsonValue.string ct)).toList ++
    [("sha256", .string (hexEncode wholeSha256.val)), ("target", .string input.target),
      ("total_bytes", .unsigned totalBytes)])

/-- Open a session. A status of 200 says that the content is stored. -/
def createSession (wholeSha256 : Digest) (totalBytes chunkRequest : UInt64) :
    Upload σ CreateOutcome := do
  let response ← viaHttp (sendRaw config (sessionsUrl config) .post
    (jsonHeaders config.apiKey none)
    (.json (json.toText (createBody input wholeSha256 totalBytes chunkRequest))))
  if response.status = 402 then throw (.insufficientFunds (parseHttpError json response))
  match throwIfNotOk json response with
  | .error e => throw (.http e)
  | .ok response =>
      if response.status = 200 then do
        let dedup ← parseBody bodies.deduplicated response.body
        pure (.deduplicated dedup)
      else do
        let created ← parseBody bodies.created response.body
        pure (.created created)

/-- Ask for the status of a session. -/
def getStatus (sessionId : String) : Upload σ UploadSessionStatus := do
  let response ← viaHttp (send config json (sessionUrl config sessionId) .get
    (jsonHeaders config.apiKey none) .none)
  parseBody bodies.status response.body

/-! ## Chunks -/

/-- One attempt after another, while the error is transient. -/
def putChunkAttempts (url : String) (index : UInt32) (chunk : List UInt8) :
    (attempts : ℕ) → (lastErr : Option ResumableUploadError) → Upload σ UploadSessionChunkAck
  | 0, lastErr => throw (lastErr.getD (.protocol s!"chunk {index} exhausted its retries"))
  | attempts + 1, _ => do
      if ← isCancelled input then throw .cancelled
      let headers := (jsonHeaders config.apiKey none).filter (fun h => h.1 != "content-type") ++
        [("content-length", toString chunk.length),
          ("digest", "sha-256=" ++ base64Standard (sha256 chunk).val)]
      let response ← viaHttp (sendRaw config url .put headers (.bytes chunk))
      match throwIfNotOk json response with
      | .ok response => parseBody bodies.chunkAck response.body
      | .error e =>
          if isTerminalChunkError (.http e) then throw (.http e)
          putChunkAttempts url index chunk attempts (some (.http e))

/-- Send one chunk, again after a transient failure. -/
def putChunkWithRetry (sessionId : String) (index : UInt32) (chunk : List UInt8) :
    Upload σ UploadSessionChunkAck :=
  putChunkAttempts json bodies sha256 config input
    (sessionUrl config sessionId ++ "/chunks/" ++ toString index) index chunk chunkRetryAttempts
    none

/-- Send the chunks in order. What is acknowledged is carried along. -/
def sendMissingChunks (session : SessionGrid) :
    (missing : List UInt32) → (bytesAcked : UInt64) → Upload σ UInt64
  | [], bytesAcked => pure bytesAcked
  | index :: missing, bytesAcked => do
      if ← isCancelled input then throw .cancelled
      let chunk ← readChunk host input.source index session.chunkBytes session.totalBytes
      let _ ← putChunkWithRetry json bodies sha256 config input session.sessionId index chunk
      let bytesAcked := max (chunkSpanBytes session (saturatingSucc32 index)) bytesAcked
      reportProgress input {
        bytesSent := bytesAcked
        totalBytes := session.totalBytes
        chunkIndex := index
        chunksTotal := session.chunkCount }
      sendMissingChunks session missing bytesAcked

/-! ## Attempts -/

/-- Sleep in slices up to the deadline, unless the caller cancels. -/
def sleepUntil (deadline : ℕ) : (fuel : ℕ) → Upload σ Bool
  | 0 => spent
  | fuel + 1 => do
      if ← isCancelled input then pure false
      else
        let now ← onHost host.now
        if deadline ≤ now then pure true
        else do
          onHost fun s => ((), host.sleep (min cancelPollSlice (deadline - now)) s)
          sleepUntil deadline fuel

/-- Sleep in slices, and say whether the caller cancelled. -/
def interruptibleSleep (fuel total : ℕ) : Upload σ Bool :=
  if input.cancel.isNone then do
    onHost fun s => ((), host.sleep total s)
    pure true
  else do
    let now ← onHost host.now
    sleepUntil host input (now + total) fuel

/-- Poll up to the deadline. -/
def pollUntil (url sessionId attemptId : String) (deadline : ℕ) :
    (fuel : ℕ) → Upload σ ResumableUploadResult
  | 0 => spent
  | fuel + 1 => do
      if ← isCancelled input then throw .cancelled
      let response ← viaHttp (send config json url .get (jsonHeaders config.apiKey none) .none)
      let status ← parseBody bodies.attempt response.body
      if status.state = "committed" then
        match status.uri with
        | none => throw (.protocol "a committed attempt carried no uri")
        | some uri =>
            pure {
              uri := uri
              sha256 := some status.sha256
              bytes := some status.bytes
              chargedUsdMicros := status.chargedUsdMicros
              deduplicated := status.chargedUsdMicros = some 0
              sessionId := some sessionId }
      else if status.state = "released" then
        throw (.failed (status.reason.getD "the upload attempt was released"))
      else do
        let now ← onHost host.now
        if deadline ≤ now then
          throw (.failed ("upload attempt " ++ attemptId ++
            " did not reach a terminal state in time (session " ++ sessionId ++ ")"))
        if ← interruptibleSleep host input (fuel + 1) attemptPollInterval then
          pollUntil url sessionId attemptId deadline fuel
        else throw .cancelled

/-- Poll an attempt until it settles or its time is over. -/
def pollAttempt (fuel : ℕ) (sessionId attemptId : String) : Upload σ ResumableUploadResult := do
  let now ← onHost host.now
  pollUntil json bodies host config input
    (config.baseUrl ++ "/poe/uploads/attempts/" ++ encodePathSegment attemptId) sessionId attemptId
    (now + attemptPollTimeout) fuel

/-- The outcome of a resumed session that needs no chunks. -/
def terminalFromStatus (fuel : ℕ) (status : UploadSessionStatus) :
    Upload σ (Option ResumableUploadResult) :=
  if status.state = "completed" then
    match status.uri with
    | none => throw (.protocol "a completed session carried no uri")
    | some uri =>
        pure (some {
          uri := uri
          sha256 := some status.sha256
          bytes := some status.totalBytes
          chargedUsdMicros := none
          deduplicated := false
          sessionId := some status.sessionId })
  else if status.state = "failed" then
    throw (.failed "the resumed session previously failed its integrity check")
  else if status.state = "expired" then throw (.failed "the resumed session has expired")
  else if status.state = "assembling" then
    match status.attemptId with
    | some attemptId => do
        let done ← pollAttempt json bodies host config input fuel status.sessionId attemptId
        pure (some done)
    | none => pure none
  else pure none

/-! ## Completing -/

/-- Read the body of a completion. -/
def completeBodyToResult (fuel : ℕ) (sessionId : String) (body : List UInt8) :
    Upload σ ResumableUploadResult := do
  let value ← parseBody json.fromSlice body
  match (value.get "uri").bind JsonValue.asStr with
  | some uri =>
      let charged := (value.get "charged_usd_micros").bind JsonValue.asU64
      pure {
        uri := uri
        sha256 := (value.get "sha256").bind JsonValue.asStr
        bytes := (value.get "bytes").bind JsonValue.asU64
        chargedUsdMicros := charged
        deduplicated := charged = some 0
        sessionId := some sessionId }
  | none =>
      match (value.get "attempt_id").bind JsonValue.asStr with
      | some attemptId => pollAttempt json bodies host config input fuel sessionId attemptId
      | none => throw (.protocol "complete returned neither a uri nor an attempt to poll")

/-- One completion after another, with the missing chunks sent again in between. -/
def completeAttempts (fuel : ℕ) (session : SessionGrid) (url : String)
    (headers : List (String × String)) :
    (attempts : ℕ) → (bytesAcked : UInt64) → Upload σ ResumableUploadResult
  | 0, _ =>
      throw (.failed ("session " ++ session.sessionId ++
        " could not be completed after re-sending the missing chunks"))
  | attempts + 1, bytesAcked => do
      if ← isCancelled input then throw .cancelled
      let response ← viaHttp (sendRaw config url .post headers (.json "\x7b\x7d"))
      match throwIfNotOk json response with
      | .ok response =>
          completeBodyToResult json bodies host config input fuel session.sessionId response.body
      | .error e =>
          if isIncompleteUploadError (.http e) = false then throw (.http e)
          let status ← getStatus json bodies config session.sessionId
          if status.missing.isEmpty then
            completeAttempts fuel session url headers attempts bytesAcked
          else do
            let bytesAcked ← sendMissingChunks json bodies sha256 host config input session
              status.missing bytesAcked
            completeAttempts fuel session url headers attempts bytesAcked

/-- Complete a session, with the missing chunks sent again. -/
def completeSession (fuel : ℕ) (session : SessionGrid) (bytesAcked : UInt64) :
    Upload σ ResumableUploadResult :=
  completeAttempts json bodies sha256 host config input fuel session
    (sessionUrl config session.sessionId ++ "/complete")
    (jsonHeaders config.apiKey
      (some (input.idempotencyKey.getD (defaultIdempotencyKey session.declaredSha256Hex))))
    (completeRetryAttempts + 1) bytesAcked

/-! ## The upload -/

/-- Send the chunks of a session and complete it, or abandon it. -/
def driveSession (fuel : ℕ) (session : SessionGrid) : Upload σ ResumableUploadResult := do
  let bytesAcked ← orAbandon json config session.sessionId
    (sendMissingChunks json bodies sha256 host config input session session.missing
      (ackedBytes session))
  orAbandon json config session.sessionId
    (completeSession json bodies sha256 host config input fuel session bytesAcked)

/-- The rest of an upload that resumes a session. -/
def resumeSession (fuel : ℕ) (sid : String) : Upload σ ResumableUploadResult := do
  if ← isCancelled input then throw .cancelled
  let status ← getStatus json bodies config sid
  let done ← orAbandon json config sid
    (terminalFromStatus json bodies host config input fuel status)
  match done with
  | some done => pure done
  | none =>
      driveSession json bodies sha256 host config input fuel {
        sessionId := status.sessionId
        chunkBytes := status.chunkBytes
        chunkCount := status.chunkCount
        totalBytes := status.totalBytes
        declaredSha256Hex := status.sha256
        missing := status.missing }

/-- The rest of an upload that creates a session. -/
def freshSession (fuel : ℕ) : Upload σ ResumableUploadResult := do
  if ← isCancelled input then throw .cancelled
  let totalBytes ← sourceLen host input.source
  let wholeSha256 ← streamSha256 sha256 host input.source
  let outcome ← createSession json bodies config input wholeSha256 totalBytes
    (input.chunkBytes.getD defaultResumableChunkBytes)
  match outcome with
  | .deduplicated dedup =>
      pure {
        uri := dedup.uri
        sha256 := some dedup.sha256
        bytes := some dedup.bytes
        chargedUsdMicros := some 0
        deduplicated := true
        sessionId := none }
  | .created created => do
      match input.onSessionCreated with
      | some cb => onHost fun s => ((), cb created.sessionId s)
      | none => pure ()
      driveSession json bodies sha256 host config input fuel {
        sessionId := created.sessionId
        chunkBytes := created.chunkBytes
        chunkCount := created.chunkCount
        totalBytes := totalBytes
        declaredSha256Hex := hexEncode wholeSha256.val
        missing := ((List.range created.chunkCount.toNat).map UInt32.ofNat).filter fun i =>
          !created.received.contains i }

/-- An upload in chunks, resumed or fresh. -/
def chunked (fuel : ℕ) : Upload σ ResumableUploadResult :=
  match input.resumeSessionId with
  | some sid => resumeSession json bodies sha256 host config input fuel sid
  | none => freshSession json bodies sha256 host config input fuel

/-! ## One request -/

/-- The two fields of the multipart body. -/
def uploadFields (bytes : List UInt8) : List MultipartField :=
  [{ name := "target", filename := none, contentType := none, value := utf8Bytes input.target },
    { name := "file_0", filename := some "file_0.bin"
      contentType := some (input.contentType.getD "application/octet-stream"), value := bytes }]

/-- An upload in one request. -/
def singleShot : Upload σ ResumableUploadResult := do
  if ← isCancelled input then throw .cancelled
  let bytes ← readSource host input.source
  let totalBytes := UInt64.ofNat bytes.length
  let response ← viaHttp (send config json (config.baseUrl ++ "/poe/uploads") .post
    (multipartHeaders config.apiKey input.idempotencyKey)
    (.multipart (uploadFields input bytes)))
  let parsed ← viaHttp (decodeBody bodies.uploads response.body)
  match parsed.uploads with
  | [] => throw (.protocol "the single-shot upload returned no entry")
  | .failure _ _ error :: _ => throw (.uploadRejected error)
  | .success _ _ uri sha256 bytes :: _ => do
      reportProgress input {
        bytesSent := totalBytes
        totalBytes := totalBytes
        chunkIndex := 0
        chunksTotal := 1 }
      pure {
        uri := uri
        sha256 := some sha256
        bytes := some bytes
        chargedUsdMicros := none
        deduplicated := false
        sessionId := none }

/-- A source up to the threshold goes in one request, unless a session is resumed. -/
def uploadResumable (fuel : ℕ) : Upload σ ResumableUploadResult :=
  match input.resumeSessionId with
  | some _ => chunked json bodies sha256 host config input fuel
  | none => do
      let totalBytes ← sourceLen host input.source
      if totalBytes ≤ input.thresholdBytes.getD defaultResumableThresholdBytes then
        singleShot json bodies host config input
      else chunked json bodies sha256 host config input fuel

end Session
end Upload

end Label309
