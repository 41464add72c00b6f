import Label309.Lib.Traced
import Label309.Verifier.Resolve

/-!
# Requests to the gateway

Every request of the client goes through one transport. A response that is no success becomes a
typed error with the problem document of its body.
-/
namespace Label309
open Traced

/-- A field of a form. -/
structure MultipartField where
  name : String
  filename : Option String
  contentType : Option String
  value : List UInt8

/-- The body of a request. -/
inductive RequestBody
  | none
  | json (text : String)
  | multipart (fields : List MultipartField)
  | bytes (b : List UInt8)

/-- The answer to a request. -/
structure ClientResponse where
  status : ℕ
  body : List UInt8
  requestId : Option String
  retryAfterSeconds : Option UInt64

/-- What the client reads of a problem document. -/
structure ProblemDetails where
  type : String
  title : String
  status : ℕ
  detail : String
  code : String
  traceId : String
  instance_ : Option String

/-- An answer that is an error. -/
structure Label309HttpError where
  problem : ProblemDetails
  requestId : String
  retryAfterSeconds : Option UInt64

/-- Why a request of the client failed. -/
inductive ClientError
  | http (e : Label309HttpError)
  | outbound (e : OutboundError)
  | decode (message : String)

/-- The detail, or the title with the status. -/
def ProblemDetails.message (problem : ProblemDetails) : String :=
  if problem.detail.isEmpty then s!"{problem.title} (HTTP {problem.status})" else problem.detail

/-- The text that an error displays. -/
def ClientError.toText : ClientError → String
  | .http e => e.problem.message
  | .outbound e => e.toText
  | .decode message => "failed to parse response body: " ++ message

/-! ## Headers -/

/-- The headers of the caller. -/
def bearerHeaders (apiKey idempotencyKey : Option String) : List (String × String) :=
  (apiKey.map fun key => ("authorization", "Bearer " ++ key)).toList ++
    (idempotencyKey.map fun idem => ("idempotency-key", idem)).toList

/-- The headers of a request with JSON. -/
def jsonHeaders (apiKey idempotencyKey : Option String) : List (String × String) :=
  [("content-type", "application/json"), ("accept", "application/json")] ++
    bearerHeaders apiKey idempotencyKey

/-- The headers of a request with a form. -/
def multipartHeaders (apiKey idempotencyKey : Option String) : List (String × String) :=
  ("accept", "application/json") :: bearerHeaders apiKey idempotencyKey

/-! ## Problems -/

/-- A problem where the gateway gives none. -/
def synthesiseProblem (httpStatus : ℕ) (requestId : Option String) : ProblemDetails where
  type := "about:blank"
  title := s!"HTTP {httpStatus}"
  status := httpStatus
  detail := s!"Server returned HTTP {httpStatus} without a problem+json body."
  code := s!"http-{httpStatus}"
  traceId := requestId.getD ""
  instance_ := none

/-- A body with a code or a title is a problem. Its status is clamped to 16 bits. -/
def toProblemDetails (httpStatus : ℕ) (body : Option JsonValue) (requestId : Option String) :
    ProblemDetails :=
  match body.bind JsonValue.asObject with
  | none => synthesiseProblem httpStatus requestId
  | some obj =>
      let text (key : String) : Option String := (member obj key).bind JsonValue.asStr
      if (text "code").isNone ∧ (text "title").isNone then
        synthesiseProblem httpStatus requestId
      else
        let status := (((member obj "status").bind JsonValue.asU64).map fun s =>
          min s.toNat 65535).getD httpStatus
        { type := (text "type").getD "about:blank"
          title := (text "title").getD s!"HTTP {status}"
          status := status
          detail := (text "detail").getD ""
          code := (text "code").getD s!"http-{status}"
          traceId := ((text "trace_id").or requestId).getD ""
          instance_ := text "instance" }

section Json
variable (json : JsonPrimitives)

/-- No body and a body that is no JSON are nothing. -/
def readJson (body : List UInt8) : Option JsonValue :=
  if body.isEmpty then none else (json.fromSlice body).toOption

/-- The problem that a response reports. -/
def parseHttpError (response : ClientResponse) : Label309HttpError :=
  let problem := toProblemDetails response.status (readJson json response.body) response.requestId
  { problem := problem
    requestId := response.requestId.getD problem.traceId
    retryAfterSeconds := response.retryAfterSeconds }

def isSuccess (status : ℕ) : Bool := 200 ≤ status && status < 300

/-- A response that is no success is an error. -/
def throwIfNotOk (response : ClientResponse) : Except ClientError ClientResponse :=
  if isSuccess response.status then .ok response
  else .error (.http (parseHttpError json response))

end Json

/-! ## Sending -/

/-- A request, with what came back. -/
structure Exchange where
  url : String
  method : HttpMethod
  headers : List (String × String)
  body : RequestBody
  answer : Except OutboundError ClientResponse

/-- Send a request over a state, and what the gateway answers. -/
abbrev ClientTransport (σ : Type) :=
  String → HttpMethod → List (String × String) → RequestBody → σ →
    Except OutboundError ClientResponse × σ

/-- The gateway, the key of the caller and the transport. -/
structure NamespaceConfig (σ : Type) where
  apiKey : Option String
  baseUrl : String
  transport : ClientTransport σ

section Send
variable {σ : Type} (config : NamespaceConfig σ)

/-- The world after a request. -/
def World.afterSend (w : World σ Exchange) (url : String) (method : HttpMethod)
    (headers : List (String × String)) (body : RequestBody) :
    Except OutboundError ClientResponse × World σ Exchange :=
  let (answer, host) := config.transport url method headers body w.host
  (answer, { host := host, log := w.log ++ [⟨url, method, headers, body, answer⟩] })

/-- The response, whatever its status. -/
def sendRaw (url : String) (method : HttpMethod) (headers : List (String × String))
    (body : RequestBody) : Program (World σ Exchange) ClientError ClientResponse :=
  ofStep fun w =>
    let (answer, w) := World.afterSend config w url method headers body
    (answer.mapError .outbound, w)

/-- The response of a success. -/
def send (json : JsonPrimitives) (url : String) (method : HttpMethod)
    (headers : List (String × String)) (body : RequestBody) :
    Program (World σ Exchange) ClientError ClientResponse := do
  let response ← sendRaw config url method headers body
  match throwIfNotOk json response with
  | .ok response => pure response
  | .error e => throw e

/-- A typed body. -/
def decodeBody {α : Type} (decoder : List UInt8 → Except String α) (body : List UInt8) :
    Program (World σ Exchange) ClientError α :=
  match decoder body with
  | .ok value => pure value
  | .error e => throw (.decode e)

end Send

section Answers
variable {σ : Type} {json : JsonPrimitives} {config : NamespaceConfig σ}

/-- One request is sent, and its answer is what comes back. -/
theorem exec_sendRaw {url : String} {method : HttpMethod} {headers : List (String × String)}
    {body : RequestBody} {w w' : World σ Exchange} {r : Except ClientError ClientResponse}
    (hrun : exec (sendRaw config url method headers body) w = some (r, w')) :
    ∃ answer, r = answer.mapError .outbound ∧
      w'.log = w.log ++ [⟨url, method, headers, body, answer⟩] := by
  rw [sendRaw, exec_ofStep, Option.some.injEq, Prod.mk.injEq] at hrun
  exact ⟨_, hrun.1.symm, by rw [← hrun.2]; rfl⟩

theorem throwIfNotOk_cases (response : ClientResponse) :
    isSuccess response.status = true ∧ throwIfNotOk json response = .ok response ∨
      isSuccess response.status ≠ true ∧
        throwIfNotOk json response = .error (.http (parseHttpError json response)) := by
  by_cases hok : isSuccess response.status = true
  · exact .inl ⟨hok, if_pos hok⟩
  · exact .inr ⟨hok, if_neg hok⟩

end Answers

end Label309
