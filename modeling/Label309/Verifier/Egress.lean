import Label309.Bytes

/-!
# Outbound egress

Every call of the verifier goes through one fetcher, which refuses what its policy forbids,
tries the transport, and writes a row of the audit trail for every try. The transport is any
function of its own state.
-/
namespace Label309

/-- What the standard library does to a text by Unicode tables, and what the URL library reads
of one. -/
structure TextPrimitives where
  toLowercase : String → String
  debug : String → String
  parseUrl : String → Option (String × Option String)

/-! ## Calls -/

/-- What a request is for. -/
inductive HttpPurpose
  | cardano
  | arweave
  | ipfs
  | https
  | webhook
  deriving DecidableEq

inductive HttpMethod
  | get
  | post
  | put
  | delete
  deriving DecidableEq

/-- The options of a request. -/
structure FetchOutboundOptions where
  method : HttpMethod
  purpose : HttpPurpose
  headers : List (String × String)
  body : Option String
  maxBytes : Option UInt64

/-- Options without headers and body. -/
def FetchOutboundOptions.new (method : HttpMethod) (purpose : HttpPurpose) :
    FetchOutboundOptions := ⟨method, purpose, [], none, none⟩

/-- The answer to a request. -/
structure FetchOutboundResult where
  status : ℕ
  bytes : List UInt8
  durationMs : ℕ

/-- A row of the audit trail. -/
structure HttpCallRecord where
  url : String
  method : HttpMethod
  status : Option ℕ
  bytes : ℕ
  durationMs : ℕ
  purpose : HttpPurpose
  deriving DecidableEq

/-- Why a request failed. -/
inductive OutboundError
  | denyHost (host url : String)
  | unsupportedProtocol (protocol url : String)
  | unsupportedMethod (method url : String)
  | bodyTooLarge (url : String) (limitBytes : ℕ)
  | webhookPurposeRejected (url : String)
  | exhausted (url : String) (attempts : ℕ) (lastStatus : Option ℕ) (lastError : Option String)
  | transport (url message : String)
  deriving DecidableEq

/-- The text that an error displays. -/
def OutboundError.toText : OutboundError → String
  | .denyHost host url =>
      "SERVICE_INDEPENDENCE_VIOLATION: host \"" ++ host ++ "\" is in denyHosts (url=" ++ url ++ ")"
  | .unsupportedProtocol protocol url =>
      "UNSUPPORTED_PROTOCOL: \"" ++ protocol ++ "\" not in \x7bhttp:, https:\x7d (url=" ++ url ++ ")"
  | .unsupportedMethod method url =>
      "UNSUPPORTED_METHOD: \"" ++ method ++ "\" not in \x7bGET, POST\x7d (url=" ++ url ++ ")"
  | .bodyTooLarge url limitBytes =>
      s!"OUTBOUND_BODY_TOO_LARGE: response exceeded {limitBytes} bytes (url=" ++ url ++ ")"
  | .webhookPurposeRejected url =>
      "webhook purpose rejected: user-supplied URLs must go through assert_webhook_url_safe " ++
        "plus a pinned connection, not the generic fetch_outbound (url=" ++ url ++ ")"
  | .exhausted url attempts lastStatus _ =>
      s!"OUTBOUND_EXHAUSTED: {attempts} attempts exhausted (url=" ++ url ++ ", lastStatus=" ++
        (lastStatus.map toString).getD "-" ++ ")"
  | .transport url message => "OUTBOUND_TRANSPORT: " ++ message ++ " (url=" ++ url ++ ")"

/-- The rejections that are never retried. -/
def OutboundError.isPreflight : OutboundError → Bool
  | .denyHost .. | .unsupportedProtocol .. | .unsupportedMethod ..
  | .webhookPurposeRejected .. => true
  | _ => false

section Text
variable (text : TextPrimitives)

/-! ## Deny hosts -/

/-- Without its first character, when that is `c`. -/
def stripFirst (c : Char) (h : List Char) : List Char := if h.head? = some c then h.tail else h

/-- Without its last character, when that is `c`. -/
def stripLast (c : Char) (h : List Char) : List Char :=
  if h.getLast? = some c then h.dropLast else h

/-- A host name in lower case, without brackets or a last dot. -/
def canonicaliseHost (host : String) : String :=
  text.toLowercase (String.ofList (stripLast '.' (stripLast ']' (stripFirst '[' host.toList))))

/-- An octet of one to three digits. -/
def isOctet (o : List Char) : Bool := o ≠ [] && o.length ≤ 3 && o.all Char.isDigit

/-- `127.x.x.x`. -/
def isLoopback127 (host : String) : Bool :=
  match host.toList.splitOn '.' with
  | [a, b, c, d] => a = "127".toList && [a, b, c, d].all isOctet
  | _ => false

/-- A host against one pattern, which is canonicalised less than the host is. -/
def matchesPattern (h raw : String) : Bool :=
  let pattern :=
    text.toLowercase (String.ofList (raw.toList.reverse.dropWhile (· = '.')).reverse)
  match pattern.toList with
  | '*' :: '.' :: suffix => ('.' :: suffix).isSuffixOf h.toList
  | _ =>
      h = pattern ||
        pattern = "localhost" && (h = "::1" || h = "0.0.0.0" || h = "169.254.169.254") ||
        pattern = "127.0.0.1" && isLoopback127 h

/-- Some pattern matches the host. -/
def matchesDenyList (host : String) (denyHosts : List String) : Bool :=
  denyHosts.any (matchesPattern text (canonicaliseHost text host))

/-! ## URLs -/

/-- The scheme of an address. -/
def parseProtocol (url : String) : Option String :=
  (text.parseUrl url).map fun parsed => text.toLowercase parsed.1 ++ ":"

/-- The host of an address. -/
def parseHostname (url : String) : Option String := (text.parseUrl url).bind Prod.snd

/-- Only the web is asked. -/
def isAllowedProtocol (url : String) : Bool :=
  parseProtocol text url = some "http:" || parseProtocol text url = some "https:"

end Text

/-! ## The fetcher -/

/-- A network transport. -/
def FetchTransport (σ : Type) : Type :=
  σ → (url : String) → FetchOutboundOptions → Except OutboundError FetchOutboundResult × σ

/-- How often a request is tried. -/
structure RetryConfig where
  retries : UInt32
  retryableStatuses : List ℕ

/-- The statuses that are worth another try. -/
def defaultRetryableStatuses : List ℕ := [502, 503, 504]

/-- The guards around a transport. -/
structure WrapFetchOutboundConfig where
  denyHosts : List String
  retry : RetryConfig

/-- The transport with its state, the policy, and the audit trail so far. -/
structure GatewayFetcher (σ : Type) where
  transport : FetchTransport σ
  state : σ
  config : WrapFetchOutboundConfig
  audit : List HttpCallRecord

/-- A fetcher of a single attempt. -/
def GatewayFetcher.new {σ : Type} (transport : FetchTransport σ) (state : σ)
    (denyHosts : Option (List String)) : GatewayFetcher σ where
  transport := transport
  state := state
  config := { denyHosts := denyHosts.getD [], retry := ⟨0, defaultRetryableStatuses⟩ }
  audit := []

section Fetch
variable {σ : Type}

/-- What a call leaves behind: its result and the fetcher after it. -/
abbrev Fetched (σ : Type) := Except OutboundError FetchOutboundResult × GatewayFetcher σ

/-- One more row of the audit trail. -/
def GatewayFetcher.record (fetcher : GatewayFetcher σ) (row : HttpCallRecord) : GatewayFetcher σ :=
  { fetcher with audit := fetcher.audit ++ [row] }

/-- The row of a rejection before the transport is tried. -/
def preflightRow (url : String) (purpose : HttpPurpose) : HttpCallRecord :=
  ⟨url, .get, none, 0, 0, purpose⟩

/-- The row of a call that got no response. -/
def failedRow (url : String) (opts : FetchOutboundOptions) : HttpCallRecord :=
  ⟨url, opts.method, none, 0, 0, opts.purpose⟩

/-- The audit row of an answer. -/
def resultRow (url : String) (opts : FetchOutboundOptions) (result : FetchOutboundResult) :
    HttpCallRecord :=
  ⟨url, opts.method, some result.status, result.bytes.length, result.durationMs, opts.purpose⟩

/-- The error when no attempt is left. A fetcher of a single attempt returns the transport's. -/
def terminalError (config : RetryConfig) (url : String) (lastStatus : Option ℕ)
    (lastError : Option OutboundError) : OutboundError :=
  let exhausted :=
    OutboundError.exhausted url (config.retries + 1).toNat lastStatus
      (lastError.map OutboundError.toText)
  if config.retries = 0 then lastError.getD exhausted else exhausted

/-- The attempts that are left. The waits between them change nothing that is modelled. -/
def fetchAttempts (url : String) (opts : FetchOutboundOptions) :
    (left : ℕ) → Option ℕ → Option OutboundError → GatewayFetcher σ → Fetched σ
  | 0, lastStatus, lastError, fetcher =>
      (.error (terminalError fetcher.config.retry url lastStatus lastError), fetcher)
  | left + 1, lastStatus, lastError, fetcher =>
      let (response, state) := fetcher.transport fetcher.state url opts
      let fetcher := { fetcher with state := state }
      match response with
      | .ok result =>
          let fetcher := fetcher.record (resultRow url opts result)
          if result.status ∈ fetcher.config.retry.retryableStatuses ∧
              0 < fetcher.config.retry.retries then
            fetchAttempts url opts left (some result.status) lastError fetcher
          else (.ok result, fetcher)
      | .error e =>
          if e.isPreflight then (.error e, fetcher.record (preflightRow url opts.purpose))
          else
            fetchAttempts url opts left lastStatus (some e) (fetcher.record (failedRow url opts))

/-- A call: the policy, then the attempts. -/
def wrapFetchOutbound (text : TextPrimitives) (fetcher : GatewayFetcher σ) (url : String)
    (opts : FetchOutboundOptions) : Fetched σ :=
  if opts.purpose = .webhook then
    (.error (.webhookPurposeRejected url), fetcher.record (preflightRow url .webhook))
  else if isAllowedProtocol text url = false then
    (.error (.unsupportedProtocol ((parseProtocol text url).getD "") url),
      fetcher.record (preflightRow url opts.purpose))
  else
    let host := (parseHostname text url).getD ""
    if fetcher.config.denyHosts ≠ [] ∧ matchesDenyList text host fetcher.config.denyHosts then
      (.error (.denyHost (canonicaliseHost text host) url), fetcher.record (failedRow url opts))
    else fetchAttempts url opts (fetcher.config.retry.retries + 1).toNat none none fetcher

end Fetch

end Label309
