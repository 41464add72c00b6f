import Label309.Lib.Delimited
import Label309.Lib.Redirects
import Label309.Verifier.DenyList
import Label309.Verifier.IpAddress
import Label309.Verifier.RunRequests

/-!
# The gateway transport

The production transport hands a request to an HTTP library, follows a redirect only within the
domain of the host that it asked, and reads no more of a body than its cap. A run over it reaches
the hosts that it asks and the subdomains of these, and the report depends on no other host.
-/
namespace Label309
open Redirects

/-! ## Redirects -/

/-- The most redirects that are followed. -/
def gatewayRedirectMaxHops : ℕ := 3

/-- The hosts that are never asked. -/
def denyHostsDefault : List String := ["localhost", "127.0.0.1"]

/-- The time for a request. -/
def defaultTimeoutMs : ℕ := 10000

/-- The most bytes that are read of a body. -/
def defaultOutboundMaxBytes : UInt64 := 64 * 1024 * 1024

/-- Whether a redirect may be followed. The hops are counted with the original request. -/
def gatewayRedirectAllowed (text : TextPrimitives) (origin : Option String) (target : String)
    (hopCount : ℕ) (callerDenyHosts : List String) : Bool :=
  if gatewayRedirectMaxHops < hopCount then false
  else
    match origin.bind (parseHostname text) with
    | none => false
    | some gwHost =>
        let gwHost := canonicaliseHost text gwHost
        if parseProtocol text target ≠ some "https:" then false
        else
          match parseHostname text target with
          | none => false
          | some targetHost =>
              let targetHost := canonicaliseHost text targetHost
              let sameDomain :=
                targetHost = gwHost || ('.' :: gwHost.toList).isSuffixOf targetHost.toList
              if sameDomain = false then false
              else
                !matchesDenyList text targetHost denyHostsDefault &&
                  !matchesDenyList text targetHost callerDenyHosts

/-- A redirect policy of the HTTP library. It is shown the URLs that came before. -/
inductive RedirectPolicy
  | none
  | custom (follows : Redirects.Policy String)

/-- The hops that a policy follows. -/
def RedirectPolicy.follows : RedirectPolicy → Redirects.Policy String
  | .none => fun _ _ => false
  | .custom follows => follows

/-! ## The HTTP library -/

/-- A resolver that knows one host. -/
structure PinnedResolver where
  host : String
  addr : IpAddr

/-- The one pinned name, and no other. -/
def PinnedResolver.resolve (text : TextPrimitives) (resolver : PinnedResolver) (name : String) :
    Except String IpAddr :=
  let want := text.toLowercase resolver.host
  let got := text.toLowercase name
  if got = want then .ok resolver.addr
  else .error ("PinnedResolver: refused to resolve unexpected host " ++ got)

/-- What a client is built with. -/
structure ClientConfig where
  timeoutMs : ℕ
  redirect : RedirectPolicy
  dnsResolver : Option (String → Except String IpAddr)
  noProxy : Bool

/-- A response: its head, what each read of its body gives, and the time that all of it took. -/
structure ServerResponse where
  status : ℕ
  contentLength : Option UInt64
  reads : List (Except String (List UInt8))
  durationMs : ℕ

/-- What a connection gives, or why it gave nothing. -/
abbrev Connected := Except String ServerResponse

/-- What every URL answers to a request. -/
abbrev HttpNetwork (σ : Type) := FetchOutboundOptions → Redirects.Network String Connected σ

/-- The HTTP library. It connects to the URL of a request and to the targets that its policy lets
it follow, so it cannot tell networks apart that answer alike there. -/
structure HttpClient (σ : Type) where
  buildFailure : ClientConfig → Option String
  send : ClientConfig → HttpNetwork σ → String → FetchOutboundOptions → σ → Connected × σ
  reaches : ∀ config (net net' : HttpNetwork σ) url opts s,
    (∀ chain, Dialled config.redirect.follows url chain → ∀ u ∈ chain, ∀ opts s,
      net opts s u = net' opts s u) →
    send config net url opts s = send config net' url opts s

/-- The client that goes from redirect to redirect. -/
def followingClient (σ : Type) : HttpClient σ where
  buildFailure _ := none
  send config net url opts s :=
    follow config.redirect.follows (net opts) gatewayRedirectMaxHops [] url s
  reaches _ _ _ _ opts s h := follow_congr (fun chain hchain u hu => h chain hchain u hu opts) _ s

/-! ## The transport -/

/-- The body, unless a read fails or the bytes so far and those of the read pass the cap. A read of
nothing is the end. -/
def readBodyCapped (url : String) (maxBytes : UInt64) :
    (out : List UInt8) → List (Except String (List UInt8)) → Except OutboundError (List UInt8)
  | out, [] => .ok out
  | _, .error message :: _ => .error (.transport url message)
  | out, .ok buf :: reads =>
      if buf = [] then .ok out
      else if maxBytes.toNat < out.length + buf.length then
        .error (.bodyTooLarge url maxBytes.toNat)
      else readBodyCapped url maxBytes (out ++ buf) reads

/-- A transport, pinned to an address where the target was checked. -/
structure ReqwestTransport where
  pinned : Option (String × IpAddr)
  denyHosts : List String

namespace ReqwestTransport

/-- A transport without a pin and without a list. -/
def new : ReqwestTransport := ⟨none, []⟩

/-- A transport whose redirects keep from these hosts. -/
def withDenyHosts (denyHosts : List String) : ReqwestTransport := ⟨none, denyHosts⟩

/-- A pinned transport follows nothing. -/
def redirectPolicy (text : TextPrimitives) (transport : ReqwestTransport) : RedirectPolicy :=
  if transport.pinned.isSome then .none
  else
    .custom fun previous target =>
      gatewayRedirectAllowed text previous.head? target previous.length transport.denyHosts

/-- The client of a transport. -/
def buildClient (text : TextPrimitives) (transport : ReqwestTransport) : ClientConfig where
  timeoutMs := defaultTimeoutMs
  redirect := transport.redirectPolicy text
  dnsResolver := transport.pinned.map fun pin => PinnedResolver.resolve text ⟨pin.1, pin.2⟩
  noProxy := transport.pinned.isSome

/-- A declared length over the cap ends the request before its body is read. -/
def receive (url : String) (maxBytes : UInt64) (resp : ServerResponse) :
    Except OutboundError FetchOutboundResult :=
  if resp.contentLength.any fun len => maxBytes < len then
    .error (.bodyTooLarge url maxBytes.toNat)
  else
    (readBodyCapped url maxBytes [] resp.reads).map fun bytes =>
      ⟨resp.status, bytes, resp.durationMs⟩

/-- One request through a client of its own. What arrives is received under the cap of the request,
and neither a client that is not built nor a network that fails has a status. -/
def fetch {σ : Type} (text : TextPrimitives) (client : HttpClient σ) (net : HttpNetwork σ)
    (transport : ReqwestTransport) : FetchTransport σ := fun s url opts =>
  let maxBytes := opts.maxBytes.getD defaultOutboundMaxBytes
  let config := transport.buildClient text
  match client.buildFailure config with
  | some message => (.error (.transport "" message), s)
  | none =>
      match client.send config net url opts s with
      | (.error message, s) => (.error (.transport url message), s)
      | (.ok resp, s) => (receive url maxBytes resp, s)

end ReqwestTransport

/-! ## The domain of a host -/

/-- The host is the gateway's or a subdomain of it: its last labels are the gateway's. -/
def InDomain (gateway host : String) : Prop :=
  gateway.toList.splitOn '.' <:+ host.toList.splitOn '.'

instance (gateway host : String) : Decidable (InDomain gateway host) := by
  unfold InDomain
  infer_instance

/-- What is compared as text is compared by labels. -/
theorem sameDomain_iff (gateway host : String) :
    (host = gateway || ('.' :: gateway.toList).isSuffixOf host.toList) = true ↔
      InDomain gateway host := by
  rw [InDomain, Delimited.splitOn_suffix_iff, Bool.or_eq_true, decide_eq_true_eq,
    List.isSuffixOf_iff_suffix, String.toList_inj]

/-- A target that a request for a URL may be led to: over `https`, in the domain of the host of
the URL, and on neither deny list. -/
structure GatewayHop (text : TextPrimitives) (denyHosts : List String) (url target : String) :
    Prop where
  secure : parseProtocol text target = some "https:"
  sameDomain : ∃ gateway host, parseHostname text url = some gateway ∧
    parseHostname text target = some host ∧
    InDomain (canonicaliseHost text gateway) (canonicaliseHost text host) ∧
    ∀ denied ∈ [denyHostsDefault, denyHosts],
      matchesDenyList text (canonicaliseHost text host) denied = false

section Policy
variable {text : TextPrimitives} {denyHosts : List String}

theorem gatewayRedirectAllowed_iff {url target : String} {hopCount : ℕ} :
    gatewayRedirectAllowed text (some url) target hopCount denyHosts = true ↔
      hopCount ≤ gatewayRedirectMaxHops ∧ GatewayHop text denyHosts url target := by
  rw [gatewayRedirectAllowed, Option.bind_some]
  by_cases hhops : gatewayRedirectMaxHops < hopCount
  · simp [hhops, Nat.not_le.mpr hhops]
  rw [if_neg hhops]
  constructor
  · intro hallowed
    cases hgateway : parseHostname text url with
    | none => simp [hgateway] at hallowed
    | some gateway =>
        rw [hgateway] at hallowed
        dsimp only at hallowed
        by_cases hprotocol : parseProtocol text target = some "https:"
        · rw [if_neg (not_not_intro hprotocol)] at hallowed
          cases hhost : parseHostname text target with
          | none => simp [hhost] at hallowed
          | some host =>
              rw [hhost] at hallowed
              dsimp only at hallowed
              by_cases hsame : (canonicaliseHost text host = canonicaliseHost text gateway ||
                  ('.' :: (canonicaliseHost text gateway).toList).isSuffixOf
                    (canonicaliseHost text host).toList) = true
              · rw [hsame] at hallowed
                simp only [Bool.true_eq_false, if_false, Bool.and_eq_true,
                  Bool.not_eq_true'] at hallowed
                refine ⟨Nat.not_lt.mp hhops, hprotocol, gateway, host, hgateway, hhost,
                  (sameDomain_iff _ _).mp hsame, ?_⟩
                simpa using hallowed
              · rw [Bool.not_eq_true] at hsame
                simp [hsame] at hallowed
        · simp [hprotocol] at hallowed
  · rintro ⟨-, hprotocol, gateway, host, hgateway, hhost, hsame, hdenied⟩
    rw [hgateway, hhost]
    dsimp only
    rw [if_neg (not_not_intro hprotocol), (sameDomain_iff _ _).mpr hsame]
    simpa using hdenied

/-- A gateway client follows only to such targets. -/
theorem gatewayHop_of_follows {url target : String} {previous : List String}
    (hfirst : previous.head? = some url)
    (hfollows : ((ReqwestTransport.withDenyHosts denyHosts).redirectPolicy text).follows previous
      target = true) : GatewayHop text denyHosts url target := by
  have hallowed : gatewayRedirectAllowed text previous.head? target previous.length denyHosts =
      true := hfollows
  rw [hfirst] at hallowed
  exact (gatewayRedirectAllowed_iff.mp hallowed).2

/-- A gateway client that has been led on too often is led no further. -/
theorem length_le_of_follows (previous : List String) (target : String)
    (hfollows : ((ReqwestTransport.withDenyHosts denyHosts).redirectPolicy text).follows previous
      target = true) : previous.length ≤ gatewayRedirectMaxHops := by
  by_contra hlong
  have hhops : gatewayRedirectMaxHops < previous.length := Nat.not_le.mp hlong
  simp [ReqwestTransport.redirectPolicy, ReqwestTransport.withDenyHosts,
    RedirectPolicy.follows, gatewayRedirectAllowed, hhops] at hfollows

/-- A chain of a gateway client stays in the domain of its origin and ends after the cap. -/
theorem granted_of_dialled {url : String} {chain : List String}
    (h : Dialled ((ReqwestTransport.withDenyHosts denyHosts).redirectPolicy text).follows url
      chain) :
    chain.length ≤ gatewayRedirectMaxHops + 1 ∧
      ∀ u ∈ chain, u = url ∨ GatewayHop text denyHosts url u := by
  constructor
  · exact h.length_le length_le_of_follows
  · exact h.granted fun _ _ => gatewayHop_of_follows

end Policy

/-! ## The body -/

/-- The bytes that the reads give up to the end or to the one that fails. -/
def deliveredBytes : List (Except String (List UInt8)) → List UInt8
  | [] => []
  | .error _ :: _ => []
  | .ok buf :: reads => if buf = [] then [] else buf ++ deliveredBytes reads

/-- The failure that ends the reads. -/
def readFailure : List (Except String (List UInt8)) → Option String
  | [] => none
  | .error message :: _ => some message
  | .ok buf :: reads => if buf = [] then none else readFailure reads

/-- What a client makes of the reads, however they cut the body. -/
def cappedBody (url : String) (maxBytes : UInt64) (out : List UInt8)
    (reads : List (Except String (List UInt8))) : Except OutboundError (List UInt8) :=
  if maxBytes.toNat < out.length + (deliveredBytes reads).length then
    .error (.bodyTooLarge url maxBytes.toNat)
  else
    match readFailure reads with
    | some message => .error (.transport url message)
    | none => .ok (out ++ deliveredBytes reads)

theorem readBodyCapped_eq (url : String) (maxBytes : UInt64)
    (reads : List (Except String (List UInt8))) {out : List UInt8}
    (hout : out.length ≤ maxBytes.toNat) :
    readBodyCapped url maxBytes out reads = cappedBody url maxBytes out reads := by
  induction reads generalizing out with
  | nil =>
      rw [cappedBody, if_neg (by simpa [deliveredBytes] using hout)]
      simp [readBodyCapped, readFailure, deliveredBytes]
  | cons read reads ih =>
      cases read with
      | error message =>
          rw [cappedBody, if_neg (by simpa [deliveredBytes] using hout)]
          rfl
      | ok buf =>
          rw [readBodyCapped]
          by_cases hend : buf = []
          · rw [if_pos hend, cappedBody, if_neg (by simpa [deliveredBytes, hend] using hout)]
            simp [readFailure, deliveredBytes, hend]
          · rw [if_neg hend, cappedBody, readFailure, if_neg hend, deliveredBytes, if_neg hend,
              List.length_append]
            by_cases hpast : maxBytes.toNat < out.length + buf.length
            · rw [if_pos hpast, if_pos (by omega)]
            · rw [if_neg hpast, ih (by rw [List.length_append]; omega), cappedBody,
                List.length_append, List.append_assoc, Nat.add_assoc]

/-- The response has more bytes than the cap, or says that it has. -/
def ServerResponse.Exceeds (resp : ServerResponse) (maxBytes : UInt64) : Prop :=
  (∃ len, resp.contentLength = some len ∧ maxBytes < len) ∨
    maxBytes.toNat < (deliveredBytes resp.reads).length

theorem receive_of_exceeds {url : String} {maxBytes : UInt64} {resp : ServerResponse}
    (h : resp.Exceeds maxBytes) :
    ReqwestTransport.receive url maxBytes resp =
      .error (.bodyTooLarge url maxBytes.toNat) := by
  rw [ReqwestTransport.receive]
  by_cases hdeclared : (resp.contentLength.any fun len => maxBytes < len) = true
  · rw [if_pos hdeclared]
  · rw [if_neg hdeclared, readBodyCapped_eq _ _ _ (Nat.zero_le _), cappedBody, if_pos]
    · rfl
    · rcases h with ⟨len, hlen, hlt⟩ | hlt
      · simp [hlen, hlt] at hdeclared
      · rwa [List.length_nil, Nat.zero_add]

theorem receive_of_not_exceeds {url : String} {maxBytes : UInt64} {resp : ServerResponse}
    (h : ¬ resp.Exceeds maxBytes) :
    ReqwestTransport.receive url maxBytes resp =
      match readFailure resp.reads with
      | some message => .error (.transport url message)
      | none => .ok ⟨resp.status, deliveredBytes resp.reads, resp.durationMs⟩ := by
  rw [ServerResponse.Exceeds, not_or] at h
  have hdeclared : ¬ (resp.contentLength.any fun len => maxBytes < len) = true := by
    intro hany
    cases hlength : resp.contentLength with
    | none => simp [hlength] at hany
    | some len => exact h.1 ⟨len, hlength, by simpa [hlength] using hany⟩
  rw [ReqwestTransport.receive, if_neg hdeclared, readBodyCapped_eq _ _ _ (Nat.zero_le _),
    cappedBody, if_neg (by simpa using h.2)]
  cases readFailure resp.reads <;> rfl

section Fetch
variable {σ : Type} {text : TextPrimitives} {client : HttpClient σ} {net : HttpNetwork σ}
  {transport : ReqwestTransport} {url : String} {opts : FetchOutboundOptions}

/-- The cap of a request. -/
def FetchOutboundOptions.cap (opts : FetchOutboundOptions) : UInt64 :=
  opts.maxBytes.getD defaultOutboundMaxBytes

/-- What is returned was received. -/
theorem send_of_fetch_ok {s : σ} {result : FetchOutboundResult}
    (h : (transport.fetch text client net s url opts).1 = .ok result) :
    ∃ resp, client.send (transport.buildClient text) net url opts s =
        (.ok resp, (transport.fetch text client net s url opts).2) ∧
      ReqwestTransport.receive url opts.cap resp = .ok result := by
  rw [ReqwestTransport.fetch] at h ⊢
  cases hbuild : client.buildFailure (transport.buildClient text) with
  | some message =>
      rw [hbuild] at h
      cases h
  | none =>
      rw [hbuild] at h
      dsimp only at h ⊢
      rcases hsend : client.send (transport.buildClient text) net url opts s with ⟨connected, s'⟩
      rw [hsend] at h
      cases connected with
      | error message => cases h
      | ok resp => exact ⟨resp, rfl, h⟩

/-- The result is the whole of a response that the cap admits. -/
structure ReceivedWhole (maxBytes : UInt64) (resp : ServerResponse)
    (result : FetchOutboundResult) : Prop where
  whole : result = ⟨resp.status, deliveredBytes resp.reads, resp.durationMs⟩
  unbroken : readFailure resp.reads = none
  declared : ∀ len, resp.contentLength = some len → len ≤ maxBytes
  capped : result.bytes.length ≤ maxBytes.toNat

theorem receive_eq_ok_iff {maxBytes : UInt64} {resp : ServerResponse}
    {result : FetchOutboundResult} :
    ReqwestTransport.receive url maxBytes resp = .ok result ↔
      ReceivedWhole maxBytes resp result := by
  by_cases hexceeds : resp.Exceeds maxBytes
  · rw [receive_of_exceeds hexceeds]
    constructor
    · intro h
      cases h
    · intro h
      rcases hexceeds with ⟨len, hlen, hlt⟩ | hlt
      · exact absurd hlt (UInt64.not_lt.mpr (h.declared len hlen))
      · have hcapped := h.capped
        rw [h.whole] at hcapped
        exact absurd hlt (Nat.not_lt.mpr hcapped)
  · rw [receive_of_not_exceeds hexceeds]
    rw [ServerResponse.Exceeds, not_or] at hexceeds
    cases hfailure : readFailure resp.reads with
    | some message =>
        constructor
        · intro h
          cases h
        · intro h
          rw [h.unbroken] at hfailure
          cases hfailure
    | none =>
        dsimp only
        constructor
        · intro h
          cases h
          exact ⟨rfl, hfailure, fun len hlen =>
            UInt64.not_lt.mp fun hlt => hexceeds.1 ⟨len, hlen, hlt⟩, Nat.not_lt.mp hexceeds.2⟩
        · intro h
          rw [h.whole]

end Fetch

/-- A gateway that is busy at first, and then cuts its answer in two. -/
def twoReadsNetwork : HttpNetwork ℕ := fun _ calls _ =>
  (.final (if calls = 0 then .ok ⟨503, none, [], 0⟩ else .ok ⟨200, some 3, [.ok [1, 2], .ok [3]], 0⟩),
    calls + 1)

/-- A fetcher that tries once more. -/
def twoReadsFetcher : GatewayFetcher ℕ where
  transport := ReqwestTransport.new.fetch absoluteText (followingClient ℕ) twoReadsNetwork
  config := ⟨[], ⟨1, defaultRetryableStatuses⟩⟩
  state := 0
  audit := []

/-- What a run may connect to: a URL that it may ask, and what a redirect may lead to from there. -/
inductive MayReach (text : TextPrimitives) (input : VerifyTxInput) (checks : PoeRecord → Prop) :
    String → Prop
  | asked {url : String} {opts : FetchOutboundOptions} (hask : MayAsk input checks url opts)
      (hpolicy : ¬ PolicyRejects url opts text input.fetchConfig) :
      MayReach text input checks url
  | redirected {url target : String} {opts : FetchOutboundOptions}
      (hask : MayAsk input checks url opts)
      (hpolicy : ¬ PolicyRejects url opts text input.fetchConfig)
      (hhop : GatewayHop text (input.denyHosts.getD []) url target) :
      MayReach text input checks target

/-- The transport of a run that is given none. -/
def VerifyTxInput.defaultTransport (input : VerifyTxInput) : ReqwestTransport :=
  .withDenyHosts (input.denyHosts.getD [])

section Run
variable {σ : Type} {crypto : VerifierPrimitives} {input : VerifyTxInput}

/-- The record that a run over the default transport checks. -/
abbrev ChecksOver (crypto : VerifierPrimitives) (json : JsonPrimitives) (client : HttpClient σ)
    (net : HttpNetwork σ) (state : σ) (input : VerifyTxInput) : PoeRecord → Prop :=
  ChecksRecord crypto json (input.defaultTransport.fetch crypto.text client net) state input

/-- Networks that agree on what a run may reach are one transport to it. -/
theorem agreeOnRun_of_mayReach {json : JsonPrimitives} (client : HttpClient σ)
    {net net' : HttpNetwork σ} {state : σ}
    (hagree : ∀ u, MayReach crypto.text input (ChecksOver crypto json client net state input) u →
      ∀ opts s, net opts s u = net' opts s u) :
    AgreeOnRun crypto json state input (input.defaultTransport.fetch crypto.text client net)
      (input.defaultTransport.fetch crypto.text client net') := by
  intro s url opts hask hpolicy
  have hsend : client.send (input.defaultTransport.buildClient crypto.text) net url opts s =
      client.send (input.defaultTransport.buildClient crypto.text) net' url opts s := by
    apply client.reaches
    intro chain hchain u hu
    apply hagree
    rcases (granted_of_dialled hchain).2 u hu with rfl | hhop
    · exact .asked hask hpolicy
    · exact .redirected hask hpolicy hhop
  rw [ReqwestTransport.fetch, ReqwestTransport.fetch, hsend]

/-- **No redirect leads a run away.** The report depends on what is answered by the URLs that the
run may ask, those of its providers and of its gateways for the record's own addresses, and by the
hosts of their domains that no deny list names. What any other host would answer changes
nothing. -/
theorem verifyTx_of_agreeOnHosts (json : JsonPrimitives) (client : HttpClient σ)
    {net net' : HttpNetwork σ} (state : σ)
    (hagree : ∀ u, MayReach crypto.text input (ChecksOver crypto json client net state input) u →
      ∀ opts s, net opts s u = net' opts s u) :
    verifyTx crypto json (some (input.defaultTransport.fetch crypto.text client net)) state input =
      verifyTx crypto json (some (input.defaultTransport.fetch crypto.text client net')) state
        input := by
  obtain ⟨report, hrun, hrun'⟩ :=
    exists_report_verifyTx (agreeOnRun_of_mayReach client hagree)
  rw [hrun, hrun']

end Run

/-! ## A redirect into the local network -/

/-- The sample, of which no content is fetched. -/
def luredInput : VerifyTxInput := { publishedInput with fetchContent := false }

/-- An address of the metadata service of a host. -/
def metadataUrl : String := "https://169.254.169.254/latest"

/-- Every host but one sends its clients to that one, which answers as it is told. -/
def luringNetwork (answer : Connected) : HttpNetwork Unit := fun _ state url =>
  (if url = metadataUrl then .final answer else .redirect metadataUrl (.ok ⟨302, none, [], 0⟩),
    state)

theorem not_mayReach_metadataUrl {checks : PoeRecord → Prop} :
    ¬ MayReach absoluteText luredInput checks metadataUrl := by
  intro h
  have hasked {opts : FetchOutboundOptions} {url : String}
      (hask : MayAsk luredInput checks url opts) :
      parseHostname absoluteText url = some "api.koios.rest" := by
    cases hask with
    | koios hprovider hendpoint =>
        rw [List.mem_singleton.mp hprovider]
        rcases List.mem_pair.mp hendpoint with rfl | rfl <;> decide
    | koiosTip hprovider =>
        rw [List.mem_singleton.mp hprovider]
        decide
    | blockfrost hproject hendpoint => cases hproject
    | content hfetch hrecord huri hparse hgateway => cases hfetch
  have hmetadata : parseHostname absoluteText metadataUrl = some "169.254.169.254" := by decide
  cases h with
  | asked hask hpolicy =>
      rw [hasked hask] at hmetadata
      exact absurd hmetadata (by decide)
  | redirected hask hpolicy hhop =>
      obtain ⟨gateway, host, hgateway, hhost, hdomain, -⟩ := hhop.sameDomain
      rw [hasked hask] at hgateway
      rw [hmetadata] at hhost
      cases hgateway
      cases hhost
      exact absurd hdomain (by decide)

/-- The provider sends the run to a host of the local network, and what that one knows never gets
into the report. -/
theorem verifyTx_of_agreeOnHosts_metadata :
    verifyTx publishedCrypto explorerJson
        (some (luredInput.defaultTransport.fetch absoluteText (followingClient Unit)
          (luringNetwork (.ok ⟨200, none, [.ok [107, 101, 121]], 0⟩)))) () luredInput =
      verifyTx publishedCrypto explorerJson
        (some (luredInput.defaultTransport.fetch absoluteText (followingClient Unit)
          (luringNetwork (.error "connection refused")))) () luredInput := by
  refine @verifyTx_of_agreeOnHosts Unit publishedCrypto luredInput explorerJson
    (followingClient Unit) _ _ () ?_
  intro u hreach opts s
  have hne : u ≠ metadataUrl := by
    rintro rfl
    exact not_mayReach_metadataUrl hreach
  rw [luringNetwork, luringNetwork, if_neg hne, if_neg hne]

end Label309
