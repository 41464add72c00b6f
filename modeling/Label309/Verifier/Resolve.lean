import Label309.Verifier.CborWalker
import Label309.Verifier.Content

/-!
# Resolving a transaction

The providers are asked in order for the raw bytes of a transaction and for its chain facts.
The bytes are bound to the requested hash before anything is read out of them.
-/
namespace Label309

/-! ## JSON -/

/-- A parsed JSON value. A number is kept as an unsigned word where it is one. -/
inductive JsonValue
  | null
  | bool (b : Bool)
  | unsigned (n : UInt64)
  | number (text : String)
  | string (s : String)
  | array (items : List JsonValue)
  | object (members : List (String × JsonValue))

/-- What the JSON library does: the value of some bytes, and the text of a value. -/
structure JsonPrimitives where
  fromSlice : List UInt8 → Except String JsonValue
  toText : JsonValue → String

namespace JsonValue

def asArray : JsonValue → Option (List JsonValue)
  | .array items => some items
  | _ => none

def asObject : JsonValue → Option (List (String × JsonValue))
  | .object members => some members
  | _ => none

def asStr : JsonValue → Option String
  | .string s => some s
  | _ => none

def asU64 : JsonValue → Option UInt64
  | .unsigned n => some n
  | _ => none

def isNull : JsonValue → Bool
  | .null => true
  | _ => false

end JsonValue

/-- A member of an object. -/
def member (members : List (String × JsonValue)) (key : String) : Option JsonValue :=
  (members.find? fun entry => entry.1 = key).map Prod.snd

/-- A member of a value; what is no object has none. -/
def JsonValue.get (value : JsonValue) (key : String) : Option JsonValue :=
  value.asObject.bind fun members => member members key

/-! ## Outcomes -/

/-- The gateway of the default chain. -/
def koiosMainnetUrl : String := "https://api.koios.rest/api/v1"

/-- The second provider, asked when there is a project id. -/
def blockfrostMainnetHost : String := "https://cardano-mainnet.blockfrost.io/api/v0"

/-- A transaction that is bound to its hash, with the facts that its provider asserts. -/
structure ResolvedTx where
  txCbor : List UInt8
  slices : TxSlices
  confirmationDepth : ℕ
  blockTime : ℕ
  blockSlot : ℕ
  deriving DecidableEq

/-- No provider gave the transaction. -/
structure ResolveFailure where
  code : ErrorCode
  message : String
  deriving DecidableEq

/-- Why one provider gave nothing. -/
inductive ProviderFailure
  | notFound (message : String)
  | unavailable (message : String)
  | integrityMismatch (message : String)
  | deny (message : String)
  deriving DecidableEq

/-- An attempt with a provider, over the fetcher of the run. -/
abbrev Attempt (σ α : Type) := ExceptT ProviderFailure (StateM (GatewayFetcher σ)) α

/-- A rejected host stops the run, any other error only the provider. -/
def classifyOutbound (e : OutboundError) : ProviderFailure :=
  match e with
  | .denyHost .. => .deny e.toText
  | _ => .unavailable e.toText

section Steps
variable {σ α β : Type}

/-- A step that asks nobody. -/
def Attempt.ofExcept (step : Except ProviderFailure α) : Attempt σ α := fun fetcher => (step, fetcher)

/-- A value that must be there. -/
def present (value : Option α) (failure : ProviderFailure) : Attempt σ α :=
  .ofExcept (value.elim (.error failure) .ok)

/-- A condition that must hold. -/
def require (holds : Bool) (failure : ProviderFailure) : Attempt σ Unit :=
  .ofExcept (if holds then .ok () else .error failure)

theorem Attempt.bind_apply (x : Attempt σ α) (f : α → Attempt σ β) (fetcher : GatewayFetcher σ) :
    (x >>= f) fetcher =
      match x fetcher with
      | (.ok a, mid) => f a mid
      | (.error e, mid) => (.error e, mid) := by
  change (match x fetcher with | (r, mid) => ExceptT.bindCont f r mid) = _
  rcases x fetcher with ⟨r, mid⟩
  cases r <;> rfl

theorem Attempt.bind_ok {x : Attempt σ α} {f : α → Attempt σ β} {fetcher mid : GatewayFetcher σ}
    {a : α} (h : x fetcher = (.ok a, mid)) : (x >>= f) fetcher = f a mid := by
  rw [Attempt.bind_apply, h]

end Steps

section Resolve
variable (crypto : VerifierPrimitives) (json : JsonPrimitives) {σ : Type}

/-! ## Calls -/

/-- A call of the run. -/
def fetchCardano (url : String) (opts : FetchOutboundOptions) : Attempt σ FetchOutboundResult :=
  fun fetcher =>
    let (response, fetcher) := wrapFetchOutbound crypto.text fetcher url opts
    (response.mapError classifyOutbound, fetcher)

/-- A request with a JSON body. -/
def jsonPostOptions (body : String) : FetchOutboundOptions :=
  { FetchOutboundOptions.new .post .cardano with
    headers := [("content-type", "application/json"), ("accept", "application/json")]
    body := some body }

/-- A body that is JSON. -/
def parseJson (bytes : List UInt8) : Attempt σ JsonValue :=
  .ofExcept ((json.fromSlice bytes).mapError fun e => .unavailable ("gateway_json_invalid: " ++ e))

/-- A number that fits 32 bits. -/
def requireNonNegativeInt (value : Option JsonValue) (field : String) : Attempt σ ℕ := do
  let n ← present (value.bind JsonValue.asU64)
    (.unavailable ("gateway_field_invalid: " ++ field ++ " (got " ++
      (value.map json.toText).getD "absent" ++ ")"))
  require (n.toNat < 2 ^ 32)
    (.unavailable ("gateway_field_invalid: " ++ field ++ " (out of range)"))
  pure n.toNat

/-- Hex digits, after `0x` too. -/
def hexToBytes (hex : String) : Attempt σ (List UInt8) :=
  let clean :=
    match hex.toList with
    | '0' :: 'x' :: rest => String.ofList rest
    | '0' :: 'X' :: rest => String.ofList rest
    | _ => hex
  .ofExcept ((hexDecode clean).mapError fun e => .unavailable ("invalid hex: " ++ e.display))

/-- What the encoder writes has no prefix. -/
theorem hexToBytes_hexEncode (bytes : List UInt8) :
    hexToBytes (σ := σ) (hexEncode bytes) = .ofExcept (.ok bytes) := by
  have hdigits : ∀ n < 16, hexDigit n ≠ 'x' ∧ hexDigit n ≠ 'X' := by decide
  have hclean : hexToBytes (σ := σ) (hexEncode bytes) =
      .ofExcept ((hexDecode (hexEncode bytes)).mapError fun e =>
        .unavailable ("invalid hex: " ++ e.display)) := by
    rw [hexToBytes]
    cases bytes with
    | nil => rfl
    | cons b bytes =>
        have hsecond := hdigits (b.toNat % 16) (Nat.mod_lt _ (by decide))
        have hlist : (hexEncode (b :: bytes)).toList =
            hexDigit (b.toNat / 16) :: hexDigit (b.toNat % 16) :: (hexEncode bytes).toList := by
          simp [hexEncode]
        split
        · rename_i heq
          rw [hlist, List.cons.injEq, List.cons.injEq] at heq
          exact absurd heq.2.1 hsecond.1
        · rename_i heq
          rw [hlist, List.cons.injEq, List.cons.injEq] at heq
          exact absurd heq.2.1 hsecond.2
        · rfl
  rw [hclean, hexDecode_hexEncode]
  rfl

/-! ## Binding and depth -/

/-- Cut the bytes of a response and bind them to the hash. What cannot be cut is not provably
wrong. -/
def bindFetchedTx (requestedHash txCbor : List UInt8) (provider : String) :
    Except ProviderFailure TxSlices :=
  match sliceTx txCbor with
  | .error e =>
      .error (.unavailable (provider ++ ": fetched tx CBOR is unreadable: " ++ e.display))
  | .ok slices =>
      match bindTransaction ⟨crypto.sealing.sha256, crypto.blake2b256⟩ requestedHash slices.txBody
          slices.auxData with
      | .error e => .error (.integrityMismatch (provider ++ ": " ++ e.message))
      | .ok () => .ok slices

/-- The tip block has depth 1. A tip behind the block is no depth at all. -/
def depthFromHeights (tipHeight txBlockHeight : ℕ) (provider : String) :
    Except ProviderFailure ℕ :=
  if tipHeight < txBlockHeight then
    .error (.unavailable (provider ++ ": inconsistent chain snapshot: tip height " ++
      s!"{tipHeight} is behind the transaction's block height {txBlockHeight}"))
  else .ok (min (tipHeight - txBlockHeight + 1) (2 ^ 32 - 1))

/-- A provider that serves a transaction has it in a block. -/
def servedDepth (depth : ℕ) (provider field : String) : Except ProviderFailure ℕ :=
  if depth < 1 then
    .error (.unavailable (provider ++ ": inconsistent chain snapshot: served " ++ field ++
      s!" {depth} for a transaction the same response reports as on-chain"))
  else .ok depth

/-- The depth that a provider serves in a field, unless the field is absent or null. -/
def depthOr (served : Option JsonValue) (provider field : String) (fromHeights : Attempt σ ℕ) :
    Attempt σ ℕ :=
  match served with
  | some v =>
      if v.isNull then fromHeights
      else do
        let depth ← requireNonNegativeInt json (some v) field
        .ofExcept (servedDepth depth provider field)
  | none => fromHeights

/-! ## Koios -/

/-- The first entry of an answer; no entry is a definitive answer. -/
def koiosFirstEntry (txHash koiosUrl endpoint : String) (value : JsonValue) :
    Attempt σ (List (String × JsonValue)) := do
  let entries ← present value.asArray (.unavailable (endpoint ++ "_not_an_array"))
  let entry ← present entries.head?
    (.notFound ("koios at " ++ koiosUrl ++ " knows no transaction " ++ txHash))
  present entry.asObject (.unavailable (endpoint ++ "_malformed_entry"))

/-- A status that is no answer. -/
def statusFailure (endpoint : String) (status : ℕ) : ProviderFailure :=
  .unavailable (endpoint ++ s!"_{status}")

/-- The height of the chain. -/
def fetchKoiosTipHeight (koiosUrl : String) : Attempt σ ℕ := do
  let tip ← fetchCardano crypto (koiosUrl ++ "/tip")
    { FetchOutboundOptions.new .get .cardano with headers := [("accept", "application/json")] }
  require (tip.status = 200) (statusFailure "koios_tip" tip.status)
  let tipJson ← parseJson json tip.bytes
  let entry ← present ((tipJson.asArray.bind List.head?).bind JsonValue.asObject)
    (.unavailable "koios_tip_empty")
  requireNonNegativeInt json (member entry "block_height") "tip.block_height"

/-- The bytes, then the facts. -/
def resolveViaKoios (txHash : String) (requestedHash : List UInt8) (koiosUrl : String) :
    Attempt σ ResolvedTx := do
  let body := "\x7b\"_tx_hashes\":[\"" ++ txHash ++ "\"]\x7d"
  let cborRes ← fetchCardano crypto (koiosUrl ++ "/tx_cbor") (jsonPostOptions body)
  require (cborRes.status = 200) (statusFailure "koios_tx_cbor" cborRes.status)
  let cborJson ← parseJson json cborRes.bytes
  let cborEntry ← koiosFirstEntry txHash koiosUrl "koios_tx_cbor" cborJson
  let cborField ← present ((member cborEntry "cbor").bind JsonValue.asStr)
    (.unavailable "koios_tx_cbor_missing_cbor_field")
  let txCbor ← hexToBytes cborField
  let slices ← Attempt.ofExcept (bindFetchedTx crypto requestedHash txCbor koiosUrl)
  let infoRes ← fetchCardano crypto (koiosUrl ++ "/tx_info") (jsonPostOptions body)
  require (infoRes.status = 200) (statusFailure "koios_tx_info" infoRes.status)
  let infoJson ← parseJson json infoRes.bytes
  let info ← koiosFirstEntry txHash koiosUrl "koios_tx_info" infoJson
  let confirmationDepth ←
    depthOr json (member info "num_confirmations") koiosUrl "num_confirmations" do
      let txBlockHeight ← requireNonNegativeInt json (member info "block_height") "block_height"
      let tipHeight ← fetchKoiosTipHeight crypto json koiosUrl
      .ofExcept (depthFromHeights tipHeight txBlockHeight koiosUrl)
  let blockTime ← requireNonNegativeInt json (member info "tx_timestamp") "tx_timestamp"
  let blockSlot ← requireNonNegativeInt json (member info "absolute_slot") "absolute_slot"
  pure { txCbor, slices, confirmationDepth, blockTime, blockSlot }

/-! ## Blockfrost -/

/-- A request with the project id. -/
def blockfrostOptions (projectId : String) : FetchOutboundOptions :=
  { FetchOutboundOptions.new .get .cardano with
    headers := [("project_id", projectId), ("accept", "application/json")] }

/-- An answer about the transaction. A 404 is a definitive one. -/
def fetchBlockfrostTx (txHash projectId suffix endpoint : String) : Attempt σ JsonValue := do
  let res ← fetchCardano crypto (blockfrostMainnetHost ++ "/txs/" ++ txHash ++ suffix)
    (blockfrostOptions projectId)
  require (res.status ≠ 404) (.notFound ("blockfrost knows no transaction " ++ txHash))
  require (res.status = 200) (statusFailure endpoint res.status)
  parseJson json res.bytes

/-- The height of the chain at the second provider. -/
def fetchBlockfrostTipHeight (projectId : String) : Attempt σ ℕ := do
  let tip ← fetchCardano crypto (blockfrostMainnetHost ++ "/blocks/latest")
    (blockfrostOptions projectId)
  require (tip.status = 200) (statusFailure "blockfrost_blocks_latest" tip.status)
  let tipJson ← parseJson json tip.bytes
  requireNonNegativeInt json (tipJson.get "height") "tip_height"

/-- The bytes, then the facts. -/
def resolveViaBlockfrost (txHash : String) (requestedHash : List UInt8) (projectId : String) :
    Attempt σ ResolvedTx := do
  let cborJson ← fetchBlockfrostTx crypto json txHash projectId "/cbor" "blockfrost_tx_cbor"
  let cborField ← present ((cborJson.get "cbor").bind JsonValue.asStr)
    (.unavailable "blockfrost_tx_cbor_missing_cbor_field")
  let txCbor ← hexToBytes cborField
  let slices ← Attempt.ofExcept (bindFetchedTx crypto requestedHash txCbor "blockfrost")
  let txJson ← fetchBlockfrostTx crypto json txHash projectId "" "blockfrost_tx"
  let blockTime ← requireNonNegativeInt json (txJson.get "block_time") "block_time"
  let blockSlot ← requireNonNegativeInt json (txJson.get "slot") "slot"
  let confirmationDepth ←
    depthOr json (txJson.get "confirmations") blockfrostMainnetHost "confirmations" do
      let txBlockHeight ← requireNonNegativeInt json (txJson.get "block_height") "block_height"
      let tipHeight ← fetchBlockfrostTipHeight crypto json projectId
      .ofExcept (depthFromHeights tipHeight txBlockHeight "blockfrost")
  pure { txCbor, slices, confirmationDepth, blockTime, blockSlot }

/-! ## The chain -/

/-- The first message of each kind so far. -/
structure ProviderOutcomes where
  integrityMismatch : Option String
  notFound : Option String
  unavailable : Option String

/-- No provider was asked. -/
def ProviderOutcomes.none : ProviderOutcomes := ⟨.none, .none, .none⟩

/-- Take in a failure; a rejected host is final. -/
def ProviderOutcomes.absorb (outcomes : ProviderOutcomes) :
    ProviderFailure → Except ResolveFailure ProviderOutcomes
  | .deny message => .error ⟨.serviceIndependenceViolation, message⟩
  | .notFound m => .ok { outcomes with notFound := outcomes.notFound.or (some m) }
  | .integrityMismatch m =>
      .ok { outcomes with integrityMismatch := outcomes.integrityMismatch.or (some m) }
  | .unavailable m => .ok { outcomes with unavailable := outcomes.unavailable.or (some m) }

/-- The failure when no provider is left. -/
def ProviderOutcomes.failure (outcomes : ProviderOutcomes) : ResolveFailure :=
  match outcomes.integrityMismatch, outcomes.notFound with
  | some message, _ => ⟨.txIntegrityMismatch, message⟩
  | .none, some message => ⟨.txNotFound, message⟩
  | .none, .none =>
      ⟨.providerUnavailable, outcomes.unavailable.getD "no provider was configured"⟩

/-- What a resolution leaves: its result and the fetcher. -/
abbrev Resolved (σ : Type) := Except ResolveFailure ResolvedTx × GatewayFetcher σ

/-- The providers in turn, up to the first that resolves or that is rejected. -/
def resolveProviders : ProviderOutcomes → List (Attempt σ ResolvedTx) → GatewayFetcher σ →
    Resolved σ
  | outcomes, [], fetcher => (.error outcomes.failure, fetcher)
  | outcomes, provider :: providers, fetcher =>
      match provider fetcher with
      | (.ok resolved, fetcher) => (.ok resolved, fetcher)
      | (.error failure, fetcher) =>
          match outcomes.absorb failure with
          | .error terminal => (.error terminal, fetcher)
          | .ok outcomes => resolveProviders outcomes providers fetcher

theorem resolveProviders_of_ok {outcomes : ProviderOutcomes} {provider : Attempt σ ResolvedTx}
    {providers : List (Attempt σ ResolvedTx)} {fetcher last : GatewayFetcher σ}
    {resolved : ResolvedTx} (h : provider fetcher = (.ok resolved, last)) :
    resolveProviders outcomes (provider :: providers) fetcher = (.ok resolved, last) := by
  rw [resolveProviders, h]

/-- The Koios explorers, then Blockfrost when there is a project. An empty chain stays empty. -/
def providerChain (txHash : String) (requestedHash : List UInt8)
    (cardanoGatewayChain : Option (List String)) (blockfrostProjectId : Option String) :
    List (Attempt σ ResolvedTx) :=
  (cardanoGatewayChain.getD [koiosMainnetUrl]).map (resolveViaKoios crypto json txHash requestedHash) ++
    blockfrostProjectId.toList.map (resolveViaBlockfrost crypto json txHash requestedHash)

/-- Resolve a transaction hash. What is no hash of 32 bytes is not found. -/
def resolveCardanoTx (txHash : String) (cardanoGatewayChain : Option (List String))
    (blockfrostProjectId : Option String) (fetcher : GatewayFetcher σ) : Resolved σ :=
  match hexDecode txHash with
  | .error _ =>
      (.error ⟨.txNotFound, "transaction hash " ++ crypto.text.debug txHash ++ " is not hex"⟩,
        fetcher)
  | .ok requestedHash =>
      if requestedHash.length ≠ 32 then
        (.error ⟨.txNotFound, "transaction hash must be 32 bytes (64 hex chars); got " ++
          s!"{requestedHash.length} bytes"⟩, fetcher)
      else
        resolveProviders .none
          (providerChain crypto json txHash requestedHash cardanoGatewayChain blockfrostProjectId)
          fetcher

end Resolve

end Label309
