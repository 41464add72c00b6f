import Label309.PoeStandard.Uri
import Label309.SealedPoe.Passphrase
import Label309.Cose
import Label309.Lib.Lowercase
import Label309.Verifier.Egress
import Label309.Verifier.Types

/-!
# Content acquisition

The sources of a claim are walked in order: bytes handed in by the caller, then every URI
against the gateways of its scheme. A blob knows whether its bytes are bound to the content
address that they were fetched under, which decides whom a mismatch is held against.
-/
namespace Label309

/-- Everything that the verifier takes from outside. -/
structure VerifierPrimitives where
  text : TextPrimitives
  unicode : Lowercase.CasePair
  blake2b256 : List UInt8 → FixedBytes 32
  sealing : SealedPrimitives
  kdf : PassphrasePrimitives
  signing : SignaturePrimitives

/-- A text was cut inside a character. -/
inductive VerifierPanic
  | charBoundary
  deriving DecidableEq

/-! ## Content identifiers -/

namespace Content

/-- Read a varint with its bytes least significant first, at most five of them. -/
def readVarintFrom : UInt64 → ℕ → ℕ → List UInt8 → Option (UInt64 × ℕ)
  | _, _, _, [] => none
  | value, shift, i, b :: rest =>
      if 28 < shift then none
      else
        let value := value ||| ((b &&& 0x7f).toUInt64 <<< UInt64.ofNat shift)
        if b &&& 0x80 = 0 then some (value, i + 1)
        else readVarintFrom value (shift + 7) (i + 1) rest

/-- A variable-length integer from this index on. -/
def readVarint (bytes : List UInt8) (start : ℕ) : Option (UInt64 × ℕ) :=
  readVarintFrom 0 0 start (bytes.drop start)

/-- Consume five bits a digit, emitting a byte whenever eight are buffered. The bits that are
left must be zero. -/
def base32Digits : (buffer : UInt64) → (bits : ℕ) → List UInt8 → Option (List UInt8)
  | buffer, bits, [] =>
      if 0 < bits ∧ buffer &&& ((1 <<< UInt64.ofNat bits) - 1) ≠ 0 then none else some []
  | buffer, bits, ch :: rest => do
      let value ← (utf8Bytes "abcdefghijklmnopqrstuvwxyz234567").idxOf? ch
      let buffer := (buffer <<< 5) ||| UInt64.ofNat value
      if 8 ≤ bits + 5 then
        let out ← base32Digits buffer (bits + 5 - 8) rest
        some ((buffer >>> UInt64.ofNat (bits + 5 - 8)).toUInt8 :: out)
      else base32Digits buffer (bits + 5) rest

/-- Decode base32 without padding. -/
def decodeBase32Lower (s : List UInt8) : Option (List UInt8) := base32Digits 0 0 s

/-- A lower-case hexadecimal digit. -/
def lowerHexDigit (b : UInt8) : Option UInt8 :=
  if 48 ≤ b ∧ b ≤ 57 then some (b - 48)
  else if 97 ≤ b ∧ b ≤ 102 then some (b - 97 + 10)
  else none

def base16Pairs : List UInt8 → Option (List UInt8)
  | hi :: lo :: rest => do
      let h ← lowerHexDigit hi
      let l ← lowerHexDigit lo
      let out ← base16Pairs rest
      some (((h <<< 4) ||| l) :: out)
  | _ => some []

/-- Decode pairs of lower-case digits. -/
def decodeBase16Lower (s : List UInt8) : Option (List UInt8) :=
  if s.length % 2 ≠ 0 then none else base16Pairs s

/-- The bytes of a 32-bit carry, the least significant first and none for zero. -/
def pushCarry : (bytes : ℕ) → (carry : ℕ) → List UInt8
  | 0, _ => []
  | bytes + 1, carry =>
      if carry = 0 then [] else UInt8.ofNat (carry % 256) :: pushCarry bytes (carry / 256)

/-- Multiply a number by 58 and add `carry`, least significant byte first. -/
def base58Step : (carry : ℕ) → List UInt8 → List UInt8
  | carry, [] => pushCarry 4 carry
  | carry, b :: rest =>
      let acc := b.toNat * 58 + carry
      UInt8.ofNat (acc % 256) :: base58Step (acc / 256) rest

/-- Take in the digits from the left. -/
def base58Digits : (out : List UInt8) → List UInt8 → Option (List UInt8)
  | out, [] => some out
  | out, ch :: rest => do
      let value ← base58Alphabet.idxOf? ch
      base58Digits (base58Step value out) rest

/-- Every leading `1` is a leading zero byte. -/
def decodeBase58btc (s : List UInt8) : Option (List UInt8) :=
  if s.isEmpty then none
  else (base58Digits [] s).map fun out =>
    List.replicate (s.takeWhile (· == 49)).length 0 ++ out.reverse

/-- The body of a version-1 identifier in its multibase form. -/
def decodeBody (mbPrefix : UInt8) (body : List UInt8) : Option (List UInt8) :=
  if mbPrefix = 98 then decodeBase32Lower body
  else if mbPrefix = 66 then decodeBase32Lower (body.map toAsciiLowercase)
  else if mbPrefix = 102 then decodeBase16Lower body
  else if mbPrefix = 70 then decodeBase16Lower (body.map toAsciiLowercase)
  else if mbPrefix = 122 then decodeBase58btc body
  else none

end Content

/-- The codec of raw content. -/
def cidCodecRaw : UInt64 := 0x55

/-- The code of SHA-256. -/
def multihashSha2256 : UInt64 := 0x12

/-- The code of BLAKE2b-256. -/
def multihashBlake2b256 : UInt64 := 0xb220

/-- The parts of a content identifier. -/
structure ParsedCid where
  version : UInt64
  codec : UInt64
  multihashCode : UInt64
  digest : List UInt8
  deriving DecidableEq

/-- The fields of a version-1 identifier. -/
def parseCidFields (decoded : List UInt8) : Option ParsedCid := do
  let (version, pos) ← Content.readVarint decoded 0
  if version ≠ 1 then none
  let (codec, pos) ← Content.readVarint decoded pos
  let (multihashCode, pos) ← Content.readVarint decoded pos
  let (digestLen, pos) ← Content.readVarint decoded pos
  let digest := decoded.drop pos
  if digest.length ≠ digestLen.toNat then none
  some { version, codec, multihashCode, digest }

/-- The implied version-0 fields of a base58btc sha2-256 multihash. -/
def parseCidV0 (cid : List UInt8) : Option ParsedCid := do
  let decoded ← Content.decodeBase58btc cid
  if decoded.length ≠ 34 ∨ decoded[0]? ≠ some 0x12 ∨ decoded[1]? ≠ some 32 then none
  some ⟨0, 0x70, multihashSha2256, decoded.drop 2⟩

/-- The fields of an identifier. The first byte is cut off as if it were a character. -/
def parseCid (cid : String) : Except VerifierPanic (Option ParsedCid) :=
  match utf8Bytes cid with
  | [] => .ok none
  | mbPrefix :: body =>
      if (utf8Bytes "Qm").isPrefixOf (mbPrefix :: body) ∧ (mbPrefix :: body).length = 46 then
        .ok (parseCidV0 (mbPrefix :: body))
      else if 0x80 ≤ mbPrefix then .error .charBoundary
      else .ok ((Content.decodeBody mbPrefix body).bind parseCidFields)

/-- What an identifier says of fetched bytes. -/
inductive CidBindingOutcome
  | verified
  | failed
  | unsupported
  deriving DecidableEq

section Content
variable (crypto : VerifierPrimitives)

/-- The digest of a multihash code. -/
def multihashDigest (code : UInt64) (bytes : List UInt8) : Option (List UInt8) :=
  if code = multihashSha2256 then some (crypto.sealing.sha256 bytes).val
  else if code = multihashBlake2b256 then some (crypto.blake2b256 bytes).val
  else none

/-- The multihash over the bytes themselves, for a raw version-1 identifier without a path. -/
def verifyIpfsCidBinding (cid : String) (hasPath : Bool) (bytes : List UInt8) :
    Except VerifierPanic CidBindingOutcome :=
  if hasPath then .ok .unsupported
  else
    (parseCid cid).map fun
      | none => .unsupported
      | some parsed =>
          if parsed.version ≠ 1 ∨ parsed.codec ≠ cidCodecRaw then .unsupported
          else
            match multihashDigest crypto parsed.multihashCode bytes with
            | none => .unsupported
            | some computed => if computed = parsed.digest then .verified else .failed

/-! ## Blobs -/

/-- How a blob came into the run. -/
inductive BlobBinding
  | outOfBand
  | ipfsCid (cid : String) (hasPath : Bool)
  | unsupported
  deriving DecidableEq

/-- Bytes that were fetched or handed over. -/
structure AcquiredBlob where
  bytes : List UInt8
  uri : Option String
  uriIndex : Option ℕ
  binding : BlobBinding
  deriving DecidableEq

/-- Whether the bytes are bound to their content address, or came from the caller. -/
def AcquiredBlob.attributable (blob : AcquiredBlob) : Except VerifierPanic Bool :=
  match blob.binding with
  | .outOfBand => .ok true
  | .unsupported => .ok false
  | .ipfsCid cid hasPath =>
      (verifyIpfsCidBinding crypto cid hasPath blob.bytes).map fun outcome => outcome = .verified

/-- A consumer's decision on one blob. -/
inductive SourceDecision (α : Type)
  | accept (a : α)
  | nextSource

/-- How a walk ended. -/
inductive BlobWalkEnd (α : Type)
  | done (a : α)
  | exhausted (limitExceeded : Bool)

/-! ## Fetch targets -/

/-- What a URI names. -/
inductive FetchTarget
  | arweave (txid : String)
  | ipfs (cidAndPath cid : String) (hasPath : Bool)
  deriving DecidableEq

/-- What stands before and after the first `://`. -/
def splitScheme : List Char → Option (List Char × List Char)
  | ':' :: '/' :: '/' :: rest => some ([], rest)
  | [] => none
  | c :: cs => (splitScheme cs).map fun parts => (c :: parts.1, parts.2)

/-- The target of a URI, or nothing outside the closed set. Only the scheme is case-folded. -/
def parseFetchTarget (uri : String) : Option FetchTarget :=
  match splitScheme uri.toList with
  | none => none
  | some (scheme, rest) =>
      if (scheme.head?.any Char.isAlpha) = false then none
      else if scheme.map Char.toLower = "ar".toList then
        if isArweaveTxid (utf8Bytes (String.ofList rest)) then some (.arweave (String.ofList rest))
        else none
      else if scheme.map Char.toLower = "ipfs".toList then
        let cid := rest.takeWhile (· ≠ '/')
        if cid = [] then none
        else some (.ipfs (String.ofList rest) (String.ofList cid) (rest.contains '/'))
      else none

/-- Exactly one separator between a gateway and what is asked of it. -/
def joinGateway (base suffix : String) : String :=
  if base.toList.getLast? = some '/' then base ++ suffix else base ++ "/" ++ suffix

/-- The gateways of a run, and the ceiling of one fetch. -/
structure ContentFetchPolicy where
  arweaveGateways : List String
  ipfsGateways : List String
  maxFetchBytes : Option UInt64

/-- The purpose of its requests. -/
def FetchTarget.purpose : FetchTarget → HttpPurpose
  | .arweave _ => .arweave
  | .ipfs .. => .ipfs

/-- Its address at a gateway. -/
def FetchTarget.url (gateway : String) : FetchTarget → String
  | .arweave txid => joinGateway gateway txid
  | .ipfs cidAndPath _ _ => joinGateway gateway ("ipfs/" ++ cidAndPath)

/-- Whether the name binds the bytes. -/
def FetchTarget.binding : FetchTarget → BlobBinding
  | .arweave _ => .unsupported
  | .ipfs _ cid hasPath => .ipfsCid cid hasPath

/-- The gateways for a target. -/
def ContentFetchPolicy.gateways (policy : ContentFetchPolicy) : FetchTarget → List String
  | .arweave _ => policy.arweaveGateways
  | .ipfs .. => policy.ipfsGateways

/-- Whether no fetch of the scheme is ever made. -/
def ContentFetchPolicy.declines (policy : ContentFetchPolicy) : FetchTarget → Bool
  | .arweave _ => false
  | .ipfs .. => policy.ipfsGateways.isEmpty

/-! ## The walk -/

section Walk
variable {σ α : Type}

/-- What a walk leaves: its end, the issues that it pushed, and the fetcher. -/
abbrev Walked (σ α : Type) :=
  Except VerifierPanic (BlobWalkEnd α × List VerifierIssue × GatewayFetcher σ)

/-- A consumer decides on a blob and pushes issues. -/
abbrev Consumer (α : Type) :=
  AcquiredBlob → Except VerifierPanic (SourceDecision α × List VerifierIssue)

/-- The issues come before those of the walk. -/
def Walked.after (pushed : List VerifierIssue) (walk : Walked σ α) : Walked σ α :=
  walk.map fun step => (step.1, pushed ++ step.2.1, step.2.2)

/-- Hand a blob to the consumer; the rest is walked unless it accepts. -/
def offer (consume : Consumer α) (blob : AcquiredBlob) (fetcher : GatewayFetcher σ)
    (rest : GatewayFetcher σ → Walked σ α) : Walked σ α :=
  match consume blob with
  | .error panic => .error panic
  | .ok (.accept a, pushed) => .ok (.done a, pushed, fetcher)
  | .ok (.nextSource, pushed) => (rest fetcher).after pushed

/-- Where the issues of a URI stand. -/
def uriPath (basePath : List PathSegment) (uriIndex : ℕ) : List PathSegment :=
  basePath ++ [.key "uris", .index uriIndex]

/-- The issue of a gateway that gave no bytes, unless its response was over the ceiling. -/
def fetchIssue (path : List PathSegment) (uri gateway url : String) :
    Except OutboundError ℕ → Option VerifierIssue
  | .ok status =>
      some (.new .uriFetchFailed path
        ("fetch of " ++ crypto.text.debug uri ++ " via " ++ gateway ++ s!" returned HTTP {status}"))
  | .error (.bodyTooLarge ..) => none
  | .error (.denyHost host deniedUrl) =>
      some (.new .serviceIndependenceViolation path
        ("outbound call to " ++ url ++ " targets a denyHosts entry: " ++
          (OutboundError.denyHost host deniedUrl).toText))
  | .error e =>
      some (.new .uriFetchFailed path
        ("fetch of " ++ crypto.text.debug uri ++ " via " ++ gateway ++ " failed: " ++ e.toText))

variable (basePath : List PathSegment) (policy : ContentFetchPolicy) (consume : Consumer α)

/-- Ask the gateways of a target in turn. A response over the ceiling ends the walk: every
source addresses the same bytes. -/
def walkGateways (uriIndex : ℕ) (uri : String) (target : FetchTarget)
    (rest : GatewayFetcher σ → Walked σ α) : List String → GatewayFetcher σ → Walked σ α
  | [], fetcher => rest fetcher
  | gateway :: gateways, fetcher =>
      let url := target.url gateway
      let opts := { FetchOutboundOptions.new .get target.purpose with
        maxBytes := policy.maxFetchBytes }
      let (response, fetcher) := wrapFetchOutbound crypto.text fetcher url opts
      let failed (outcome : Except OutboundError ℕ) : Walked σ α :=
        match fetchIssue crypto (uriPath basePath uriIndex) uri gateway url outcome with
        | none => .ok (.exhausted true, [], fetcher)
        | some issue => (walkGateways uriIndex uri target rest gateways fetcher).after [issue]
      match response with
      | .error e => failed (.error e)
      | .ok result =>
          if result.status = 200 then
            offer consume ⟨result.bytes, some uri, some uriIndex, target.binding⟩ fetcher
              fun fetcher => walkGateways uriIndex uri target rest gateways fetcher
          else failed (.ok result.status)

/-- The URIs from the given index on. -/
def walkUris : (uriIndex : ℕ) → List String → GatewayFetcher σ → Walked σ α
  | _, [], fetcher => .ok (.exhausted false, [], fetcher)
  | uriIndex, uri :: uris, fetcher =>
      let refused (reason : String) : Walked σ α :=
        (walkUris (uriIndex + 1) uris fetcher).after
          [.new .uriTargetForbidden (uriPath basePath uriIndex)
            ("refusing to fetch " ++ crypto.text.debug uri ++ ": " ++ reason)]
      match parseFetchTarget uri with
      | none => refused "not a conformant ar:// or ipfs:// content address"
      | some target =>
          if policy.declines target then refused "no IPFS gateway chain is configured"
          else
            walkGateways crypto basePath policy consume uriIndex uri target
              (fun fetcher => walkUris (uriIndex + 1) uris fetcher) (policy.gateways target) fetcher

/-- The sources of a claim: the caller's bytes, then the URIs when they may be fetched. -/
def walkBlobSources (outOfBand : Option (List UInt8)) (uris : List String) (allowFetch : Bool)
    (fetcher : GatewayFetcher σ) : Walked σ α :=
  let fetched (fetcher : GatewayFetcher σ) : Walked σ α :=
    if allowFetch then walkUris crypto basePath policy consume 0 uris fetcher
    else .ok (.exhausted false, [], fetcher)
  match outOfBand with
  | some bytes => offer consume ⟨bytes, none, none, .outOfBand⟩ fetcher fetched
  | none => fetched fetcher

end Walk

/-! ## Plain items -/

/-- Whether the bytes have every digest. -/
def recomputeItemHashes (hashes : List (String × List UInt8)) (bytes : List UInt8) : Bool :=
  hashes ≠ [] && hashes.all fun entry =>
    if entry.1 = "sha2-256" then (crypto.sealing.sha256 bytes).val == entry.2
    else if entry.1 = "blake2b-256" then (crypto.blake2b256 bytes).val == entry.2
    else false

/-- Where a mismatch of unattributable bytes is reported. -/
def providerMismatchPath (basePath : List PathSegment) (blob : AcquiredBlob) :
    List PathSegment :=
  match blob.uriIndex with
  | some j => uriPath basePath j
  | none => basePath

/-- A debug form of the source of a blob. -/
def blobSource (blob : AcquiredBlob) (absent : String) : String :=
  crypto.text.debug (blob.uri.getD absent)

/-- The decision on a plain item. -/
def itemConsumer (item : ItemEntry) (basePath : List PathSegment) : Consumer ContentCheck :=
  fun blob =>
    if recomputeItemHashes crypto item.hashes blob.bytes then .ok (.accept .checked, [])
    else
      (blob.attributable crypto).map fun attributable =>
        if attributable then
          (.accept .mismatched,
            [.new .uriIntegrityMismatch basePath
              ("attributable bytes fetched from " ++ blobSource crypto blob "out-of-band input" ++
                " do not satisfy the item's hashes commitment")])
        else
          (.nextSource,
            [.new .uriProviderIntegrityMismatch (providerMismatchPath basePath blob)
              ("bytes fetched from " ++ blobSource crypto blob "unknown source" ++
                " do not satisfy the item's hashes commitment and could not be attributed to " ++
                "the URI's content address; the serving provider is indicted, not the record")])

/-- What a check leaves: its outcome, the issues that it pushed, and the fetcher. -/
abbrev Checking (σ α : Type) :=
  Except VerifierPanic (α × List VerifierIssue × GatewayFetcher σ)

/-- The field of an item. -/
def itemPath (itemIndex : ℕ) : List PathSegment := [.key "items", .index itemIndex]

/-- The content check of an item without an envelope. -/
def checkItemContent {σ : Type} (item : ItemEntry) (itemIndex : ℕ) (fetchContent : Bool)
    (policy : ContentFetchPolicy) (fetcher : GatewayFetcher σ) : Checking σ ContentCheck :=
  let uris := item.uris.getD []
  if fetchContent = false ∨ uris = [] then .ok (.notChecked, [], fetcher)
  else
    let basePath := itemPath itemIndex
    (walkBlobSources crypto basePath policy (itemConsumer crypto item basePath) none uris true
      fetcher).map fun
      | (.done check, issues, fetcher) => (check, issues, fetcher)
      | (.exhausted limitExceeded, issues, fetcher) =>
          (.notChecked, issues ++
            [if limitExceeded then
              .new .contentFetchLimitExceeded basePath
                ("a fetch for this item was aborted at the deployment's max-fetch-bytes " ++
                  "ceiling; the claim is unchecked")
            else
              .new .contentUnavailable basePath
                ("the URI list was exhausted with no attributable bytes satisfying the " ++
                  "commitment; the claim is unchecked")], fetcher)

end Content

end Label309
