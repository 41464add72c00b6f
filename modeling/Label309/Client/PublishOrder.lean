import Label309.Client.PublishAccepted
import Label309.MerkleInclusion

/-!
# The order of a publish run

A run of a helper uploads first, what is to be uploaded, and then posts one record. Nothing comes
after the post, and the record names the upload of the very bytes that the helper made.
-/
namespace Label309
open ExceptBind Traced

/-! ## What is uploaded beside a record -/

/-- What a call leaves beside its record: nothing, the ciphertext or the leaves list. -/
inductive Deposit
  | nothing
  | ciphertext (args : WrapArgs) (output : SealedPoeOutput)
  | leavesList (document : List UInt8)

/-- The bytes that are uploaded. -/
def Deposit.blob : Deposit → Option (List UInt8)
  | .nothing => none
  | .ciphertext _ output => some output.ciphertext
  | .leavesList document => some document

section Calls
variable {σ : Type} (lib : PublishLibrary) (host : PublishHost σ) (config : NamespaceConfig σ)
  (fuel : ℕ)

/-- The checks of the helper pass, and this is its record before it is signed, with what is left
beside it under the uri. -/
def PublishCall.Leaves (uri : String) : PublishCall σ → Deposit → PoeRecord → Prop
  | .content input, deposit, record =>
      assertSigner input.signer = .ok () ∧ deposit = .nothing ∧
        record = hashesRecord [contentHash lib input.content input.hashAlg]
  | .prehashed input, deposit, record =>
      assertSigner input.signer = .ok () ∧ deposit = .nothing ∧
        ∃ hashes, prehashedEntries input.hashes = .ok hashes ∧ record = hashesRecord hashes
  | .sealedContent input, deposit, record =>
      assertSigner input.signer = .ok () ∧
        checkRecipients input.kemChoice input.recipients = .ok () ∧ ∃ os bound output,
          eciesSealedPoeWrapSecure lib.crypto os bound (publishWrapArgs lib input) =
              some (.ok (.ok output)) ∧
            deposit = .ciphertext (publishWrapArgs lib input) output ∧
            record =
              sealedRecord (contentHash lib input.content input.hashAlg) output.envelope uri
  | .merkle input, deposit, record =>
      assertSigner input.signer = .ok () ∧ ∃ leaves root leavesList,
        checkLeaves input = .ok leaves ∧ commitLeaves lib leaves = .ok (root, leavesList) ∧
          deposit = .leavesList leavesList ∧ record = merkleRecord root leaves.length uri

/-- Behind `before`, the requests `stored` are an upload of the bytes that was answered with the
uri. -/
def UploadedBy (before stored : List Exchange) (blob : List UInt8) (uri : String) : Prop :=
  ∃ chunkBytes idempotencyKey w w',
    exec (uploadBlob lib host config fuel blob chunkBytes idempotencyKey) w =
        some (.ok uri, w') ∧
      w.log = before ∧ w'.log = before ++ stored

/-- The request posts the record, signed by the signer of the call. -/
def PublishCall.Sends (call : PublishCall σ) (record : PoeRecord) (e : Exchange) : Prop :=
  e.method = .post ∧ e.url = publishUrl config ∧ ∃ signed bytes,
    SignedAs call.signer record signed ∧ encodePoeRecord signed = .ok bytes ∧
      CarriesRecord lib e bytes

/-- The request posts a record of the call. What the call leaves beside the record is what the
requests before it stored, and the record names it by the uri that they were answered with. -/
def PublishCall.PostsWith (call : PublishCall σ) (before stored : List Exchange) (e : Exchange) :
    Prop :=
  ∃ uri deposit record, call.Leaves lib uri deposit record ∧
    (∀ blob ∈ deposit.blob, UploadedBy lib host config fuel before stored blob uri) ∧
      call.Sends lib config record e

/-- The gateway answered the request with a success. -/
def Exchange.Succeeded (e : Exchange) : Prop :=
  ∃ response, e.answer = .ok response ∧ isSuccess response.status = true

/-- The requests between two worlds: uploads, if the call has any, and then at most one post of a
record. A run that succeeds has posted, and was answered with a success. -/
structure UploadsThenPosts (call : PublishCall σ) (w : World σ Exchange) (ok : Bool)
    (w' : World σ Exchange) (stored posted : List Exchange) : Prop where
  log : w'.log = w.log ++ (stored ++ posted)
  uploads : ∀ e ∈ stored, UnderUploads config e.url ∧ call.Stores
  posts : ∀ e ∈ posted, call.PostsWith lib host config fuel w.log stored e
  once : posted.length ≤ 1
  answered : ok = true → ∃ e ∈ posted, e.Succeeded

/-- A run of a helper uploads and then posts. -/
def PublishCall.Ordered (call : PublishCall σ) (w : World σ Exchange) (ok : Bool)
    (w' : World σ Exchange) : Prop :=
  ∃ stored posted, UploadsThenPosts lib host config fuel call w ok w' stored posted

/-- The end of a run: at most one post of the record. -/
structure PostsRecord (call : PublishCall σ) (record : PoeRecord) (w : World σ Exchange)
    (ok : Bool) (w' : World σ Exchange) (posted : List Exchange) : Prop where
  log : w'.log = w.log ++ posted
  sends : ∀ e ∈ posted, call.Sends lib config record e
  once : posted.length ≤ 1
  answered : ok = true → ∃ e ∈ posted, e.Succeeded

/-- A part of a run that posts the record. -/
def PublishCall.Posting (call : PublishCall σ) (record : PoeRecord) (w : World σ Exchange)
    (ok : Bool) (w' : World σ Exchange) : Prop :=
  ∃ posted, PostsRecord lib config call record w ok w' posted

end Calls

/-! ## The post -/

section Post
variable {σ : Type} {lib : PublishLibrary} {host : PublishHost σ} {config : NamespaceConfig σ}
  {fuel : ℕ} {call : PublishCall σ}

theorem log_decodeBody {α : Type} {decoder : List UInt8 → Except String α} {body : List UInt8}
    {w w' : World σ Exchange} {r : Except ClientError α}
    (h : exec (decodeBody decoder body) w = some (r, w')) : w' = w := by
  rw [decodeBody.eq_def] at h
  cases hdecoded : decoder body with
  | ok value =>
      rw [hdecoded] at h
      cases h
      rfl
  | error e =>
      rw [hdecoded] at h
      cases h
      rfl

/-- One request carries the record. A success is one of the gateway. -/
theorem exec_postPublish {bytes : List UInt8} {quoteId : String} {key : Option String}
    {w w' : World σ Exchange} {r : Except PublishHelperError PublishResponse}
    (h : exec (postPublish lib config bytes quoteId key) w = some (r, w')) :
    ∃ e : Exchange, w'.log = w.log ++ [e] ∧ e.method = .post ∧ e.url = publishUrl config ∧
      CarriesRecord lib e bytes ∧ (r.isOk = true → e.Succeeded) := by
  obtain ⟨first, hfirst, rfl⟩ := exec_mapError_eq_some h
  have hcarries (answer : Except OutboundError ClientResponse) :
      CarriesRecord lib ⟨publishUrl config, .post, jsonHeaders config.apiKey key,
        .json (lib.json.toText (publishBody bytes quoteId)), answer⟩ bytes :=
    ⟨_, _, rfl, publishBody_record bytes quoteId, hexDecode_hexEncode bytes⟩
  rcases exec_bind_cases hfirst with ⟨error, hsend, rfl⟩ | ⟨response, w1, hsend, hrest⟩
  · rcases exec_bind_cases hsend with ⟨error', hraw, -⟩ | ⟨response, w1, hraw, hthrow⟩
    · obtain ⟨answer, -, hlog⟩ := exec_sendRaw hraw
      exact ⟨_, hlog, rfl, rfl, hcarries answer, Bool.noConfusion⟩
    · obtain ⟨answer, -, hlog⟩ := exec_sendRaw hraw
      have hsame : w' = w1 := by
        cases hchecked : throwIfNotOk lib.json response with
        | ok ok =>
            rw [hchecked] at hthrow
            cases hthrow
        | error e =>
            rw [hchecked] at hthrow
            cases hthrow
            rfl
      rw [hsame]
      exact ⟨_, hlog, rfl, rfl, hcarries answer, Bool.noConfusion⟩
  · rcases exec_bind_cases hsend with ⟨error', -, hnone⟩ | ⟨raw, w2, hraw, hthrow⟩
    · cases hnone
    · obtain ⟨answer, hanswer, hlog⟩ := exec_sendRaw hraw
      have hok : answer = .ok raw := by
        cases answer with
        | ok response' => exact (congrArg Except.ok (Except.ok.inj hanswer)).symm
        | error e => cases hanswer
      rcases throwIfNotOk_cases raw with ⟨hsuccess, hchecked⟩ | ⟨-, hchecked⟩
      · rw [hchecked] at hthrow
        cases hthrow
        have hsame : w' = w1 := by
          rcases exec_bind_cases hrest with ⟨e, hdecode, -⟩ | ⟨parsed, w3, hdecode, hpure⟩
          · exact log_decodeBody hdecode
          · rw [exec_pure, Option.some.injEq, Prod.mk.injEq] at hpure
            rw [← hpure.2]
            exact log_decodeBody hdecode
        rw [hsame]
        exact ⟨_, hlog, rfl, rfl, hcarries answer, fun _ => ⟨response, hok, hsuccess⟩⟩
      · rw [hchecked] at hthrow
        cases hthrow

/-! ## The parts of a run -/

/-- A post is the only one. -/
theorem UploadsThenPosts.posted_eq {w w' : World σ Exchange} {ok : Bool}
    {stored posted : List Exchange}
    (h : UploadsThenPosts lib host config fuel call w ok w' stored posted) {e : Exchange}
    (he : e ∈ posted) : posted = [e] := by
  obtain ⟨post, hpost⟩ :=
    List.length_eq_one_iff.mp (le_antisymm h.once (List.length_pos_of_mem he))
  rw [hpost] at he ⊢
  rw [List.mem_singleton.mp he]

theorem log_eq_of_growsBy_false {w w' : World σ Exchange} (h : GrowsBy (fun _ => False) w w') :
    w'.log = w.log := by
  obtain ⟨new, hlog, hall⟩ := h
  have hnil : new = [] := List.eq_nil_iff_forall_not_mem.mpr hall
  rw [hlog, hnil, List.append_nil]

/-- A part that asks nothing comes before the rest of the run. -/
theorem ordered_silent {α β : Type} {P : α → Prop} {m : Publish σ α} {f : α → Publish σ β}
    (hm : Asking (fun _ => False) m) (hreturns : Returns P m)
    (hf : ∀ a, P a → Meets (call.Ordered lib host config fuel) (f a)) :
    Meets (call.Ordered lib host config fuel) (m >>= f) := by
  refine Meets.bind hm hreturns hf ?_ ?_
  · intro w w' h
    exact ⟨[], [], by rw [log_eq_of_growsBy_false h]; simp, List.forall_mem_nil _,
      List.forall_mem_nil _, Nat.zero_le 1, Bool.noConfusion⟩
  · intro w w1 ok w' h hrest
    obtain ⟨stored, posted, hshape⟩ := hrest
    have hlog := log_eq_of_growsBy_false h
    exact ⟨stored, posted, hlog ▸ hshape.log, hshape.uploads, hlog ▸ hshape.posts, hshape.once,
      hshape.answered⟩

/-- Encode the record that the call makes, and post it. -/
theorem posting_finish (call : PublishCall σ) (record : PoeRecord) (quoteId : String)
    (key : Option String) :
    Meets (call.Posting lib config record) (encodeRecord record call.signer >>= fun bytes =>
      postPublish lib config bytes quoteId key) := by
  intro w r w' hrun
  rcases exec_bind_cases hrun with ⟨e, hencode, rfl⟩ | ⟨bytes, w1, hencode, hpost⟩
  · have hlog := log_eq_of_growsBy_false (asking_encodeRecord record call.signer _ _ _ hencode)
    exact ⟨[], by rw [hlog, List.append_nil], List.forall_mem_nil _, Nat.zero_le 1,
      Bool.noConfusion⟩
  · have hlog := log_eq_of_growsBy_false (asking_encodeRecord record call.signer _ _ _ hencode)
    obtain ⟨signed, hsigned, hbytes⟩ := returns_encodeRecord record call.signer _ _ _ hencode
    obtain ⟨e, hgrown, hmethod, hurl, hcarries, hanswered⟩ := exec_postPublish hpost
    refine ⟨[e], by rw [hgrown, hlog], ?_, le_rfl, ?_⟩
    · intro e' he'
      rw [List.mem_singleton.mp he']
      exact ⟨hmethod, hurl, signed, bytes, hsigned, hbytes, hcarries⟩
    · intro hok
      exact ⟨e, List.mem_singleton.mpr rfl, hanswered hok⟩

/-- Nothing is uploaded beside the record. -/
theorem ordered_of_posting {α : Type} {m : Publish σ α} {uri : String} {record : PoeRecord}
    (hleaves : call.Leaves lib uri .nothing record) (h : Meets (call.Posting lib config record) m) :
    Meets (call.Ordered lib host config fuel) m := by
  intro w r w' hrun
  obtain ⟨posted, hposted⟩ := h w r w' hrun
  refine ⟨[], posted, hposted.log, List.forall_mem_nil _, ?_, hposted.once, hposted.answered⟩
  intro e he
  refine ⟨uri, .nothing, record, hleaves, ?_, hposted.sends e he⟩
  intro blob hblob
  cases hblob

/-- Upload what is left beside the record, and post the record with the uri of the upload. -/
theorem ordered_upload {α : Type} (hstores : call.Stores) {blob : List UInt8}
    (chunkBytes : Option UInt64) (key : Option String) {deposit : Deposit}
    (hblob : deposit.blob = some blob) {record : String → PoeRecord}
    (hleaves : ∀ uri, call.Leaves lib uri deposit (record uri)) {f : String → Publish σ α}
    (hf : ∀ uri, Meets (call.Posting lib config (record uri)) (f uri)) :
    Meets (call.Ordered lib host config fuel)
      (uploadBlob lib host config fuel blob chunkBytes key >>= f) := by
  have hstored (stored : List Exchange) (h : ∀ e ∈ stored, UnderUploads config e.url) :
      ∀ e ∈ stored, UnderUploads config e.url ∧ call.Stores := fun e he => ⟨h e he, hstores⟩
  intro w r w' hrun
  rcases exec_bind_cases hrun with ⟨e, hupload, rfl⟩ | ⟨uri, w1, hupload, hrest⟩
  · obtain ⟨stored, hlog, hunder⟩ := asking_uploadBlob blob chunkBytes key _ _ _ hupload
    exact ⟨stored, [], by rw [hlog, List.append_nil], hstored stored hunder,
      List.forall_mem_nil _, Nat.zero_le 1, Bool.noConfusion⟩
  · obtain ⟨stored, hlog, hunder⟩ := asking_uploadBlob blob chunkBytes key _ _ _ hupload
    obtain ⟨posted, hposted⟩ := hf uri w1 r w' hrest
    refine ⟨stored, posted, by rw [hposted.log, hlog, List.append_assoc], hstored stored hunder,
      ?_, hposted.once, hposted.answered⟩
    intro e he
    refine ⟨uri, deposit, record uri, hleaves uri, ?_, hposted.sends e he⟩
    intro blob' hblob'
    rw [hblob, Option.mem_some_iff] at hblob'
    rw [← hblob']
    exact ⟨chunkBytes, key, w, w1, hupload, rfl, hlog⟩

end Post

/-! ## Runs -/

section Runs
variable {σ : Type} {lib : PublishLibrary} {host : PublishHost σ} {config : NamespaceConfig σ}
  {fuel : ℕ}

theorem ordered_publishContent (input : PublishContentInput σ) :
    Meets ((PublishCall.content input).Ordered lib host config fuel)
      (publishContent lib config input) := by
  apply ordered_silent (asking_validated _) (returns_validated _)
  intro _ hsigner
  have hleaves : (PublishCall.content input).Leaves lib "" .nothing _ := ⟨hsigner, rfl, rfl⟩
  exact ordered_of_posting hleaves (posting_finish (.content input) _ _ _)

theorem ordered_publishPrehashed (input : PublishPrehashedInput σ) :
    Meets ((PublishCall.prehashed input).Ordered lib host config fuel)
      (publishPrehashed lib config input) := by
  apply ordered_silent (asking_validated _) (returns_validated _)
  intro _ hsigner
  apply ordered_silent (asking_validated _) (returns_validated _)
  intro hashes hhashes
  have hleaves : (PublishCall.prehashed input).Leaves lib "" .nothing _ :=
    ⟨hsigner, rfl, hashes, hhashes, rfl⟩
  exact ordered_of_posting hleaves (posting_finish (.prehashed input) _ _ _)

theorem ordered_publishSealed (input : PublishSealedInput σ) :
    Meets ((PublishCall.sealedContent input).Ordered lib host config fuel)
      (publishSealed lib host config fuel input) := by
  apply ordered_silent (asking_validated _) (returns_validated _)
  intro _ hsigner
  apply ordered_silent (asking_validated _) (returns_validated _)
  intro _ hrecipients
  have hwrap : Asking (fun _ => False) (wrapSecure lib host fuel (publishWrapArgs lib input)) := by
    intro w r w' hrun
    exact GrowsBy.of_log_eq (exec_wrapSecure hrun).1
  have houtput : Returns (fun output => ∃ os, eciesSealedPoeWrapSecure lib.crypto os fuel
      (publishWrapArgs lib input) = some (.ok (.ok output)))
      (wrapSecure lib host fuel (publishWrapArgs lib input)) := by
    intro w output w' hrun
    exact ⟨_, (exec_wrapSecure hrun).2 output rfl⟩
  apply ordered_silent hwrap houtput
  intro output houtput
  obtain ⟨os, hos⟩ := houtput
  have hleaves (uri : String) : (PublishCall.sealedContent input).Leaves lib uri
      (.ciphertext (publishWrapArgs lib input) output)
      (sealedRecord (contentHash lib input.content input.hashAlg) output.envelope uri) :=
    ⟨hsigner, hrecipients, os, fuel, output, hos, rfl, rfl⟩
  have hstores : (PublishCall.sealedContent input).Stores := trivial
  exact ordered_upload hstores _ _ rfl hleaves fun uri =>
    posting_finish (.sealedContent input) _ _ _

theorem ordered_publishMerkle (input : PublishMerkleInput σ) :
    Meets ((PublishCall.merkle input).Ordered lib host config fuel)
      (publishMerkle lib host config fuel input) := by
  apply ordered_silent (asking_validated _) (returns_validated _)
  intro _ hsigner
  apply ordered_silent (asking_validated _) (returns_validated _)
  intro leaves hleaves
  have hcommit : Returns (commitLeaves lib leaves = .ok ·)
      (ofResult (commitLeaves lib leaves) : Publish σ (Digest × List UInt8)) :=
    Returns.ofResult fun _ h => h
  apply ordered_silent (Within.ofResult GrowsBy.refl _) hcommit
  intro committed hcommitted
  obtain ⟨root, leavesList⟩ := committed
  have hleft (uri : String) : (PublishCall.merkle input).Leaves lib uri (.leavesList leavesList)
      (merkleRecord root leaves.length uri) :=
    ⟨hsigner, leaves, root, leavesList, hleaves, hcommitted, rfl, rfl⟩
  have hstores : (PublishCall.merkle input).Stores := trivial
  refine ordered_upload hstores _ _ rfl hleft fun uri => ?_
  have hfinish := @posting_finish _ lib config (.merkle input)
    (merkleRecord root leaves.length uri) input.quoteId input.idempotencyKey
  exact bind_assoc (encodeRecord (merkleRecord root leaves.length uri) input.signer) _ _ ▸ hfinish.map _

theorem ordered_run (call : PublishCall σ) :
    Meets (call.Ordered lib host config fuel) (call.run lib host config fuel) := by
  cases call with
  | content input => exact (ordered_publishContent input).map _
  | prehashed input => exact (ordered_publishPrehashed input).map _
  | sealedContent input => exact (ordered_publishSealed input).map _
  | merkle input => exact (ordered_publishMerkle input).map _

/-- **A run of a helper uploads, and then posts at most one record.** Nothing follows the post, the
record names what the run itself has stored, and a run that succeeds has posted and was answered
with a success. -/
theorem publish_uploadsThenPosts (call : PublishCall σ) {w w' : World σ Exchange}
    {r : Except PublishHelperError Unit}
    (hrun : exec (call.run lib host config fuel) w = some (r, w')) :
    ∃ stored posted, UploadsThenPosts lib host config fuel call w r.isOk w' stored posted :=
  ordered_run call _ _ _ hrun

end Runs

/-! ## A sample -/

def depositUri : String := "ar://bNbA3TEQVL60xlgCcqdz4ZPHFZ711cZ3hmkpGttDt_U"

/-- The digest of the list of the three sample leaves. -/
def depositSha256 : String := "5556e68f72b41d5904395359cd51e7fe615b67f0d61059b1c1494140d8f9eda9"

/-- The answer to the upload of the list. -/
def depositBody : List UInt8 := utf8Bytes
  ("\x7b\"uploads\":[\x7b\"idx\":0,\"ok\":true,\"uri\":\"" ++ depositUri ++ "\",\"sha256\":\"" ++
    depositSha256 ++ "\",\"bytes\":223\x7d]\x7d")

/-- The answer to the post of the record. -/
def postedBody : List UInt8 := utf8Bytes
  ("\x7b\"id\":\"poe_01h455vb4pex5vsknk084sn02q\",\"tx_hash\":null,\"status\":\"submitting\"," ++
    "\"items_count\":0,\"signed\":true,\"sealed\":false,\"items\":[]," ++
    "\"conformance_profile\":\"signed\",\"balance_after_usd_micros\":\"0\"\x7d")

def postedResponse : PublishResponse where
  id := "poe_01h455vb4pex5vsknk084sn02q"
  txHash := none
  status := "submitting"
  itemsCount := 0
  signed := true
  isSealed := false
  items := []
  conformanceProfile := "signed"
  balanceAfterUsdMicros := "0"
  dedupHit := false

/-- An object of texts, as it is printed. -/
def flatObject : JsonValue → String
  | .object members => "\x7b" ++ ",".intercalate (members.filterMap fun m =>
      m.2.asStr.map fun s => "\"" ++ m.1 ++ "\":\"" ++ s ++ "\"") ++ "\x7d"
  | _ => "null"

/-- A library for the list of the three leaves. -/
def leavesLibrary : PublishLibrary where
  json :=
    { fromSlice := fun _ => .error "expected value"
      toText := flatObject }
  uploads :=
    { wideLibrary.uploads with
      uploads := fun body => if body = depositBody then
          .ok ⟨[.success 0 true depositUri depositSha256 223]⟩
        else .error "missing field" }
  published := fun body => if body = postedBody then .ok postedResponse
    else .error "missing field"
  crypto := { roundTripCrypto with sha256 := sampleSha256 }
  blake2b256 := fun _ => FixedBytes.zero 32

/-- A gateway that stores in one request, and takes records. -/
def leavesConfig : NamespaceConfig ℕ where
  apiKey := some "key"
  baseUrl := "https://api.example"
  transport := fun url _ _ _ n =>
    (if url = "https://api.example/poe/uploads" then .ok ⟨200, depositBody, none, none⟩
      else if url = "https://api.example/poe/publish" then .ok ⟨202, postedBody, none, none⟩
      else .error (.transport url "connection refused"), n + 1)

/-- The record of the three leaves. -/
def leavesRecord : PoeRecord := merkleRecord sampleRoot 3 depositUri

/-- The message that is signed for the record. -/
def leavesMessage : List UInt8 :=
  buildLabel309SigStructure (path1ProtectedHeaderBytes testKey.val)
    (unwrapOrDefault (encodeRecordBodyForSigning leavesRecord))

/-- The Ed25519 signature of the key on the message. -/
def leavesSignature : FixedBytes 64 :=
  ⟨[0x5f, 0xc2, 0xdf, 0x97, 0x53, 0x56, 0x02, 0x1d, 0x00, 0x7c, 0x63, 0xd5, 0x4d, 0xdc, 0xbc,
      0x9e, 0xc8, 0x99, 0x44, 0x23, 0x09, 0x3c, 0xfe, 0xec, 0x08, 0x1e, 0x16, 0xf1, 0x98, 0x51,
      0xe0, 0x8f, 0x03, 0x1a, 0x25, 0x12, 0xc0, 0xac, 0x1e, 0x5e, 0x99, 0x50, 0xec, 0xc8, 0x16,
      0x15, 0xd7, 0xcc, 0xc9, 0x24, 0xd8, 0xcc, 0xae, 0xf4, 0x67, 0xc2, 0x08, 0xda, 0xcf, 0x1c,
      0x05, 0x9d, 0x15, 0x0c], rfl⟩

/-- The holder of the key, who signs this message. -/
def testSigner : Signer ℕ where
  signerPubkey := testKey.val
  sign message n :=
    (if message = leavesMessage then .ok leavesSignature.val else .error "unknown message", n)

/-- The three leaves, one of them in hexadecimal digits. -/
def leavesInput : PublishMerkleInput ℕ where
  leaves := [.bytes (sampleLeaf 0x11).val, .bytes (sampleLeaf 0x22).val,
    .hex (hexEncode (sampleLeaf 0x33).val)]
  quoteId := "quote"
  hashAlg := none
  signer := some testSigner
  idempotencyKey := none
  chunkBytes := none

/-- The run stores the list, posts the record, and succeeds. -/
theorem exists_leaves_run : ∃ w' upload post,
    exec ((PublishCall.merkle leavesInput).run leavesLibrary (idleHost idleRng) leavesConfig 0)
        (⟨0, []⟩ : World ℕ Exchange) = some (.ok (), w') ∧
      w'.log = [upload, post] ∧ post.url = publishUrl leavesConfig := by
  have hruns : (exec ((PublishCall.merkle leavesInput).run leavesLibrary (idleHost idleRng)
      leavesConfig 0) (⟨0, []⟩ : World ℕ Exchange)).any (fun out =>
        out.1.isOk && out.2.log.map Exchange.url =
          [leavesConfig.baseUrl ++ "/poe/uploads", publishUrl leavesConfig]) = true := by
    decide +kernel
  obtain ⟨⟨r, w'⟩, hrun, hout⟩ := Option.any_eq_true _ _ |>.mp hruns
  rw [Bool.and_eq_true, decide_eq_true_eq] at hout
  obtain ⟨hok, hurls⟩ := hout
  obtain ⟨upload, rest, hlog, -, hrest⟩ := List.map_eq_cons_iff.mp hurls
  obtain ⟨post, last, rfl, hpost, hlast⟩ := List.map_eq_cons_iff.mp hrest
  rw [List.map_eq_nil_iff.mp hlast] at hlog
  cases r with
  | error e => cases hok
  | ok value => exact ⟨w', upload, post, hrun, hlog, hpost⟩

/-- The run of the three leaves: one upload, one post of the record that names it, and a success. -/
theorem publish_uploadsThenPosts_leaves : ∃ w' upload post,
    UploadsThenPosts leavesLibrary (idleHost idleRng) leavesConfig 0 (.merkle leavesInput)
      (⟨0, []⟩ : World ℕ Exchange) true w' [upload] [post] ∧ post.Succeeded := by
  obtain ⟨w', upload, post, hrun, hlog, -⟩ := exists_leaves_run
  obtain ⟨stored, posted, hshape⟩ := publish_uploadsThenPosts _ hrun
  obtain ⟨e, he, hsucceeded⟩ := hshape.answered rfl
  have hposted : posted = [e] := hshape.posted_eq he
  have hparts : stored ++ [e] = [upload] ++ [post] := by
    rw [← hposted]
    exact hshape.log.symm.trans hlog
  obtain ⟨rfl, hlast⟩ := List.append_inj' hparts rfl
  have hpost : e = post := List.singleton_inj.mp hlast
  subst hpost hposted
  exact ⟨w', upload, e, hshape, hsucceeded⟩

end Label309
