import Label309.Lib.OrderedFields
import Label309.Verifier.RunRequests
import Label309.Verifier.TxWitnesses

/-!
# The wire form of a report

A report is written as a JSON object. What is absent has no key, byte strings are hex, and the
record is the projection of its encoding. The object of a run gives the report back, but for the
record, where bytes are written like the text of their digits.
-/
namespace Label309
open OrderedFields TxWitnesses

/-! ## Tokens -/

def Verdict.asStr : Verdict → String
  | .valid => "valid"
  | .pending => "pending"
  | .unverifiable => "unverifiable"
  | .failed => "failed"

def ContentCheck.asStr : ContentCheck → String
  | .checked => "checked"
  | .mismatched => "mismatched"
  | .notChecked => "not_checked"

def SignerType.asStr : SignerType → String
  | .inSignatureKid => "in-signature-kid"
  | .walletInlineKey => "wallet-inline-key"

def SigFailureReason.asStr (reason : SigFailureReason) : String := reason.errorCode.code

/-- The verdict on an entry, which its reason decides. -/
def SignatureCheck.verdictStr (check : SignatureCheck) : String :=
  match check.reason with
  | none => "valid"
  | some .signatureUnsupported => "unsupported"
  | some .signerKeyUnresolved => "unresolved"
  | some _ => "invalid"

def HttpMethod.asStr : HttpMethod → String
  | .get => "GET"
  | .post => "POST"
  | .put => "PUT"
  | .delete => "DELETE"

def HttpPurpose.asStr : HttpPurpose → String
  | .cardano => "cardano"
  | .arweave => "arweave"
  | .ipfs => "ipfs"
  | .https => "https"
  | .webhook => "webhook"

def severityStr : Severity → String
  | .error => "error"
  | .warning => "warning"
  | .info => "info"

/-! ## Values -/

/-- An object of the fields that are present. -/
def fieldsValue (fields : List (String × Option JsonValue)) : JsonValue := .object (ofFields fields)

/-- A count. Every count of the code is a word. -/
def natValue (n : ℕ) : JsonValue :=
  if n < 2 ^ 64 then .unsigned (UInt64.ofNat n) else .number (toString n)

def pathSegmentValue : PathSegment → JsonValue
  | .key k => .string k
  | .index i => natValue i

/-- The path of a field. -/
def pathToValues (path : List PathSegment) : List JsonValue := path.map pathSegmentValue

/-- An issue with the fields that it has. -/
def issueToValue (issue : VerifierIssue) : JsonValue :=
  fieldsValue
    [("code", some (.string issue.code.code)),
      ("path", some (.array (pathToValues issue.path))),
      ("severity", some (.string (severityStr issue.severity))),
      ("message", some (.string issue.message))]

/-- The outcome of a decryption. -/
def decryptionToValue (outcome : DecryptionOutcome) : JsonValue :=
  fieldsValue
    [("decrypted", some (.bool outcome.decrypted)),
      ("plaintextHashOk", outcome.plaintextHashOk.map .bool),
      ("code", outcome.code.map fun code => .string code.code)]

/-- The checks of an item. -/
def itemEntryToValue (entry : ItemReportEntry) : JsonValue :=
  fieldsValue
    [("contentCheck", some (.string entry.contentCheck.asStr)),
      ("decryption", entry.decryption.map decryptionToValue)]

/-- The check of a commitment. -/
def merkleEntryToValue (entry : MerkleReportEntry) : JsonValue :=
  fieldsValue [("contentCheck", some (.string entry.contentCheck.asStr))]

/-- A call without a response has the status null. -/
def auditEntryToValue (call : HttpCallRecord) : JsonValue :=
  fieldsValue
    [("url", some (.string call.url)),
      ("method", some (.string call.method.asStr)),
      ("status", some ((call.status.map natValue).getD .null)),
      ("bytes", some (natValue call.bytes)),
      ("durationMs", some (natValue call.durationMs)),
      ("purpose", some (.string call.purpose.asStr))]

/-- The check of a signature. -/
def signatureCheckToValue (check : SignatureCheck) : JsonValue :=
  fieldsValue
    [("index", some (natValue check.index)),
      ("verdict", some (.string check.verdictStr)),
      ("signerPub", check.signerPub.map .string),
      ("signerType", check.signerType.map fun t => .string t.asStr),
      ("reason", check.reason.map fun reason => .string reason.asStr)]

/-- A signature over the transaction. -/
def txWitnessToValue (w : VerifyTxWitness) : JsonValue :=
  fieldsValue
    [("type", some (.string "vkey")),
      ("vkey", some (.string w.vkey)),
      ("key_hash", some (.string w.keyHash)),
      ("signature_valid", some (.bool w.signatureValid))]

/-- An output. -/
def txOutputToValue (o : VerifyTxOutput) : JsonValue :=
  fieldsValue [("address", some (.string o.address)), ("lovelace", some (.string o.lovelace))]

/-- The summary of the transaction. -/
def txSummaryToValue (s : VerifyTxSummary) : JsonValue :=
  fieldsValue
    [("fee_lovelace", some (.string s.feeLovelace)),
      ("input_count", some (natValue s.inputCount)),
      ("output_count", some (natValue s.outputCount)),
      ("outputs", some (.array (s.outputs.map txOutputToValue))),
      ("total_output_lovelace", some (.string s.totalOutputLovelace)),
      ("script_witness_count", some (natValue s.scriptWitnessCount)),
      ("invalid_before", s.invalidBefore.map .unsigned),
      ("invalid_hereafter", s.invalidHereafter.map .unsigned),
      ("required_signer_key_hashes",
        s.requiredSignerKeyHashes.map fun hashes => .array (hashes.map .string)),
      ("network_id", s.networkId.map .unsigned)]

/-! ## The record -/

/-- The number `-1 - m`. -/
def negativeText (m : UInt64) : String := "-" ++ toString (m.toNat + 1)

section Record
variable (debug : CborValue → String)

/-- The text of a map key. What is no text, number or bytes has its debug form. -/
def cborKeyToString : CborValue → String
  | .text s => s
  | .unsigned n => toString n.toNat
  | .negative m => negativeText m
  | .bytes b => hexEncode b
  | other => debug other

mutual

/-- A negative number out of the range of a signed word is a text. -/
def cborToValue : CborValue → JsonValue
  | .unsigned n => .unsigned n
  | .negative m =>
      if m.toNat < 2 ^ 63 then .number (negativeText m) else .string (negativeText m)
  | .bytes b => .string (hexEncode b)
  | .text s => .string s
  | .bool b => .bool b
  | .null => .null
  | .array items => .array (cborToValues items)
  | .map pairs => .object (ofEntries (cborToEntries pairs))

def cborToValues : List CborValue → List JsonValue
  | [] => []
  | item :: items => cborToValue item :: cborToValues items

def cborToEntries : List (CborValue × CborValue) → List (String × JsonValue)
  | [] => []
  | (k, v) :: pairs => (cborKeyToString debug k, cborToValue v) :: cborToEntries pairs

end

/-- The projection of the canonical encoding. -/
def recordToValue (record : PoeRecord) : JsonValue :=
  match encodePoeRecord record with
  | .error _ => .object []
  | .ok bytes =>
      match decodeCanonicalCbor bytes with
      | .error _ => .object []
      | .ok cbor => cborToValue debug cbor

/-! ## The report -/

/-- The wire form of a report. A depth of zero and a list of no signatures are left out. -/
def verifyReportToDict (report : VerifyReport) : JsonValue :=
  fieldsValue
    [("verdict", some (.string report.verdict.asStr)),
      ("exitCode", some (natValue report.verdict.exitCode)),
      ("issues", some (.array (report.issues.map issueToValue))),
      ("items", some (.array (report.items.map itemEntryToValue))),
      ("merkle", some (.array (report.merkle.map merkleEntryToValue))),
      ("auditTrail", some (.array (report.auditTrail.map auditEntryToValue))),
      ("network", some (.string report.network)),
      ("txHash", some (.string report.txHash)),
      ("profile", some (.string report.profile.asStr)),
      ("confirmationThreshold", some (natValue report.confirmationThreshold)),
      ("confirmationDepth",
        (report.confirmationDepth.filter fun depth => 1 ≤ depth).map natValue),
      ("block_time", report.blockTime.map natValue),
      ("block_slot", report.blockSlot.map natValue),
      ("record", report.record.map (recordToValue debug)),
      ("signatures",
        (report.recordSignatures.filter fun checks => !checks.isEmpty).map fun checks =>
          .array (checks.map signatureCheckToValue)),
      ("txWitnesses",
        report.txWitnesses.map fun witnesses => .array (witnesses.map txWitnessToValue)),
      ("txSummary", report.txSummary.map txSummaryToValue),
      ("metadataLabels", report.metadataLabels.map fun labels => .array (labels.map natValue))]

end Record

/-! ## Tokens are told apart -/

theorem Verdict.asStr_injective : Function.Injective Verdict.asStr := by
  intro a b h
  cases a <;> cases b <;> first | rfl | exact absurd h (by decide)

theorem Profile.asStr_injective : Function.Injective Profile.asStr := by
  intro a b h
  cases a <;> cases b <;> first | rfl | exact absurd h (by decide)

theorem ContentCheck.asStr_injective : Function.Injective ContentCheck.asStr := by
  intro a b h
  cases a <;> cases b <;> first | rfl | exact absurd h (by decide)

theorem SignerType.asStr_injective : Function.Injective SignerType.asStr := by
  intro a b h
  cases a <;> cases b <;> first | rfl | exact absurd h (by decide)

theorem HttpMethod.asStr_injective : Function.Injective HttpMethod.asStr := by
  intro a b h
  cases a <;> cases b <;> first | rfl | exact absurd h (by decide)

theorem HttpPurpose.asStr_injective : Function.Injective HttpPurpose.asStr := by
  intro a b h
  cases a <;> cases b <;> first | rfl | exact absurd h (by decide)

theorem severityStr_injective : Function.Injective severityStr := by
  intro a b h
  cases a <;> cases b <;> first | rfl | exact absurd h (by decide)

/-- The codes of the registry in order. -/
def registry : List ErrorCode := (List.range 76).map ErrorCode.ofNat

theorem mem_registry (c : ErrorCode) : c ∈ registry := by
  refine List.mem_map.mpr ⟨c.ctorIdx, List.mem_range.mpr ?_, ErrorCode.ofNat_ctorIdx c⟩
  cases c <;> decide

theorem nodup_codes : (registry.map ErrorCode.code).Nodup := by decide +kernel

theorem ErrorCode.code_injective : Function.Injective ErrorCode.code :=
  fun a b h => List.inj_on_of_nodup_map nodup_codes (mem_registry a) (mem_registry b) h

theorem SigFailureReason.asStr_injective : Function.Injective SigFailureReason.asStr := by
  intro a b h
  cases a <;> cases b <;> first | rfl | exact absurd (ErrorCode.code_injective h) (by decide)

/-! ## Values are told apart -/

theorem string_injective : Function.Injective JsonValue.string := fun _ _ => JsonValue.string.inj

theorem unsigned_injective : Function.Injective JsonValue.unsigned :=
  fun _ _ => JsonValue.unsigned.inj

theorem array_injective : Function.Injective JsonValue.array := fun _ _ => JsonValue.array.inj

theorem natValue_injective : Function.Injective natValue := by
  intro a b h
  rw [natValue, natValue] at h
  by_cases ha : a < 2 ^ 64
  · by_cases hb : b < 2 ^ 64
    · rw [if_pos ha, if_pos hb] at h
      have hword := congrArg UInt64.toNat (JsonValue.unsigned.inj h)
      rwa [UInt64.toNat_ofNat_of_lt' ha, UInt64.toNat_ofNat_of_lt' hb] at hword
    · rw [if_pos ha, if_neg hb] at h
      cases h
  · by_cases hb : b < 2 ^ 64
    · rw [if_neg ha, if_pos hb] at h
      cases h
    · rw [if_neg ha, if_neg hb] at h
      exact Nat.repr_injective (JsonValue.number.inj h)

/-- A count is a number. -/
theorem natValue_eq (n : ℕ) :
    (∃ word, natValue n = .unsigned word) ∨ ∃ text, natValue n = .number text := by
  rw [natValue]
  split_ifs
  · exact .inl ⟨_, rfl⟩
  · exact .inr ⟨_, rfl⟩

theorem natValue_ne_string (n : ℕ) (s : String) : natValue n ≠ .string s := by
  rcases natValue_eq n with ⟨word, hn⟩ | ⟨text, hn⟩
  · rw [hn]
    exact JsonValue.noConfusion
  · rw [hn]
    exact JsonValue.noConfusion

theorem natValue_ne_null (n : ℕ) : natValue n ≠ .null := by
  rcases natValue_eq n with ⟨word, hn⟩ | ⟨text, hn⟩
  · rw [hn]
    exact JsonValue.noConfusion
  · rw [hn]
    exact JsonValue.noConfusion

theorem pathSegmentValue_injective : Function.Injective pathSegmentValue := by
  intro a b h
  cases a with
  | key s =>
      cases b with
      | key t => exact congrArg PathSegment.key (JsonValue.string.inj h)
      | index i => exact absurd h.symm (natValue_ne_string i s)
  | index i =>
      cases b with
      | key t => exact absurd h (natValue_ne_string i t)
      | index j => exact congrArg PathSegment.index (natValue_injective h)

/-- A status that is there is not null. -/
theorem statusValue_injective :
    Function.Injective fun status : Option ℕ => (status.map natValue).getD .null := by
  intro a b h
  cases a with
  | none =>
      cases b with
      | none => rfl
      | some n => exact absurd h.symm (natValue_ne_null n)
  | some m =>
      cases b with
      | none => exact absurd h (natValue_ne_null m)
      | some n => exact congrArg some (natValue_injective h)

/-! ## Objects are told apart -/

theorem fields_of_fieldsValue {fs gs : List (String × Option JsonValue)}
    (h : fieldsValue fs = fieldsValue gs) (hnames : fs.map Prod.fst = gs.map Prod.fst)
    (hnodup : (fs.map Prod.fst).Nodup) : fs = gs :=
  ofFields_injective hnames hnodup (JsonValue.object.inj h)

theorem issueToValue_injective : Function.Injective issueToValue := by
  intro a b h
  have hfields := fields_of_fieldsValue h rfl (by simp)
  simp only [List.cons.injEq, Prod.mk.injEq, Option.some.injEq, true_and, and_true] at hfields
  obtain ⟨hcode, hpath, hseverity, hmessage⟩ := hfields
  have hsegments := List.map_injective_iff.mpr pathSegmentValue_injective (array_injective hpath)
  cases a
  cases b
  rw [VerifierIssue.mk.injEq]
  exact ⟨hsegments, ErrorCode.code_injective (string_injective hcode),
    severityStr_injective (string_injective hseverity), string_injective hmessage⟩

theorem decryptionToValue_injective : Function.Injective decryptionToValue := by
  intro a b h
  have hfields := fields_of_fieldsValue h rfl (by simp)
  simp only [List.cons.injEq, Prod.mk.injEq, Option.some.injEq, true_and, and_true] at hfields
  obtain ⟨hdecrypted, hhash, hcode⟩ := hfields
  cases a
  cases b
  rw [DecryptionOutcome.mk.injEq]
  exact ⟨JsonValue.bool.inj hdecrypted,
    Option.map_injective (fun _ _ => JsonValue.bool.inj) hhash,
    Option.map_injective (string_injective.comp ErrorCode.code_injective) hcode⟩

theorem itemEntryToValue_injective : Function.Injective itemEntryToValue := by
  intro a b h
  have hfields := fields_of_fieldsValue h rfl (by simp)
  simp only [List.cons.injEq, Prod.mk.injEq, Option.some.injEq, true_and, and_true] at hfields
  obtain ⟨hcheck, hdecryption⟩ := hfields
  cases a
  cases b
  rw [ItemReportEntry.mk.injEq]
  exact ⟨ContentCheck.asStr_injective (string_injective hcheck),
    Option.map_injective decryptionToValue_injective hdecryption⟩

theorem merkleEntryToValue_injective : Function.Injective merkleEntryToValue := by
  intro a b h
  have hfields := fields_of_fieldsValue h rfl (by simp)
  simp only [List.cons.injEq, Prod.mk.injEq, Option.some.injEq, true_and, and_true] at hfields
  cases a
  cases b
  rw [MerkleReportEntry.mk.injEq]
  exact ContentCheck.asStr_injective (string_injective hfields)

theorem auditEntryToValue_injective : Function.Injective auditEntryToValue := by
  intro a b h
  have hfields := fields_of_fieldsValue h rfl (by simp)
  simp only [List.cons.injEq, Prod.mk.injEq, Option.some.injEq, true_and, and_true] at hfields
  obtain ⟨hurl, hmethod, hstatus, hbytes, hduration, hpurpose⟩ := hfields
  cases a
  cases b
  rw [HttpCallRecord.mk.injEq]
  exact ⟨string_injective hurl, HttpMethod.asStr_injective (string_injective hmethod),
    statusValue_injective hstatus, natValue_injective hbytes, natValue_injective hduration,
    HttpPurpose.asStr_injective (string_injective hpurpose)⟩

theorem txWitnessToValue_injective : Function.Injective txWitnessToValue := by
  intro a b h
  have hfields := fields_of_fieldsValue h rfl (by simp)
  simp only [List.cons.injEq, Prod.mk.injEq, Option.some.injEq, true_and, and_true] at hfields
  obtain ⟨hkey, hhash, hvalid⟩ := hfields
  cases a
  cases b
  rw [VerifyTxWitness.mk.injEq]
  exact ⟨string_injective hkey, string_injective hhash, JsonValue.bool.inj hvalid⟩

theorem txOutputToValue_injective : Function.Injective txOutputToValue := by
  intro a b h
  have hfields := fields_of_fieldsValue h rfl (by simp)
  simp only [List.cons.injEq, Prod.mk.injEq, Option.some.injEq, true_and, and_true] at hfields
  obtain ⟨haddress, hlovelace⟩ := hfields
  cases a
  cases b
  rw [VerifyTxOutput.mk.injEq]
  exact ⟨string_injective haddress, string_injective hlovelace⟩

theorem txSummaryToValue_injective : Function.Injective txSummaryToValue := by
  intro a b h
  have hfields := fields_of_fieldsValue h rfl (by simp)
  simp only [List.cons.injEq, Prod.mk.injEq, Option.some.injEq, true_and, and_true] at hfields
  obtain ⟨hfee, hinputs, houtputs, houts, htotal, hscripts, hbefore, hafter, hsigners, hnetwork⟩ :=
    hfields
  have hhashes := array_injective.comp (List.map_injective_iff.mpr string_injective)
  cases a
  cases b
  rw [VerifyTxSummary.mk.injEq]
  exact ⟨string_injective hfee, natValue_injective hinputs, natValue_injective houtputs,
    List.map_injective_iff.mpr txOutputToValue_injective (array_injective houts),
    string_injective htotal, natValue_injective hscripts,
    Option.map_injective unsigned_injective hbefore,
    Option.map_injective unsigned_injective hafter,
    Option.map_injective hhashes hsigners, Option.map_injective unsigned_injective hnetwork⟩

/-- What the object says of a check: the flag is that of the reason. -/
def SignatureCheck.shown (check : SignatureCheck) : SignatureCheck :=
  { check with valid := check.reason.isNone }

theorem shown_of_signatureCheckToValue {a b : SignatureCheck}
    (h : signatureCheckToValue a = signatureCheckToValue b) : a.shown = b.shown := by
  have hfields := fields_of_fieldsValue h rfl (by simp)
  simp only [List.cons.injEq, Prod.mk.injEq, Option.some.injEq, true_and, and_true] at hfields
  obtain ⟨hindex, -, hpub, htype, hreason⟩ := hfields
  have hsame := Option.map_injective
    (string_injective.comp SigFailureReason.asStr_injective) hreason
  rw [SignatureCheck.shown, SignatureCheck.shown, SignatureCheck.mk.injEq]
  exact ⟨natValue_injective hindex, by rw [hsame], Option.map_injective string_injective hpub,
    Option.map_injective (string_injective.comp SignerType.asStr_injective) htype, hsame⟩

theorem map_shown_of_values {checks checks' : List SignatureCheck}
    (h : checks.map signatureCheckToValue = checks'.map signatureCheckToValue) :
    checks.map SignatureCheck.shown = checks'.map SignatureCheck.shown := by
  induction checks generalizing checks' with
  | nil =>
      cases checks' with
      | nil => rfl
      | cons check' checks' => cases h
  | cons check checks ih =>
      cases checks' with
      | nil => cases h
      | cons check' checks' =>
          rw [List.map_cons, List.map_cons, List.cons.injEq] at h
          rw [List.map_cons, List.map_cons, shown_of_signatureCheckToValue h.1, ih h.2]

/-! ## Reports of runs -/

/-- A report of which the object leaves nothing out: the flag of a check is that of its reason, no
list of signatures is empty, and there is a depth exactly where there is the time of a block. -/
structure Shown (report : VerifyReport) : Prop where
  valid : ∀ checks, report.recordSignatures = some checks →
    checks ≠ [] ∧ ∀ check ∈ checks, check.shown = check
  depth : report.confirmationDepth.isSome = report.blockTime.isSome

theorem shown_verifyOne (crypto : SignaturePrimitives) (i : ℕ) (entry : SigEntry)
    (body : List UInt8) (network : CardanoNetwork) :
    (verifyOne crypto i entry body network).shown = verifyOne crypto i entry body network := by
  rw [verifyOne.eq_def]
  split
  · rfl
  · split
    · rfl
    · rw [verifyResolved]
      split
      · rfl
      · split_ifs
        · rfl
        · rfl

theorem shown_assembleReport {skeleton : ReportSkeleton} {issues : List VerifierIssue}
    {verdict : Verdict} {items : List ItemReportEntry} {merkle : List MerkleReportEntry}
    {record : Option PoeRecord} {signatures : Option (List SignatureCheck)}
    {audit : List HttpCallRecord}
    (h : ∀ checks, signatures = some checks → ∀ check ∈ checks, check.shown = check) :
    Shown (assembleReport skeleton issues verdict items merkle record signatures audit) where
  valid := by
    intro checks hchecks
    obtain ⟨hsome, hne⟩ := Option.filter_eq_some_iff.mp hchecks
    exact ⟨by simpa using hne, h checks hsome⟩
  depth := by
    rw [assembleReport, Option.isSome_map, Option.isSome_map]

theorem shown_reportWithoutRecord {skeleton : ReportSkeleton} {issues : List VerifierIssue}
    {verdict : Verdict} {audit : List HttpCallRecord} :
    Shown (reportWithoutRecord skeleton issues verdict audit) := by
  refine shown_assembleReport ?_
  intro checks hnone
  cases hnone

section Runs
variable {σ : Type} {crypto : VerifierPrimitives} {input : VerifyTxInput} {report : VerifyReport}

theorem shown_signatureChecks {record : PoeRecord} {checks : List SignatureCheck}
    (h : signatureChecks crypto record input = some checks) :
    ∀ check ∈ checks, check.shown = check := by
  rw [signatureChecks] at h
  split_ifs at h
  cases h
  intro check hcheck
  obtain ⟨i, hi, rfl⟩ := List.mem_mapIdx.mp hcheck
  exact shown_verifyOne _ _ _ _ _

theorem shown_runRecordPipeline {recordBody : List UInt8} {blockInfo : BlockInfo}
    {skeleton : ReportSkeleton} {fetcher : GatewayFetcher σ}
    (hrun : runRecordPipeline crypto recordBody blockInfo input skeleton fetcher = .ok report) :
    Shown report := by
  rw [runRecordPipeline] at hrun
  cases hvalid : validatePoeRecord recordBody input.validatorOptions with
  | fail found =>
      rw [hvalid] at hrun
      cases hrun
      exact shown_reportWithoutRecord
  | ok record warnings info =>
      rw [hvalid] at hrun
      dsimp only at hrun
      by_cases hlt : blockInfo.confirmationDepth < skeleton.threshold
      · rw [if_pos hlt] at hrun
        cases hrun
        refine shown_assembleReport ?_
        intro checks hnone
        cases hnone
      · rw [if_neg hlt] at hrun
        obtain ⟨run⟩ := exists_checksRun hrun
        rw [run.report_eq]
        exact shown_assembleReport fun checks hchecks => shown_signatureChecks hchecks

theorem shown_verifyResolvedTx {resolved : ResolvedTx} {fetcher : GatewayFetcher σ}
    (hrun : verifyResolvedTx crypto resolved input fetcher = .ok report) : Shown report := by
  rw [verifyResolvedTx] at hrun
  cases hlabel : label309Value resolved.slices with
  | error e =>
      rw [hlabel] at hrun
      cases hrun
      exact shown_reportWithoutRecord
  | ok value =>
      rw [hlabel] at hrun
      cases value with
      | none =>
          cases hrun
          exact shown_reportWithoutRecord
      | some value =>
          dsimp only at hrun
          cases hbody : reassembleLabel309Value value with
          | error e =>
              rw [hbody] at hrun
              cases hrun
              exact shown_reportWithoutRecord
          | ok recordBody =>
              rw [hbody] at hrun
              exact shown_runRecordPipeline hrun

/-- A report that a run over the chain or over a record body returned. -/
def Returned (crypto : VerifierPrimitives) (σ : Type) (report : VerifyReport) : Prop :=
  (∃ json transport state input,
    verifyTx (σ := σ) crypto json transport state input = .ok report) ∨
  ∃ recordBody blockInfo transport state input,
    verifyRecordBytes (σ := σ) crypto recordBody blockInfo transport state input =
      .ok (.ok report)

theorem shown_of_returned (h : Returned crypto σ report) : Shown report := by
  rcases h with ⟨json, transport, state, input, hrun⟩ |
    ⟨recordBody, blockInfo, transport, state, input, hrun⟩
  · cases transport with
    | none =>
        cases hrun
        exact shown_reportWithoutRecord
    | some transport =>
        rw [verifyTx] at hrun
        dsimp only at hrun
        rcases hresolve : resolveCardanoTx crypto json input.txHash input.cardanoGatewayChain
          input.blockfrostProjectId (.new transport state input.denyHosts) with ⟨outcome, fetcher⟩
        rw [hresolve] at hrun
        cases outcome with
        | error failure =>
            cases hrun
            exact shown_reportWithoutRecord
        | ok resolved => exact shown_verifyResolvedTx hrun
  · rw [verifyRecordBytes] at hrun
    split_ifs at hrun
    exact shown_runRecordPipeline (Except.ok.inj hrun)

end Runs

/-! ## What is read off an object -/

theorem depth_of_filter {d d' t : Option ℕ} (hd : d.isSome = t.isSome) (hd' : d'.isSome = t.isSome)
    (h : (d.filter fun n => 1 ≤ n) = d'.filter fun n => 1 ≤ n) : d = d' := by
  cases d with
  | none =>
      cases d' with
      | none => rfl
      | some n =>
          rw [← hd] at hd'
          cases hd'
  | some m =>
      cases d' with
      | none =>
          rw [← hd'] at hd
          cases hd
      | some n =>
          by_cases hm : 1 ≤ m
          · by_cases hn : 1 ≤ n
            · simpa [Option.filter, hm, hn] using h
            · simp [Option.filter, hm, hn] at h
          · by_cases hn : 1 ≤ n
            · simp [Option.filter, hm, hn] at h
            · have hzero : m = n := by omega
              rw [hzero]

theorem Shown.signatures {report : VerifyReport} (h : Shown report) :
    (report.recordSignatures.filter fun checks => !checks.isEmpty).map
      (List.map SignatureCheck.shown) = report.recordSignatures := by
  cases hsigs : report.recordSignatures with
  | none => rfl
  | some checks =>
      obtain ⟨hne, hshown⟩ := h.valid checks hsigs
      have hsame : checks.map SignatureCheck.shown = checks :=
        (List.map_congr_left hshown).trans (List.map_id _)
      simp [Option.filter, hne, hsame]

theorem mapped_of_values {o o' : Option (List SignatureCheck)}
    (h : (o.map fun checks => JsonValue.array (checks.map signatureCheckToValue)) =
      o'.map fun checks => JsonValue.array (checks.map signatureCheckToValue)) :
    o.map (List.map SignatureCheck.shown) = o'.map (List.map SignatureCheck.shown) := by
  cases o with
  | none =>
      cases o' with
      | none => rfl
      | some checks' => cases h
  | some checks =>
      cases o' with
      | none => cases h
      | some checks' =>
          exact congrArg some (map_shown_of_values (array_injective (Option.some.inj h)))

theorem report_of_verifyReportToDict {debug : CborValue → String} {report report' : VerifyReport}
    (hshown : Shown report) (hshown' : Shown report')
    (h : verifyReportToDict debug report = verifyReportToDict debug report') :
    { report with record := none } = { report' with record := none } ∧
      report.record.map (recordToValue debug) = report'.record.map (recordToValue debug) := by
  have hfields := fields_of_fieldsValue h rfl (by simp)
  simp only [List.cons.injEq, Prod.mk.injEq, Option.some.injEq, true_and, and_true] at hfields
  obtain ⟨hverdict, -, hissues, hitems, hmerkle, haudit, hnetwork, htx, hprofile, hthreshold,
    hdepth, htime, hslot, hrecord, hsigs, hwitnesses, hsummary, hlabels⟩ := hfields
  have hblockTime := Option.map_injective natValue_injective htime
  have hconfirmations := depth_of_filter (hshown.depth.trans (congrArg Option.isSome hblockTime))
    hshown'.depth (Option.map_injective natValue_injective hdepth)
  have hsignatures : report.recordSignatures = report'.recordSignatures :=
    hshown.signatures.symm.trans ((mapped_of_values hsigs).trans hshown'.signatures)
  refine ⟨?_, hrecord⟩
  cases report
  cases report'
  rw [VerifyReport.mk.injEq]
  exact ⟨string_injective htx, Verdict.asStr_injective (string_injective hverdict),
    Profile.asStr_injective (string_injective hprofile), string_injective hnetwork,
    natValue_injective hthreshold, hconfirmations, hblockTime,
    Option.map_injective natValue_injective hslot,
    List.map_injective_iff.mpr issueToValue_injective (array_injective hissues),
    List.map_injective_iff.mpr itemEntryToValue_injective (array_injective hitems),
    List.map_injective_iff.mpr merkleEntryToValue_injective (array_injective hmerkle),
    List.map_injective_iff.mpr auditEntryToValue_injective (array_injective haudit), rfl,
    hsignatures, Option.map_injective (array_injective.comp
      (List.map_injective_iff.mpr txWitnessToValue_injective)) hwitnesses,
    Option.map_injective txSummaryToValue_injective hsummary,
    Option.map_injective (array_injective.comp
      (List.map_injective_iff.mpr natValue_injective)) hlabels⟩

/-- **The object of a run gives its report back.** Two runs, over the chain or over record bodies,
whose reports are written alike returned the same report, but for the record, whose projections are
the same. -/
theorem verifyReportToDict_determines {crypto crypto' : VerifierPrimitives} {σ τ : Type}
    {debug : CborValue → String} {report report' : VerifyReport}
    (hreturned : Returned crypto σ report) (hreturned' : Returned crypto' τ report')
    (h : verifyReportToDict debug report = verifyReportToDict debug report') :
    { report with record := none } = { report' with record := none } ∧
      report.record.map (recordToValue debug) = report'.record.map (recordToValue debug) :=
  report_of_verifyReportToDict (shown_of_returned hreturned) (shown_of_returned hreturned') h

/-- The published sample over its two networks: the objects are the same, and so are the reports,
with their item, their signature and their three requests. -/
theorem verifyReportToDict_determines_published : ∃ report report',
    verifyTx publishedCrypto explorerJson (some explorerTransport) () publishedInput = .ok report ∧
      verifyTx publishedCrypto explorerJson (some narrowTransport) () publishedInput =
        .ok report' ∧
      report.items = [⟨.checked, none⟩] ∧ report.recordSignatures.isSome = true ∧
      report.auditTrail.length = 3 ∧
      { report with record := none } = { report' with record := none } ∧
      report.record.map (recordToValue fun _ => "Null") =
        report'.record.map (recordToValue fun _ => "Null") := by
  obtain ⟨report, hrun, -, hitems, hsignatures, haudit⟩ := exists_report_published
  obtain ⟨both, hwide, hnarrow⟩ := exists_report_verifyTx agreeOnRun_narrowTransport
  rw [hrun] at hwide
  cases hwide
  have hrows : report.auditTrail.length = 3 := by
    rw [← List.length_map (f := HttpCallRecord.url), haudit]
    rfl
  have hsame := @verifyReportToDict_determines publishedCrypto publishedCrypto Unit Unit
    (fun _ => "Null") report report (.inl ⟨explorerJson, some explorerTransport, (), publishedInput, hrun⟩)
    (.inl ⟨explorerJson, some narrowTransport, (), publishedInput, hnarrow⟩) rfl
  exact ⟨report, report, hrun, hnarrow, hitems, by rw [hsignatures]; rfl, hrows, hsame.1, hsame.2⟩

end Label309
