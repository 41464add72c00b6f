import Label309.Cbor.Head
import Label309.Cbor.EncodeSpec
import Label309.Cose

/-!
# What the signed bytes determine

The `Sig_structure` is read back off its encoding, and the two payload modes have
payloads of different lengths, so the signed bytes of a record fix the protected
header, the mode and, unless two signed payloads have one digest, the record body.
-/
namespace Label309
open ExceptBind

/-- The encoding of the structure, piece by piece. -/
theorem buildSigStructure_eq (protectedBytes externalAad payload : List UInt8) :
    buildSigStructure protectedBytes externalAad payload =
      (writeTypeAndArgument 4 4 ++ (writeTypeAndArgument 3 10 ++ utf8Bytes "Signature1")) ++
        (writeTypeAndArgument 2 protectedBytes.length.toUInt64 ++ (protectedBytes ++
          (writeTypeAndArgument 2 externalAad.length.toUInt64 ++ (externalAad ++
            (writeTypeAndArgument 2 payload.length.toUInt64 ++ payload))))) := by
  have htext : (utf8Bytes "Signature1").length = 10 := rfl
  simp [buildSigStructure, sigStructure, encodeCanonicalCbor, writeValue, writeItems, htext]

/-- A byte string shorter than `2 ^ 64` is read back off anything that starts with it. -/
theorem bytes_append_inj {a b as bs : List UInt8} (ha : a.length < 2 ^ 64) (hb : b.length < 2 ^ 64)
    (h : writeTypeAndArgument 2 a.length.toUInt64 ++ (a ++ as) =
      writeTypeAndArgument 2 b.length.toUInt64 ++ (b ++ bs)) : a = b ∧ as = bs := by
  obtain ⟨hlength, hrest⟩ := head_append_inj (by decide) h
  have heq : a.length = b.length := by
    have hmod := congrArg UInt64.toNat hlength
    simp only [Nat.toUInt64_eq, UInt64.toNat_ofNat'] at hmod
    omega
  exact List.append_inj hrest heq

/-- The structure determines its protected bytes and its payload. -/
theorem buildSigStructure_injective {protectedBytes protectedBytes' payload payload' : List UInt8}
    (hp : protectedBytes.length < 2 ^ 64) (hp' : protectedBytes'.length < 2 ^ 64)
    (h : buildSigStructure protectedBytes [] payload = buildSigStructure protectedBytes' [] payload') :
    protectedBytes = protectedBytes' ∧ payload = payload' := by
  rw [buildSigStructure_eq, buildSigStructure_eq] at h
  obtain ⟨hbytes, hrest⟩ := bytes_append_inj hp hp' (List.append_cancel_left h)
  have hpayload := List.append_cancel_left (List.append_cancel_left hrest)
  exact ⟨hbytes, (head_append_inj (by decide) hpayload).2⟩

/-! ## Payloads -/

/-- The payload of the structure in either mode. -/
def signedPayload (crypto : SignaturePrimitives) (hashed : Bool) (body : List UInt8) :
    List UInt8 :=
  if hashed then (crypto.blake2b224 (label309ToSign body)).val else label309ToSign body

theorem signedStructure_eq (crypto : SignaturePrimitives) (hashed : Bool)
    (protectedBytes body : List UInt8) :
    signedStructure crypto hashed protectedBytes body =
      buildSigStructure protectedBytes [] (signedPayload crypto hashed body) := by
  cases hashed <;> rfl

theorem length_label309ToSign (body : List UInt8) :
    (label309ToSign body).length = 25 + body.length := by
  have hdomain : (utf8Bytes cardanoPoeSigDomainPrefix).length = 25 := rfl
  rw [label309ToSign, List.length_append, hdomain]

theorem label309ToSign_injective {body body' : List UInt8}
    (h : label309ToSign body = label309ToSign body') : body = body' :=
  List.append_cancel_left h

/-- A digest is 28 bytes; the payload of a body of more than three bytes is longer. -/
theorem signedPayload_injective {crypto : SignaturePrimitives} {hashed hashed' : Bool}
    {body body' : List UInt8} (hbody : 3 < body.length) (hbody' : 3 < body'.length)
    (hcollision : Set.InjOn crypto.blake2b224 {label309ToSign body, label309ToSign body'})
    (h : signedPayload crypto hashed body = signedPayload crypto hashed' body') :
    hashed = hashed' ∧ body = body' := by
  have hlength := congrArg List.length h
  cases hashed with
  | true =>
      cases hashed' with
      | true =>
          have hdigest := hcollision (by simp) (by simp) (Subtype.ext h)
          exact ⟨rfl, label309ToSign_injective hdigest⟩
      | false =>
          have hdigest := (crypto.blake2b224 (label309ToSign body)).property
          simp only [signedPayload, if_true, hdigest, Bool.false_eq_true, if_false,
            length_label309ToSign] at hlength
          omega
  | false =>
      cases hashed' with
      | true =>
          have hdigest := (crypto.blake2b224 (label309ToSign body')).property
          simp only [signedPayload, if_true, hdigest, Bool.false_eq_true, if_false,
            length_label309ToSign] at hlength
          omega
      | false => exact ⟨rfl, label309ToSign_injective h⟩

/-- Signed bytes fix the protected header, the mode and the record body. -/
theorem signedStructure_injective {crypto : SignaturePrimitives} {hashed hashed' : Bool}
    {protectedBytes protectedBytes' body body' : List UInt8}
    (hp : protectedBytes.length < 2 ^ 64) (hp' : protectedBytes'.length < 2 ^ 64)
    (hbody : 3 < body.length) (hbody' : 3 < body'.length)
    (hcollision : Set.InjOn crypto.blake2b224 {label309ToSign body, label309ToSign body'})
    (h : signedStructure crypto hashed protectedBytes body =
      signedStructure crypto hashed' protectedBytes' body') :
    protectedBytes = protectedBytes' ∧ hashed = hashed' ∧ body = body' := by
  rw [signedStructure_eq, signedStructure_eq] at h
  obtain ⟨hprotected, hpayload⟩ := buildSigStructure_injective hp hp' h
  exact ⟨hprotected, signedPayload_injective hbody hbody' hcollision hpayload⟩

/-! ## The length of a record body -/

theorem EncodedEntries.le_length {pairs : List (CborValue × CborValue)} {body : List UInt8}
    (h : EncodedEntries pairs body) {p : CborValue × CborValue} (hp : p ∈ pairs)
    {kb vb : List UInt8} (hk : writeValue p.1 = .ok kb) (hv : writeValue p.2 = .ok vb) :
    kb.length + vb.length ≤ body.length := by
  induction h with
  | nil => cases hp
  | cons hkey hvalue _ ih =>
      simp only [List.length_append]
      rcases List.mem_cons.mp hp with rfl | hp
      · rw [hkey] at hk
        rw [hvalue] at hv
        cases hk
        cases hv
        omega
      · have hrest := ih hp
        omega

/-- A map with an entry is longer than that entry. -/
theorem lt_length_encode {pairs : List (CborValue × CborValue)} {b : List UInt8}
    (h : encodeCanonicalCbor (.map pairs) = .ok b) {p : CborValue × CborValue} (hp : p ∈ pairs)
    {kb vb : List UInt8} (hk : writeValue p.1 = .ok kb) (hv : writeValue p.2 = .ok vb) :
    kb.length + vb.length < b.length := by
  obtain ⟨_, body, hbody, rfl⟩ := writeValue_map_eq_ok.mp h
  have hmem : p ∈ sortEntries pairs := by simpa [sortEntries] using hp
  have hle := hbody.le_length hmem hk hv
  rw [List.length_append, writeTypeAndArgument_eq, List.length_cons]
  omega

end Label309
