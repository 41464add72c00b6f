import Label309.Verifier.CidDecoders

/-!
# What the validator accepts and the verifier fetches

Every URI that passes validation has a fetch target with its own parts. A content identifier that
passes has fields, unless it is in base32 and not exact.
-/
namespace Label309
open Radix BigEndian

/-! ## Content identifiers -/

/-- The digits after the first one bound the number that is spelled. -/
theorem base58Value_bounds {v n : ℕ} {s : List UInt8} (h : base58Value v s = some n) :
    v * 58 ^ s.length ≤ n ∧ n < (v + 1) * 58 ^ s.length := by
  induction s generalizing v with
  | nil =>
      cases h
      simp
  | cons ch s ih =>
      rw [base58Value] at h
      cases hd : base58Alphabet.idxOf? ch with
      | none => simp [hd] at h
      | some d =>
          rw [hd] at h
          simp only [Option.bind_eq_bind, Option.bind_some] at h
          obtain ⟨hlow, hhigh⟩ := ih h
          have hlt := base58Alphabet_index hd
          rw [List.length_cons, pow_succ]
          constructor
          · calc v * (58 ^ s.length * 58) = (58 * v) * 58 ^ s.length := by ring
              _ ≤ (58 * v + d) * 58 ^ s.length := Nat.mul_le_mul_right _ (by omega)
              _ ≤ n := hlow
          · calc n < (58 * v + d + 1) * 58 ^ s.length := hhigh
              _ ≤ (58 * (v + 1)) * 58 ^ s.length := Nat.mul_le_mul_right _ (by omega)
              _ = (v + 1) * (58 ^ s.length * 58) := by ring

/-- Only 46 digits behind `Q` spell a sha2-256 multihash of 34 bytes. -/
theorem length_of_cidV0 {cid decoded : List UInt8} (hstart : (utf8Bytes "Qm").isPrefixOf cid = true)
    (hdecode : decodeBase58btc cid = some decoded) (hlen : decoded.length = 34)
    (hcode : decoded[0]? = some 0x12) (hsize : decoded[1]? = some 0x20) : cid.length = 46 := by
  obtain ⟨rest, rfl⟩ : ∃ rest, cid = 81 :: rest := by
    obtain ⟨tail, htail⟩ := List.isPrefixOf_iff_prefix.mp hstart
    have hq : utf8Bytes "Qm" = [81, 109] := by decide
    rw [hq] at htail
    exact ⟨109 :: tail, by simpa using htail.symm⟩
  rw [decodeBase58btc_eq _ (by simp), List.takeWhile_cons_of_neg (by decide)] at hdecode
  obtain ⟨n, hvalue, hbytes⟩ := Option.map_eq_some_iff.mp hdecode
  rw [List.length_nil, List.replicate_zero, List.nil_append] at hbytes
  have hn := ofBe_reverse_leBytes n
  rw [hbytes] at hn
  match decoded, hlen, hcode, hsize with
  | a :: b :: digest, hlen, hcode, hsize =>
      cases hcode
      cases hsize
      have hdigest : digest.length = 32 := by simpa using hlen
      have hlt := ofBe_lt digest
      have hcons : n = 0x12 * 256 ^ 33 + (0x20 * 256 ^ 32 + ofBe digest) := by
        rw [← hn, ofBe, ofBe, List.length_cons, hdigest]
        rfl
      rw [hdigest] at hlt
      have hq : base58Alphabet.idxOf? 81 = some 23 := by decide
      rw [base58Value, hq] at hvalue
      simp only [Option.bind_eq_bind, Option.bind_some] at hvalue
      obtain ⟨hlow, hhigh⟩ := base58Value_bounds hvalue
      rw [List.length_cons]
      by_contra hne
      by_cases hshort : rest.length ≤ 44
      · have hpow : (58 : ℕ) ^ rest.length ≤ 58 ^ 44 := Nat.pow_le_pow_right (by decide) hshort
        have hbound : 24 * (58 : ℕ) ^ 44 ≤ 0x12 * 256 ^ 33 := by norm_num
        omega
      · have hpow : (58 : ℕ) ^ 46 ≤ 58 ^ rest.length := Nat.pow_le_pow_right (by decide) (by omega)
        have hbound : 0x12 * 256 ^ 33 + 0x21 * 256 ^ 32 ≤ 23 * (58 : ℕ) ^ 46 := by norm_num
        omega

/-- The fields that the validator reads from an identifier. -/
def ValidatedFields (cid : List UInt8) (parsed : ParsedCid) : Prop :=
  if (utf8Bytes "Qm").isPrefixOf cid then
    ∃ decoded, decodeBase58btc cid = some decoded ∧
      parsed = ⟨0, 0x70, multihashSha2256, decoded.drop 2⟩
  else
    ∃ mbPrefix body bytes p1 p2 p3 p4, cid = mbPrefix :: body ∧
      decodeMultibase mbPrefix body = some bytes ∧
      readVarint bytes 0 = some (parsed.version, p1) ∧
      readVarint bytes p1 = some (parsed.codec, p2) ∧
      readVarint bytes p2 = some (parsed.multihashCode, p3) ∧
      readVarint bytes p3 = some (32, p4) ∧ parsed.digest = bytes.drop p4

/-- An identifier that the validator accepts is parsed, to the fields that were validated. -/
def CidUsable (cid : String) : Prop :=
  validateCidProfile (utf8Bytes cid) = true →
    ∃ parsed, parseCid cid = .ok (some parsed) ∧ ValidatedFields (utf8Bytes cid) parsed ∧
      parsed.digest.length = 32

/-- An identifier in base32 that the validator accepts has no padding and no bits left over. -/
def CidExact (cid : String) : Prop :=
  validateCidProfile (utf8Bytes cid) = true → ∀ mbPrefix body, utf8Bytes cid = mbPrefix :: body →
    (mbPrefix = 98 → Base32Exact false body) ∧ (mbPrefix = 66 → Base32Exact true body)

/-- The fields of a body that the validator accepts. -/
theorem parseCidFields_of_validateCidBody {bytes : List UInt8}
    (h : validateCidBody bytes = some true) :
    ∃ parsed p1 p2 p3 p4, parseCidFields bytes = some parsed ∧
      readVarint bytes 0 = some (parsed.version, p1) ∧
      readVarint bytes p1 = some (parsed.codec, p2) ∧
      readVarint bytes p2 = some (parsed.multihashCode, p3) ∧
      readVarint bytes p3 = some (32, p4) ∧ parsed.digest = bytes.drop p4 ∧
      parsed.digest.length = 32 := by
  rw [validateCidBody] at h
  cases hversion : readVarint bytes 0 with
  | none => simp [hversion] at h
  | some version =>
  cases hcodec : readVarint bytes version.2 with
  | none => simp [hversion, hcodec] at h
  | some codec =>
  cases hcode : readVarint bytes codec.2 with
  | none => simp [hversion, hcodec, hcode] at h
  | some mhCode =>
  cases hsize : readVarint bytes mhCode.2 with
  | none => simp [hversion, hcodec, hcode, hsize] at h
  | some digestLen =>
  obtain ⟨hone, -, -, hlen, hend⟩ : version.1 = 1 ∧
      (¬ codec.1 = 0x55 → ¬ codec.1 = 0x70 → codec.1 = 0x71) ∧
      (¬ mhCode.1 = 0x12 → mhCode.1 = 0xb220) ∧ digestLen.1 = 32 ∧
      digestLen.2 + digestLen.1.toNat = bytes.length := by
    simpa [hversion, hcodec, hcode, hsize] using h
  have hdigest : (bytes.drop digestLen.2).length = digestLen.1.toNat := by
    rw [List.length_drop]
    omega
  refine ⟨⟨version.1, codec.1, mhCode.1, bytes.drop digestLen.2⟩, version.2, codec.2, mhCode.2,
    digestLen.2, ?_, rfl, hcodec, hcode, ?_, rfl, by rw [hdigest, hlen]; rfl⟩
  · have hrest : bytes.length - digestLen.2 = digestLen.1.toNat := by omega
    simp [parseCidFields, readVarint_eq, hversion, hone, hcodec, hcode, hsize, hrest]
  · rw [hsize, ← hlen]

/-- The verifier's reading of a body that the validator decodes, unless it is in base32. -/
theorem decodeBody_of_decodeMultibase {mbPrefix : UInt8} {body bytes : List UInt8}
    (h : decodeMultibase mbPrefix body = some bytes) (hne : bytes ≠ []) :
    ((mbPrefix = 98 → Base32Exact false body) ∧ (mbPrefix = 66 → Base32Exact true body) →
        Content.decodeBody mbPrefix body = some bytes) ∧
      (¬ ((mbPrefix = 98 → Base32Exact false body) ∧ (mbPrefix = 66 → Base32Exact true body)) →
        Content.decodeBody mbPrefix body = none) := by
  rw [decodeMultibase] at h
  rw [Content.decodeBody]
  by_cases hlower : mbPrefix = 98
  · subst hlower
    rw [if_pos rfl] at h ⊢
    have hexact : ((98 : UInt8) = 98 → Base32Exact false body) ∧
        ((98 : UInt8) = 66 → Base32Exact true body) ↔ Base32Exact false body := by simp
    rw [hexact]
    exact contentDecodeBase32_eq h
  by_cases hupper : mbPrefix = 66
  · subst hupper
    rw [if_neg hlower, if_pos rfl] at h ⊢
    have hexact : ((66 : UInt8) = 98 → Base32Exact false body) ∧
        ((66 : UInt8) = 66 → Base32Exact true body) ↔ Base32Exact true body := by simp
    rw [hexact]
    exact contentDecodeBase32_eq h
  -- No other body is in base32.
  refine ⟨fun _ => ?_, fun hnot => absurd ⟨fun hc => absurd hc hlower, fun hc => absurd hc hupper⟩
    hnot⟩
  rw [if_neg hlower, if_neg hupper] at h ⊢
  by_cases hhex : mbPrefix = 102
  · rw [if_pos hhex] at h ⊢
    exact decodeBase16_lower h
  by_cases hhexUpper : mbPrefix = 70
  · rw [if_neg hhex, if_pos hhexUpper] at h ⊢
    exact decodeBase16_upper h
  by_cases hbase58 : mbPrefix = 122
  · rw [if_neg hhex, if_neg hhexUpper, if_pos hbase58] at h ⊢
    have hbody : body ≠ [] := by
      intro hnil
      subst hnil
      cases h
      exact hne rfl
    rw [contentDecodeBase58btc_eq hbody, h]
  · simp [hhex, hhexUpper, hbase58] at h

theorem decodeMultibase_ascii {mbPrefix : UInt8} {body bytes : List UInt8}
    (h : decodeMultibase mbPrefix body = some bytes) : ¬ 0x80 ≤ mbPrefix := by
  intro hle
  have hall : ∀ p : UInt8, 0x80 ≤ p → p ≠ 98 ∧ p ≠ 66 ∧ p ≠ 102 ∧ p ≠ 70 ∧ p ≠ 122 := by
    decide +kernel
  simp [decodeMultibase, hall mbPrefix hle] at h

/-- A base58btc multihash is parsed as it was validated. -/
theorem parseCid_v0 {cid : String} (hv0 : (utf8Bytes "Qm").isPrefixOf (utf8Bytes cid) = true)
    (hvalid : validateCidProfile (utf8Bytes cid) = true) :
    ∃ parsed, parseCid cid = .ok (some parsed) ∧ ValidatedFields (utf8Bytes cid) parsed ∧
      parsed.digest.length = 32 := by
  rw [validateCidProfile.eq_def, if_pos hv0] at hvalid
  cases hdecode : decodeBase58btc (utf8Bytes cid) with
  | none => simp [hdecode] at hvalid
  | some decoded =>
      obtain ⟨⟨hlen, hcode⟩, hsize⟩ : (decoded.length = 34 ∧ decoded[0]? = some 0x12) ∧
          decoded[1]? = some 0x20 := by simpa [hdecode] using hvalid
      have hcid := length_of_cidV0 hv0 hdecode hlen hcode hsize
      have hne : utf8Bytes cid ≠ [] := List.ne_nil_of_length_pos (by omega)
      refine ⟨⟨0, 0x70, multihashSha2256, decoded.drop 2⟩, ?_, ?_, ?_⟩
      · rw [parseCid]
        cases hbytes : utf8Bytes cid with
        | nil => exact absurd hbytes hne
        | cons mbPrefix body =>
            rw [hbytes] at hv0 hcid hdecode
            dsimp only
            have hcond : ¬ (decoded.length ≠ 34 ∨ decoded[0]? ≠ some 0x12 ∨
                decoded[1]? ≠ some 32) := by
              rw [hlen, hcode, hsize]
              decide
            rw [if_pos ⟨hv0, hcid⟩, parseCidV0, contentDecodeBase58btc_eq (by simp), hdecode]
            simp only [Option.bind_eq_bind, Option.bind_some, if_neg hcond]
      · rw [ValidatedFields, if_pos hv0]
        exact ⟨decoded, hdecode, rfl⟩
      · rw [List.length_drop, hlen]

theorem cidUsable_iff (cid : String) : CidUsable cid ↔ CidExact cid := by
  rw [CidUsable, CidExact]
  refine forall_congr' fun hvalid => ?_
  by_cases hv0 : (utf8Bytes "Qm").isPrefixOf (utf8Bytes cid) = true
  · refine iff_of_true (parseCid_v0 hv0 hvalid) ?_
    intro mbPrefix body hbytes
    -- The first byte is `Q`.
    obtain ⟨tail, htail⟩ := List.isPrefixOf_iff_prefix.mp hv0
    have hq : utf8Bytes "Qm" = [81, 109] := by decide
    rw [hbytes, hq] at htail
    have hstart : mbPrefix = 81 := (List.cons.inj htail).1.symm
    subst hstart
    exact ⟨fun hc => absurd hc (by decide), fun hc => absurd hc (by decide)⟩
  · have hparts := hvalid
    rw [validateCidProfile.eq_def, if_neg hv0] at hparts
    cases hbytes : utf8Bytes cid with
    | nil => simp [hbytes] at hparts
    | cons mbPrefix body =>
        rw [hbytes] at hparts
        dsimp only at hparts
        cases hdecode : decodeMultibase mbPrefix body with
        | none => simp [hdecode] at hparts
        | some bytes =>
            obtain ⟨hlong, hbody⟩ : 4 ≤ bytes.length ∧ validateCidBody bytes = some true := by
              cases hcid : validateCidBody bytes with
              | none => simp [hdecode, hcid] at hparts
              | some ok => simpa [hdecode, hcid] using hparts
            have hne : bytes ≠ [] := List.ne_nil_of_length_pos (by omega)
            obtain ⟨hexact, hinexact⟩ := decodeBody_of_decodeMultibase hdecode hne
            have hparse : parseCid cid =
                .ok ((Content.decodeBody mbPrefix body).bind parseCidFields) := by
              rw [parseCid, hbytes]
              dsimp only
              rw [hbytes] at hv0
              rw [if_neg (fun hc => hv0 hc.1), if_neg (decodeMultibase_ascii hdecode)]
            constructor
            · intro husable mbPrefix' body' hcons
              obtain ⟨parsed, hparsed, -⟩ := husable
              obtain ⟨rfl, rfl⟩ := List.cons.inj hcons
              by_contra hnot
              rw [hparse, hinexact hnot] at hparsed
              cases hparsed
            · intro h
              obtain ⟨parsed, p1, p2, p3, p4, hfields, hversion, hcodec, hcode, hsize, hdigest,
                hlen⟩ := parseCidFields_of_validateCidBody hbody
              refine ⟨parsed, by rw [hparse, hexact (h mbPrefix body rfl), Option.bind_some, hfields],
                ?_, hlen⟩
              rw [hbytes] at hv0
              rw [ValidatedFields, if_neg hv0]
              exact ⟨mbPrefix, body, bytes, p1, p2, p3, p4, rfl, hdecode, hversion, hcodec, hcode,
                hsize, hdigest⟩

/-! ## Locations -/

theorem findSubslice_spec {haystack needle : List UInt8} {i : ℕ}
    (h : findSubslice haystack needle = some i) :
    haystack = haystack.take i ++ (needle ++ haystack.drop (i + needle.length)) := by
  rw [findSubslice] at h
  by_cases hshort : needle.isEmpty || haystack.length < needle.length
  · simp [hshort] at h
  · rw [if_neg hshort] at h
    have hat : (haystack.drop i).take needle.length = needle := by
      simpa using List.find?_some h
    conv_lhs => rw [← List.take_append_drop i haystack,
      ← List.take_append_drop needle.length (haystack.drop i), hat, List.drop_drop]

/-- The scheme ends at the first mark, when it has no colon. -/
theorem splitScheme_eq {scheme : List Char} (hcolon : ':' ∉ scheme) (rest : List Char) :
    splitScheme (scheme ++ ':' :: '/' :: '/' :: rest) = some (scheme, rest) := by
  induction scheme with
  | nil => rfl
  | cons c scheme ih =>
      rw [List.mem_cons, not_or] at hcolon
      have hstep : ∀ cs, splitScheme (c :: cs) =
          (splitScheme cs).map fun parts => (c :: parts.1, parts.2) := by
        intro cs
        rw [splitScheme]
        intro rest' hc
        exact absurd hc.symm hcolon.1
      rw [List.cons_append, hstep, ih hcolon.2]
      rfl

/-- The target of a URI has its scheme and, in the bytes of the URI, the parts after the mark. -/
def FetchesChecked (uri : String) (target : FetchTarget) : Prop :=
  ∃ idx, findSubslice (utf8Bytes uri) (utf8Bytes "://") = some idx ∧
    let scheme := ((utf8Bytes uri).take idx).map toAsciiLowercase
    let rest := (utf8Bytes uri).drop (idx + 3)
    match target with
    | .arweave txid => scheme = utf8Bytes "ar" ∧ utf8Bytes txid = rest
    | .ipfs cidAndPath cid hasPath =>
        scheme = utf8Bytes "ipfs" ∧ utf8Bytes cidAndPath = rest ∧
          utf8Bytes cid = rest.takeWhile (· != 47) ∧ (hasPath = true ↔ 47 ∈ rest)

/-- A URI that the validator accepts has a fetch target with the parts that were validated. -/
def UriUsable (uri : String) : Prop :=
  checkOneUri uri = none → ∃ target, parseFetchTarget uri = some target ∧
    FetchesChecked uri target

/-- A URI without an issue: a scheme, the mark, and a body that its scheme asks for. -/
theorem checkOneUri_eq_none {uri : String} (h : checkOneUri uri = none) :
    ∃ idx, findSubslice (utf8Bytes uri) (utf8Bytes "://") = some idx ∧
      isUriScheme ((utf8Bytes uri).take idx) = true ∧
      ((((utf8Bytes uri).take idx).map toAsciiLowercase = utf8Bytes "ar" ∧
          isArweaveTxid ((utf8Bytes uri).drop (idx + 3)) = true) ∨
        (((utf8Bytes uri).take idx).map toAsciiLowercase = utf8Bytes "ipfs" ∧
          validateCidProfile (((utf8Bytes uri).drop (idx + 3)).takeWhile (· != 47)) = true)) := by
  rw [checkOneUri] at h
  dsimp only at h
  by_cases hfragment : (utf8Bytes uri).contains 35
  · rw [if_pos hfragment] at h
    cases h
  · rw [if_neg hfragment] at h
    cases hfind : findSubslice (utf8Bytes uri) (utf8Bytes "://") with
    | none =>
        rw [hfind] at h
        cases h
    | some idx =>
        rw [hfind] at h
        dsimp only at h
        by_cases hscheme : idx = 0 ∨ isUriScheme ((utf8Bytes uri).take idx) = false
        · rw [if_pos hscheme] at h
          cases h
        · rw [if_neg hscheme] at h
          have hvalid : isUriScheme ((utf8Bytes uri).take idx) = true := by
            by_contra hnot
            exact hscheme (.inr (by simpa using hnot))
          refine ⟨idx, rfl, hvalid, ?_⟩
          by_cases har : ((utf8Bytes uri).take idx).map toAsciiLowercase = utf8Bytes "ar"
          · rw [if_pos har] at h
            by_cases htxid : isArweaveTxid ((utf8Bytes uri).drop (idx + 3)) = true
            · exact .inl ⟨har, htxid⟩
            · rw [if_neg htxid] at h
              cases h
          · rw [if_neg har] at h
            by_cases hipfs : ((utf8Bytes uri).take idx).map toAsciiLowercase = utf8Bytes "ipfs"
            · rw [if_pos hipfs] at h
              by_cases hcid : validateCidProfile
                  (((utf8Bytes uri).drop (idx + 3)).takeWhile (· != 47)) = true
              · exact .inr ⟨hipfs, hcid⟩
              · rw [if_neg hcid] at h
                cases h
            · rw [if_neg hipfs] at h
              cases h

/-- A text whose bytes have the mark has it itself. -/
theorem exists_cut_of_mark {cs : List Char} {p q : List UInt8}
    (h : Utf8.encode cs = p ++ (utf8Bytes "://" ++ q)) :
    ∃ pc qc, cs = pc ++ ':' :: '/' :: '/' :: qc ∧ Utf8.encode pc = p ∧ Utf8.encode qc = q := by
  have hmark : utf8Bytes "://" = [Utf8.byteOf ':', Utf8.byteOf '/', Utf8.byteOf '/'] := by decide
  rw [hmark] at h
  obtain ⟨pc, qc, rfl, hp, hq⟩ := Utf8.encode_eq_append_cons (show Utf8.IsAscii ':' by decide) h
  obtain ⟨p1, q1, rfl, hp1, hq1⟩ := @Utf8.encode_eq_append_cons '/' (by decide) qc [] _ hq
  obtain ⟨p2, q2, rfl, hp2, hq2⟩ := @Utf8.encode_eq_append_cons '/' (by decide) q1 [] _ hq1
  rw [Utf8.encode_eq_nil hp1, Utf8.encode_eq_nil hp2]
  exact ⟨pc, q2, rfl, hp, hq2⟩

theorem isUriScheme_bytes {scheme : List UInt8} (h : isUriScheme scheme = true) :
    ∀ b ∈ scheme, b.toNat < 128 ∧ b ≠ 58 := by
  have hall : ∀ b : UInt8, (isAsciiAlphabetic b = true → b.toNat < 128 ∧ b ≠ 58) ∧
      ((isAsciiAlphanumeric b || b == 43 || b == 46 || b == 45) = true →
        b.toNat < 128 ∧ b ≠ 58) := by decide +kernel
  cases scheme with
  | nil => cases h
  | cons first rest =>
      rw [isUriScheme, Bool.and_eq_true, List.all_eq_true] at h
      intro b hb
      rcases List.mem_cons.mp hb with rfl | hb
      · exact (hall b).1 h.1
      · exact (hall b).2 (h.2 b hb)

/-- Folding the case of ASCII characters folds it on their bytes. -/
theorem map_toLower_eq {cs word : List Char} (hcs : ∀ c ∈ cs, Utf8.IsAscii c)
    (hword : ∀ c ∈ word, Utf8.IsAscii c)
    (h : (cs.map Utf8.byteOf).map toAsciiLowercase = word.map Utf8.byteOf) :
    cs.map Char.toLower = word := by
  induction cs generalizing word with
  | nil =>
      rw [List.map_nil, List.map_nil, eq_comm, List.map_eq_nil_iff] at h
      rw [h]
      rfl
  | cons c cs ih =>
      cases word with
      | nil => simp at h
      | cons w word =>
          rw [List.forall_mem_cons] at hcs hword
          simp only [List.map_cons, List.cons.injEq] at h
          have hlower : Utf8.IsAscii c.toLower ∧
              Utf8.byteOf c.toLower = toAsciiLowercase (Utf8.byteOf c) :=
            @Utf8.ascii_cases (fun c => Utf8.IsAscii c.toLower ∧
              Utf8.byteOf c.toLower = toAsciiLowercase (Utf8.byteOf c)) (by decide) c hcs.1
          rw [List.map_cons, ih hcs.2 hword.2 h.2,
            Utf8.byteOf_injective hlower.1 hword.1 (hlower.2.trans h.1)]

/-- A scheme begins with a letter. -/
theorem head_isAlpha {cs : List Char} (hcs : ∀ c ∈ cs, Utf8.IsAscii c)
    (h : isUriScheme (cs.map Utf8.byteOf) = true) : cs.head?.any Char.isAlpha = true := by
  cases cs with
  | nil => cases h
  | cons c cs =>
      rw [List.map_cons, isUriScheme, Bool.and_eq_true] at h
      have halpha : isAsciiAlphabetic (Utf8.byteOf c) = true → c.isAlpha = true :=
        @Utf8.ascii_cases (fun c => isAsciiAlphabetic (Utf8.byteOf c) = true → c.isAlpha = true)
          (by decide) c (hcs c List.mem_cons_self)
      simpa using halpha h.1

theorem word_isAscii {word : String} {cs : List Char} (hword : word = String.ofList cs)
    (hcs : (cs.all fun c => decide (Utf8.IsAscii c)) = true) :
    ∀ c ∈ word.toList, Utf8.IsAscii c := by
  rw [hword, String.toList_ofList]
  simpa using hcs

theorem uriUsable (uri : String) : UriUsable uri := by
  intro h
  obtain ⟨idx, hfind, hscheme, hbody⟩ := checkOneUri_eq_none h
  have hbytes : utf8Bytes uri = Utf8.encode uri.toList := by
    rw [← utf8Bytes_ofList, String.ofList_toList]
  have hmark : (utf8Bytes "://").length = 3 := by decide
  have hcut := findSubslice_spec hfind
  rw [hmark] at hcut
  obtain ⟨scheme, rest, hchars, hp, hq⟩ := exists_cut_of_mark (hbytes.symm.trans hcut)
  have hsmall : ∀ b ∈ Utf8.encode scheme, b.toNat < 128 ∧ b ≠ 58 := by
    rw [hp]
    exact isUriScheme_bytes hscheme
  have hascii : ∀ c ∈ scheme, Utf8.IsAscii c :=
    Utf8.isAscii_of_encode fun b hb => (hsmall b hb).1
  have hcolon : ':' ∉ scheme := by
    intro hmem
    have hbyte := (Utf8.byteOf_mem_encode (show Utf8.IsAscii ':' by decide)).mpr hmem
    exact (hsmall _ hbyte).2 rfl
  have hmap : (utf8Bytes uri).take idx = scheme.map Utf8.byteOf := by
    rw [← hp, Utf8.encode_ascii hascii]
  have hrest : utf8Bytes (String.ofList rest) = (utf8Bytes uri).drop (idx + 3) := by
    rw [utf8Bytes_ofList, hq]
  have halpha : ¬ (scheme.head?.any Char.isAlpha) = false := by
    rw [head_isAlpha hascii (hmap ▸ hscheme)]
    decide
  have hslash : Utf8.byteOf '/' = 47 := by decide
  rw [parseFetchTarget, hchars, splitScheme_eq hcolon]
  dsimp only
  rw [if_neg halpha]
  rcases hbody with ⟨har, htxid⟩ | ⟨hipfs, hcid⟩
  · have hlower : scheme.map Char.toLower = "ar".toList :=
      map_toLower_eq hascii (@word_isAscii _ ['a', 'r'] rfl (by decide))
        (by rw [← hmap, har]; decide)
    rw [if_pos hlower, hrest, if_pos htxid]
    exact ⟨_, rfl, idx, hfind, har, hrest⟩
  · have hlower : scheme.map Char.toLower = "ipfs".toList :=
      map_toLower_eq hascii (@word_isAscii _ ['i', 'p', 'f', 's'] rfl (by decide))
        (by rw [← hmap, hipfs]; decide)
    have hcidBytes : utf8Bytes (String.ofList (rest.takeWhile (· ≠ '/'))) =
        ((utf8Bytes uri).drop (idx + 3)).takeWhile (· != 47) := by
      rw [utf8Bytes_ofList, ← Utf8.takeWhile_encode (by decide), hq, hslash]
    have hne : rest.takeWhile (· ≠ '/') ≠ [] := by
      intro hnil
      rw [← hcidBytes, hnil] at hcid
      exact absurd hcid (by decide)
    rw [if_neg (by rw [hlower]; decide), if_pos hlower, if_neg hne]
    refine ⟨_, rfl, idx, hfind, hipfs, hrest, hcidBytes, ?_⟩
    rw [← hq, ← hslash, Utf8.byteOf_mem_encode (by decide), List.contains_iff_mem]

/-- **What is accepted can be used.** Every accepted URI has a fetch target of its own parts, and
an accepted content identifier has fields exactly when it is exact. -/
theorem accepted_usable_iff (uri cid : String) :
    UriUsable uri ∧ (CidUsable cid ↔ CidExact cid) :=
  ⟨uriUsable uri, cidUsable_iff cid⟩

/-! ## An identifier with padding -/

/-- The sha2-256 identifier of a digest of zeros, with one padding character. -/
def paddedCid : String := "bafkreiaaaaaaaaaaaaaaaaaaaaaaaaaaaaaaaaaaaaaaaaaaaaaaaaaaaa="

set_option maxRecDepth 8000 in
/-- The validator accepts it, and the verifier does not read it. -/
theorem not_cidUsable_padded : ¬ CidUsable paddedCid := by
  intro h
  obtain ⟨parsed, hparsed, -⟩ := h (by decide)
  have hnone : parseCid paddedCid = .ok none := by decide
  rw [hnone] at hparsed
  cases hparsed

end Label309
