import Label309.Lib.UrlText
import Label309.Verifier.UriAgreement

/-!
# What is asked of a gateway

A gateway is asked for a path under its base. The validator looks at the identifier of an `ipfs://`
URI and not at what follows it, and the path is put into the URL as it is, so it is read as any URL
is when the request is made: blanks are dropped, backslashes are slashes, and its dot segments, in
all their spellings, are removed.
-/
namespace Label309
open DotSegments UrlText

/-! ## URLs -/

/-- No character of a query or a fragment. -/
def inPath (c : Char) : Bool := c != '?' && c != '#'

/-- The path of an absolute URL as it is read: what is between its authority and a query or a
fragment. -/
def urlPath (url : List Char) : Option (List Char) :=
  (splitScheme url).map fun parts =>
    (parts.2.dropWhile fun c => c != '/' && inPath c).takeWhile inPath

/-- The segments of a path that is empty or begins with a slash. -/
def pathSegments (path : List Char) : List (List Char) := (path.splitOn '/').tail

/-- The path that is asked for, its dot segments removed. -/
def requestPath (url : String) : Option (List (List Char)) :=
  (urlPath (readUrl url.toList)).map fun path => remove dotMove [] (pathSegments path)

/-- An absolute URL with an authority, as it is read with a separator behind it, without a query or
a fragment. -/
structure GatewayBase (gateway : String) : Prop where
  absolute : ∃ scheme c rest,
    splitScheme (readUrl (joinGateway gateway "").toList) = some (scheme, c :: rest) ∧ c ≠ '/'
  plain : ∀ c ∈ gateway.toList, inPath c = true

/-- The path of a gateway as a directory, its dot segments removed. -/
def basePath (gateway : String) : List (List Char) :=
  ((urlPath (readUrl (joinGateway gateway "").toList)).elim [] fun path =>
    (pathSegments path).dropLast).foldl (step dotMove) []

/-- The scheme of a gateway is one under which a backslash is a slash, as `https` is. -/
def specialGateway (gateway : String) : Bool :=
  isSpecial (strip (joinGateway gateway "").toList)

/-- The request for a target asks for it under the path of the gateway. -/
def RequestStays (gateway : String) (target : FetchTarget) : Prop :=
  match target with
  | .arweave txid => requestPath (target.url gateway) = some (basePath gateway ++ [txid.toList])
  | .ipfs _ cid _ => ∃ path, requestPath (target.url gateway) = some path ∧
      basePath gateway ++ ["ipfs".toList, cid.toList] <+: path

/-- The segments behind an identifier, up to a query, as they are read under a scheme that is
special or not. -/
def pathAfterCid (special : Bool) (cidAndPath : String) : List (List Char) :=
  (((slashes special (strip cidAndPath.toList)).takeWhile inPath).splitOn '/').tail

/-- From an identifier under `ipfs`, a path never leads above `ipfs` and ends under the
identifier. -/
def FetchTarget.PathStays (special : Bool) : FetchTarget → Prop
  | .arweave _ => True
  | .ipfs cidAndPath cid _ =>
      ∃ path, within dotMove ["ipfs".toList, cid.toList] (pathAfterCid special cidAndPath) =
        some path ∧ ["ipfs".toList, cid.toList] <+: path

/-! ## Joining -/

theorem splitScheme_append {url scheme rest : List Char} (h : splitScheme url = some (scheme, rest))
    (s : List Char) : splitScheme (url ++ s) = some (scheme, rest ++ s) := by
  induction url using splitScheme.induct generalizing scheme rest with
  | case1 tail =>
      cases h
      rfl
  | case2 => cases h
  | case3 c cs hmark ih =>
      rw [splitScheme] at h
      · obtain ⟨parts, hparts, hsplit⟩ := Option.map_eq_some_iff.mp h
        cases hsplit
        rw [List.cons_append, splitScheme, ih hparts]
        · rfl
        · -- The mark is longer than what could be completed to it.
          intro tail hc hcs
          cases cs with
          | nil => cases hparts
          | cons a cs =>
              cases cs with
              | nil => simp [splitScheme] at hparts
              | cons b cs =>
                  rw [List.cons_append, List.cons_append, List.cons.injEq, List.cons.injEq] at hcs
                  exact hmark cs hc (by rw [hcs.1, hcs.2.1])
      · exact hmark

theorem splitScheme_spec {url scheme rest : List Char} (h : splitScheme url = some (scheme, rest)) :
    url = scheme ++ ':' :: '/' :: '/' :: rest := by
  induction url using splitScheme.induct generalizing scheme rest with
  | case1 tail =>
      cases h
      rfl
  | case2 => cases h
  | case3 c cs hmark ih =>
      rw [splitScheme] at h
      · obtain ⟨parts, hparts, hsplit⟩ := Option.map_eq_some_iff.mp h
        cases hsplit
        rw [List.cons_append, ← ih hparts]
      · exact hmark

theorem joinGateway_eq (base suffix : String) :
    joinGateway base suffix = joinGateway base "" ++ suffix := by
  rw [joinGateway, joinGateway]
  split <;> simp

/-- A gateway as it is read with one separator behind it: its scheme, its authority and a path that
ends with the separator. -/
structure Directory (gateway : String) (scheme host path : List Char) : Prop where
  split : splitScheme (readUrl (joinGateway gateway "").toList) =
    some (scheme, host ++ (path ++ ['/']))
  host : ∀ c ∈ host, c ≠ '/' ∧ inPath c = true
  plain : ∀ c ∈ path, inPath c = true
  slash : (path ++ ['/']).head? = some '/'

theorem toList_joinGateway_nil (gateway : String) :
    ∃ front, (joinGateway gateway "").toList = front ++ ['/'] := by
  rw [joinGateway]
  split
  · rename_i hlast
    obtain ⟨front, hfront⟩ := List.getLast?_eq_some_iff.mp hlast
    exact ⟨front, by simpa using hfront⟩
  · exact ⟨gateway.toList, by simp⟩

/-- A gateway with a separator has no query and no fragment either. -/
theorem inPath_of_mem_readUrl {gateway : String} (h : GatewayBase gateway) {c : Char}
    (hc : c ∈ readUrl (joinGateway gateway "").toList) : inPath c = true := by
  rcases mem_of_mem_readUrl hc with hmem | rfl
  · have hjoined := mem_of_mem_strip hmem
    rw [joinGateway] at hjoined
    split at hjoined
    · exact h.plain c (by simpa using hjoined)
    · rw [String.append_empty, String.toList_append, List.mem_append] at hjoined
      rcases hjoined with hjoined | hjoined
      · exact h.plain c hjoined
      · rw [List.mem_singleton.mp hjoined]
        decide
  · decide

theorem exists_directory {gateway : String} (h : GatewayBase gateway) :
    ∃ scheme host path, Directory gateway scheme host path := by
  obtain ⟨scheme, c, rest, hsplit, hc⟩ := h.absolute
  have htext := splitScheme_spec hsplit
  have hplain : ∀ b ∈ c :: rest, inPath b = true := by
    intro b hb
    refine inPath_of_mem_readUrl h ?_
    rw [htext]
    exact List.mem_append_right _ (List.mem_cons_of_mem _ (List.mem_cons_of_mem _
      (List.mem_cons_of_mem _ hb)))
  -- The rest ends with the separator.
  obtain ⟨body, rfl⟩ : ∃ body, rest = body ++ ['/'] := by
    obtain ⟨front, hfront⟩ := toList_joinGateway_nil gateway
    obtain ⟨text, hread⟩ := @readUrl_concat_slash front
    have hlast : (c :: rest).getLast? = some '/' := by
      have hends := congrArg List.getLast? htext
      rw [hfront, hread, List.getLast?_concat, List.getLast?_append, List.getLast?_cons_cons,
        List.getLast?_cons_cons, List.getLast?_cons_cons] at hends
      rw [List.getLast?_eq_some_getLast (List.cons_ne_nil c rest)] at hends ⊢
      exact hends.symm
    rcases rest.eq_nil_or_concat with rfl | ⟨body, last, rfl⟩
    · simp [hc] at hlast
    · rw [List.concat_eq_append, ← List.cons_append, List.getLast?_concat,
        Option.some.injEq] at hlast
      exact ⟨body, by rw [List.concat_eq_append, hlast]⟩
  refine ⟨scheme, c :: body.takeWhile (· ≠ '/'), body.dropWhile (· ≠ '/'), ?_, ?_, ?_, ?_⟩
  · rw [hsplit, List.cons_append, ← List.append_assoc, List.takeWhile_append_dropWhile]
  · rw [← List.cons_append] at hplain
    refine List.forall_mem_cons.mpr ⟨⟨hc, hplain c (by simp)⟩, ?_⟩
    intro b hb
    exact ⟨by simpa using List.mem_takeWhile_imp hb,
      hplain b (List.mem_append_left _ (List.mem_cons_of_mem _ ((List.takeWhile_subset _) hb)))⟩
  · intro b hb
    exact hplain b (List.mem_cons_of_mem _ (List.mem_append_left _ ((List.dropWhile_subset _) hb)))
  · cases hdrop : body.dropWhile (· ≠ '/') with
    | nil => rfl
    | cons b tail =>
        have hb := List.head?_dropWhile_not (· ≠ '/') body
        rw [hdrop] at hb
        simpa using hb

section Request
variable {gateway : String} {scheme host path : List Char}
  (h : Directory gateway scheme host path)
include h

/-- What is put behind a gateway is read behind it. -/
theorem Directory.readUrl {suffix : String}
    (hhead : ∀ c ∈ suffix.toList.head?, isC0OrSpace c = false) :
    readUrl (joinGateway gateway suffix).toList = readUrl (joinGateway gateway "").toList ++
      slashes (specialGateway gateway) (strip suffix.toList) := by
  have hcolon : ':' ∈ strip (joinGateway gateway "").toList := by
    have hmem : ':' ∈ UrlText.readUrl (joinGateway gateway "").toList := by
      rw [splitScheme_spec h.split]
      exact List.mem_append_right _ List.mem_cons_self
    exact (mem_of_mem_readUrl hmem).resolve_right (by decide)
  have hlast : ∀ c ∈ (joinGateway gateway "").toList.getLast?, isC0OrSpace c = false := by
    obtain ⟨front, hfront⟩ := toList_joinGateway_nil gateway
    rw [hfront, List.getLast?_concat]
    rintro c ⟨⟩
    decide
  rw [joinGateway_eq, String.toList_append, readUrl_append hlast hhead hcolon, specialGateway]

/-- The path of a URL whose front is a gateway. -/
theorem Directory.urlPath (rest : List Char) :
    urlPath (UrlText.readUrl (joinGateway gateway "").toList ++ rest) =
      some (path ++ '/' :: rest.takeWhile inPath) := by
  obtain ⟨tail, hslash⟩ : ∃ tail, path ++ ['/'] = '/' :: tail := by
    cases hpath : path ++ ['/'] with
    | nil => simp at hpath
    | cons b tail =>
        have hhead := h.slash
        rw [hpath, List.head?_cons, Option.some.injEq] at hhead
        exact ⟨tail, by rw [hhead]⟩
  have hhost : ∀ c ∈ host, (c != '/' && inPath c) = true := by
    intro c hc
    simp [h.host c hc]
  have hpath : ∀ c ∈ path ++ ['/'], inPath c = true := by
    intro c hc
    rcases List.mem_append.mp hc with hc | hc
    · exact h.plain c hc
    · rw [List.mem_singleton.mp hc]
      decide
  rw [Label309.urlPath, splitScheme_append h.split, Option.map_some, List.append_assoc,
    List.dropWhile_append_of_pos hhost, hslash, List.cons_append,
    List.dropWhile_cons_of_neg (by decide), ← List.cons_append, ← hslash,
    List.takeWhile_append_of_pos hpath, List.append_assoc, List.singleton_append]

omit h in
theorem pathSegments_slash (path s : List Char) :
    pathSegments (path ++ '/' :: s) = (path.splitOn '/').tail ++ s.splitOn '/' := by
  rw [pathSegments, List.splitOn_append_cons_self, List.tail_append_of_ne_nil (by simp)]

theorem Directory.basePath :
    basePath gateway = (path.splitOn '/').tail.foldl (step dotMove) [] := by
  have hpath := h.urlPath []
  have hnil : ([] : List Char).splitOn '/' = [[]] := List.splitOn_eq_singleton (by simp)
  rw [List.append_nil] at hpath
  rw [Label309.basePath, hpath, Option.elim_some, List.takeWhile_nil, pathSegments_slash, hnil,
    List.dropLast_concat]

/-- What is asked for is led to from the path of the gateway. -/
theorem Directory.requestPath {suffix : String}
    (hhead : ∀ c ∈ suffix.toList.head?, isC0OrSpace c = false) :
    requestPath (joinGateway gateway suffix) =
      some (remove dotMove (Label309.basePath gateway)
        (((slashes (specialGateway gateway) (strip suffix.toList)).takeWhile inPath).splitOn
          '/')) := by
  rw [Label309.requestPath, h.readUrl hhead, h.urlPath, Option.map_some, pathSegments_slash,
    remove_append _ (by simp), h.basePath]

end Request

/-! ## Identifiers -/

/-- A letter of an identifier, or padding. -/
def isCidByte (b : UInt8) : Bool := isAsciiAlphanumeric b || b == 61

theorem idxOf_eq_none {alphabet : List UInt8} (halphabet : alphabet.all isCidByte = true) {b : UInt8}
    (hb : isCidByte b = false) : alphabet.idxOf? b = none := by
  rw [List.idxOf?_eq_none_iff]
  intro hmem
  rw [List.all_eq_true.mp halphabet b hmem] at hb
  cases hb

theorem cidByte_base32 {upper : Bool} {body bytes : List UInt8}
    (h : decodeBase32 body upper = some bytes) : ∀ b ∈ body, isCidByte b = true := by
  intro b hb
  by_contra hnot
  rw [Bool.not_eq_true] at hnot
  have hne : ¬ (b == 61) = true := by
    intro hpad
    simp [isCidByte, hpad] at hnot
  -- Only padding is cut away.
  have hkept : b ∈ (body.reverse.dropWhile (· == 61)).reverse := by
    rw [← List.mem_reverse, ← List.takeWhile_append_dropWhile (p := (· == 61)) (l := body.reverse),
      List.mem_append] at hb
    rcases hb with hb | hb
    · exact absurd (List.mem_takeWhile_imp hb) hne
    · exact List.mem_reverse.mpr hb
  have halphabet : (base32Alphabet upper).all isCidByte = true := by
    cases upper <;> decide
  rw [decodeBase32, base32Digits_eq (by decide),
    base32Bits_eq_none hkept (idxOf_eq_none halphabet hnot)] at h
  cases h

theorem cidByte_base16Pairs {upper : Bool} {s out : List UInt8} (heven : s.length % 2 = 0)
    (h : base16Pairs upper s = some out) : ∀ b ∈ s, isCidByte b = true := by
  have hdigit : ∀ (b : UInt8) (upper : Bool), isCidByte b = false → hexDigitOf b upper = none := by
    decide +kernel
  have hall {b d : UInt8} (hb : hexDigitOf b upper = some d) : isCidByte b = true := by
    by_contra hnot
    rw [hdigit b upper (by simpa using hnot)] at hb
    cases hb
  induction s using base16Pairs.induct generalizing out with
  | case1 hi lo rest ih =>
      rw [base16Pairs] at h
      simp only [Option.bind_eq_bind, Option.bind_eq_some_iff] at h
      obtain ⟨a, ha, b, hb, tail, htail, -⟩ := h
      simp only [List.forall_mem_cons]
      have hrest : rest.length % 2 = 0 := by
        rw [List.length_cons, List.length_cons] at heven
        omega
      exact ⟨hall ha, hall hb, ih hrest htail⟩
  | case2 s hs =>
      cases s with
      | nil => simp
      | cons hi tail =>
          cases tail with
          | nil => simp at heven
          | cons lo rest => exact absurd rfl (hs hi lo rest)

theorem cidByte_base16 {upper : Bool} {body bytes : List UInt8}
    (h : decodeBase16 body upper = some bytes) : ∀ b ∈ body, isCidByte b = true := by
  rw [decodeBase16] at h
  by_cases heven : body.length % 2 = 0
  · rw [if_neg (by simp [heven])] at h
    exact cidByte_base16Pairs heven h
  · rw [if_pos heven] at h
    cases h

theorem cidByte_base58Value {v n : ℕ} {s : List UInt8} (h : base58Value v s = some n) :
    ∀ b ∈ s, isCidByte b = true := by
  induction s generalizing v with
  | nil => simp
  | cons ch s ih =>
      rw [base58Value] at h
      by_cases hch : isCidByte ch = true
      · cases hd : base58Alphabet.idxOf? ch with
        | none => simp [hd] at h
        | some d =>
            rw [hd] at h
            exact List.forall_mem_cons.mpr ⟨hch, ih h⟩
      · rw [idxOf_eq_none (by decide) (by simpa using hch)] at h
        cases h

theorem cidByte_base58 {body bytes : List UInt8} (h : decodeBase58btc body = some bytes) :
    ∀ b ∈ body, isCidByte b = true := by
  by_cases hnil : body = []
  · simp [hnil]
  · rw [decodeBase58btc_eq body hnil, Option.map_eq_some_iff] at h
    obtain ⟨n, hn, -⟩ := h
    exact cidByte_base58Value hn

theorem cidByte_multibase {mbPrefix : UInt8} {body bytes : List UInt8}
    (h : decodeMultibase mbPrefix body = some bytes) :
    ∀ b ∈ mbPrefix :: body, isCidByte b = true := by
  have hletter : isCidByte mbPrefix = true := by
    have hall : ∀ p : UInt8, isCidByte p = false →
        p ≠ 98 ∧ p ≠ 66 ∧ p ≠ 102 ∧ p ≠ 70 ∧ p ≠ 122 := by decide +kernel
    by_contra hnot
    simp [decodeMultibase, hall mbPrefix (by simpa using hnot)] at h
  refine List.forall_mem_cons.mpr ⟨hletter, ?_⟩
  rw [decodeMultibase] at h
  split at h
  · exact cidByte_base32 h
  split at h
  · exact cidByte_base32 h
  split at h
  · exact cidByte_base16 h
  split at h
  · exact cidByte_base16 h
  split at h
  · exact cidByte_base58 h
  · cases h

theorem cidByte_of_validate {cid : List UInt8} (h : validateCidProfile cid = true) :
    cid ≠ [] ∧ ∀ b ∈ cid, isCidByte b = true := by
  rw [validateCidProfile.eq_def] at h
  by_cases hv0 : (utf8Bytes "Qm").isPrefixOf cid = true
  · rw [if_pos hv0] at h
    cases hdecode : decodeBase58btc cid with
    | none => simp [hdecode] at h
    | some decoded =>
        refine ⟨?_, cidByte_base58 hdecode⟩
        rintro rfl
        cases hv0
  · rw [if_neg hv0] at h
    cases cid with
    | nil => cases h
    | cons mbPrefix body =>
        cases hdecode : decodeMultibase mbPrefix body with
        | none => simp [hdecode] at h
        | some bytes => exact ⟨by simp, cidByte_multibase hdecode⟩

/-! ## Checked targets -/

/-- A character that a path is read by, or that is not read as it is. -/
def isMark (c : Char) : Bool :=
  c == '/' || c == '.' || c == '%' || c == '?' || c == '#' || !isVisible c

/-- A letter of a transaction identifier or of a content identifier. -/
def isNameByte (b : UInt8) : Bool := isCidByte b || b == 95 || b == 45

/-- A mark has one byte, and it is no letter of a name. -/
theorem isNameByte_of_mark {c : Char} (h : isMark c = true) :
    Utf8.IsAscii c ∧ isNameByte (Utf8.byteOf c) = false := by
  have hlow : ∀ n : Fin 33, isNameByte (UInt8.ofNat n.val) = false := by decide
  simp only [isMark, isVisible, isC0OrSpace, Bool.or_eq_true, beq_iff_eq, Bool.not_eq_true',
    Bool.and_eq_false_iff, Bool.not_eq_false', decide_eq_true_eq, bne_eq_false_iff_eq] at h
  rcases h with ((((rfl | rfl) | rfl) | rfl) | rfl) | hcut | rfl
  case inr.inl =>
    have hle : c.val.toNat ≤ 32 := UInt32.le_iff_toNat_le.mp (Char.le_def.mp hcut)
    refine ⟨?_, hlow ⟨c.val.toNat, by omega⟩⟩
    rw [Utf8.IsAscii]
    omega
  all_goals decide

theorem not_mark_of_bytes {text : String} (h : ∀ b ∈ utf8Bytes text, isNameByte b = true) :
    ∀ c ∈ text.toList, isMark c = false := by
  have hbytes : utf8Bytes text = Utf8.encode text.toList := by
    rw [← utf8Bytes_ofList, String.ofList_toList]
  rw [hbytes] at h
  intro c hc
  rw [Bool.eq_false_iff]
  intro hmark
  obtain ⟨hascii, hno⟩ := isNameByte_of_mark hmark
  rw [h _ ((Utf8.byteOf_mem_encode hascii).mpr hc)] at hno
  cases hno

section Plain
variable {segment : List Char} (h : ∀ c ∈ segment, isMark c = false)
include h

theorem inPath_of_plain : ∀ c ∈ segment, inPath c = true := by
  intro c hc
  have hmark := h c hc
  simp only [isMark, Bool.or_eq_false_iff, beq_eq_false_iff_ne] at hmark
  simp [inPath, hmark]

theorem isVisible_of_plain : ∀ c ∈ segment, isVisible c = true := by
  intro c hc
  have hmark := h c hc
  simp only [isMark, Bool.or_eq_false_iff, Bool.not_eq_false'] at hmark
  exact hmark.2

theorem slash_notMem_of_plain : '/' ∉ segment := by
  intro hmem
  exact absurd (h _ hmem) (by decide)

theorem dotMove_of_not_mark : dotMove segment = .into :=
  dotMove_of_plain (fun hmem => absurd (h _ hmem) (by decide))
    fun hmem => absurd (h _ hmem) (by decide)

end Plain

/-- The identifier of a target is the first segment of what it is followed by. -/
theorem parseFetchTarget_ipfs {uri cidAndPath cid : String} {hasPath : Bool}
    (h : parseFetchTarget uri = some (.ipfs cidAndPath cid hasPath)) :
    cid.toList = cidAndPath.toList.takeWhile (· ≠ '/') := by
  rw [parseFetchTarget] at h
  cases hsplit : splitScheme uri.toList with
  | none => simp [hsplit] at h
  | some parts =>
      rw [hsplit] at h
      dsimp only at h
      repeat' split at h
      all_goals cases h
      simp

/-- What is asked for when a URI is checked: an identifier without marks. -/
def FetchTarget.Plain : FetchTarget → Prop
  | .arweave txid => ∀ c ∈ txid.toList, isMark c = false
  | .ipfs cidAndPath cid _ =>
      cid.toList = cidAndPath.toList.takeWhile (· ≠ '/') ∧ ∀ c ∈ cid.toList, isMark c = false

theorem plain_of_checked {uri : String} (h : checkOneUri uri = none) {target : FetchTarget}
    (hparse : parseFetchTarget uri = some target) (hchecked : FetchesChecked uri target) :
    target.Plain := by
  obtain ⟨idx, hfind, -, hbody⟩ := checkOneUri_eq_none h
  obtain ⟨idx', hfind', hparts⟩ := hchecked
  rw [hfind, Option.some.injEq] at hfind'
  subst hfind'
  have hne : utf8Bytes "ar" ≠ utf8Bytes "ipfs" := by decide
  cases target with
  | arweave txid =>
      obtain ⟨hscheme, hrest⟩ := hparts
      rcases hbody with ⟨-, htxid⟩ | ⟨hipfs, -⟩
      · rw [isArweaveTxid, Bool.and_eq_true, List.all_eq_true, ← hrest] at htxid
        refine not_mark_of_bytes fun b hb => ?_
        have hletter := htxid.2 b hb
        simp only [Bool.or_eq_true] at hletter
        simp only [isNameByte, isCidByte, Bool.or_eq_true]
        tauto
      · exact absurd (hscheme.symm.trans hipfs) hne
  | ipfs cidAndPath cid hasPath =>
      obtain ⟨hscheme, -, hcid, -⟩ := hparts
      rcases hbody with ⟨har, -⟩ | ⟨-, hvalid⟩
      · exact absurd (har.symm.trans hscheme) hne
      · rw [← hcid] at hvalid
        refine ⟨parseFetchTarget_ipfs hparse, not_mark_of_bytes fun b hb => ?_⟩
        rw [isNameByte, (cidByte_of_validate hvalid).2 b hb]
        rfl

theorem requestStays_arweave {gateway txid : String} (hbase : GatewayBase gateway)
    (h : (FetchTarget.arweave txid).Plain) : RequestStays gateway (.arweave txid) := by
  obtain ⟨scheme, host, path, hdir⟩ := exists_directory hbase
  have hvisible := isVisible_of_plain h
  have hhead : ∀ c ∈ txid.toList.head?, isC0OrSpace c = false := fun c hc =>
    not_cut_of_visible hvisible c (List.mem_of_mem_head? hc)
  rw [RequestStays, FetchTarget.url, hdir.requestPath hhead, slashes_strip_of_visible hvisible,
    List.takeWhile_eq_self_iff.mpr (inPath_of_plain h),
    List.splitOn_eq_singleton (slash_notMem_of_plain h),
    remove_singleton_of_into (dotMove_of_not_mark h)]

section Ipfs
variable {cidAndPath cid : String} {hasPath : Bool}
  (h : (FetchTarget.ipfs cidAndPath cid hasPath).Plain)
include h

/-- What follows the identifier is nothing, or it begins with a slash. -/
theorem cidAndPath_eq : cidAndPath.toList = cid.toList ∨
    ∃ tail, cidAndPath.toList = cid.toList ++ '/' :: tail := by
  have hsplit := List.takeWhile_append_dropWhile (p := (· ≠ '/')) (l := cidAndPath.toList)
  rw [← h.1] at hsplit
  cases hdrop : cidAndPath.toList.dropWhile (· ≠ '/') with
  | nil =>
      rw [hdrop, List.append_nil] at hsplit
      exact .inl hsplit.symm
  | cons c tail =>
      have hc := List.head?_dropWhile_not (· ≠ '/') cidAndPath.toList
      rw [hdrop] at hc hsplit
      have hc : c = '/' := by simpa using hc
      rw [hc] at hsplit
      exact .inr ⟨tail, hsplit.symm⟩

/-- The first character is not cut. -/
theorem not_cut_head_cidAndPath : ∀ c ∈ cidAndPath.toList.head?, isC0OrSpace c = false := by
  have hcid := not_cut_of_visible (isVisible_of_plain h.2)
  intro c hc
  have hmem : c = '/' ∨ c ∈ cid.toList := by
    rcases cidAndPath_eq h with heq | ⟨tail, heq⟩
    · rw [heq] at hc
      exact .inr (List.mem_of_mem_head? hc)
    · rw [heq] at hc
      cases hchars : cid.toList with
      | nil =>
          rw [hchars] at hc
          exact .inl (Option.some.inj hc).symm
      | cons d ds =>
          rw [hchars] at hc
          rw [Option.some.inj hc]
          exact .inr List.mem_cons_self
  rcases hmem with rfl | hmem
  · decide
  · exact hcid c hmem

/-- The identifier is one segment of the path. -/
theorem splitOn_cidAndPath (special : Bool) :
    ((slashes special (strip cidAndPath.toList)).takeWhile inPath).splitOn '/' =
      cid.toList :: pathAfterCid special cidAndPath := by
  have hvisible := isVisible_of_plain h.2
  have hpath := inPath_of_plain h.2
  have hslash := slash_notMem_of_plain h.2
  obtain ⟨segs, hsegs⟩ : ∃ segs,
      ((slashes special (strip cidAndPath.toList)).takeWhile inPath).splitOn '/' =
        cid.toList :: segs := by
    rcases cidAndPath_eq h with heq | ⟨tail, heq⟩
    · rw [heq, slashes_strip_of_visible hvisible, List.takeWhile_eq_self_iff.mpr hpath,
        List.splitOn_eq_singleton hslash]
      exact ⟨[], rfl⟩
    · have hlast : ∀ c ∈ cid.toList.getLast?, isC0OrSpace c = false := fun c hc =>
        not_cut_of_visible hvisible c (List.mem_of_getLast? hc)
      have hnext : ∀ c ∈ ('/' :: tail).head?, isC0OrSpace c = false := by
        rintro c ⟨⟩
        decide
      obtain ⟨rest, hrest⟩ := @strip_cons tail '/' (by decide)
      have hkept : slashes special ('/' :: rest) = '/' :: slashes special rest := by
        cases special <;> rfl
      rw [heq, strip_append hlast hnext, slashes_append, slashes_strip_of_visible hvisible, hrest,
        hkept, List.takeWhile_append_of_pos hpath, List.takeWhile_cons_of_pos (by decide),
        List.splitOn_append_cons_self_of_not_mem hslash]
      exact ⟨_, rfl⟩
  rw [pathAfterCid, hsegs, List.tail_cons]

/-- What follows the identifier leads on from it. -/
theorem requestPath_ipfs {gateway : String} (hbase : GatewayBase gateway) :
    requestPath (FetchTarget.url gateway (.ipfs cidAndPath cid hasPath)) =
      some (remove dotMove (basePath gateway ++ ["ipfs".toList, cid.toList])
        (pathAfterCid (specialGateway gateway) cidAndPath)) := by
  obtain ⟨scheme, host, path, hdir⟩ := exists_directory hbase
  have hcid := dotMove_of_not_mark h.2
  have hipfs : ("ipfs/" : String).toList = "ipfs".toList ++ ['/'] := rfl
  have hword : ∀ c ∈ "ipfs".toList ++ ['/'], isVisible c = true ∧ inPath c = true :=
    List.forall_iff_forall_mem.mp (by decide)
  have hname (out : List (List Char)) : step dotMove out "ipfs".toList = out ++ ["ipfs".toList] :=
    step_of_into (by decide)
  have hhead : ∀ c ∈ (("ipfs/" : String) ++ cidAndPath).toList.head?, isC0OrSpace c = false := by
    rw [String.toList_append]
    rintro c ⟨⟩
    decide
  have hread : slashes (specialGateway gateway) (strip ("ipfs/" ++ cidAndPath).toList) =
      "ipfs".toList ++ '/' :: slashes (specialGateway gateway) (strip cidAndPath.toList) := by
    have hlast : ∀ c ∈ ("ipfs".toList ++ ['/']).getLast?, isC0OrSpace c = false := by
      rintro c ⟨⟩
      decide
    rw [String.toList_append, hipfs, strip_append hlast (not_cut_head_cidAndPath h),
      slashes_append, slashes_strip_of_visible fun c hc => (hword c hc).1, List.append_assoc,
      List.singleton_append]
  rw [FetchTarget.url, hdir.requestPath hhead, hread, ← List.singleton_append, ← List.append_assoc,
    List.takeWhile_append_of_pos fun c hc => (hword c hc).2, List.append_assoc,
    List.singleton_append, List.splitOn_append_cons_self_of_not_mem (by decide),
    splitOn_cidAndPath h, remove_cons (by simp), hname]
  by_cases hend : pathAfterCid (specialGateway gateway) cidAndPath = []
  · rw [hend, remove_singleton_of_into hcid, remove, List.append_assoc]
    rfl
  · rw [remove_cons hend, step_of_into hcid, List.append_assoc]
    rfl

/-- A path that stays under its identifier does so on every gateway that reads it alike. -/
theorem requestStays_of_pathStays {gateway : String} (hbase : GatewayBase gateway)
    (hstays : (FetchTarget.ipfs cidAndPath cid hasPath).PathStays (specialGateway gateway)) :
    RequestStays gateway (.ipfs cidAndPath cid hasPath) := by
  obtain ⟨path, hwithin, hplace⟩ := hstays
  exact ⟨_, requestPath_ipfs h hbase, by
    rw [remove_of_within _ hwithin]
    exact List.prefix_append_right_inj _ |>.mpr hplace⟩

end Ipfs

/-! ## A gateway with a new name -/

theorem exists_fresh (segs : List (List Char)) : ∃ n, List.replicate (n + 1) 'a' ∉ segs := by
  obtain ⟨n, hn⟩ := Infinite.exists_notMem_finset (segs.map fun s => s.length - 1).toFinset
  refine ⟨n, ?_⟩
  intro hmem
  refine hn (List.mem_toFinset.mpr (List.mem_map.mpr ⟨_, hmem, ?_⟩))
  simp

/-- A special scheme, or one that is none. -/
def schemeOf : Bool → List Char
  | true => "https".toList
  | false => "gopher".toList

/-- The gateway of a host, with one segment behind it. -/
def gatewayAt (special : Bool) (name : List Char) : String :=
  String.ofList (schemeOf special ++ ':' :: '/' :: '/' :: 'g' :: '/' :: name)

section New
variable {special : Bool} {n : ℕ}

theorem toList_joinGateway_gatewayAt :
    (joinGateway (gatewayAt special (List.replicate (n + 1) 'a')) "").toList =
      schemeOf special ++ ':' :: '/' :: '/' :: 'g' :: '/' ::
        (List.replicate (n + 1) 'a' ++ ['/']) := by
  have hlast : ¬ (gatewayAt special (List.replicate (n + 1) 'a')).toList.getLast? = some '/' := by
    rw [gatewayAt, String.toList_ofList]
    simp [List.getLast?_append, List.getLast?_cons, List.getLast?_replicate]
  rw [joinGateway, if_neg hlast, String.append_empty, String.toList_append, gatewayAt,
    String.toList_ofList]
  simp

/-- It is read as it is. -/
theorem isVisible_gatewayAt :
    ∀ c ∈ (joinGateway (gatewayAt special (List.replicate (n + 1) 'a')) "").toList,
      isVisible c = true := by
  have hscheme : ((schemeOf special).all isVisible) = true := by
    cases special <;> decide
  have hmarks : isVisible ':' = true ∧ isVisible '/' = true ∧ isVisible 'g' = true ∧
      isVisible 'a' = true := by decide
  rw [toList_joinGateway_gatewayAt]
  simp only [List.forall_mem_append, List.forall_mem_cons, List.mem_replicate]
  refine ⟨List.all_eq_true.mp hscheme, hmarks.1, hmarks.2.1, hmarks.2.1, hmarks.2.2.1, hmarks.2.1,
    ?_, hmarks.2.1, by simp⟩
  rintro c ⟨-, rfl⟩
  exact hmarks.2.2.2

theorem splitScheme_gatewayAt :
    splitScheme (readUrl (joinGateway (gatewayAt special (List.replicate (n + 1) 'a')) "").toList) =
      some (schemeOf special, 'g' :: '/' :: (List.replicate (n + 1) 'a' ++ ['/'])) := by
  have hcolon : ':' ∉ schemeOf special := by
    cases special <;> decide
  rw [readUrl_of_visible isVisible_gatewayAt, toList_joinGateway_gatewayAt, splitScheme_eq hcolon]

theorem specialGateway_gatewayAt :
    specialGateway (gatewayAt special (List.replicate (n + 1) 'a')) = special := by
  rw [specialGateway, strip_of_visible isVisible_gatewayAt, toList_joinGateway_gatewayAt]
  cases special with
  | true => rfl
  | false => rfl

theorem gatewayBase_gatewayAt :
    GatewayBase (gatewayAt special (List.replicate (n + 1) 'a')) := by
  refine ⟨⟨_, 'g', _, splitScheme_gatewayAt, by decide⟩, ?_⟩
  have hscheme : ((schemeOf special).all inPath) = true := by
    cases special <;> decide
  rw [gatewayAt, String.toList_ofList]
  simp only [List.forall_mem_append, List.forall_mem_cons, List.mem_replicate]
  refine ⟨List.all_eq_true.mp hscheme, by decide, by decide, by decide, by decide, by decide, ?_⟩
  rintro c ⟨-, rfl⟩
  decide

theorem basePath_gatewayAt :
    basePath (gatewayAt special (List.replicate (n + 1) 'a')) = [List.replicate (n + 1) 'a'] := by
  have hplain : ∀ c ∈ List.replicate (n + 1) 'a', isMark c = false := by
    intro c hc
    rw [List.eq_of_mem_replicate hc]
    decide
  have hdir : Directory (gatewayAt special (List.replicate (n + 1) 'a')) (schemeOf special)
      ['g'] ('/' :: List.replicate (n + 1) 'a') := by
    refine ⟨splitScheme_gatewayAt, by simp [inPath], ?_, rfl⟩
    exact List.forall_mem_cons.mpr ⟨by decide, inPath_of_plain hplain⟩
  have hempty : ([] : List Char).splitOn '/' = [[]] := List.splitOn_eq_singleton (by simp)
  rw [hdir.basePath, ← List.nil_append ('/' :: _), List.splitOn_append_cons_self,
    List.splitOn_eq_singleton (slash_notMem_of_plain hplain), hempty, List.singleton_append,
    List.tail_cons, List.foldl_cons, List.foldl_nil, step_of_into (dotMove_of_not_mark hplain),
    List.nil_append]

end New

theorem pathStays_of_requestStays {cidAndPath cid : String} {hasPath special : Bool}
    (h : (FetchTarget.ipfs cidAndPath cid hasPath).Plain)
    (hstays : ∀ gateway, GatewayBase gateway → specialGateway gateway = special →
      RequestStays gateway (.ipfs cidAndPath cid hasPath)) :
    (FetchTarget.ipfs cidAndPath cid hasPath).PathStays special := by
  obtain ⟨n, hn⟩ := exists_fresh
    (["ipfs".toList, cid.toList] ++ pathAfterCid special cidAndPath)
  rw [List.mem_append, not_or] at hn
  have hbase := @gatewayBase_gatewayAt special n
  obtain ⟨path, hpath, hplace⟩ := hstays _ hbase specialGateway_gatewayAt
  rw [requestPath_ipfs h hbase, basePath_gatewayAt, specialGateway_gatewayAt,
    Option.some.injEq] at hpath
  rw [← hpath, basePath_gatewayAt] at hplace
  exact (under_iff (by simp) hn.1 hn.2 _).mp hplace

/-- **What is asked of a gateway.** The request for a checked URI is for its own identifier on
every gateway exactly when what follows the identifier never leads away from it. The gateways of
special schemes, such as `https`, read a backslash as a slash, and those of other schemes do not. -/
theorem gatewayRequests_iff (uri : String) (h : checkOneUri uri = none) :
    ∃ target, parseFetchTarget uri = some target ∧ FetchesChecked uri target ∧
      ∀ special, (∀ gateway, GatewayBase gateway → specialGateway gateway = special →
        RequestStays gateway target) ↔ target.PathStays special := by
  obtain ⟨target, hparse, hchecked⟩ := uriUsable uri h
  have hplain := plain_of_checked h hparse hchecked
  refine ⟨target, hparse, hchecked, ?_⟩
  intro special
  cases target with
  | arweave txid =>
      exact iff_of_true (fun gateway hbase _ => requestStays_arweave hbase hplain) trivial
  | ipfs cidAndPath cid hasPath =>
      refine ⟨pathStays_of_requestStays hplain, ?_⟩
      rintro hstays gateway hbase rfl
      exact requestStays_of_pathStays hplain hbase hstays

/-- The sha2-256 identifier of a digest of zeros, and a path that returns to it. -/
def returningUri : String :=
  "ipfs://bafkreiaaaaaaaaaaaaaaaaaaaaaaaaaaaaaaaaaaaaaaaaaaaaaaaaaaaa/a/%2E./b"

theorem gatewayRequests_returning :
    ∃ target, parseFetchTarget returningUri = some target ∧ FetchesChecked returningUri target ∧
      ∀ special, (∀ gateway, GatewayBase gateway → specialGateway gateway = special →
        RequestStays gateway target) ↔ target.PathStays special :=
  gatewayRequests_iff returningUri (by decide)

/-- The same identifier, and a path that leads out of `ipfs`. -/
def escapingUri : String :=
  "ipfs://bafkreiaaaaaaaaaaaaaaaaaaaaaaaaaaaaaaaaaaaaaaaaaaaaaaaaaaaa/../../other"

def escapingTarget : FetchTarget :=
  .ipfs "bafkreiaaaaaaaaaaaaaaaaaaaaaaaaaaaaaaaaaaaaaaaaaaaaaaaaaaaa/../../other"
    "bafkreiaaaaaaaaaaaaaaaaaaaaaaaaaaaaaaaaaaaaaaaaaaaaaaaaaaaa" true

theorem requestPath_escaping :
    requestPath (escapingTarget.url "https://g") = some ["other".toList] := by decide

/-- A percent-encoded dot and a backslash lead out of it too. -/
example : requestPath "https://g/ipfs/cid/%2e%2E\\.%2e/other" = some ["other".toList] := by
  decide +kernel

/-- It is checked without an issue, and the gateway is asked for `/other`. -/
theorem gatewayRequests_not_under :
    ¬ (∀ uri gateway target, checkOneUri uri = none → GatewayBase gateway →
      parseFetchTarget uri = some target → RequestStays gateway target) := by
  intro h
  have hbase : GatewayBase "https://g" :=
    ⟨⟨"https".toList, 'g', ['/'], by decide, by decide⟩, List.all_eq_true.mp (by decide)⟩
  obtain ⟨path, hpath, hplace⟩ :=
    h escapingUri "https://g" escapingTarget (by decide) hbase (by decide)
  rw [requestPath_escaping, Option.some.injEq] at hpath
  rw [← hpath] at hplace
  have hlength := hplace.length_le
  simp at hlength

end Label309
