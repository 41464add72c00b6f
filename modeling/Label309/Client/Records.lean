import Label309.Client.Resumable
import Label309.Lib.PercentEncoding
import Label309.Verifier.GatewayPath
import Label309.Verifier.IssueOrder

/-!
# Reading records

The client lists records, counts those of a signer, and gets the record of a transaction. Each is
one request, and its parameters are percent-encoded into the URL, so a gateway that reads the URL
finds the parameters as they were given. A path segment is encoded too, but a dot segment stays one.
-/
namespace Label309
open DotSegments PercentEncoding Traced UrlText

/-! ## Encoding -/

/-- A name or a value of a query. -/
def encodeQueryComponent (value : String) : String :=
  String.ofList (formEncode isUnreserved (utf8Bytes value))

/-- The pairs of a query. -/
def encodeQuery (pairs : List (String × String)) : String :=
  String.ofList (['&'].intercalate (pairs.map fun pair =>
    (encodeQueryComponent pair.1).toList ++ '=' :: (encodeQueryComponent pair.2).toList))

/-! ## Inputs -/

/-- The page that is asked for. -/
structure RecordsListInput where
  cursor : Option String
  limit : Option UInt64
  sealed : Option Bool

/-- The records that are counted. -/
structure RecordsCountInput where
  signer : String
  scheme : Option UInt8
  sealed : Option Bool
  fromBlock : Option UInt64
  toBlock : Option UInt64
  fromTime : Option String
  toTime : Option String

/-- A parameter that may be left out. -/
def optionalParam (name : String) (value : Option String) : List (String × String) :=
  (value.map fun v => (name, v)).toList

/-- The filter for sealed records. -/
def sealedParam (sealed : Option Bool) : List (String × String) :=
  optionalParam "sealed" (if sealed = some true then some "true" else none)

def u64Text (n : UInt64) : String := toString n.toNat

def RecordsListInput.query (input : RecordsListInput) : List (String × String) :=
  sealedParam input.sealed ++ optionalParam "limit" (input.limit.map u64Text) ++
    optionalParam "cursor" input.cursor

def RecordsCountInput.query (input : RecordsCountInput) : List (String × String) :=
  ("signer", input.signer) ::
    (optionalParam "scheme" (input.scheme.map fun scheme => toString scheme.toNat) ++
      sealedParam input.sealed ++ optionalParam "from_block" (input.fromBlock.map u64Text) ++
      optionalParam "to_block" (input.toBlock.map u64Text) ++
      optionalParam "from_time" input.fromTime ++ optionalParam "to_time" input.toTime)

/-! ## Records -/

/-- What the client itself reads of a record. -/
structure RecordResource where
  blockHeight : Option UInt64
  numConfirmations : UInt64

/-- A page of records. -/
structure RecordsListResponse where
  data : List RecordResource
  hasMore : Bool
  nextCursor : Option String
  tipBlockHeight : Option UInt64

def saturatingAdd (a b : UInt64) : UInt64 := UInt64.ofNat (min (a.toNat + b.toNat) (2 ^ 64 - 1))

def saturatingSub (a b : UInt64) : UInt64 := UInt64.ofNat (a.toNat - b.toNat)

/-- The tip of the chain, by the rows that are in a block. -/
def deriveTipBlockHeight (records : List RecordResource) : Option UInt64 :=
  (records.filterMap fun r => r.blockHeight.map fun height =>
    saturatingSub (saturatingAdd height r.numConfirmations) 1).max?

/-- The page with a tip, derived from its records where the gateway gives none. -/
def RecordsListResponse.withTip (page : RecordsListResponse) : RecordsListResponse :=
  if page.tipBlockHeight.isNone then
    { page with tipBlockHeight := deriveTipBlockHeight page.data }
  else page

/-! ## Requests -/

/-- The decoders of the responses. -/
structure RecordsLibrary where
  json : JsonPrimitives
  decodeList : List UInt8 → Except String RecordsListResponse
  decodeCount : List UInt8 → Except String UInt64
  decodeRecord : List UInt8 → Except String RecordResource
  decodeBalance : List UInt8 → Except String String

/-- The address of a page. -/
def listUrl (base : String) (query : List (String × String)) : String :=
  if query.isEmpty then base ++ "/records" else base ++ "/records?" ++ encodeQuery query

/-- The address of a count. -/
def countUrl (base : String) (input : RecordsCountInput) : String :=
  base ++ "/records/count?" ++ encodeQuery input.query

/-- The address of a record. -/
def recordUrl (base txHash : String) : String := base ++ "/records/" ++ encodePathSegment txHash

/-- The address of the balance. -/
def balanceUrl (base : String) : String := base ++ "/account/balance"

section Requests
variable {σ : Type} (lib : RecordsLibrary) (config : NamespaceConfig σ)

/-- One request for a resource. -/
def readResource {α : Type} (decoder : List UInt8 → Except String α) (url : String) :
    Program (World σ Exchange) ClientError α := do
  let response ← send config lib.json url .get (jsonHeaders config.apiKey none) .none
  decodeBody decoder response.body

/-- A page of records. -/
def Records.list (input : Option RecordsListInput) :
    Program (World σ Exchange) ClientError RecordsListResponse := do
  let page ← readResource lib config lib.decodeList
    (listUrl config.baseUrl ((input.map RecordsListInput.query).getD []))
  pure page.withTip

/-- The number of records. -/
def Records.count (input : RecordsCountInput) : Program (World σ Exchange) ClientError UInt64 :=
  readResource lib config lib.decodeCount (countUrl config.baseUrl input)

/-- One record. -/
def Records.get (txHash : String) : Program (World σ Exchange) ClientError RecordResource :=
  readResource lib config lib.decodeRecord (recordUrl config.baseUrl txHash)

/-- The balance of the account is a text of digits and stays one. -/
def Account.balance : Program (World σ Exchange) ClientError String :=
  readResource lib config lib.decodeBalance (balanceUrl config.baseUrl)

/-- A call of the client that reads. -/
inductive ReadCall
  | list (input : Option RecordsListInput)
  | count (input : RecordsCountInput)
  | get (txHash : String)
  | balance

/-- What a call returns. -/
def ReadCall.Answer : ReadCall → Type
  | .list _ => RecordsListResponse
  | .count _ => UInt64
  | .get _ => RecordResource
  | .balance => String

/-- Make the call. -/
def ReadCall.run : (call : ReadCall) → Program (World σ Exchange) ClientError call.Answer
  | .list input => Records.list lib config input
  | .count input => Records.count lib config input
  | .get txHash => Records.get lib config txHash
  | .balance => Account.balance lib config

end Requests

/-! ## How a gateway reads a URL -/

/-- The parameters in the query of a URL. -/
def requestQuery (url : String) : List (List UInt8 × List UInt8) :=
  readPairs (((url.toList.dropWhile (· ≠ '?')).drop 1).takeWhile (· ≠ '#'))

/-- The bytes of parameters. -/
def paramBytes (query : List (String × String)) : List (List UInt8 × List UInt8) :=
  query.map fun pair => (utf8Bytes pair.1, utf8Bytes pair.2)

/-- The nine signs that are kept. -/
theorem utf8Bytes_signs : utf8Bytes "-_.!~*'()" = [45, 95, 46, 33, 126, 42, 39, 40, 41] := by decide

theorem plain_isUnreserved : Plain isUnreserved := by
  unfold Plain isUnreserved
  rw [utf8Bytes_signs]
  decide +kernel

/-- A path segment is percent-encoded. -/
theorem toList_encodePathSegment (segment : String) :
    (encodePathSegment segment).toList = encode isUnreserved (utf8Bytes segment) := by
  rw [encodePathSegment, String.toList_ofList]
  rfl

theorem toList_encodeQuery (query : List (String × String)) :
    (encodeQuery query).toList = joinPairs isUnreserved (paramBytes query) := by
  rw [encodeQuery, String.toList_ofList, joinPairs, paramBytes, List.map_map]
  simp only [encodeQueryComponent, String.toList_ofList]
  rfl

/-! ## The path and the query of a request -/

/-- What is asked under a base, whose own segments end with an empty one if it does. -/
def rootPath (base : String) : List (List Char) := basePath (base ++ "/")

section Paths
variable {base : String} (hbase : GatewayBase base)
include hbase

theorem gatewayBase_slash : GatewayBase (base ++ "/") where
  absolute := by
    obtain ⟨scheme, c, rest, hsplit, hc⟩ := hbase.absolute
    have hjoin : (joinGateway (base ++ "/") "").toList = base.toList ++ ['/'] := by
      rw [joinGateway, if_pos (by simp)]
      simp
    rw [hjoin]
    by_cases hlast : base.toList.getLast? = some '/'
    · -- The base has a separator already, and a second one is behind it.
      have hself : (joinGateway base "").toList = base.toList := by
        rw [joinGateway, if_pos hlast]
        simp
      rw [hself] at hsplit
      have hcolon : ':' ∈ strip base.toList := by
        have hmem : ':' ∈ readUrl base.toList := by
          rw [splitScheme_spec hsplit]
          exact List.mem_append_right _ List.mem_cons_self
        exact (mem_of_mem_readUrl hmem).resolve_right (by decide)
      have hcut : ∀ c ∈ base.toList.getLast?, isC0OrSpace c = false := by
        rw [hlast]
        rintro c ⟨⟩
        decide
      have hslash : ∀ c ∈ ['/'].head?, isC0OrSpace c = false := by
        rintro c ⟨⟩
        decide
      rw [readUrl_append hcut hslash hcolon]
      exact ⟨scheme, c, _, splitScheme_append hsplit _, hc⟩
    · have hself : (joinGateway base "").toList = base.toList ++ ['/'] := by
        rw [joinGateway, if_neg hlast]
        simp
      rw [hself] at hsplit
      exact ⟨scheme, c, rest, hsplit, hc⟩
  plain := by
    intro c hc
    rw [String.toList_append, List.mem_append] at hc
    rcases hc with hc | hc
    · exact hbase.plain c hc
    · rw [List.mem_singleton.mp hc]
      decide

/-- The path under a base, with a query or without. -/
theorem requestPath_under {url : String} {path query : List Char}
    (hurl : url.toList = base.toList ++ '/' :: (path ++ query))
    (hvisible : ∀ c ∈ path ++ query, isVisible c = true)
    (hpath : ∀ c ∈ path, inPath c = true) (hquery : query.takeWhile inPath = []) :
    requestPath url = some (remove dotMove (rootPath base) (path.splitOn '/')) := by
  obtain ⟨scheme, host, dir, hdirectory⟩ := exists_directory (gatewayBase_slash hbase)
  have hjoin : url = joinGateway (base ++ "/") (String.ofList (path ++ query)) := by
    apply String.toList_inj.mp
    rw [hurl, joinGateway, if_pos]
    · rw [String.toList_append, String.toList_append, String.toList_ofList]
      simp
    · rw [String.toList_append, List.getLast?_append]
      rfl
  have hsuffix : (String.ofList (path ++ query)).toList = path ++ query := String.toList_ofList
  have hhead : ∀ c ∈ (String.ofList (path ++ query)).toList.head?, isC0OrSpace c = false := by
    intro c hc
    rw [hsuffix] at hc
    exact not_cut_of_visible hvisible c (List.mem_of_mem_head? hc)
  rw [hjoin, hdirectory.requestPath hhead, rootPath, hsuffix, slashes_strip_of_visible hvisible,
    List.takeWhile_append_of_pos hpath, hquery, List.append_nil]

/-- Nothing before the query starts one. -/
theorem no_question_before {path : List Char} (hpath : '?' ∉ path) :
    ∀ c ∈ base.toList ++ path, decide (c ≠ '?') = true := by
  intro c hc
  rw [decide_eq_true_eq]
  rintro rfl
  rcases List.mem_append.mp hc with hc | hc
  · exact absurd (hbase.plain _ hc) (by decide)
  · exact hpath hc

/-- The query under a base. -/
theorem requestQuery_under {url : String} {path : List Char} {query : List (String × String)}
    (hurl : url.toList = base.toList ++ (path ++ '?' :: (encodeQuery query).toList))
    (hpath : '?' ∉ path) : requestQuery url = paramBytes query := by
  have hbefore := no_question_before hbase hpath
  have hfragment : ∀ c ∈ joinPairs isUnreserved (paramBytes query), decide (c ≠ '#') = true := by
    intro c hc
    rw [decide_eq_true_eq]
    rintro rfl
    exact notMem_joinPairs plain_isUnreserved (by decide) hc
  rw [requestQuery, hurl, toList_encodeQuery, ← List.append_assoc,
    List.dropWhile_append_of_pos hbefore, List.dropWhile_cons_of_neg (by simp), List.drop_one,
    List.tail_cons, List.takeWhile_eq_self_iff.mpr hfragment,
    readPairs_joinPairs plain_isUnreserved]

/-- A URL that ends with its path has no parameters. -/
theorem requestQuery_of_path {url : String} {path : List Char}
    (hurl : url.toList = base.toList ++ path) (hpath : '?' ∉ path) : requestQuery url = [] := by
  have hbefore := no_question_before hbase hpath
  rw [requestQuery, hurl, List.dropWhile_eq_nil_iff.mpr hbefore]
  rfl

end Paths

/-! ## What is asked -/

/-- The resource of a call, as bytes behind the path of the base. -/
def ReadCall.resource : ReadCall → List (List UInt8)
  | .list _ => [utf8Bytes "records"]
  | .count _ => [utf8Bytes "records", utf8Bytes "count"]
  | .get txHash => [utf8Bytes "records", utf8Bytes txHash]
  | .balance => [utf8Bytes "account", utf8Bytes "balance"]

/-- The parameters of a call. -/
def ReadCall.query : ReadCall → List (String × String)
  | .list input => (input.map RecordsListInput.query).getD []
  | .count input => input.query
  | .get _ => []
  | .balance => []

/-- The address that a call asks. -/
def ReadCall.url (base : String) : ReadCall → String
  | .list input => listUrl base (ReadCall.query (.list input))
  | .count input => countUrl base input
  | .get txHash => recordUrl base txHash
  | .balance => balanceUrl base

/-- The name of a record is not taken for the directory it is in or for the one above. -/
def ReadCall.NoDots : ReadCall → Prop
  | .list _ => True
  | .count _ => True
  | .get txHash => txHash ≠ "." ∧ txHash ≠ ".."
  | .balance => True

/-- A gateway reads a URL as a call: the segments behind its own path and the parameters. -/
structure ReadAs (base url : String) (call : ReadCall) : Prop where
  path : (requestPath url).map (·.map decode) =
    some ((rootPath base).map decode ++ call.resource)
  query : requestQuery url = paramBytes call.query

/-- Letters of one segment, which are read as they are. -/
def OneSegment (s : List Char) : Prop := ∀ c ∈ s, c ≠ '/' ∧ inPath c = true ∧ isVisible c = true

theorem OneSegment.slash_notMem {s : List Char} (h : OneSegment s) : '/' ∉ s :=
  fun hmem => (h '/' hmem).1 rfl

theorem oneSegment_of_all {s : List Char}
    (h : (s.all fun c => c ≠ '/' && inPath c && isVisible c) = true) : OneSegment s := by
  intro c hc
  have hall := List.all_eq_true.mp h c hc
  rw [Bool.and_eq_true, Bool.and_eq_true, decide_eq_true_eq, and_assoc] at hall
  exact hall

theorem inPath_intercalate {path : List (List Char)} (h : ∀ s ∈ path, OneSegment s) :
    ∀ c ∈ ['/'].intercalate path, inPath c = true := by
  intro c hc
  rcases mem_of_mem_intercalate hc with hc | ⟨s, hs, hc⟩
  · rw [List.mem_singleton.mp hc]
    rfl
  · exact (h s hs c hc).2.1

theorem isVisible_intercalate {path : List (List Char)} (h : ∀ s ∈ path, OneSegment s) :
    ∀ c ∈ ['/'].intercalate path, isVisible c = true := by
  intro c hc
  rcases mem_of_mem_intercalate hc with hc | ⟨s, hs, hc⟩
  · rw [List.mem_singleton.mp hc]
    rfl
  · exact (h s hs c hc).2.2

theorem question_notMem_intercalate {path : List (List Char)} (h : ∀ s ∈ path, OneSegment s) :
    '?' ∉ '/' :: ['/'].intercalate path := by
  intro hmem
  rcases List.mem_cons.mp hmem with hmem | hmem
  · cases hmem
  · exact absurd (inPath_intercalate h _ hmem) (by decide)

/-- What is behind the path of a URL: parameters, or nothing where there are none. -/
def UrlEnd (query : List (String × String)) (rest : List Char) : Prop :=
  rest = '?' :: (encodeQuery query).toList ∨ rest = [] ∧ query = []

/-- The written parameters are read as they are. -/
theorem UrlEnd.visible {query : List (String × String)} {rest : List Char} (h : UrlEnd query rest) :
    ∀ c ∈ rest, isVisible c = true := by
  rcases h with rfl | ⟨rfl, -⟩
  · refine List.forall_mem_cons.mpr ⟨by decide, ?_⟩
    intro c hc
    rw [toList_encodeQuery] at hc
    have hlow := lt_of_mem_joinPairs plain_isUnreserved hc
    have hslash : c ≠ '\\' := by
      rintro rfl
      exact notMem_joinPairs plain_isUnreserved (by decide) hc
    simp [isVisible, isC0OrSpace, hslash, hlow]
  · simp

section ReadAs
variable {base : String} (hbase : GatewayBase base)
include hbase

theorem requestPath_segments {url : String} {path : List (List Char)} {rest : List Char}
    {query : List (String × String)}
    (hurl : url.toList = base.toList ++ '/' :: (['/'].intercalate path ++ rest))
    (hpath : ∀ s ∈ path, OneSegment s) (hne : path ≠ []) (hrest : UrlEnd query rest) :
    requestPath url = some (remove dotMove (rootPath base) path) := by
  have hvisible : ∀ c ∈ ['/'].intercalate path ++ rest, isVisible c = true :=
    List.forall_mem_append.mpr ⟨isVisible_intercalate hpath, hrest.visible⟩
  have hstop : rest.takeWhile inPath = [] := by
    rcases hrest with rfl | ⟨rfl, -⟩
    · exact List.takeWhile_cons_of_neg (by decide)
    · rfl
  rw [requestPath_under hbase hurl hvisible (inPath_intercalate hpath) hstop,
    List.splitOn_intercalate '/' (fun s hs => (hpath s hs).slash_notMem) hne]

theorem requestQuery_segments {url : String} {path : List (List Char)} {rest : List Char}
    {query : List (String × String)}
    (hurl : url.toList = base.toList ++ '/' :: (['/'].intercalate path ++ rest))
    (hpath : ∀ s ∈ path, OneSegment s) (hrest : UrlEnd query rest) :
    requestQuery url = paramBytes query := by
  have hquestion := question_notMem_intercalate hpath
  rcases hrest with rfl | ⟨rfl, rfl⟩
  · exact requestQuery_under hbase hurl hquestion
  · rw [List.append_nil] at hurl
    exact requestQuery_of_path hbase hurl hquestion

/-- Segments that are no dot segments are read as they are. -/
theorem readAs_of_segments {url : String} {path : List (List Char)} {rest : List Char}
    {call : ReadCall}
    (hurl : url.toList = base.toList ++ '/' :: (['/'].intercalate path ++ rest))
    (hpath : ∀ s ∈ path, OneSegment s) (hdots : ∀ s ∈ path, dotMove s = .into)
    (hne : path ≠ []) (hrest : UrlEnd call.query rest)
    (hresource : path.map decode = call.resource) : ReadAs base url call := by
  refine ⟨?_, requestQuery_segments hbase hurl hpath hrest⟩
  rw [requestPath_segments hbase hurl hpath hne hrest, remove_of_into hne hdots, Option.map_some,
    List.map_append, hresource]

theorem readAs_list (input : Option RecordsListInput) :
    ReadAs base (ReadCall.url base (.list input)) (.list input) := by
  have hpath : ∀ s ∈ ["records".toList], OneSegment s :=
    List.forall_mem_singleton.mpr (oneSegment_of_all (by decide))
  by_cases hempty : (ReadCall.query (.list input)).isEmpty = true
  · refine readAs_of_segments hbase ?_ hpath (by decide) (by simp)
      (Or.inr ⟨rfl, List.isEmpty_iff.mp hempty⟩) rfl
    rw [ReadCall.url, listUrl, if_pos hempty, String.toList_append, List.intercalate_singleton,
      List.append_nil]
    rfl
  · refine readAs_of_segments hbase ?_ hpath (by decide) (by simp) (Or.inl rfl) rfl
    rw [ReadCall.url, listUrl, if_neg hempty, String.toList_append, String.toList_append,
      List.append_assoc, List.intercalate_singleton]
    rfl

theorem readAs_count (input : RecordsCountInput) :
    ReadAs base (ReadCall.url base (.count input)) (.count input) := by
  have hpath : ∀ s ∈ ["records".toList, "count".toList], OneSegment s :=
    List.forall_mem_cons.mpr ⟨oneSegment_of_all (by decide),
      List.forall_mem_singleton.mpr (oneSegment_of_all (by decide))⟩
  refine readAs_of_segments hbase ?_ hpath (by decide) (by simp) (Or.inl rfl) rfl
  rw [ReadCall.url, countUrl, String.toList_append, String.toList_append, List.append_assoc]
  rfl

theorem readAs_balance : ReadAs base (ReadCall.url base .balance) .balance := by
  have hpath : ∀ s ∈ ["account".toList, "balance".toList], OneSegment s :=
    List.forall_mem_cons.mpr ⟨oneSegment_of_all (by decide),
      List.forall_mem_singleton.mpr (oneSegment_of_all (by decide))⟩
  refine readAs_of_segments hbase ?_ hpath (by decide) (by simp) (Or.inr ⟨rfl, rfl⟩) rfl
  rw [ReadCall.url, balanceUrl, String.toList_append, List.append_nil]
  rfl

/-! ## Names of records -/

omit hbase in
theorem oneSegment_encodePathSegment (txHash : String) :
    OneSegment (encodePathSegment txHash).toList := by
  intro c hc
  rw [toList_encodePathSegment] at hc
  have hmark (m : Char) (hm : m ∈ marks) (hpercent : m ≠ '%') : c ≠ m := by
    rintro rfl
    exact hpercent (eq_percent_of_mem_encode plain_isUnreserved hc hm)
  refine ⟨hmark '/' (by decide) (by decide), ?_⟩
  have hlow := lt_of_mem_encode plain_isUnreserved hc
  have hslash := hmark '\\' (by decide) (by decide)
  rw [inPath, Bool.and_eq_true, bne_iff_ne, bne_iff_ne]
  exact ⟨⟨hmark '?' (by decide) (by decide), hmark '#' (by decide) (by decide)⟩, by
    simp [isVisible, isC0OrSpace, hslash, hlow]⟩

omit hbase in
/-- The bytes of the segment are those of the name. -/
theorem decode_encodePathSegment (txHash : String) :
    decode (encodePathSegment txHash).toList = utf8Bytes txHash := by
  rw [toList_encodePathSegment, decode_encode plain_isUnreserved]

omit hbase in
theorem oneSegment_record (txHash : String) :
    ∀ s ∈ ["records".toList, (encodePathSegment txHash).toList], OneSegment s :=
  List.forall_mem_cons.mpr ⟨oneSegment_of_all (by decide),
    List.forall_mem_singleton.mpr (oneSegment_encodePathSegment txHash)⟩

omit hbase in
theorem toList_recordUrl (txHash : String) :
    (ReadCall.url base (.get txHash)).toList = base.toList ++ '/' ::
      (['/'].intercalate ["records".toList, (encodePathSegment txHash).toList] ++ []) := by
  rw [ReadCall.url, recordUrl, String.toList_append, String.toList_append, List.append_assoc,
    List.append_nil, List.intercalate_cons_of_ne_nil (by simp), List.intercalate_singleton,
    List.append_assoc]
  rfl

omit hbase in
/-- The encoded name is a dot segment only if the name is one: in every spelling a dot stands for
the byte of a dot. -/
theorem dotMove_encodePathSegment {txHash : String} (hone : txHash ≠ ".") (htwo : txHash ≠ "..") :
    dotMove (encodePathSegment txHash).toList = .into := by
  have hsingle : ∀ s ∈ singleDots, decode s = utf8Bytes "." := by decide
  have hdouble : ∀ s ∈ doubleDots, decode s = utf8Bytes ".." := by decide
  have hbytes := decode_encodePathSegment txHash
  refine dotMove_of_notMem ?_ ?_
  · intro hmem
    rw [hsingle _ hmem] at hbytes
    exact hone (utf8Bytes_injective hbytes).symm
  · intro hmem
    rw [hdouble _ hmem] at hbytes
    exact htwo (utf8Bytes_injective hbytes).symm

/-- A name that is no dot segment is the last segment. -/
theorem readAs_get {txHash : String} (hone : txHash ≠ ".") (htwo : txHash ≠ "..") :
    ReadAs base (ReadCall.url base (.get txHash)) (.get txHash) := by
  have hdots : ∀ s ∈ ["records".toList, (encodePathSegment txHash).toList], dotMove s = .into :=
    List.forall_mem_cons.mpr ⟨by decide,
      List.forall_mem_singleton.mpr (dotMove_encodePathSegment hone htwo)⟩
  refine readAs_of_segments hbase (toList_recordUrl txHash) (oneSegment_record txHash) hdots
    (by simp) (Or.inr ⟨rfl, rfl⟩) ?_
  rw [List.map_cons, List.map_singleton, decode_encodePathSegment]
  rfl

/-- The path that is asked for under the name of a dot segment is that of the directory. -/
theorem requestPath_dot :
    requestPath (ReadCall.url base (.get ".")) =
      some (rootPath base ++ ["records".toList, []]) := by
  rw [requestPath_segments hbase (toList_recordUrl ".") (oneSegment_record ".") (by simp)
    (Or.inr ⟨rfl, rfl⟩), remove_cons (by simp), step_of_into (by decide)]
  change some ((rootPath base ++ ["records".toList]) ++ [[]]) = _
  rw [List.append_assoc]
  rfl

theorem requestPath_dots :
    requestPath (ReadCall.url base (.get "..")) = some (rootPath base ++ [[]]) := by
  rw [requestPath_segments hbase (toList_recordUrl "..") (oneSegment_record "..") (by simp)
    (Or.inr ⟨rfl, rfl⟩), remove_cons (by simp), step_of_into (by decide)]
  change some ((rootPath base ++ ["records".toList]).dropLast ++ [[]]) = _
  rw [List.dropLast_concat]

theorem not_readAs_dot : ¬ ReadAs base (ReadCall.url base (.get ".")) (.get ".") := by
  intro h
  have hpath := h.path
  rw [requestPath_dot hbase, Option.map_some, Option.some.injEq, List.map_append,
    List.append_cancel_left_eq] at hpath
  exact absurd hpath (by decide)

theorem not_readAs_dots : ¬ ReadAs base (ReadCall.url base (.get "..")) (.get "..") := by
  intro h
  have hpath := h.path
  rw [requestPath_dots hbase, Option.map_some, Option.some.injEq, List.map_append,
    List.append_cancel_left_eq] at hpath
  exact absurd hpath (by decide)

/-- A gateway reads the URL of a call as that call, unless it names a record by dots. -/
theorem readAs_iff (call : ReadCall) : ReadAs base (call.url base) call ↔ call.NoDots := by
  cases call with
  | list input => exact iff_of_true (readAs_list hbase input) trivial
  | count input => exact iff_of_true (readAs_count hbase input) trivial
  | balance => exact iff_of_true (readAs_balance hbase) trivial
  | get txHash =>
      refine ⟨?_, fun h => readAs_get hbase h.1 h.2⟩
      intro h
      refine ⟨?_, ?_⟩
      · rintro rfl
        exact not_readAs_dot hbase h
      · rintro rfl
        exact not_readAs_dots hbase h

end ReadAs

/-! ## What a call does -/

section Runs
variable {σ : Type} (lib : RecordsLibrary) (config : NamespaceConfig σ)

/-- What is made of the answer to a request. -/
def readOutcome {α : Type} (json : JsonPrimitives) (decoder : List UInt8 → Except String α)
    (answer : Except OutboundError ClientResponse) : Except ClientError α := do
  let response ← answer.mapError .outbound
  let response ← throwIfNotOk json response
  (decoder response.body).mapError .decode

/-- What a call makes of the answer to its request. -/
def ReadCall.outcome (answer : Except OutboundError ClientResponse) :
    (call : ReadCall) → Except ClientError call.Answer
  | .list _ => (readOutcome lib.json lib.decodeList answer).map RecordsListResponse.withTip
  | .count _ => readOutcome lib.json lib.decodeCount answer
  | .get _ => readOutcome lib.json lib.decodeRecord answer
  | .balance => readOutcome lib.json lib.decodeBalance answer

/-- The request of a call, with what came back. -/
def ReadCall.exchange (call : ReadCall) (answer : Except OutboundError ClientResponse) : Exchange :=
  ⟨call.url config.baseUrl, .get, jsonHeaders config.apiKey none, .none, answer⟩

variable {lib : RecordsLibrary} {config : NamespaceConfig σ}

theorem exec_decodeBody {α : Type} (decoder : List UInt8 → Except String α) (body : List UInt8)
    (w : World σ Exchange) :
    exec (decodeBody decoder body) w = some ((decoder body).mapError .decode, w) := by
  rw [decodeBody.eq_def]
  cases decoder body with
  | ok value => rfl
  | error e => rfl

/-- One request is sent, and its answer is checked and decoded. -/
theorem exec_readResource {α : Type} (decoder : List UInt8 → Except String α) (url : String)
    (w : World σ Exchange) :
    ∃ answer host, exec (readResource lib config decoder url) w =
      some (readOutcome lib.json decoder answer, { host := host, log := w.log ++
        [⟨url, .get, jsonHeaders config.apiKey none, .none, answer⟩] }) := by
  refine ⟨(config.transport url .get (jsonHeaders config.apiKey none) .none w.host).1,
    (config.transport url .get (jsonHeaders config.apiKey none) .none w.host).2, ?_⟩
  rw [readResource, exec_bind, send, exec_bind, sendRaw, exec_ofStep, Option.bind_some]
  simp only [World.afterSend]
  cases (config.transport url .get (jsonHeaders config.apiKey none) .none w.host).1 with
  | error e => rfl
  | ok response =>
      simp only [Except.mapError]
      rw [readOutcome]
      cases hchecked : throwIfNotOk lib.json response with
      | error e =>
          simp [Except.mapError, hchecked, bind, Except.bind]
      | ok checked =>
          simp [Except.mapError, hchecked, bind, Except.bind, exec_decodeBody]

/-- A page is given its tip. -/
theorem exec_list (input : Option RecordsListInput) (w : World σ Exchange) :
    ∃ answer host, exec (Records.list lib config input) w =
      some ((readOutcome lib.json lib.decodeList answer).map RecordsListResponse.withTip,
        { host := host, log := w.log ++ [ReadCall.exchange config (.list input) answer] }) := by
  obtain ⟨answer, host, hread⟩ := @exec_readResource _ lib config _ lib.decodeList
    (listUrl config.baseUrl ((input.map RecordsListInput.query).getD [])) w
  refine ⟨answer, host, ?_⟩
  rw [Records.list, exec_bind, hread, Option.bind_some]
  cases readOutcome lib.json lib.decodeList answer with
  | error e => rfl
  | ok page => rfl

/-- A call is one request, and its answer is all that the call returns. -/
theorem exec_readCall (call : ReadCall) (w : World σ Exchange) :
    ∃ answer host, exec (call.run lib config) w = some (call.outcome lib answer,
      { host := host, log := w.log ++ [call.exchange config answer] }) := by
  cases call with
  | list input => exact exec_list input w
  | count input => exact exec_readResource lib.decodeCount _ w
  | get txHash => exact exec_readResource lib.decodeRecord _ w
  | balance => exact exec_readResource lib.decodeBalance _ w

end Runs

/-- Readers for which no body is a response. -/
def noRecords : RecordsLibrary where
  json := { fromSlice := fun _ => .error "expected value", toText := fun _ => "" }
  decodeList := fun _ => .error "missing field"
  decodeCount := fun _ => .error "missing field"
  decodeRecord := fun _ => .error "missing field"
  decodeBalance := fun _ => .error "missing field"

def unreachableGateway : NamespaceConfig Unit where
  apiKey := none
  baseUrl := "https://g"
  transport := fun _ _ _ _ s => (.error (.transport "https://g" "unreachable"), s)

end Label309
