import Label309.Lib.ExceptBind
import Label309.Verifier.DenyList
import Label309.Verifier.IpAddress

/-!
# Blocked addresses

The ranges that a webhook must not reach, and the guard of its target. An address of the sixth
version may carry one of the fourth in several forms.
-/
namespace Label309

/-- A range of addresses and what it is for. -/
structure BlockedRange where
  cidr : String
  reason : String

/-- The ranges that are never asked. -/
def blockedIpv4Ranges : List BlockedRange :=
  [⟨"0.0.0.0/8", "current network / \"this host\""⟩,
    ⟨"10.0.0.0/8", "RFC 1918 private"⟩,
    ⟨"100.64.0.0/10", "CGNAT (RFC 6598)"⟩,
    ⟨"127.0.0.0/8", "loopback"⟩,
    ⟨"169.254.0.0/16", "link-local (covers AWS/GCE/Azure metadata 169.254.169.254)"⟩,
    ⟨"172.16.0.0/12", "RFC 1918 private"⟩,
    ⟨"192.0.0.0/24", "IETF assignment"⟩,
    ⟨"192.0.2.0/24", "TEST-NET-1 (RFC 5737)"⟩,
    ⟨"192.168.0.0/16", "RFC 1918 private"⟩,
    ⟨"198.18.0.0/15", "benchmarking"⟩,
    ⟨"198.51.100.0/24", "TEST-NET-2 (RFC 5737)"⟩,
    ⟨"203.0.113.0/24", "TEST-NET-3 (RFC 5737)"⟩,
    ⟨"224.0.0.0/4", "multicast"⟩,
    ⟨"240.0.0.0/4", "reserved / future use"⟩,
    ⟨"255.255.255.255/32", "broadcast"⟩]

/-- The ranges of the longer addresses that are never asked. -/
def blockedIpv6Ranges : List BlockedRange :=
  [⟨"::/128", "unspecified"⟩,
    ⟨"::1/128", "loopback"⟩,
    ⟨"::ffff:0:0/96", "IPv4-mapped IPv6"⟩,
    ⟨"64:ff9b::/96", "IPv4/IPv6 translation"⟩,
    ⟨"100::/64", "discard prefix"⟩,
    ⟨"2001:db8::/32", "documentation"⟩,
    ⟨"fc00::/7", "unique-local (ULA)"⟩,
    ⟨"fe80::/10", "link-local"⟩,
    ⟨"ff00::/8", "multicast"⟩,
    ⟨"fd00:ec2::/32", "AWS IMDS v6"⟩,
    ⟨"2001:0:0:1::/64", "Teredo"⟩,
    ⟨"2002::/16", "6to4"⟩]

/-! ## Ranges -/

/-- The base of a range and its number of bits, read apart at the first slash. -/
def parseCidr {α : Type} (parseBase : List Char → Option α) (bound : ℕ) (cidr : String) :
    Option (α × ℕ) :=
  let base := cidr.toList.takeWhile (· ≠ '/')
  match cidr.toList.drop base.length with
  | [] => none
  | _ :: bits => do
      let bits ← parseUnsigned bound bits
      let base ← parseBase base
      pure (base, bits)

/-- An address of the fourth version as a number. -/
def Ipv4Addr.toNum (addr : Ipv4Addr) : UInt32 :=
  addr.val.foldl (fun acc b => acc * 256 + b.toUInt32) 0

/-- The leading bits agree. -/
def inIpv4Range (ipNum baseNum : UInt32) (bits : ℕ) : Bool :=
  if bits = 0 then true
  else if 32 ≤ bits then ipNum = baseNum
  else
    let mask : UInt32 := 0xffffffff <<< UInt32.ofNat (32 - bits)
    ipNum &&& mask = baseNum &&& mask

def ipv4InCidr (ipNum : UInt32) (cidr : String) : Bool :=
  match parseCidr parseIpv4Addr (2 ^ 32) cidr with
  | none => false
  | some (base, bits) => inIpv4Range ipNum (Ipv4Addr.toNum base) bits

/-- The full octets of the prefix agree, and the high bits of the next. -/
def inIpv6Range (ip base : List UInt8) (bits : ℕ) : Bool :=
  let fullBytes := bits / 8
  let remBits := bits % 8
  ip.take fullBytes = base.take fullBytes &&
    (remBits = 0 ||
      let mask : UInt8 := 0xff <<< UInt8.ofNat (8 - remBits)
      ip.getD fullBytes 0 &&& mask = base.getD fullBytes 0 &&& mask)

def ipv6InCidr (ip : Ipv6Addr) (cidr : String) : Bool :=
  match parseCidr parseIpv6Addr (2 ^ 64) cidr with
  | none => false
  | some (base, bits) => inIpv6Range ip.val base.val bits

def isBlockedIpv4 (addr : Ipv4Addr) : Bool :=
  blockedIpv4Ranges.any fun r => ipv4InCidr (Ipv4Addr.toNum addr) r.cidr

/-- The mapped addresses are rejected whatever they carry. -/
def isBlockedIpv6 (addr : Ipv6Addr) : Bool :=
  isMapped addr.val || blockedIpv6Ranges.any fun r => ipv6InCidr addr r.cidr

/-- The address is in a blocked range, or maps one that is. -/
def isBlockedIp : IpAddr → Bool
  | .v4 addr => isBlockedIpv4 addr
  | .v6 addr => isBlockedIpv6 addr

/-- Not a text of an address, or one that is blocked. -/
def isBlockedIpStr (text : TextPrimitives) (ip : String) : Bool :=
  match parseIpAddr (canonicaliseHost text ip).toList with
  | some addr => isBlockedIp addr
  | none => true

/-! ## The guard of a webhook -/

/-- Why an address is refused. -/
inductive WebhookUrlUnsafeReason
  | invalidUrl
  | unsupportedProtocol
  | dnsResolutionFailed
  | blockedIpRange
  | noDnsRecords
  deriving DecidableEq

/-- A refused address with its reason. -/
structure WebhookUrlUnsafeError where
  reason : WebhookUrlUnsafeReason
  url : String
  hostname : String
  resolvedIp : Option String

/-- An address that a name resolves to. -/
structure ResolvedRecord where
  address : IpAddr
  family : UInt8

/-- What the caller allows. -/
structure AssertWebhookUrlSafeOptions where
  allowHttpScheme : Bool
  allowPrivateForTests : Bool
  resolveHost : Option (String → Except String (List ResolvedRecord))

/-- The address that the caller is to connect to. -/
structure AssertWebhookUrlSafeResult where
  resolvedIp : IpAddr
  family : UInt8
  hostname : String

/-- The host is an address and not a name. -/
def looksLikeIpLiteral (host : String) : Bool :=
  (parseIpv4Addr host.toList).isSome || host.toList.contains ':'

section Guard
variable (text : TextPrimitives) (systemResolver : String → Except String (List ResolvedRecord))
  (opts : AssertWebhookUrlSafeOptions)

/-- The records of a host: the address that it is, or what the resolver returns. -/
def targetRecords (url hostname : String) : Except WebhookUrlUnsafeError (List ResolvedRecord) :=
  if looksLikeIpLiteral hostname then
    match parseIpAddr hostname.toList with
    | none => .error ⟨.dnsResolutionFailed, url, hostname, none⟩
    | some address => .ok [⟨address, if address.isIpv4 then 4 else 6⟩]
  else
    match (opts.resolveHost.getD systemResolver) hostname with
    | .error _ => .error ⟨.dnsResolutionFailed, url, hostname, none⟩
    | .ok records => .ok records

/-- The address names a host outside all blocked ranges. -/
def assertWebhookUrlSafe (url : String) :
    Except WebhookUrlUnsafeError AssertWebhookUrlSafeResult :=
  match text.parseUrl url with
  | none => .error ⟨.invalidUrl, url, "", none⟩
  | some (scheme, host) =>
      if scheme ≠ "https" ∧ ¬ (opts.allowHttpScheme ∧ scheme = "http") then
        .error ⟨.unsupportedProtocol, url, host.getD "", none⟩
      else
        match host with
        | none => .error ⟨.invalidUrl, url, "", none⟩
        | some rawHost => do
            let hostname := canonicaliseHost text rawHost
            let records ← targetRecords systemResolver opts url hostname
            match records with
            | [] => .error ⟨.noDnsRecords, url, hostname, none⟩
            | first :: rest =>
                match (first :: rest).find? fun rec =>
                  !opts.allowPrivateForTests && isBlockedIp rec.address with
                | some rec => .error ⟨.blockedIpRange, url, hostname, some rec.address.display⟩
                | none => .ok ⟨first.address, first.family, hostname⟩

end Guard

/-! ## What the ranges are -/

/-- The bases of the ranges of the sixth version, with their numbers of bits. -/
def blockedIpv6Table : List (List UInt8 × ℕ) :=
  [([0, 0, 0, 0, 0, 0, 0, 0, 0, 0, 0, 0, 0, 0, 0, 0], 128),
    ([0, 0, 0, 0, 0, 0, 0, 0, 0, 0, 0, 0, 0, 0, 0, 1], 128),
    ([0, 0, 0, 0, 0, 0, 0, 0, 0, 0, 0xff, 0xff, 0, 0, 0, 0], 96),
    ([0, 0x64, 0xff, 0x9b, 0, 0, 0, 0, 0, 0, 0, 0, 0, 0, 0, 0], 96),
    ([1, 0, 0, 0, 0, 0, 0, 0, 0, 0, 0, 0, 0, 0, 0, 0], 64),
    ([0x20, 1, 0x0d, 0xb8, 0, 0, 0, 0, 0, 0, 0, 0, 0, 0, 0, 0], 32),
    ([0xfc, 0, 0, 0, 0, 0, 0, 0, 0, 0, 0, 0, 0, 0, 0, 0], 7),
    ([0xfe, 0x80, 0, 0, 0, 0, 0, 0, 0, 0, 0, 0, 0, 0, 0, 0], 10),
    ([0xff, 0, 0, 0, 0, 0, 0, 0, 0, 0, 0, 0, 0, 0, 0, 0], 8),
    ([0xfd, 0, 0x0e, 0xc2, 0, 0, 0, 0, 0, 0, 0, 0, 0, 0, 0, 0], 32),
    ([0x20, 1, 0, 0, 0, 0, 0, 1, 0, 0, 0, 0, 0, 0, 0, 0], 64),
    ([0x20, 2, 0, 0, 0, 0, 0, 0, 0, 0, 0, 0, 0, 0, 0, 0], 16)]

/-- The base of a range as octets. -/
def parsedIpv6Range (cidr : String) : Option (List UInt8 × ℕ) :=
  (parseCidr parseIpv6Addr (2 ^ 64) cidr).map fun out => (out.1.val, out.2)

theorem parsed_blockedIpv6Ranges :
    (blockedIpv6Ranges.map fun r => parsedIpv6Range r.cidr) = blockedIpv6Table.map some := by
  decide

theorem ipv6InCidr_eq (ip : Ipv6Addr) (cidr : String) :
    ipv6InCidr ip cidr =
      (parsedIpv6Range cidr).any fun range => inIpv6Range ip.val range.1 range.2 := by
  rw [ipv6InCidr, parsedIpv6Range]
  cases parseCidr parseIpv6Addr (2 ^ 64) cidr <;> rfl

theorem isBlockedIpv6_iff (ip : Ipv6Addr) :
    isBlockedIpv6 ip = true ↔ isMapped ip.val = true ∨
      ∃ range ∈ blockedIpv6Table, inIpv6Range ip.val range.1 range.2 = true := by
  have hany : (blockedIpv6Ranges.any fun r => ipv6InCidr ip r.cidr) =
      blockedIpv6Table.any fun range => inIpv6Range ip.val range.1 range.2 := by
    have hparsed : (blockedIpv6Ranges.any fun r => ipv6InCidr ip r.cidr) =
        (blockedIpv6Ranges.map fun r => parsedIpv6Range r.cidr).any
          (Option.any fun range => inIpv6Range ip.val range.1 range.2) := by
      rw [List.any_map]
      congr 1
      funext r
      exact ipv6InCidr_eq ip r.cidr
    rw [hparsed, parsed_blockedIpv6Ranges, List.any_map]
    rfl
  rw [isBlockedIpv6, hany, Bool.or_eq_true, List.any_eq_true]

/-! ## Embedded addresses -/

/-- How an address of the sixth version carries one of the fourth. -/
inductive TransitionForm
  | mapped
  | nat64
  | sixToFour
  | teredo
  deriving DecidableEq

/-- The address carries this one. A Teredo address has that of its server, and that of its client
with every bit turned. -/
def TransitionForm.Carries : TransitionForm → Ipv4Addr → Ipv6Addr → Prop
  | .mapped, a, ip => ip.val = [0, 0, 0, 0, 0, 0, 0, 0, 0, 0, 0xff, 0xff] ++ a.val
  | .nat64, a, ip => ip.val = [0, 0x64, 0xff, 0x9b, 0, 0, 0, 0, 0, 0, 0, 0] ++ a.val
  | .sixToFour, a, ip => ∃ rest, ip.val = [0x20, 2] ++ a.val ++ rest
  | .teredo, a, ip => ∃ server client : Ipv4Addr, ∃ middle : FixedBytes 4,
      ip.val = [0x20, 1, 0, 0] ++ server.val ++ middle.val ++ client.val.map (· ^^^ 0xff) ∧
        (a = server ∨ a = client)

/-- The server that a Teredo address names is `0.0.0.1`. -/
def InTeredoRange (ip : Ipv6Addr) : Prop := (ip.val.drop 4).take 4 = [0, 0, 0, 1]

instance (ip : Ipv6Addr) : Decidable (InTeredoRange ip) := by
  unfold InTeredoRange
  infer_instance

/-- Of the Teredo addresses one server's are blocked. -/
theorem isBlockedIpv6_teredo {ip : Ipv6Addr} {rest : List UInt8}
    (hip : ip.val = [0x20, 1, 0, 0] ++ rest) : isBlockedIpv6 ip = true ↔ InTeredoRange ip := by
  have hlocal : ¬ (0x20 : UInt8) &&& (0xff : UInt8) <<< (1 : UInt8) =
      (0xfc : UInt8) &&& (0xff : UInt8) <<< (1 : UInt8) := by decide
  rw [isBlockedIpv6_iff, InTeredoRange, isMapped, hip]
  simp [blockedIpv6Table, inIpv6Range, hlocal]

theorem isBlockedIpv6_of_range {ip : Ipv6Addr} {range : List UInt8 × ℕ}
    (hrange : range ∈ blockedIpv6Table) (h : inIpv6Range ip.val range.1 range.2 = true) :
    isBlockedIpv6 ip = true :=
  (isBlockedIpv6_iff ip).mpr (.inr ⟨range, hrange, h⟩)

/-- An embedded address is blocked, but for a Teredo address outside the range in the table. -/
theorem isBlockedIpv6_carries {form : TransitionForm} {a : Ipv4Addr} {ip : Ipv6Addr}
    (h : form.Carries a ip) :
    isBlockedIpv6 ip = true ↔ form ≠ .teredo ∨ InTeredoRange ip := by
  cases form with
  | mapped =>
      refine iff_of_true ((isBlockedIpv6_iff ip).mpr (.inl ?_)) (.inl nofun)
      rw [isMapped, show ip.val = _ from h]
      simp
  | nat64 =>
      refine iff_of_true ?_ (.inl nofun)
      refine @isBlockedIpv6_of_range _
        ([0, 0x64, 0xff, 0x9b, 0, 0, 0, 0, 0, 0, 0, 0, 0, 0, 0, 0], 96) (by decide) ?_
      rw [show ip.val = _ from h]
      simp [inIpv6Range]
  | sixToFour =>
      obtain ⟨rest, hip⟩ := h
      refine iff_of_true ?_ (.inl nofun)
      refine @isBlockedIpv6_of_range _
        ([0x20, 2, 0, 0, 0, 0, 0, 0, 0, 0, 0, 0, 0, 0, 0, 0], 16) (by decide) ?_
      rw [hip]
      simp [inIpv6Range]
  | teredo =>
      obtain ⟨server, client, middle, hip, -⟩ := h
      rw [List.append_assoc, List.append_assoc] at hip
      rw [isBlockedIpv6_teredo hip]
      simp

/-! ## What the guard lets through -/

section Guard
variable {text : TextPrimitives} {systemResolver : String → Except String (List ResolvedRecord)}
  {opts : AssertWebhookUrlSafeOptions} {url : String} {result : AssertWebhookUrlSafeResult}

/-- The target of a webhook is one of the records of its host, and none of them is blocked. -/
theorem records_of_assertWebhookUrlSafe
    (hok : assertWebhookUrlSafe text systemResolver opts url = .ok result)
    (hpublic : opts.allowPrivateForTests = false) :
    ∃ records, targetRecords systemResolver opts url result.hostname = .ok records ∧
      (∀ record ∈ records, isBlockedIp record.address = false) ∧
      ∃ record ∈ records, result.resolvedIp = record.address := by
  rw [assertWebhookUrlSafe] at hok
  cases hparsed : text.parseUrl url with
  | none =>
      rw [hparsed] at hok
      cases hok
  | some parsed =>
      obtain ⟨scheme, host⟩ := parsed
      rw [hparsed] at hok
      dsimp only at hok
      by_cases hscheme : scheme ≠ "https" ∧ ¬ (opts.allowHttpScheme ∧ scheme = "http")
      · rw [if_pos hscheme] at hok
        cases hok
      rw [if_neg hscheme] at hok
      cases host with
      | none => cases hok
      | some rawHost =>
          obtain ⟨records, hrecords, hrest⟩ := ExceptBind.bind_eq_ok.mp hok
          cases records with
          | nil => cases hrest
          | cons first rest =>
              dsimp only at hrest
              cases hfind : (first :: rest).find? fun rec =>
                  !opts.allowPrivateForTests && isBlockedIp rec.address with
              | some blocked =>
                  rw [hfind] at hrest
                  cases hrest
              | none =>
                  rw [hfind] at hrest
                  cases hrest
                  refine ⟨first :: rest, hrecords, ?_, first, List.mem_cons_self, rfl⟩
                  intro record hrecord
                  have hpass := List.find?_eq_none.mp hfind record hrecord
                  simpa [hpublic] using hpass

/-- What the resolver returns are the records of a host that is no address. -/
theorem targetRecords_eq_ok {hostname : String} {records : List ResolvedRecord}
    (hname : looksLikeIpLiteral hostname = false)
    (h : targetRecords systemResolver opts url hostname = .ok records) :
    (opts.resolveHost.getD systemResolver) hostname = .ok records := by
  rw [targetRecords, if_neg (by simp [hname])] at h
  cases hresolved : (opts.resolveHost.getD systemResolver) hostname with
  | error e =>
      rw [hresolved] at h
      cases h
  | ok found =>
      rw [hresolved] at h
      cases h
      rfl

end Guard

/-- **An embedded address is blocked with the one it carries, but for the Teredo addresses outside
one server's range.** What the guard lets through is among the records, none of which is blocked. -/
theorem carried_blocked_iff (form : TransitionForm) (a : Ipv4Addr) (ip : Ipv6Addr)
    (_hblocked : isBlockedIp (.v4 a) = true) (hcarries : form.Carries a ip) :
    (isBlockedIp (.v6 ip) = true ↔ form ≠ .teredo ∨ InTeredoRange ip) ∧
    ∀ (text : TextPrimitives) (systemResolver : String → Except String (List ResolvedRecord))
      (opts : AssertWebhookUrlSafeOptions) (url : String) (result : AssertWebhookUrlSafeResult),
      assertWebhookUrlSafe text systemResolver opts url = .ok result →
      opts.allowPrivateForTests = false →
      ∃ records, targetRecords systemResolver opts url result.hostname = .ok records ∧
        (looksLikeIpLiteral result.hostname = false →
          (opts.resolveHost.getD systemResolver) result.hostname = .ok records) ∧
        (∀ record ∈ records, isBlockedIp record.address = false) ∧
        ∃ record ∈ records, result.resolvedIp = record.address := by
  refine ⟨?_, ?_⟩
  · exact isBlockedIpv6_carries hcarries
  · intro text systemResolver opts url result hok hpublic
    obtain ⟨records, hrecords, hall, hpinned⟩ := records_of_assertWebhookUrlSafe hok hpublic
    exact ⟨records, hrecords, fun hname => targetRecords_eq_ok hname hrecords, hall, hpinned⟩

/-! ## Three addresses -/

def loopbackIpv4 : Ipv4Addr := ⟨[127, 0, 0, 1], rfl⟩

def mappedLoopback : Ipv6Addr := ⟨[0, 0, 0, 0, 0, 0, 0, 0, 0, 0, 0xff, 0xff, 127, 0, 0, 1], rfl⟩

/-- A Teredo address whose client is the loopback address. -/
def teredoLoopback : Ipv6Addr :=
  ⟨[0x20, 1, 0, 0, 65, 54, 227, 120, 128, 0, 99, 191, 128, 255, 255, 254], rfl⟩

def publicIpv4 : Ipv4Addr := ⟨[8, 8, 8, 8], rfl⟩

/-- A parser that knows one address of the web. -/
def hookText : TextPrimitives :=
  { asciiText with
    parseUrl := fun url =>
      if url = "https://example.com/hook" then some ("https", some "example.com") else none }

def publicResolver (_ : String) : Except String (List ResolvedRecord) :=
  .ok [⟨.v4 publicIpv4, 4⟩]

/-- The mapped loopback address is blocked, and a public target is not. -/
theorem carried_blocked_mapped : isBlockedIp (.v6 mappedLoopback) = true ∧
    ∃ result records,
      assertWebhookUrlSafe hookText publicResolver ⟨false, false, none⟩ "https://example.com/hook" =
        .ok result ∧
      targetRecords publicResolver ⟨false, false, none⟩ "https://example.com/hook"
        result.hostname = .ok records ∧
      (∀ record ∈ records, isBlockedIp record.address = false) ∧
      ∃ record ∈ records, result.resolvedIp = record.address := by
  have hblocked : isBlockedIp (.v4 loopbackIpv4) = true := by decide
  have hrun : assertWebhookUrlSafe hookText publicResolver ⟨false, false, none⟩
      "https://example.com/hook" = .ok ⟨.v4 publicIpv4, 4, canonicaliseHost hookText
        "example.com"⟩ := by
    have hparsed : hookText.parseUrl "https://example.com/hook" =
        some ("https", some "example.com") := by decide
    have hname : looksLikeIpLiteral (canonicaliseHost hookText "example.com") = false := by
      decide
    have hpublic : isBlockedIp (.v4 publicIpv4) = false := by decide
    rw [assertWebhookUrlSafe, hparsed]
    simp [targetRecords, hname, publicResolver, hpublic]
  obtain ⟨hmapped, hguard⟩ :=
    carried_blocked_iff .mapped loopbackIpv4 mappedLoopback hblocked rfl
  obtain ⟨records, hrecords, -, hall, hpinned⟩ := hguard _ _ _ _ _ hrun rfl
  exact ⟨hmapped.mpr (.inl nofun), _, records, hrun, hrecords, hall, hpinned⟩

/-- The loopback address is blocked, and a Teredo address that carries it is not. -/
theorem not_carried_blocked_teredo : isBlockedIp (.v4 loopbackIpv4) = true ∧
    TransitionForm.teredo.Carries loopbackIpv4 teredoLoopback ∧
    isBlockedIp (.v6 teredoLoopback) = false := by
  refine ⟨by decide, ⟨⟨[65, 54, 227, 120], rfl⟩, loopbackIpv4, ⟨[128, 0, 99, 191], rfl⟩,
    by decide, .inr rfl⟩, by decide⟩

end Label309
