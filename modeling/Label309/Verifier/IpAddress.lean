import Label309.Bytes

/-!
# Addresses and their texts

An address of either version is its octets. The readers take what they can from the front of a text
and leave the rest.
-/
namespace Label309

abbrev Ipv4Addr := FixedBytes 4

abbrev Ipv6Addr := FixedBytes 16

/-- An address of either family. -/
inductive IpAddr
  | v4 (addr : Ipv4Addr)
  | v6 (addr : Ipv6Addr)

/-- The family is the shorter one. -/
def IpAddr.isIpv4 : IpAddr → Bool
  | .v4 _ => true
  | .v6 _ => false

/-- A reader at the front of a text. One that fails reads nothing. -/
abbrev AddrReader (α : Type) := List Char → Option (α × List Char)

/-! ## Numbers -/

/-- The value of a digit. -/
def toDigit (radix : ℕ) (c : Char) : Option ℕ :=
  let n :=
    if '0' ≤ c ∧ c ≤ '9' then c.toNat - 48
    else if 'a' ≤ c ∧ c ≤ 'z' then c.toNat - 87
    else if 'A' ≤ c ∧ c ≤ 'Z' then c.toNat - 55
    else radix
  if n < radix then some n else none

/-- The number of the digits. -/
def digitsValue (radix : ℕ) (digits : List Char) : ℕ :=
  digits.foldl (fun acc c => acc * radix + (toDigit radix c).getD 0) 0

/-- A number below a bound, of so many digits at most. -/
def readNumber (radix maxDigits bound : ℕ) (allowZeroPrefix : Bool) : AddrReader ℕ := fun s =>
  let digits := s.takeWhile fun c => (toDigit radix c).isSome
  if maxDigits < digits.length ∨ digits = [] then none
  else if allowZeroPrefix = false ∧ s.head? = some '0' ∧ 1 < digits.length then none
  else if digitsValue radix digits < bound then
    some (digitsValue radix digits, s.drop digits.length)
  else none

/-- A whole text that is a number below a bound. -/
def parseUnsigned (bound : ℕ) (s : List Char) : Option ℕ :=
  let digits := if s.head? = some '+' then s.tail else s
  if digits ≠ [] ∧ (digits.all fun c => (toDigit 10 c).isSome) ∧
      digitsValue 10 digits < bound then
    some (digitsValue 10 digits)
  else none

/-- Read this character. -/
def readGivenChar (c : Char) : AddrReader Unit
  | d :: rest => if d = c then some ((), rest) else none
  | [] => none

/-- All but the first of several parts are preceded by a separator. -/
def readSeparator {α : Type} (sep : Char) (index : ℕ) (inner : AddrReader α) :
    AddrReader α := fun s =>
  if index = 0 then inner s
  else
    match readGivenChar sep s with
    | some (_, rest) => inner rest
    | none => none

/-! ## Addresses -/

/-- Four numbers with dots. -/
def readIpv4Addr : AddrReader Ipv4Addr := fun s => do
  let (a, s) ← readSeparator '.' 0 (readNumber 10 3 256 false) s
  let (b, s) ← readSeparator '.' 1 (readNumber 10 3 256 false) s
  let (c, s) ← readSeparator '.' 2 (readNumber 10 3 256 false) s
  let (d, s) ← readSeparator '.' 3 (readNumber 10 3 256 false) s
  pure (⟨[UInt8.ofNat a, UInt8.ofNat b, UInt8.ofNat c, UInt8.ofNat d], rfl⟩, s)

/-- A group, its high octet first. -/
def groupOctets (g : ℕ) : List UInt8 := [UInt8.ofNat (g / 256), UInt8.ofNat g]

/-- Groups after those that are read, as long as some are left to be filled. The last two may be an
address of the fourth version, which is noted. -/
def readGroups : (left : ℕ) → (octets : List UInt8) → List Char →
    (List UInt8 × Bool) × List Char
  | 0, octets, s => ((octets, false), s)
  | left + 1, octets, s =>
      let index := octets.length / 2
      match if 1 ≤ left then readSeparator ':' index readIpv4Addr s else none with
      | some (addr, rest) => ((octets ++ addr.val, true), rest)
      | none =>
          match readSeparator ':' index (readNumber 16 4 65536 true) s with
          | some (g, rest) => readGroups left (octets ++ groupOctets g) rest
          | none => ((octets, false), s)

/-- The octets before and after the zeros that are left out. -/
def withZeros (head tail : List UInt8) : Option Ipv6Addr :=
  let octets := head ++ List.replicate (16 - head.length - tail.length) 0 ++ tail
  if h : octets.length = 16 then some ⟨octets, h⟩ else none

/-- Groups of digits, with at most one gap. -/
def readIpv6Addr : AddrReader Ipv6Addr := fun s => do
  let ((head, headIpv4), s) := readGroups 8 [] s
  if head.length = 16 then
    let addr ← withZeros head []
    pure (addr, s)
  else if headIpv4 then none
  else
    let (_, s) ← readGivenChar ':' s
    let (_, s) ← readGivenChar ':' s
    let ((tail, _), s) := readGroups (8 - (head.length / 2 + 1)) [] s
    let addr ← withZeros head tail
    pure (addr, s)

/-- An address of either family. -/
def readIpAddr : AddrReader IpAddr := fun s =>
  match readIpv4Addr s with
  | some (addr, rest) => some (.v4 addr, rest)
  | none => (readIpv6Addr s).map fun out => (.v6 out.1, out.2)

/-- The value of a reader that reads the whole text. -/
def parseWith {α : Type} (reader : AddrReader α) (s : List Char) : Option α :=
  match reader s with
  | some (a, []) => some a
  | _ => none

/-- A text of at most 15 characters. -/
def parseIpv4Addr (s : List Char) : Option Ipv4Addr :=
  if 15 < s.length then none else parseWith readIpv4Addr s

def parseIpv6Addr (s : List Char) : Option Ipv6Addr := parseWith readIpv6Addr s

def parseIpAddr (s : List Char) : Option IpAddr := parseWith readIpAddr s

/-! ## Texts -/

def Ipv4Addr.display (addr : Ipv4Addr) : String :=
  ".".intercalate (addr.val.map fun b => toString b.toNat)

/-- The groups of octets, two by two. -/
def segments : List UInt8 → List ℕ
  | a :: b :: rest => (a.toNat * 256 + b.toNat) :: segments rest
  | _ => []

/-- A run of groups that are zero. -/
structure Span where
  start : ℕ
  len : ℕ

/-- The longest run of zeros, the first of several. -/
def longestZeros (groups : List ℕ) : Span :=
  let step (acc : Span × Span) (entry : ℕ × ℕ) : Span × Span :=
    if entry.1 = 0 then
      let current : Span :=
        ⟨if acc.1.len = 0 then entry.2 else acc.1.start, acc.1.len + 1⟩
      (current, if acc.2.len < current.len then current else acc.2)
    else (⟨0, 0⟩, acc.2)
  (groups.zipIdx.foldl step (⟨0, 0⟩, ⟨0, 0⟩)).2

/-- Groups in hexadecimal digits. -/
def displayGroups (groups : List ℕ) : String :=
  ":".intercalate (groups.map fun g => String.ofList (Nat.toDigits 16 g))

/-- The address stands for one of the shorter family. -/
def isMapped (octets : List UInt8) : Bool := octets.take 12 = List.replicate 10 0 ++ [0xff, 0xff]

def Ipv6Addr.display (addr : Ipv6Addr) : String :=
  if isMapped addr.val then
    "::ffff:" ++ ".".intercalate ((addr.val.drop 12).map fun b => toString b.toNat)
  else
    let groups := segments addr.val
    let zeros := longestZeros groups
    if 1 < zeros.len then
      displayGroups (groups.take zeros.start) ++ "::" ++
        displayGroups (groups.drop (zeros.start + zeros.len))
    else displayGroups groups

def IpAddr.display : IpAddr → String
  | .v4 addr => Ipv4Addr.display addr
  | .v6 addr => Ipv6Addr.display addr

example : (parseIpAddr "10.0.0.1".toList).map IpAddr.display = some "10.0.0.1" := by
  decide

example : (parseIpAddr "2001:DB8:0:0:1:0:0:0".toList).map IpAddr.display =
    some "2001:db8:0:0:1::" := by
  decide

end Label309
