import Aperio.Text

/-!
# Addresses and address lists

`std::net::IpAddr` with the parser of the standard library, and the
allowlist functions of `auth/ip.rs` over it: what an entry may be written
as, and whether an address falls inside one.
-/

namespace Aperio

inductive IpAddr where
  | v4 (a : BitVec 32)
  | v6 (a : BitVec 128)
deriving Repr, DecidableEq

/-! ## Parsing

The parser reads from the front of the remaining text and gives back what
is left; a reader that fails consumes nothing. -/

/-- Digits of one number: the value so far, the count of digits read and
the rest of the text. -/
def readDigits (radix : Nat) (digit : Char → Option Nat) :
    List Char → Nat → Nat → Nat × Nat × List Char
  | [], acc, n => (acc, n, [])
  | c :: rest, acc, n =>
    match digit c with
    | some d => readDigits radix digit rest (acc * radix + d) (n + 1)
    | none => (acc, n, c :: rest)

/-- `char::to_digit`. -/
def toDigit (radix : Nat) (c : Char) : Option Nat :=
  let n := c.toNat
  let v :=
    if '0' ≤ c ∧ c ≤ '9' then some (n - 0x30)
    else if 'a' ≤ c ∧ c ≤ 'z' then some (n - 0x61 + 10)
    else if 'A' ≤ c ∧ c ≤ 'Z' then some (n - 0x41 + 10)
    else none
  v.filter (· < radix)

/-- `Parser::read_number`: at most `maxDigits` digits, a value below `bound`
(the width of the slot), and no redundant leading zero unless allowed. -/
def readNumber (radix maxDigits bound : Nat) (allowZeroPrefix : Bool) (cs : List Char) :
    Option (Nat × List Char) :=
  let (v, n, rest) := readDigits radix (toDigit radix) cs 0 0
  if n = 0 ∨ maxDigits < n ∨ bound ≤ v then none
  else if !allowZeroPrefix && cs.head? == some '0' && 1 < n then none
  else some (v, rest)

/-- `Parser::read_separator`: the separator stands before every slot but the
first. -/
def readSeparator {α : Type} (sep : Char) (index : Nat)
    (inner : List Char → Option (α × List Char)) (cs : List Char) : Option (α × List Char) :=
  if index = 0 then inner cs
  else
    match cs with
    | c :: rest => if c = sep then inner rest else none
    | [] => none

/-- `Parser::read_ipv4_addr`. -/
def readIpv4Addr (cs : List Char) : Option (BitVec 32 × List Char) := do
  let octet (i : Nat) := readSeparator '.' i (readNumber 10 3 256 false)
  let (a, cs) ← octet 0 cs
  let (b, cs) ← octet 1 cs
  let (c, cs) ← octet 2 cs
  let (d, cs) ← octet 3 cs
  return (BitVec.ofNat 32 (((a * 256 + b) * 256 + c) * 256 + d), cs)

/-- `read_groups`: up to `slots` sixteen-bit groups from position `i` on,
and whether the last two came from an embedded IPv4 address. -/
def readGroups : Nat → Nat → List Char → List Nat × Bool × List Char
  | 0, _, cs => ([], false, cs)
  | slots + 1, i, cs =>
    let ipv4 := if slots = 0 then none else readSeparator ':' i readIpv4Addr cs
    match ipv4 with
    | some (a, rest) => ([a.toNat / 65536, a.toNat % 65536], true, rest)
    | none =>
      match readSeparator ':' i (readNumber 16 4 65536 true) cs with
      | some (g, rest) =>
        let (gs, v4, rest') := readGroups slots (i + 1) rest
        (g :: gs, v4, rest')
      | none => ([], false, cs)

def ofGroups (gs : List Nat) : BitVec 128 :=
  BitVec.ofNat 128 (gs.foldl (fun acc g => acc * 65536 + g) 0)

/-- `Parser::read_ipv6_addr`: eight groups, or fewer around one `::`. -/
def readIpv6Addr (cs : List Char) : Option (BitVec 128 × List Char) :=
  let (head, headV4, rest) := readGroups 8 0 cs
  if head.length = 8 then some (ofGroups head, rest)
  else if headV4 then none
  else
    match rest with
    | ':' :: ':' :: rest' =>
      let (tail, _, rest'') := readGroups (8 - (head.length + 1)) 0 rest'
      some (ofGroups (head ++ List.replicate (8 - head.length - tail.length) 0 ++ tail), rest'')
    | _ => none

/-- `str::parse::<IpAddr>`. -/
def parseIpAddr (s : String) : Option IpAddr :=
  match readIpv4Addr s.toList with
  | some (a, rest) => if rest = [] then some (.v4 a) else none
  | none =>
    match readIpv6Addr s.toList with
    | some (a, rest) => if rest = [] then some (.v6 a) else none
    | none => none

/-- `str::parse::<u32>`: an optional `+`, then digits, below `2 ^ 32`. -/
def parseU32 (s : String) : Option Nat :=
  let digits :=
    match s.toList with
    | '+' :: rest => rest
    | cs => cs
  match readDigits 10 (toDigit 10) digits 0 0 with
  | (v, n, []) => if n = 0 ∨ 4294967296 ≤ v then none else some v
  | _ => none

/-! ## Canonical forms -/

/-- `Ipv6Addr::to_ipv4_mapped`. -/
def toIpv4Mapped (a : BitVec 128) : Option (BitVec 32) :=
  if a >>> 32 = 0xffff#128 then some (a.truncate 32) else none

namespace IpAddr

/-- `IpAddr::to_canonical`. -/
def toCanonical : IpAddr → IpAddr
  | .v4 a => .v4 a
  | .v6 a =>
    match toIpv4Mapped a with
    | some b => .v4 b
    | none => .v6 a

end IpAddr

/-- A range written inside the IPv4-mapped block, as the IPv4 range it
stands for. -/
def canonicalNetwork (base : IpAddr) (bits : Nat) : IpAddr × Nat :=
  match base with
  | .v6 a =>
    match toIpv4Mapped a with
    | some b => if 96 ≤ bits then (.v4 b, bits - 96) else (base, bits)
    | none => (base, bits)
  | .v4 _ => (base, bits)

/-- Whether `ip` falls inside the range `base/bits`. -/
def cidrContains (base : IpAddr) (bits : Nat) (ip : IpAddr) : Bool :=
  let (base, bits) := canonicalNetwork base bits
  let ip :=
    match base with
    | .v4 _ => ip.toCanonical
    | .v6 _ => ip
  match base, ip with
  | .v4 b, .v4 i =>
    if 32 < bits then false
    else if bits = 0 then true
    else
      let mask := BitVec.allOnes 32 <<< (32 - bits)
      b &&& mask == i &&& mask
  | .v6 b, .v6 i =>
    if 128 < bits then false
    else if bits = 0 then true
    else
      let mask := BitVec.allOnes 128 <<< (128 - bits)
      b &&& mask == i &&& mask
  | _, _ => false

/-! ## Allowlists -/

/-- Whether one allowlist entry admits `ip`. -/
def ipEntryAllows (ip : IpAddr) (entry : String) : Bool :=
  let entry := trim entry
  if entry = "*" ∨ entry = "0.0.0.0/0" ∨ entry = "::/0" ∨ entry = "0.0.0.0" then true
  else
    match splitOnce entry '/' with
    | some (base, bits) =>
      match parseIpAddr base, parseU32 bits with
      | some baseIp, some bits => cidrContains baseIp bits ip
      | _, _ => false
    | none =>
      match parseIpAddr entry with
      | some allowedIp => allowedIp.toCanonical == ip.toCanonical
      | none => false

/-- `ip_allowed`: an empty list admits everyone. -/
def ipAllowed (ip : IpAddr) (allowed : List String) : Bool :=
  allowed.isEmpty || allowed.any (ipEntryAllows ip)

/-- `valid_ip_entry`: a plain address, a range, or `*`. -/
def validIpEntry (entry : String) : Bool :=
  let entry := trim entry
  if entry = "*" then true
  else
    match splitOnce entry '/' with
    | some (base, bits) =>
      match parseIpAddr base with
      | none => false
      | some baseIp =>
        match parseU32 bits with
        | none => false
        | some bits =>
          match baseIp with
          | .v4 _ => bits ≤ 32
          | .v6 _ => bits ≤ 128
    | none => (parseIpAddr entry).isSome

example : validIpEntry " 10.0.0.0/8 " = true ∧ validIpEntry "10.0.0/8" = false := by
  decide

example : parseIpAddr "::ffff:10.1.2.3" = some (.v6 0xffff0a010203#128) := by decide

end Aperio
