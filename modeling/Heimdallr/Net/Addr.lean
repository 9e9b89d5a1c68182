import Heimdallr.Basic

/-!
# Text forms of addresses and numbers

The `FromStr` and `Display` implementations of `std::net` and `u16` that the source relies on: for
`Ipv4Addr`, `Ipv6Addr`, `IpAddr`, `SocketAddr` and ports. A `&str` is the list of its characters.

* The readers follow `core::net::parser`. `read_atomically` puts the input back when a reader fails,
  so a `Reader` gives the rest of the input with its result, and `none` stands for failure and
  restored input at once.
* An IPv4 octet has no leading zero and three digits at most; an IPv6 group has four hexadecimal
  digits at most, and the last two groups may be an IPv4 address. One `::` stands for any number of
  groups of zeros that is left.
* `Ipv4Addr::from_str` looks at the length of the text first; `IpAddr::from_str` does not.
* `Display` of an IPv6 address puts `::` in the place of the first of its longest runs of at least
  two zero groups, and writes an IPv4-mapped address with dots.

What the readers accept is `Net.AddrSpec`, and that they read what `Display` writes `Net.AddrText`.
-/

namespace Heimdallr.Net

/-- A text. -/
abbrev Text := List Char

/-- `str::len`: the number of bytes in UTF-8. -/
def Text.len (t : Text) : Nat := (t.map Char.utf8Size).sum

/-- `char::to_digit`, for a radix of at most 16. -/
def toDigit (radix : Nat) (c : Char) : Option Nat :=
  let digit :=
    if '0' ≤ c ∧ c ≤ '9' then some (c.toNat - 48)
    else if 'a' ≤ c ∧ c ≤ 'f' then some (c.toNat - 87)
    else if 'A' ≤ c ∧ c ≤ 'F' then some (c.toNat - 55)
    else none
  digit.filter (· < radix)

/-- The value of a sequence of digits. -/
def ofDigits (radix : Nat) (ds : List Nat) : Nat := ds.foldl (fun n d => n * radix + d) 0

/-- `u16::from_str`: an optional `+`, then at least one digit. -/
def parseU16 (t : Text) : Option UInt16 :=
  let digits :=
    match t with
    | '+' :: rest => rest
    | t => t
  if digits = [] then none
  else do
    let ds ← digits.mapM (toDigit 10)
    let n := ofDigits 10 ds
    if n < 65536 then some (UInt16.ofNat n) else none

/-! ## `core::net::parser` -/

/-- A reader: the value and the rest of the input. -/
abbrev Reader (α : Type) := Text → Option (α × Text)

namespace Reader

/-- `read_given_char`. -/
def givenChar (c : Char) : Reader Unit
  | d :: rest => if d = c then some ((), rest) else none
  | [] => none

/-- `read_number`: all the digits there are. With `maxDigits` there may be no more than that many;
without it the value is bounded only by `limit`. -/
def number (radix : Nat) (maxDigits : Option Nat) (allowZeroPrefix : Bool) (limit : Nat) :
    Reader Nat := fun t =>
  let digits := t.takeWhile fun c => (toDigit radix c).isSome
  let rest := t.dropWhile fun c => (toDigit radix c).isSome
  let n := ofDigits radix (digits.filterMap (toDigit radix))
  if maxDigits.any (· < digits.length) then none
  else if digits.length = 0 then none
  else if !allowZeroPrefix && t.head? == some '0' && 1 < digits.length then none
  else if limit ≤ n then none
  else some (n, rest)

/-- `read_separator`: a separator before every item but the first. -/
def separated {α : Type} (sep : Char) (index : Nat) (inner : Reader α) : Reader α := fun t =>
  if 0 < index then do
    let ((), t) ← givenChar sep t
    inner t
  else inner t

/-- One octet of an IPv4 address: no leading zero. -/
def octet : Reader Nat := number 10 (some 3) false 256

/-- `read_ipv4_addr`. -/
def ipv4 : Reader Ipv4Addr := fun t => do
  let (a, t) ← separated '.' 0 octet t
  let (b, t) ← separated '.' 1 octet t
  let (c, t) ← separated '.' 2 octet t
  let (d, t) ← separated '.' 3 octet t
  some (⟨UInt8.ofNat a, UInt8.ofNat b, UInt8.ofNat c, UInt8.ofNat d⟩, t)

/-- The rest of `read_groups` from group `index` on, with `room` groups to go: the groups read,
whether they end with an embedded IPv4 address, and the rest of the input. -/
def groups (index : Nat) : Nat → Text → List Nat × Bool × Text
  | 0, t => ([], false, t)
  | room + 1, t =>
    -- an embedded IPv4 address takes the place of two groups
    match if 0 < room then separated ':' index ipv4 t else none with
    | some (v4, t) =>
      ([v4.a.toNat * 256 + v4.b.toNat, v4.c.toNat * 256 + v4.d.toNat], true, t)
    | none =>
      match separated ':' index (number 16 (some 4) true 65536) t with
      | some (g, t) =>
        let (gs, v4, t) := groups (index + 1) room t
        (g :: gs, v4, t)
      | none => ([], false, t)

/-- The address of eight groups. -/
def ofGroups (gs : List Nat) : Ipv6Addr :=
  ⟨Vector.ofFn fun i =>
    let g := gs.getD (i / 2) 0
    UInt8.ofNat (if i.val % 2 = 0 then g / 256 else g % 256)⟩

/-- `read_ipv6_addr`. -/
def ipv6 : Reader Ipv6Addr := fun t =>
  let (head, headIpv4, t) := groups 0 8 t
  if head.length = 8 then some (ofGroups head, t)
  else if headIpv4 then none
  else do
    let ((), t) ← givenChar ':' t
    let ((), t) ← givenChar ':' t
    -- `::` stands for at least one group
    let (tail, _, t) := groups 0 (8 - (head.length + 1)) t
    some (ofGroups (head ++ List.replicate (8 - head.length - tail.length) 0 ++ tail), t)

/-- `read_port`. -/
def port : Reader UInt16 := fun t => do
  let ((), t) ← givenChar ':' t
  let (n, t) ← number 10 none true 65536 t
  some (UInt16.ofNat n, t)

/-- `read_scope_id`. -/
def scopeId : Reader UInt32 := fun t => do
  let ((), t) ← givenChar '%' t
  let (n, t) ← number 10 none true 4294967296 t
  some (UInt32.ofNat n, t)

/-- `read_socket_addr_v4`. -/
def socketAddrV4 : Reader SocketAddr := fun t => do
  let (ip, t) ← ipv4 t
  let (port, t) ← port t
  some (.V4 ip port, t)

/-- `read_socket_addr_v6`. -/
def socketAddrV6 : Reader SocketAddr := fun t => do
  let ((), t) ← givenChar '[' t
  let (ip, t) ← ipv6 t
  let (scope, t) := (scopeId t).getD (0, t)
  let ((), t) ← givenChar ']' t
  let (port, t) ← port t
  some (.V6 ip port 0 scope, t)

/-- `parse_with`: the reader has to take the whole text. -/
def parseWith {α : Type} (r : Reader α) (t : Text) : Option α :=
  match r t with
  | some (a, []) => some a
  | _ => none

end Reader

/-- `Ipv4Addr::from_str`: too long a text is not looked at. -/
def parseIpv4 (t : Text) : Option Ipv4Addr :=
  if 15 < t.len then none else Reader.ipv4.parseWith t

/-- `Ipv6Addr::from_str`. -/
def parseIpv6 (t : Text) : Option Ipv6Addr := Reader.ipv6.parseWith t

/-- `IpAddr::from_str`. -/
def parseIpAddr (t : Text) : Option IpAddr :=
  Reader.parseWith (fun t => ((Reader.ipv4 t).map fun r => (.V4 r.1, r.2)).or
    ((Reader.ipv6 t).map fun r => (.V6 r.1, r.2))) t

/-- `SocketAddr::from_str`. -/
def parseSocketAddr (t : Text) : Option SocketAddr :=
  Reader.parseWith (fun t => (Reader.socketAddrV4 t).or (Reader.socketAddrV6 t)) t

/-! ## `Display` -/

/-- `Ipv4Addr`'s `Display`. -/
def displayIpv4 (ip : Ipv4Addr) : Text :=
  List.intercalate ['.'] ([ip.a, ip.b, ip.c, ip.d].map fun o => Nat.toDigits 10 o.toNat)

/-- `Ipv6Addr::segments`. -/
def segments (ip : Ipv6Addr) : List Nat :=
  List.ofFn fun i : Fin 8 =>
    ip.octets[2 * i.val].toNat * 256 + ip.octets[2 * i.val + 1].toNat

/-- A run of zero segments. -/
structure Span where
  start : Nat := 0
  len : Nat := 0
  deriving DecidableEq, Repr

/-- The first of the longest runs of zero segments, from segment `i` on. -/
def longestZeroes : Nat → Span → Span → List Nat → Span
  | _, longest, _, [] => longest
  | i, longest, current, segment :: rest =>
    if segment = 0 then
      let current : Span :=
        ⟨if current.len = 0 then i else current.start, current.len + 1⟩
      longestZeroes (i + 1) (if longest.len < current.len then current else longest) current rest
    else longestZeroes (i + 1) longest {} rest

/-- `fmt_subslice`: segments in hexadecimal between colons. -/
def displaySegments (gs : List Nat) : Text := List.intercalate [':'] (gs.map (Nat.toDigits 16))

/-- `Ipv6Addr`'s `Display`: an IPv4-mapped address in its mixed form, else the longest run of zero
segments, if it is longer than one, as `::`. -/
def displayIpv6 (ip : Ipv6Addr) : Text :=
  let gs := segments ip
  if gs.take 6 = [0, 0, 0, 0, 0, 0xffff] then
    "::ffff:".toList ++
      displayIpv4 ⟨ip.octets[12], ip.octets[13], ip.octets[14], ip.octets[15]⟩
  else
    let zeroes := longestZeroes 0 {} {} gs
    if 1 < zeroes.len then
      displaySegments (gs.take zeroes.start) ++ [':', ':'] ++
        displaySegments (gs.drop (zeroes.start + zeroes.len))
    else displaySegments gs

/-- `IpAddr`'s `Display`. -/
def displayIp : IpAddr → Text
  | .V4 ip => displayIpv4 ip
  | .V6 ip => displayIpv6 ip

end Heimdallr.Net
