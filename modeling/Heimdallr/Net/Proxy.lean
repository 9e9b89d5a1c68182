import Heimdallr.Net.Addr
import Heimdallr.Net.Stream

/-!
# PROXY protocol headers (`net/proxy.rs`)

A load balancer that relays a connection may announce the client it relays for in a header before
the first byte of payload: a line of text (version 1) or a binary block (version 2).
`parse_proxy_header` reads either from the front of a buffer.

* Indexing and slicing are bounds-checked as in Rust, and an access out of range is the error
  `Panic`. That no buffer leads there is a result (`Net.ProxyGrammar`), not an assumption.
* A line is decoded as UTF-8 and cut at its single blanks; its fields are read by the readers of
  `Net.Addr`. Nothing bounds its length.
* The errors are those of the source, by constructor. Their texts are left out.
* In version 2 the high nibble of byte 12 has to be 2 and the low one is the command, 0 for PROXY
  and 1 for LOCAL; byte 13 is compared as a whole with `0x10` and `0x20`. HAProxy has the commands
  the other way round, and puts the kind of socket into the low nibble of byte 13: `0x11` for TCP
  over IPv4.

Results:
* `parseV1_eq`, `parseV2_fixed`: what the two parsers compute, once the terminator is found and the
  fixed part is there.
* `Complete`: the bytes of one header. **`parseProxyHeader_append`**: what follows it does not
  matter; **`parseProxyHeader_take`**: cut short it is an error.
* **`short_header`**: the only header of at most 16 bytes that gives an address is the bare one of
  the unspecified family.
* **`encodeV2_not_decoded`**: what HAProxy sends for a relayed stream is refused.
-/

namespace Heimdallr.Net

/-- `ProxyVersion`. -/
inductive ProxyVersion
  | V1
  | V2
  deriving DecidableEq, Repr

/-- `ProxyCommand`. -/
inductive ProxyCommand
  | Proxy
  | Local
  deriving DecidableEq, Repr

/-- `ProxyInfo`: the parsed source address. -/
structure ProxyInfo where
  version : ProxyVersion
  command : ProxyCommand
  source : SocketAddr
  deriving DecidableEq, Repr

/-- The two families of addresses a header may carry, as its error texts name them. -/
inductive ProxyFamily
  | TCP4
  | TCP6
  deriving DecidableEq, Repr

/-- The errors of `parse_proxy_header`, one for each text. -/
inductive ProxyError
  /-- `proxy v1: missing CRLF terminator` -/
  | V1MissingCrlf
  /-- `proxy v1: header is not valid UTF-8` -/
  | V1NotUtf8
  /-- `proxy v1: header too short` -/
  | V1TooShort
  /-- `proxy v1 {family}: expected 5 fields, got {got}` -/
  | V1TooFewFields (family : ProxyFamily) (got : Nat)
  /-- `proxy v1 {family}: bad source IP` -/
  | V1BadSourceIp (family : ProxyFamily)
  /-- `proxy v1 {family}: bad source port` -/
  | V1BadSourcePort (family : ProxyFamily)
  /-- `proxy v1: unsupported protocol {other}` -/
  | V1UnsupportedProtocol (other : Text)
  /-- `proxy v2: header too short ({len} < 16)` -/
  | V2TooShort (len : Nat)
  /-- `proxy v2: unsupported version {version}` -/
  | V2UnsupportedVersion (version : UInt8)
  /-- `proxy v2: unsupported command {other}` -/
  | V2UnsupportedCommand (other : UInt8)
  /-- `proxy v2: header too short for address data ({len} < {needed})` -/
  | V2TooShortForAddress (len needed : Nat)
  /-- `proxy v2 {family}: addr_len too short ({addr_len} < {needed})` -/
  | V2AddressTooShort (family : ProxyFamily) (addrLen needed : Nat)
  /-- `proxy v2: unsupported family 0x{other:02x}` -/
  | V2UnsupportedFamily (other : UInt8)
  /-- an index out of range -/
  | Panic
  deriving DecidableEq, Repr

/-! ## Buffers and texts -/

/-- `xs[i]`. -/
def index {α : Type} (xs : List α) (i : Nat) : Except ProxyError α :=
  match xs[i]? with
  | some a => .ok a
  | none => .error .Panic

/-- `xs[a..b]`. -/
def slice {α : Type} (xs : List α) (a b : Nat) : Except ProxyError (List α) :=
  if a ≤ b ∧ b ≤ xs.length then .ok ((xs.take b).drop a) else .error .Panic

/-- `buf.windows(2).position(|w| w == b"\r\n")`. -/
def crlfPos : Bytes → Option Nat
  | a :: b :: rest => if a = 13 ∧ b = 10 then some 0 else (crlfPos (b :: rest)).map (· + 1)
  | _ => none

/-- `std::str::from_utf8`. -/
def fromUtf8 (buf : Bytes) : Option Text := (ByteArray.mk buf.toArray).utf8Decode?.map Array.toList

/-- `ok_or`, `context`. -/
def orErr {α : Type} (e : ProxyError) : Option α → Except ProxyError α
  | some a => .ok a
  | none => .error e

/-! ## Version 1 -/

/-- What a header of version 1 begins with. -/
def v1Prefix : Bytes := ascii "PROXY "

/-- The branches `TCP4` and `TCP6` of `parse_v1`: the third field is the source address and the
fifth the source port. -/
def parseV1Source {α : Type} (family : ProxyFamily) (parseIp : Text → Option α)
    (newAddr : α → UInt16 → SocketAddr) (parts : List Text) :
    Except ProxyError (Option ProxyInfo) :=
  if parts.length < 5 then .error (.V1TooFewFields family parts.length)
  else do
    let srcIp ← orErr (.V1BadSourceIp family) (parseIp (← index parts 2))
    let srcPort ← orErr (.V1BadSourcePort family) (parseU16 (← index parts 4))
    .ok (some ⟨.V1, .Proxy, newAddr srcIp srcPort⟩)

/-- The match of `parse_v1` on the protocol field. -/
def parseV1Fields (parts : List Text) : Except ProxyError (Option ProxyInfo) :=
  let proto := parts.getD 1 "UNKNOWN".toList
  if proto = "UNKNOWN".toList then .ok none
  else if proto = "TCP4".toList then parseV1Source .TCP4 parseIpv4 .V4 parts
  else if proto = "TCP6".toList then
    parseV1Source .TCP6 parseIpv6 (fun ip port => .V6 ip port 0 0) parts
  else .error (.V1UnsupportedProtocol proto)

/-- `parse_v1`. -/
def parseV1 (buf : Bytes) : Except ProxyError (Option ProxyInfo) := do
  let crlf ← orErr .V1MissingCrlf (crlfPos buf)
  let header ← orErr .V1NotUtf8 (fromUtf8 (← slice buf 0 crlf))
  let parts := header.splitOn ' '
  if parts.length < 2 then .error .V1TooShort
  else parseV1Fields parts

/-! ## Version 2 -/

/-- `\r\n\r\n\0\r\nQUIT\n` -/
def v2Signature : Bytes := [13, 10, 13, 10, 0, 13, 10, 81, 85, 73, 84, 10]

/-- What the fixed part of a version 2 header says. -/
structure V2Fields where
  command : ProxyCommand
  family : UInt8
  addrLen : Nat
  deriving DecidableEq, Repr

/-- The version and the command of `parse_v2`, the two halves of one byte. -/
def parseV2Command (verCmd : UInt8) : Except ProxyError ProxyCommand :=
  let version := (verCmd >>> 4) &&& 0x0F
  let command := verCmd &&& 0x0F
  if version ≠ 2 then .error (.V2UnsupportedVersion version)
  else if command = 0x00 then .ok .Proxy
  else if command = 0x01 then .ok .Local
  else .error (.V2UnsupportedCommand command)

/-- The fixed part of `parse_v2`. -/
def parseV2Fields (buf : Bytes) : Except ProxyError V2Fields := do
  let proxyCmd ← parseV2Command (← index buf 12)
  let family ← index buf 13
  let addrLen := fromBeBytes [← index buf 14, ← index buf 15]
  .ok ⟨proxyCmd, family, addrLen⟩

/-- The match of `parse_v2` on the family. -/
def parseV2Address (f : V2Fields) (addrData : Bytes) : Except ProxyError (Option ProxyInfo) :=
  if f.family = 0x10 then
    if f.addrLen < 12 then .error (.V2AddressTooShort .TCP4 f.addrLen 12)
    else do
      let srcIp : Ipv4Addr :=
        ⟨← index addrData 0, ← index addrData 1, ← index addrData 2, ← index addrData 3⟩
      let srcPort := UInt16.ofNat (fromBeBytes [← index addrData 8, ← index addrData 9])
      .ok (some ⟨.V2, f.command, .V4 srcIp srcPort⟩)
  else if f.family = 0x20 then
    if f.addrLen < 36 then .error (.V2AddressTooShort .TCP6 f.addrLen 36)
    else do
      let srcIp : Ipv6Addr := ⟨← Vector.ofFnM fun i : Fin 16 => index addrData i⟩
      let srcPort := UInt16.ofNat (fromBeBytes [← index addrData 32, ← index addrData 33])
      .ok (some ⟨.V2, f.command, .V6 srcIp srcPort 0 0⟩)
  else if f.family = 0x00 then .ok (some ⟨.V2, f.command, .V4 .unspecified 0⟩)
  else if f.family = 0x30 ∨ f.family = 0x31 then .ok none
  else .error (.V2UnsupportedFamily f.family)

/-- `parse_v2`. -/
def parseV2 (buf : Bytes) : Except ProxyError (Option ProxyInfo) :=
  if buf.length < 16 then .error (.V2TooShort buf.length)
  else do
    let f ← parseV2Fields buf
    if buf.length < 16 + f.addrLen then
      .error (.V2TooShortForAddress buf.length (16 + f.addrLen))
    else parseV2Address f (← slice buf 16 (16 + f.addrLen))

/-- `parse_proxy_header`. -/
def parseProxyHeader (buf : Bytes) : Except ProxyError (Option ProxyInfo) :=
  if v2Signature.isPrefixOf buf then parseV2 buf
  else if v1Prefix.isPrefixOf buf then parseV1 buf
  else .ok none

/-! ## Inversion -/

theorem orErr_eq_ok {α : Type} {e : ProxyError} {o : Option α} {a : α}
    (h : orErr e o = .ok a) : o = some a := by
  cases o with
  | none => cases h
  | some b => rw [Except.ok.inj h]

theorem index_eq_ok {α : Type} {xs : List α} {i : Nat} {a : α} (h : index xs i = .ok a) :
    xs[i]? = some a := by
  unfold index at h
  split at h
  · rename_i b hb
    rw [hb, Except.ok.inj h]
  · cases h

/-- The source of a line is read from its third and its fifth field. -/
theorem parseV1Source_eq_ok {α : Type} {family : ProxyFamily} {parseIp : Text → Option α}
    {newAddr : α → UInt16 → SocketAddr} {parts : List Text} {r : Option ProxyInfo}
    (h : parseV1Source family parseIp newAddr parts = .ok r) :
    ∃ ip port, parts[2]?.bind parseIp = some ip ∧ parts[4]?.bind parseU16 = some port ∧
      r = some ⟨.V1, .Proxy, newAddr ip port⟩ := by
  unfold parseV1Source at h
  split at h
  · cases h
  · obtain ⟨f₂, hf₂, h⟩ := bind_eq_ok h
    obtain ⟨ip, hip, h⟩ := bind_eq_ok h
    obtain ⟨f₄, hf₄, h⟩ := bind_eq_ok h
    obtain ⟨port, hport, h⟩ := bind_eq_ok h
    refine ⟨ip, port, ?_, ?_, (Except.ok.inj h).symm⟩
    · rw [index_eq_ok hf₂]
      exact orErr_eq_ok hip
    · rw [index_eq_ok hf₄]
      exact orErr_eq_ok hport

/-! ## UTF-8 -/

theorem utf8EncodeChar_ascii {b : UInt8} (h : b < 128) :
    String.utf8EncodeChar (Char.ofNat b.toNat) = [b] := by
  have hb : b.toNat < 128 := by simpa [UInt8.lt_iff_toNat_lt] using h
  have hall : ∀ n < 128, (Char.ofNat n).val.toNat = n := by decide
  have hval := hall b.toNat hb
  unfold String.utf8EncodeChar
  simp only [hval]
  rw [if_pos (by omega)]
  simp

/-- An ASCII octet is a character of its own. -/
theorem fromUtf8_cons_ascii {b : UInt8} (h : b < 128) (rest : Bytes) :
    fromUtf8 (b :: rest) = (fromUtf8 rest).map (Char.ofNat b.toNat :: ·) := by
  have hcons : ByteArray.mk (b :: rest).toArray =
      [Char.ofNat b.toNat].utf8Encode ++ ByteArray.mk rest.toArray := by
    rw [List.utf8Encode_singleton, utf8EncodeChar_ascii h]
    ext1
    simp
  rw [fromUtf8, hcons, ByteArray.utf8Decode?_utf8Encode_singleton_append, fromUtf8,
    Option.map_map, Option.map_map]
  congr 1
  funext t
  simp

/-- The text has as many bytes as it was decoded from. -/
theorem len_of_fromUtf8 {buf : Bytes} {t : Text} (h : fromUtf8 buf = some t) :
    t.len = buf.length := by
  obtain ⟨cs, hcs, rfl⟩ := Option.map_eq_some_iff.mp h
  have hsome : (ByteArray.mk buf.toArray).utf8Decode?.isSome := by rw [hcs]; rfl
  have hget : (ByteArray.mk buf.toArray).utf8Decode?.get hsome = cs := by simp [hcs]
  have henc : cs.toList.utf8Encode = ByteArray.mk buf.toArray := by
    rw [← hget]
    exact ByteArray.utf8Encode_get_utf8Decode?
  have hsize : cs.toList.utf8Encode.size = buf.length := by
    rw [henc]
    rfl
  simpa [List.utf8Encode, Text.len] using hsize

theorem length_le_len (t : Text) : t.length ≤ t.len := by
  induction t with
  | nil => simp
  | cons c t ih =>
    have hc := c.utf8Size_pos
    simp only [Text.len, List.map_cons, List.sum_cons, List.length_cons] at ih ⊢
    omega

/-! ## Buffers that go on -/

/-- The terminator is in the buffer. -/
theorem crlfPos_lt : ∀ {buf : Bytes} {k : Nat}, crlfPos buf = some k → k + 2 ≤ buf.length
  | a :: b :: rest, k, h => by
    rw [crlfPos] at h
    split at h
    · obtain rfl := Option.some.inj h
      simp
    · obtain ⟨j, hj, rfl⟩ := Option.map_eq_some_iff.mp h
      have := crlfPos_lt hj
      simp only [List.length_cons] at this ⊢
      omega
  | [_], _, h => by simp [crlfPos] at h
  | [], _, h => by simp [crlfPos] at h

theorem crlfPos_append : ∀ {buf : Bytes} {k : Nat}, crlfPos buf = some k →
    ∀ q, crlfPos (buf ++ q) = some k
  | a :: b :: rest, k, h, q => by
    rw [crlfPos] at h
    show crlfPos (a :: b :: (rest ++ q)) = some k
    rw [crlfPos]
    split at h
    · rename_i hcrlf
      rw [if_pos hcrlf, h]
    · rename_i hcrlf
      obtain ⟨j, hj, rfl⟩ := Option.map_eq_some_iff.mp h
      have hq := crlfPos_append hj q
      rw [if_neg hcrlf]
      show (crlfPos (b :: rest ++ q)).map (· + 1) = _
      rw [hq, Option.map_some]
  | [_], _, h, _ => by simp [crlfPos] at h
  | [], _, h, _ => by simp [crlfPos] at h

/-- A buffer cut before the end of the terminator has none. -/
theorem crlfPos_take {buf : Bytes} {k n : Nat} (h : crlfPos buf = some k) (hn : n < k + 2) :
    crlfPos (buf.take n) = none := by
  cases hcut : crlfPos (buf.take n) with
  | none => rfl
  | some j =>
    have hj := crlfPos_lt hcut
    have heq := crlfPos_append hcut (buf.drop n)
    rw [List.take_append_drop, h] at heq
    obtain rfl := Option.some.inj heq
    rw [List.length_take] at hj
    omega

/-! ## Complete headers -/

/-- The first 16 bytes of a version 2 header. -/
def v2Fixed (verCmd family hi lo : UInt8) : Bytes := v2Signature ++ [verCmd, family, hi, lo]

theorem v2Fixed_length (verCmd family hi lo : UInt8) :
    (v2Fixed verCmd family hi lo).length = 16 := rfl

/-- The bytes of one header, from its first to its last. -/
inductive Complete : Bytes → Prop
  /-- a line and its CRLF, the first in it -/
  | v1 {rest : Bytes} (hcrlf : crlfPos (v1Prefix ++ rest ++ [13, 10]) =
      some (v1Prefix ++ rest).length) : Complete (v1Prefix ++ rest ++ [13, 10])
  /-- 16 bytes and as many more as the last two of them say -/
  | v2 {verCmd family hi lo : UInt8} {data : Bytes} (hdata : data.length = fromBeBytes [hi, lo]) :
      Complete (v2Fixed verCmd family hi lo ++ data)

theorem parseProxyHeader_v1 (q : Bytes) :
    parseProxyHeader (v1Prefix ++ q) = parseV1 (v1Prefix ++ q) := rfl

theorem parseProxyHeader_v2 (verCmd family hi lo : UInt8) (q : Bytes) :
    parseProxyHeader (v2Fixed verCmd family hi lo ++ q) =
      parseV2 (v2Fixed verCmd family hi lo ++ q) := rfl

/-- A line is decoded up to its terminator and split at its spaces. -/
theorem parseV1_eq {buf : Bytes} {k : Nat} (h : crlfPos buf = some k) :
    parseV1 buf =
      match fromUtf8 (buf.take k) with
      | none => .error .V1NotUtf8
      | some header =>
        if (header.splitOn ' ').length < 2 then .error .V1TooShort
        else parseV1Fields (header.splitOn ' ') := by
  have hk := crlfPos_lt h
  have hslice : slice buf 0 k = .ok (buf.take k) := by
    rw [slice, if_pos ⟨by omega, by omega⟩, List.drop_zero]
  have hparse : parseV1 buf = (do
      let header ← orErr .V1NotUtf8 (fromUtf8 (← slice buf 0 k))
      if (header.splitOn ' ').length < 2 then .error .V1TooShort
      else parseV1Fields (header.splitOn ' ')) := by
    rw [parseV1, h]
    rfl
  rw [hparse, hslice]
  show (orErr .V1NotUtf8 (fromUtf8 (buf.take k)) >>= _) = _
  cases fromUtf8 (buf.take k) <;> rfl

theorem parseV1_append {buf : Bytes} {k : Nat} (h : crlfPos buf = some k) (q : Bytes) :
    parseV1 (buf ++ q) = parseV1 buf := by
  have hk := crlfPos_lt h
  rw [parseV1_eq h, parseV1_eq (crlfPos_append h q), List.take_append_of_le_length (by omega)]

/-- What follows the fixed part of a version 2 header decides only whether there is enough of it
and what the address is. -/
theorem parseV2_fixed (verCmd family hi lo : UInt8) (q : Bytes) :
    parseV2 (v2Fixed verCmd family hi lo ++ q) =
      match parseV2Command verCmd with
      | .error e => .error e
      | .ok command =>
        if q.length < fromBeBytes [hi, lo] then
          .error (.V2TooShortForAddress (16 + q.length) (16 + fromBeBytes [hi, lo]))
        else parseV2Address ⟨command, family, fromBeBytes [hi, lo]⟩
          (q.take (fromBeBytes [hi, lo])) := by
  have hfixed := v2Fixed_length verCmd family hi lo
  have hlen : (v2Fixed verCmd family hi lo ++ q).length = 16 + q.length := by
    rw [List.length_append, hfixed]
  have hfields : parseV2Fields (v2Fixed verCmd family hi lo ++ q) =
      (parseV2Command verCmd).map fun c => V2Fields.mk c family (fromBeBytes [hi, lo]) := by
    show (do let c ← parseV2Command verCmd; .ok (V2Fields.mk c family (fromBeBytes [hi, lo]))) = _
    cases parseV2Command verCmd <;> rfl
  rw [parseV2, hlen, if_neg (by omega), hfields]
  cases parseV2Command verCmd with
  | error e => rfl
  | ok command =>
    show (if 16 + q.length < 16 + fromBeBytes [hi, lo] then _ else _) = _
    by_cases hshort : q.length < fromBeBytes [hi, lo]
    · rw [if_pos (by omega)]
      exact (if_pos hshort).symm
    · have hslice : slice (v2Fixed verCmd family hi lo ++ q) 16 (16 + fromBeBytes [hi, lo]) =
          .ok (q.take (fromBeBytes [hi, lo])) := by
        rw [slice, hlen, if_pos ⟨by omega, by omega⟩, ← hfixed, List.take_length_add_append,
          List.drop_left]
      rw [if_neg (by omega), hslice]
      exact (if_neg hshort).symm

/-- **What follows a complete header does not matter.** -/
theorem parseProxyHeader_append {h : Bytes} (hc : Complete h) (q : Bytes) :
    parseProxyHeader (h ++ q) = parseProxyHeader h := by
  cases hc with
  | @v1 rest hcrlf =>
    have hparse := parseV1_append hcrlf q
    simp only [List.append_assoc] at hparse ⊢
    exact hparse
  | @v2 verCmd family hi lo data hdata =>
    rw [List.append_assoc, parseProxyHeader_v2, parseProxyHeader_v2, parseV2_fixed, parseV2_fixed,
      List.length_append, List.take_append_of_le_length (by omega)]
    cases parseV2Command verCmd with
    | error e => rfl
    | ok command =>
      have hmore : ¬ data.length + q.length < fromBeBytes [hi, lo] := by omega
      have hless : ¬ data.length < fromBeBytes [hi, lo] := by omega
      simp only [if_neg hmore, if_neg hless]

/-- **A header that is cut short is an error.** -/
theorem parseProxyHeader_take {h : Bytes} (hc : Complete h) {r : Option ProxyInfo}
    (hok : parseProxyHeader h = .ok r) {n : Nat} (hn : 16 ≤ n) (hlong : n < h.length) :
    ∃ e, parseProxyHeader (h.take n) = .error e := by
  cases hc with
  | @v1 rest hcrlf =>
    have hpre : (v1Prefix ++ rest ++ [13, 10]).take n =
        v1Prefix ++ (rest ++ [13, 10]).take (n - 6) := by
      have h6 : v1Prefix.length = 6 := rfl
      rw [List.append_assoc, List.take_append, List.take_of_length_le (by omega), h6]
    have hlen : (v1Prefix ++ rest ++ [13, 10]).length = (v1Prefix ++ rest).length + 2 := by
      rw [List.length_append]
      rfl
    have hnone := crlfPos_take hcrlf (n := n) (by omega)
    rw [hpre] at hnone ⊢
    refine ⟨.V1MissingCrlf, ?_⟩
    rw [parseProxyHeader_v1, parseV1, hnone]
    rfl
  | @v2 verCmd family hi lo data hdata =>
    have hfixed := v2Fixed_length verCmd family hi lo
    rw [List.length_append, hfixed] at hlong
    rw [parseProxyHeader_v2, parseV2_fixed] at hok
    rw [List.take_append, List.take_of_length_le (by omega), hfixed, parseProxyHeader_v2,
      parseV2_fixed]
    cases hcmd : parseV2Command verCmd with
    | error e => exact ⟨e, rfl⟩
    | ok command =>
      refine ⟨_, if_pos ?_⟩
      rw [List.length_take]
      omega

/-! ## Short headers -/

/-- A field that is read is there, and a field that parses is not empty. -/
theorem field_of_parsed {α : Type} {parts : List Text} {i : Nat} {parse : Text → Option α} {a : α}
    (hnil : parse [] = none) (h : parts[i]?.bind parse = some a) :
    ∃ f, parts[i]? = some f ∧ 0 < f.length := by
  obtain ⟨f, hf, hparse⟩ := Option.bind_eq_some_iff.mp h
  refine ⟨f, hf, List.length_pos_iff.mpr ?_⟩
  rintro rfl
  rw [hnil] at hparse
  cases hparse

/-- A line with an address names its family in the second field and has the third and the fifth. -/
theorem parseV1Fields_some {parts : List Text} {info : ProxyInfo}
    (h : parseV1Fields parts = .ok (some info)) :
    (parts.getD 1 "UNKNOWN".toList).length = 4 ∧ (∃ f, parts[2]? = some f ∧ 0 < f.length) ∧
      ∃ f, parts[4]? = some f ∧ 0 < f.length := by
  unfold parseV1Fields at h
  by_cases hunknown : parts.getD 1 "UNKNOWN".toList = "UNKNOWN".toList
  · rw [if_pos hunknown] at h
    cases h
  rw [if_neg hunknown] at h
  by_cases h4 : parts.getD 1 "UNKNOWN".toList = "TCP4".toList
  · rw [if_pos h4] at h
    obtain ⟨ip, port, hip, hport, -⟩ := parseV1Source_eq_ok h
    exact ⟨by rw [h4]; rfl, field_of_parsed rfl hip, field_of_parsed rfl hport⟩
  rw [if_neg h4] at h
  by_cases h6 : parts.getD 1 "UNKNOWN".toList = "TCP6".toList
  · rw [if_pos h6] at h
    obtain ⟨ip, port, hip, hport, -⟩ := parseV1Source_eq_ok h
    exact ⟨by rw [h6]; rfl, field_of_parsed rfl hip, field_of_parsed rfl hport⟩
  rw [if_neg h6] at h
  cases h

/-- The length of a text with at least four fields. -/
theorem length_intercalate_four (a b c d : Text) (more : List Text) :
    a.length + b.length + c.length + d.length + 3 ≤
      (List.intercalate [' '] (a :: b :: c :: d :: more)).length := by
  have hd : d.length ≤ (List.intercalate [' '] (d :: more)).length := by
    cases more with
    | nil => simp
    | cons e more => simp [List.intercalate_cons_cons]
  simp only [List.intercalate_cons_cons, List.length_append, List.length_singleton]
  omega

/-- ASCII octets are the characters of the same codes. -/
theorem fromUtf8_append_ascii {bs : Bytes} (h : ∀ b ∈ bs, b < 128) (rest : Bytes) :
    fromUtf8 (bs ++ rest) = (fromUtf8 rest).map (bs.map (fun b => Char.ofNat b.toNat) ++ ·) := by
  induction bs with
  | nil => simp
  | cons b bs ih =>
    have hb : b < 128 := h b (by simp)
    have hbs : ∀ x ∈ bs, x < 128 := fun x hx => h x (by simp [hx])
    rw [List.cons_append, fromUtf8_cons_ascii hb, ih hbs, Option.map_map]
    rfl

/-- The text of a line is `PROXY ` and the decoded rest. -/
theorem fromUtf8_v1Prefix (rest : Bytes) :
    fromUtf8 (v1Prefix ++ rest) = (fromUtf8 rest).map ("PROXY ".toList ++ ·) :=
  fromUtf8_append_ascii (by decide +kernel) rest

/-- **A line that carries an address has at least 17 bytes.** -/
theorem v1_address_long {rest : Bytes} {info : ProxyInfo}
    (hcrlf : crlfPos (v1Prefix ++ rest ++ [13, 10]) = some (v1Prefix ++ rest).length)
    (h : parseV1 (v1Prefix ++ rest ++ [13, 10]) = .ok (some info)) :
    17 ≤ (v1Prefix ++ rest ++ [13, 10]).length := by
  rw [parseV1_eq hcrlf, List.take_left, fromUtf8_v1Prefix] at h
  cases hrest : fromUtf8 rest with
  | none =>
    rw [hrest] at h
    cases h
  | some t =>
    have hspace : ' ' ∉ "PROXY".toList := by decide
    have hsplit : ("PROXY ".toList ++ t).splitOn ' ' = "PROXY".toList :: t.splitOn ' ' :=
      List.splitOn_append_cons_self_of_not_mem hspace t
    rw [hrest, Option.map_some] at h
    simp only [hsplit] at h
    split at h
    · cases h
    · obtain ⟨hproto, ⟨f₂, hf₂, hpos₂⟩, f₄, hf₄, hpos₄⟩ := parseV1Fields_some h
      -- the fields after `PROXY`: family, source, destination, port
      have hback : [' '].intercalate (t.splitOn ' ') = t := List.intercalate_splitOn ' '
      rcases hparts : t.splitOn ' ' with _ | ⟨a, _ | ⟨b, _ | ⟨c, _ | ⟨d, more⟩⟩⟩⟩
      iterate 4 · rw [hparts] at hf₄; cases hf₄
      rw [hparts] at hproto hf₂ hf₄ hback
      have ha : a.length = 4 := hproto
      have hb : b = f₂ := Option.some.inj hf₂
      have hd : d = f₄ := Option.some.inj hf₄
      have hlong := length_intercalate_four a b c d more
      have hlen := len_of_fromUtf8 hrest
      have hle := length_le_len t
      have h6 : v1Prefix.length = 6 := rfl
      rw [hback, hb, hd] at hlong
      simp only [List.length_append, h6, List.length_cons, List.length_nil]
      omega

theorem fromBeBytes_eq_zero {hi lo : UInt8} (h : fromBeBytes [hi, lo] = 0) : hi = 0 ∧ lo = 0 := by
  simp only [fromBeBytes, List.foldl_cons, List.foldl_nil] at h
  constructor <;> apply UInt8.toNat_inj.mp <;> simp <;> omega

/-- **A header of at most 16 bytes announces no address**: it is the version 2 header of the
unspecified family, which stands for `0.0.0.0:0`. -/
theorem short_header {h : Bytes} (hc : Complete h) (hlen : h.length ≤ 16) {info : ProxyInfo}
    (hok : parseProxyHeader h = .ok (some info)) :
    ∃ verCmd, h = v2Fixed verCmd 0 0 0 ∧ info.version = .V2 ∧
      info.source = .V4 .unspecified 0 := by
  cases hc with
  | @v1 rest hcrlf =>
    rw [List.append_assoc, parseProxyHeader_v1, ← List.append_assoc] at hok
    have hlong := v1_address_long hcrlf hok
    omega
  | @v2 verCmd family hi lo data hdata =>
    have hfixed := v2Fixed_length verCmd family hi lo
    rw [List.length_append, hfixed] at hlen
    have hzero : fromBeBytes [hi, lo] = 0 := by omega
    obtain rfl : data = [] := List.length_eq_zero_iff.mp (by omega)
    obtain ⟨rfl, rfl⟩ := fromBeBytes_eq_zero hzero
    rw [parseProxyHeader_v2, parseV2_fixed, hzero] at hok
    cases hcmd : parseV2Command verCmd with
    | error e =>
      rw [hcmd] at hok
      cases hok
    | ok command =>
      rw [hcmd] at hok
      -- without address data only the unspecified family is left
      change parseV2Address ⟨command, family, 0⟩ [] = _ at hok
      simp only [parseV2Address, show (0 : Nat) < 12 by decide, show (0 : Nat) < 36 by decide,
        if_true] at hok
      split at hok
      · cases hok
      split at hok
      · cases hok
      split at hok
      · rename_i hfam
        obtain rfl := hfam
        obtain rfl := Option.some.inj (Except.ok.inj hok)
        exact ⟨verCmd, by simp, rfl, rfl⟩
      split at hok <;> cases hok

/-- That header is one, whatever its command. -/
theorem parse_unspec (verCmd : UInt8) :
    parseProxyHeader (v2Fixed verCmd 0 0 0) =
      (parseV2Command verCmd).map fun command => some ⟨.V2, command, .V4 .unspecified 0⟩ := by
  have h := parseV2_fixed verCmd 0 0 0 []
  rw [List.append_nil] at h
  have hzero : fromBeBytes [0, 0] = 0 := by decide
  show parseV2 (v2Fixed verCmd 0 0 0) = _
  rw [h, hzero]
  cases parseV2Command verCmd with
  | error e => rfl
  | ok command => simp [parseV2Address, Except.map]

/-! ## Short buffers -/

/-- Where the terminator stands. -/
theorem take_crlfPos : ∀ {buf : Bytes} {k : Nat}, crlfPos buf = some k →
    buf.take (k + 2) = buf.take k ++ [13, 10] ∧ crlfPos (buf.take (k + 2)) = some k
  | a :: b :: rest, k, h => by
    rw [crlfPos] at h
    split at h
    · rename_i hcrlf
      obtain ⟨rfl, rfl⟩ := hcrlf
      obtain rfl := Option.some.inj h
      exact ⟨rfl, rfl⟩
    · rename_i hcrlf
      obtain ⟨j, hj, rfl⟩ := Option.map_eq_some_iff.mp h
      obtain ⟨htake, hpos⟩ := take_crlfPos hj
      constructor
      · show a :: (b :: rest).take (j + 2) = a :: (b :: rest).take j ++ [13, 10]
        rw [htake, List.cons_append]
      · show crlfPos (a :: b :: rest.take (j + 1)) = some (j + 1)
        rw [crlfPos, if_neg hcrlf]
        show (crlfPos ((b :: rest).take (j + 2))).map (· + 1) = some (j + 1)
        rw [hpos, Option.map_some]
  | [_], _, h => by simp [crlfPos] at h
  | [], _, h => by simp [crlfPos] at h

/-- There is no carriage return in `PROXY `. -/
theorem crlfPos_v1Prefix {q : Bytes} {k : Nat} (h : crlfPos (v1Prefix ++ q) = some k) : 6 ≤ k := by
  have hlen := crlfPos_lt h
  have hcr : (v1Prefix ++ q)[k]? = some 13 := by
    have hget := congrArg (·[k]?) (take_crlfPos h).1
    simp only [List.getElem?_take_of_lt (show k < k + 2 by omega)] at hget
    rw [hget, List.getElem?_append_right (List.length_take_le _ _),
      List.length_take_of_le (by omega), Nat.sub_self]
    rfl
  by_contra hk
  have h6 : k < v1Prefix.length := by
    have : v1Prefix.length = 6 := rfl
    omega
  rw [List.getElem?_append_left h6] at hcr
  have hnot : ∀ b ∈ v1Prefix, b ≠ 13 := by decide +kernel
  exact hnot 13 (List.mem_of_getElem? hcr) rfl

/-- Two bytes stand for version 2 and a command. -/
theorem parseV2Command_ok {verCmd : UInt8} {command : ProxyCommand}
    (h : parseV2Command verCmd = .ok command) : verCmd = 0x20 ∨ verCmd = 0x21 := by
  have hall : ∀ n : Fin 256, (parseV2Command (.ofFin n)).toOption = none ∨
      UInt8.ofFin n = 0x20 ∨ UInt8.ofFin n = 0x21 := by decide +kernel
  rcases hall verCmd.toFin with hnone | hsome
  · rw [UInt8.ofFin_toFin, h] at hnone
    cases hnone
  · exact hsome

/-- In a short buffer with the version 2 signature there is room for the fixed part only. -/
theorem short_buffer_v2 {q : Bytes} (hlen : (v2Signature ++ q).length ≤ 16) {info : ProxyInfo}
    (hok : parseV2 (v2Signature ++ q) = .ok (some info))
    (hheader : parseProxyHeader (v2Signature ++ q) = .ok (some info)) :
    ∃ verCmd, v2Signature ++ q = v2Fixed verCmd 0 0 0 ∧ info.version = .V2 ∧
      info.source = .V4 .unspecified 0 := by
  rcases q with _ | ⟨verCmd, _ | ⟨family, _ | ⟨hi, _ | ⟨lo, data⟩⟩⟩⟩
  iterate 4 · cases hok
  obtain rfl : data = [] := by
    rw [List.length_append] at hlen
    simp only [v2Signature, List.length_cons, List.length_nil] at hlen
    exact List.length_eq_zero_iff.mp (by omega)
  change parseV2 (v2Fixed verCmd family hi lo) = _ at hok
  have hfixed := parseV2_fixed verCmd family hi lo []
  rw [List.append_nil, hok] at hfixed
  by_cases hzero : fromBeBytes [hi, lo] = 0
  · have hc : Complete (v2Fixed verCmd family hi lo ++ []) := .v2 hzero.symm
    rw [List.append_nil] at hc
    exact short_header hc hlen hheader
  · cases hcmd : parseV2Command verCmd with
    | error e =>
      rw [hcmd] at hfixed
      cases hfixed
    | ok command =>
      rw [hcmd] at hfixed
      dsimp only at hfixed
      rw [if_pos (by rw [List.length_nil]; omega)] at hfixed
      cases hfixed

/-- A line that ends within a short buffer is too short for an address. -/
theorem short_buffer_v1 {q : Bytes} (hlen : (v1Prefix ++ q).length ≤ 16) {info : ProxyInfo} :
    parseV1 (v1Prefix ++ q) ≠ .ok (some info) := by
  intro hok
  obtain ⟨k, hk, -⟩ := bind_eq_ok hok
  have hpos := orErr_eq_ok hk
  obtain ⟨htake, hcrlf⟩ := take_crlfPos hpos
  have h6 := crlfPos_v1Prefix hpos
  have hlt := crlfPos_lt hpos
  have hsplit : (v1Prefix ++ q).take k = v1Prefix ++ q.take (k - 6) := by
    rw [List.take_append, List.take_of_length_le h6]
    rfl
  have hlen' : (v1Prefix ++ q.take (k - 6)).length = k := by
    rw [← hsplit, List.length_take_of_le (by omega)]
  have hline := parseV1_append hcrlf ((v1Prefix ++ q).drop (k + 2))
  rw [List.take_append_drop, hok] at hline
  rw [htake, hsplit] at hcrlf hline
  have hlong := v1_address_long (by rw [hcrlf, hlen']) hline.symm
  rw [← hsplit, ← htake, List.length_take_of_le (by omega)] at hlong
  omega

/-- **A buffer of at most 16 bytes announces no address**, complete or not. -/
theorem short_buffer {buf : Bytes} (hlen : buf.length ≤ 16) {info : ProxyInfo}
    (hok : parseProxyHeader buf = .ok (some info)) :
    ∃ verCmd, buf = v2Fixed verCmd 0 0 0 ∧ info.version = .V2 ∧
      info.source = .V4 .unspecified 0 := by
  have hheader := hok
  unfold parseProxyHeader at hok
  split at hok
  · rename_i hsig
    obtain ⟨q, rfl⟩ := List.isPrefixOf_iff_prefix.mp hsig
    exact short_buffer_v2 hlen hok hheader
  · split at hok
    · rename_i hpre
      obtain ⟨q, rfl⟩ := List.isPrefixOf_iff_prefix.mp hpre
      exact absurd hok (short_buffer_v1 hlen)
    · cases hok

/-! ## The HAProxy encoding -/

/-- The addresses of a relayed stream: source and destination, each with its port. -/
inductive V2Addresses
  | Tcp4 (src dst : Ipv4Addr) (srcPort dstPort : UInt16)
  | Tcp6 (src dst : Ipv6Addr) (srcPort dstPort : UInt16)
  deriving DecidableEq, Repr

namespace V2Addresses

/-- Address family in the high half, and 1 for a stream in the low half. -/
def family : V2Addresses → UInt8
  | .Tcp4 .. => 0x11
  | .Tcp6 .. => 0x21

/-- Source and destination address, then the two ports. -/
def bytes : V2Addresses → Bytes
  | .Tcp4 src dst srcPort dstPort =>
    [src.a, src.b, src.c, src.d] ++ [dst.a, dst.b, dst.c, dst.d] ++
      toBeBytes srcPort.toNat ++ toBeBytes dstPort.toNat
  | .Tcp6 src dst srcPort dstPort =>
    src.octets.toList ++ dst.octets.toList ++ toBeBytes srcPort.toNat ++ toBeBytes dstPort.toNat

/-- The address the header is about. -/
def source : V2Addresses → SocketAddr
  | .Tcp4 src _ srcPort _ => .V4 src srcPort
  | .Tcp6 src _ srcPort _ => .V6 src srcPort 0 0

end V2Addresses

/-- The version 2 and HAProxy's code of a command: LOCAL is 0 and PROXY is 1. -/
def v2VerCmd : ProxyCommand → UInt8
  | .Local => ((0x2 : UInt8) <<< (4 : UInt8)) ||| (0x0 : UInt8)
  | .Proxy => ((0x2 : UInt8) <<< (4 : UInt8)) ||| (0x1 : UInt8)

/-- What HAProxy sends: signature, version and command, family, the length of the rest, addresses
and trailing TLVs. -/
def encodeV2 (command : ProxyCommand) (addrs : V2Addresses) (tlvs : Bytes) : Bytes :=
  v2Signature ++ [v2VerCmd command, addrs.family] ++
    toBeBytes (addrs.bytes.length + tlvs.length) ++ (addrs.bytes ++ tlvs)

/-- The decoder takes the two commands for each other. -/
theorem parseV2Command_v2VerCmd (command : ProxyCommand) :
    parseV2Command (v2VerCmd command) =
      .ok (match command with | .Local => .Proxy | .Proxy => .Local) := by
  cases command <;> decide

theorem encodeV2_eq (command : ProxyCommand) (addrs : V2Addresses) (tlvs : Bytes) :
    ∃ hi lo, toBeBytes (addrs.bytes.length + tlvs.length) = [hi, lo] ∧
      encodeV2 command addrs tlvs =
        v2Fixed (v2VerCmd command) addrs.family hi lo ++ (addrs.bytes ++ tlvs) :=
  ⟨_, _, rfl, by simp [encodeV2, v2Fixed, toBeBytes]⟩

theorem fromBeBytes_toBeBytes_le (n : Nat) : fromBeBytes (toBeBytes n) ≤ n := by
  simp only [fromBeBytes, toBeBytes, List.foldl_cons, List.foldl_nil, UInt8.toNat_ofNat']
  omega

/-- The families of the encoding are not in the decoder's table. -/
theorem parseV2Address_family (addrs : V2Addresses) (command : ProxyCommand) (addrLen : Nat)
    (addrData : Bytes) :
    parseV2Address ⟨command, addrs.family, addrLen⟩ addrData =
      .error (.V2UnsupportedFamily addrs.family) := by
  cases addrs <;> rfl

/-- **No header of HAProxy's is decoded**, whatever its command, addresses and TLVs. -/
theorem encodeV2_not_decoded (command : ProxyCommand) (addrs : V2Addresses) (tlvs : Bytes) :
    parseProxyHeader (encodeV2 command addrs tlvs) =
        .error (.V2UnsupportedFamily addrs.family) ∧
      parseProxyHeader (encodeV2 command addrs tlvs) ≠
        .ok (some ⟨.V2, command, addrs.source⟩) := by
  have herr : parseProxyHeader (encodeV2 command addrs tlvs) =
      .error (.V2UnsupportedFamily addrs.family) := by
    obtain ⟨hi, lo, hlen, heq⟩ := encodeV2_eq command addrs tlvs
    have hle := fromBeBytes_toBeBytes_le (addrs.bytes.length + tlvs.length)
    rw [hlen, ← List.length_append] at hle
    rw [heq, parseProxyHeader_v2, parseV2_fixed, parseV2Command_v2VerCmd]
    dsimp only
    rw [if_neg (by omega), parseV2Address_family]
  refine ⟨herr, ?_⟩
  rw [herr]
  intro hok
  cases hok

/-- A connection from `192.168.1.100:12345` that HAProxy relays to `10.0.0.1:53`. -/
theorem encodeV2_refused :
    parseProxyHeader (encodeV2 .Proxy (.Tcp4 ⟨192, 168, 1, 100⟩ ⟨10, 0, 0, 1⟩ 12345 53) []) ≠
      .ok (some ⟨.V2, .Proxy, .V4 ⟨192, 168, 1, 100⟩ 12345⟩) := by
  decide

end Heimdallr.Net
