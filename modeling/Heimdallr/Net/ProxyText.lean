import Heimdallr.Net.AddrText
import Heimdallr.Net.ProxyGrammar

/-!
# The line a proxy sends (`net/proxy.rs`, `net/tcp.rs`)

`PROXY TCP4 <src-ip> <dst-ip> <src-port> <dst-port>\r\n`, as a sender writes it who prints addresses
and ports the way `std` does. The parser finds the source in it, the stripper the first byte after
it, and a list of printed addresses believes it if the source is one of them (`v1_round_trip`).

The sender is not code of the repository: `encodeV1` is the format of version 1, for either family.
`resolve_src_addr` never sees more than 16 bytes of such a line (`Net.Tcp`), so this is about the
parser on a buffer that holds it.
-/

namespace Heimdallr.Net

open Lib

/-! ## The sender -/

theorem portNumber_toDigits (n : UInt16) : portNumber (Nat.toDigits 10 n.toNat) = some n := by
  unfold portNumber
  rw [if_neg (toDigits_no_sign (by decide) n.toNat), parseU16_toDigits]

/-- The ends of a connection, of one family. -/
inductive Announced
  | TCP4 (src dst : Ipv4Addr)
  | TCP6 (src dst : Ipv6Addr)
  deriving DecidableEq, Repr

namespace Announced

/-- The family of the two addresses. -/
def family : Announced → ProxyFamily
  | .TCP4 _ _ => .TCP4
  | .TCP6 _ _ => .TCP6

/-- The source address. -/
def src : Announced → IpAddr
  | .TCP4 src _ => .V4 src
  | .TCP6 src _ => .V6 src

/-- The destination address. -/
def dst : Announced → IpAddr
  | .TCP4 _ dst => .V4 dst
  | .TCP6 _ dst => .V6 dst

/-- The source, with its port. -/
def source : Announced → UInt16 → SocketAddr
  | .TCP4 src _, port => .V4 src port
  | .TCP6 src _, port => .V6 src port 0 0

/-- The fields of the line. -/
def fields (a : Announced) (srcPort dstPort : UInt16) : List Text :=
  ["PROXY".toList, a.family.word, displayIp a.src, displayIp a.dst, Nat.toDigits 10 srcPort.toNat,
    Nat.toDigits 10 dstPort.toNat]

/-- The line, with its CRLF. -/
def encodeV1 (a : Announced) (srcPort dstPort : UInt16) : Bytes :=
  ascii (String.ofList ([' '].intercalate (a.fields srcPort dstPort))) ++ [13, 10]

theorem endpoint_src (a : Announced) (port : UInt16) :
    a.family.endpoint (displayIp a.src) port = some (a.source port) := by
  cases a with
  | TCP4 src dst => simp [family, Announced.src, source, ProxyFamily.endpoint, displayIp,
      parseIpv4_displayIpv4]
  | TCP6 src dst => simp [family, Announced.src, source, ProxyFamily.endpoint, displayIp,
      parseIpv6_displayIpv6]

theorem isAddress_dst (a : Announced) : a.family.isAddress (displayIp a.dst) := by
  cases a with
  | TCP4 src dst => simp [family, Announced.dst, ProxyFamily.isAddress, displayIp,
      parseIpv4_displayIpv4]
  | TCP6 src dst => simp [family, Announced.dst, ProxyFamily.isAddress, displayIp,
      parseIpv6_displayIpv6]

theorem ip_source (a : Announced) (port : UInt16) : (a.source port).ip = a.src := by
  cases a <;> rfl

/-- What is sent is a line of the format. -/
theorem v1Line (a : Announced) (srcPort dstPort : UInt16) :
    V1Line (a.fields srcPort dstPort) ⟨.V1, .Proxy, a.source srcPort⟩ := by
  have hdst : (portNumber (Nat.toDigits 10 dstPort.toNat)).isSome := by
    rw [portNumber_toDigits, Option.isSome_some]
  exact .mk a.family a.isAddress_dst (portNumber_toDigits srcPort) hdst (a.endpoint_src srcPort)

theorem graphic_fields (a : Announced) (srcPort dstPort : UInt16) :
    ∀ f ∈ a.fields srcPort dstPort, Graphic f := by
  have hword : ∀ family : ProxyFamily, Graphic family.word := by
    intro family
    cases family <;> decide
  have hproxy : Graphic "PROXY".toList := by decide
  simp only [fields, List.forall_mem_cons]
  exact ⟨hproxy, hword _, graphic_displayIp _, graphic_displayIp _,
    graphic_toDigits (by decide) (by decide) _, graphic_toDigits (by decide) (by decide) _, by simp⟩

end Announced

/-! ## The bytes of the line -/

theorem crlfPos_line {bs : Bytes} (h : 13 ∉ bs) (q : Bytes) :
    crlfPos (bs ++ 13 :: 10 :: q) = some bs.length := by
  induction bs with
  | nil => rfl
  | cons b bs ih =>
    obtain ⟨hb, hbs⟩ := not_or.mp (mt List.mem_cons.mpr h)
    obtain ⟨b', rest, hrest⟩ : ∃ b' rest, bs ++ 13 :: 10 :: q = b' :: rest :=
      List.exists_cons_of_ne_nil (by simp)
    have hpos := ih hbs
    rw [hrest] at hpos
    rw [List.cons_append, hrest, crlfPos, if_neg (fun hcrlf => hb hcrlf.1.symm), hpos]
    rfl

theorem fromUtf8_ascii {t : Text} (h : ∀ c ∈ t, c.toNat < 128) :
    fromUtf8 (ascii (String.ofList t)) = some t := by
  have hbytes : ∀ b ∈ ascii (String.ofList t), b < 128 := by
    intro b hb
    rw [ascii, String.toList_ofList] at hb
    obtain ⟨c, hc, rfl⟩ := List.mem_map.mp hb
    have hlt := h c hc
    rw [UInt8.lt_iff_toNat_lt, UInt8.toNat_ofNat', Nat.mod_eq_of_lt (by omega)]
    exact hlt
  have htext := fromUtf8_append_ascii hbytes []
  rw [List.append_nil] at htext
  rw [htext, ascii, String.toList_ofList, List.map_map]
  have hchars : t.map ((fun b : UInt8 => Char.ofNat b.toNat) ∘ fun c => UInt8.ofNat c.toNat) = t := by
    refine (List.map_congr_left fun c hc => ?_).trans t.map_id
    have hlt := h c hc
    simp [Nat.mod_eq_of_lt (show c.toNat < 256 by omega)]
  rw [hchars, show fromUtf8 [] = some [] by decide, Option.map_some, List.append_nil]

theorem forall_mem_intercalate {P : Char → Prop} {sep : Char} (hsep : P sep) {fs : List Text}
    (hfs : ∀ f ∈ fs, ∀ c ∈ f, P c) : ∀ c ∈ [sep].intercalate fs, P c := by
  induction fs with
  | nil => simp
  | cons f fs ih =>
    obtain ⟨hf, hfs'⟩ := List.forall_mem_cons.mp hfs
    cases fs with
    | nil => simpa using hf
    | cons f' fs =>
      rw [List.intercalate_cons_cons]
      exact List.forall_mem_append.mpr
        ⟨List.forall_mem_append.mpr ⟨hf, by simpa using hsep⟩, ih hfs'⟩

namespace Announced

theorem exists_encodeV1 (a : Announced) (srcPort dstPort : UInt16) :
    ∃ q, a.encodeV1 srcPort dstPort = v1Prefix ++ q := by
  have hline : [' '].intercalate (a.fields srcPort dstPort) =
      "PROXY ".toList ++ [' '].intercalate (a.fields srcPort dstPort).tail := by
    simp [fields, List.intercalate_cons_cons]
  rw [encodeV1, hline]
  exact ⟨ascii (String.ofList ([' '].intercalate (a.fields srcPort dstPort).tail)) ++ [13, 10],
    by simp [ascii, v1Prefix]⟩

theorem lineFields_encodeV1 (a : Announced) (srcPort dstPort : UInt16) (payload : Bytes) :
    lineFields (a.encodeV1 srcPort dstPort ++ payload) = some (a.fields srcPort dstPort) ∧
      crlfPos (a.encodeV1 srcPort dstPort ++ payload) =
        some ((a.encodeV1 srcPort dstPort).length - 2) := by
  have hgraphic := a.graphic_fields srcPort dstPort
  have hchars : ∀ c ∈ [' '].intercalate (a.fields srcPort dstPort), 32 ≤ c.toNat ∧ c.toNat < 127 :=
    forall_mem_intercalate (by decide) fun f hf c hc => by
      have hc' := hgraphic f hf c hc
      omega
  have hsplit : ([' '].intercalate (a.fields srcPort dstPort)).splitOn ' ' =
      a.fields srcPort dstPort :=
    List.splitOn_intercalate ' ' (fun f hf => (hgraphic f hf).not_mem (by decide)) (by simp [fields])
  have hcr : 13 ∉ ascii (String.ofList ([' '].intercalate (a.fields srcPort dstPort))) := by
    intro hmem
    rw [ascii, String.toList_ofList] at hmem
    obtain ⟨c, hc, hcr⟩ := List.mem_map.mp hmem
    have hrange := hchars c hc
    have hnat := congrArg UInt8.toNat hcr
    rw [UInt8.toNat_ofNat', Nat.mod_eq_of_lt (by omega)] at hnat
    simp at hnat
    omega
  have hpos := crlfPos_line hcr payload
  have hbuf : a.encodeV1 srcPort dstPort ++ payload =
      ascii (String.ofList ([' '].intercalate (a.fields srcPort dstPort))) ++
        13 :: 10 :: payload := by
    simp [encodeV1]
  refine ⟨?_, ?_⟩
  · rw [lineFields, hbuf, hpos, Option.bind_some, List.take_left, fromUtf8_ascii fun c hc => by
      have hrange := hchars c hc
      omega, Option.map_some, hsplit]
  · rw [hbuf, hpos]
    simp [encodeV1]

end Announced

/-- **What a proxy announces is what the server takes it for**, whatever follows the line. -/
theorem v1_round_trip (a : Announced) (srcPort dstPort : UInt16) (payload : Bytes) :
    let buf := a.encodeV1 srcPort dstPort ++ payload
    parseProxyHeader buf = .ok (some ⟨.V1, .Proxy, a.source srcPort⟩) ∧
      buf.drop (headerLen buf .V1) = payload ∧
      ∀ proxyAllow : List IpAddr,
        allowed (proxyAllow.map fun ip => String.ofList (displayIp ip)) (a.source srcPort) = true ↔
          proxyAllow = [] ∨ a.src ∈ proxyAllow := by
  intro buf
  obtain ⟨hfields, hpos⟩ := a.lineFields_encodeV1 srcPort dstPort payload
  refine ⟨?_, ?_, ?_⟩
  · obtain ⟨q, hq⟩ := a.exists_encodeV1 srcPort dstPort
    show parseProxyHeader (a.encodeV1 srcPort dstPort ++ payload) = _
    rw [hq, List.append_assoc] at hfields ⊢
    rw [(lineFields_v1Prefix hfields).2, parseV1Fields_eq_some_iff]
    exact sourceLine_of_v1Line (a.v1Line srcPort dstPort)
  · have hlen : 2 ≤ (a.encodeV1 srcPort dstPort).length := by simp [Announced.encodeV1]
    show buf.drop ((crlfPos buf).elim 0 (· + 2)) = payload
    rw [hpos, Option.elim_some, Nat.sub_add_cancel hlen, List.drop_left]
  · intro proxyAllow
    unfold allowed
    rw [a.ip_source, Bool.or_eq_true, List.isEmpty_iff, List.map_eq_nil_iff]
    refine or_congr_right ?_
    simp [displayIp_injective.eq_iff]

end Heimdallr.Net
