import Mathlib.Algebra.GroupWithZero.Nat
import Mathlib.Data.List.Nodup

/-!
# The data Heimdallr works on

Time, counters, addresses, domain names, records and messages, as far as the modelled functions
read them.

* Time is a number of nanoseconds. `Instant::now()` is never called in a definition: who reads the
  clock gets the reading as an argument, and `elapsed` is the truncated subtraction, as `Instant`'s
  saturates.
* Counters (`Metrics`) are natural numbers here. That the registry keeps them modulo 2^64 is the
  matter of `Core.Metrics`, which relates the two.
* Addresses follow `std::net`. The tests on octets (`isPrivate`, `isLinkLocal`, `isUniqueLocal`) are
  those of `std`, or of the source where it has its own.
* A `Name` is its labels, as octets, and the fully-qualified flag. hickory's `==` ignores ASCII case
  and heeds the flag (`Name.eq`); the `=` of the statements is stricter. That a label has 1 to 63
  octets and a name 255 at most is not part of the type: statements that need it say so (`Proper`).
* `RData` has a constructor for each kind of data the source looks into. The rest is a type and
  octets, so nothing that is handed through is lost. The class is left out: the source reads and
  makes `IN` records only.
* What Heimdallr only calls and does not contain (the text forms of names, the wire codec) is the
  structure `Hickory`, a parameter everywhere. `Hickory.RoundTrips` is what the proofs ask of the
  codec, and `Hickory.knowing` a codec that has it, for runs on fixed messages.

Out of scope: EDNS, the additional and authority sections, which no modelled function reads, and the
texts of hickory's errors.
-/

namespace Heimdallr

/-! ## Time -/

/-- `std::time::Duration`, in nanoseconds. -/
abbrev Duration := Nat

/-- `std::time::Instant`: nanoseconds of the monotonic clock. `elapsed` saturates at zero, which
is the truncated subtraction of `Nat`. -/
abbrev Instant := Nat

/-- `Duration::from_secs`. -/
def Duration.fromSecs (n : Nat) : Duration := n * 1000000000

/-- A wire buffer. -/
abbrev Bytes := List UInt8

/-! ## Counters (`core/metrics`) -/

/-- `MetricName`, less the counters no modelled function touches. -/
inductive MetricName
  | CacheHitsTotal
  | CacheMissesTotal
  | QueriesTotal
  | BlockedTotal
  | Dns64SynthesizedTotal
  | QminStepsTotal
  | CnameChainTruncatedTotal
  | RebindingDetectedTotal
  deriving DecidableEq, Repr

/-- `MetricsRegistry`: every counter is present from the start. -/
abbrev Metrics := MetricName → Nat

/-- `MetricsRegistry::increment` on the global registry. -/
def Metrics.increment (m : Metrics) (name : MetricName) (delta : Nat) : Metrics :=
  fun n => if n = name then m n + delta else m n

/-! ## Addresses (`std::net`) -/

/-- `std::net::Ipv4Addr`: its four octets, so that the prefixes the source compares are read off. -/
structure Ipv4Addr where
  a : UInt8
  b : UInt8
  c : UInt8
  d : UInt8
  deriving DecidableEq, Repr

namespace Ipv4Addr

/-- `0.0.0.0`. -/
def unspecified : Ipv4Addr := ⟨0, 0, 0, 0⟩

/-- `127.0.0.0/8`. -/
def isLoopback (ip : Ipv4Addr) : Bool := ip.a == 127

/-- `10.0.0.0/8`, `172.16.0.0/12`, `192.168.0.0/16`. -/
def isPrivate (ip : Ipv4Addr) : Bool :=
  ip.a == 10 || (ip.a == 172 && 16 ≤ ip.b && ip.b ≤ 31) || (ip.a == 192 && ip.b == 168)

/-- `169.254.0.0/16`. -/
def isLinkLocal (ip : Ipv4Addr) : Bool := ip.a == 169 && ip.b == 254

/-- `u32::from`. -/
def toBits (ip : Ipv4Addr) : BitVec 32 :=
  ip.a.toBitVec ++ ip.b.toBitVec ++ ip.c.toBitVec ++ ip.d.toBitVec

end Ipv4Addr

/-- `std::net::Ipv6Addr`: its sixteen octets. -/
structure Ipv6Addr where
  octets : Vector UInt8 16
  deriving DecidableEq, Repr

namespace Ipv6Addr

/-- `::`. -/
def unspecified : Ipv6Addr := ⟨Vector.replicate 16 0⟩

/-- `::1`, the one loopback address of the family. -/
def localhost : Ipv6Addr := ⟨(Vector.replicate 16 0).set! 15 1⟩

/-- `Ipv6Addr::is_loopback`. -/
def isLoopback (ip : Ipv6Addr) : Bool := ip == localhost

/-- `fc00::/7`. -/
def isUniqueLocal (ip : Ipv6Addr) : Bool := ip.octets[0] &&& 0xfe == 0xfc

/-- `Ipv6Addr::is_unspecified`. -/
def isUnspecified (ip : Ipv6Addr) : Bool := ip == unspecified

end Ipv6Addr

/-- `std::net::IpAddr`. -/
inductive IpAddr
  | V4 (ip : Ipv4Addr)
  | V6 (ip : Ipv6Addr)
  deriving DecidableEq, Repr

/-- A socket address; the flow label and the scope of a `SocketAddrV6` are zero wherever the
source builds one, and what the kernel reports is carried along. -/
inductive SocketAddr
  | V4 (ip : Ipv4Addr) (port : UInt16)
  | V6 (ip : Ipv6Addr) (port : UInt16) (flowinfo scopeId : UInt32)
  deriving DecidableEq, Repr

/-- `SocketAddr::ip`. -/
def SocketAddr.ip : SocketAddr → IpAddr
  | .V4 ip _ => .V4 ip
  | .V6 ip _ _ _ => .V6 ip

/-! ## Domain names -/

/-- The octets of one label. -/
abbrev Label := List UInt8

/-- ASCII lower case of one octet. -/
def lowerByte (b : UInt8) : UInt8 := if 65 ≤ b ∧ b ≤ 90 then b + 32 else b

/-- `hickory_proto::rr::Name`: the labels from the left and the fully-qualified flag. -/
structure Name where
  labels : List Label
  isFqdn : Bool
  deriving DecidableEq, Repr

namespace Name

/-- The root, `.`. -/
def root : Name := ⟨[], true⟩

/-- `Name::is_root`: no labels and fully qualified. -/
def isRoot (n : Name) : Bool := n.labels.isEmpty && n.isFqdn

/-- `Name::num_labels`: the number of labels, a leading `*` not counted. -/
def numLabels (n : Name) : Nat :=
  match n.labels with
  | [] => 0
  | l :: rest => if l = [42] then rest.length else rest.length + 1

/-- `Name::base_name`: the leading label dropped; the result is fully qualified. -/
def baseName (n : Name) : Name := ⟨n.labels.tail, true⟩

/-- `Name::set_fqdn`. -/
def setFqdn (n : Name) (v : Bool) : Name := { n with isFqdn := v }

/-- `Name::to_lowercase`: ASCII only, as DNS compares names. -/
def toLowercase (n : Name) : Name := { n with labels := n.labels.map (·.map lowerByte) }

/-- `Name`'s `==`: case does not matter, the fully-qualified flag does. -/
def eq (n m : Name) : Bool := n.toLowercase == m.toLowercase

end Name

/-- `LowerName`: a name kept in lower case. -/
structure LowerName where
  name : Name
  lower : name.toLowercase = name

/-! ## Records -/

/-- `hickory_proto::rr::RecordType`. Every other code point is `Unknown`, as hickory reads it. -/
inductive RecordType
  | A | AAAA | ANAME | ANY | AXFR | CAA | CDNSKEY | CDS | CERT | CNAME | CSYNC | DNAME | DNSKEY | DS
  | HINFO | HTTPS | IXFR | KEY | MX | NAPTR | NS | NSEC | NSEC3 | NSEC3PARAM | NULL | OPENPGPKEY
  | OPT | PTR | RRSIG | SIG | SMIMEA | SOA | SRV | SSHFP | SVCB | TLSA | TSIG | TXT | ZERO
  | Unknown (code : UInt16)
  deriving DecidableEq, Repr

/-- `u16::from(RecordType)`: the type's code point. -/
def RecordType.toU16 : RecordType → UInt16
  | .A => 1
  | .AAAA => 28
  | .ANAME => 65305
  | .ANY => 255
  | .AXFR => 252
  | .CAA => 257
  | .CDNSKEY => 60
  | .CDS => 59
  | .CERT => 37
  | .CNAME => 5
  | .CSYNC => 62
  | .DNAME => 39
  | .DNSKEY => 48
  | .DS => 43
  | .HINFO => 13
  | .HTTPS => 65
  | .IXFR => 251
  | .KEY => 25
  | .MX => 15
  | .NAPTR => 35
  | .NS => 2
  | .NSEC => 47
  | .NSEC3 => 50
  | .NSEC3PARAM => 51
  | .NULL => 10
  | .OPENPGPKEY => 61
  | .OPT => 41
  | .PTR => 12
  | .RRSIG => 46
  | .SIG => 24
  | .SMIMEA => 53
  | .SOA => 6
  | .SRV => 33
  | .SSHFP => 44
  | .SVCB => 64
  | .TLSA => 52
  | .TSIG => 250
  | .TXT => 16
  | .ZERO => 0
  | .Unknown code => code

/-- `hickory_proto::rr::rdata::SOA`. -/
structure SOA where
  mname : Name
  rname : Name
  serial : UInt32
  refresh : Int32
  retry : Int32
  expire : Int32
  minimum : UInt32
  deriving DecidableEq, Repr

/-- `RData`: the variants the source looks into, and the rest as type and octets (an empty
`rdata` is how hickory decodes an update record of any type). -/
inductive RData
  | A (addr : Ipv4Addr)
  | AAAA (addr : Ipv6Addr)
  | ANAME (name : Name)
  | CNAME (name : Name)
  | NS (name : Name)
  | PTR (name : Name)
  | SOA (soa : SOA)
  | other (rtype : RecordType) (rdata : List UInt8)
  deriving DecidableEq, Repr

/-- `hickory_proto::rr::Record`. The class is left out: the source reads and makes `IN` records
only. -/
structure Record where
  name : Name
  ttl : UInt32
  data : RData
  deriving DecidableEq, Repr

/-- `Record::record_type`. -/
def Record.recordType (r : Record) : RecordType :=
  match r.data with
  | .A _ => .A
  | .AAAA _ => .AAAA
  | .ANAME _ => .ANAME
  | .CNAME _ => .CNAME
  | .NS _ => .NS
  | .PTR _ => .PTR
  | .SOA _ => .SOA
  | .other rtype _ => rtype

/-! ## Messages -/

/-- `hickory_proto::op::MessageType`. -/
inductive MessageType
  | Query
  | Response
  deriving DecidableEq, Repr

/-- `hickory_proto::op::OpCode`. -/
inductive OpCode
  | Query
  | Status
  | Notify
  | Update
  | Unknown (code : UInt8)
  deriving DecidableEq, Repr

/-- `hickory_proto::op::ResponseCode`: the codes the source names, and the others by number. -/
inductive ResponseCode
  | NoError
  | FormErr
  | ServFail
  | NXDomain
  | NotImp
  | Refused
  | Unknown (code : UInt16)
  deriving DecidableEq, Repr

/-- `hickory_proto::op::Metadata`, as far as a modelled function reads or sets it. -/
structure Metadata where
  id : UInt16 := 0
  messageType : MessageType := .Query
  opCode : OpCode := .Query
  authoritative : Bool := false
  truncation : Bool := false
  recursionDesired : Bool := false
  responseCode : ResponseCode := .NoError
  deriving DecidableEq, Repr

/-- `hickory_proto::op::Query`. -/
structure Query where
  name : Name
  queryType : RecordType
  deriving DecidableEq, Repr

/-- `hickory_proto::op::Message`, less the sections nobody reads. -/
structure Message where
  metadata : Metadata := {}
  queries : List Query := []
  answers : List Record := []
  deriving DecidableEq, Repr

/-- What Heimdallr calls in hickory and does not contain: the text forms of a name and the wire
codec. -/
structure Hickory where
  /-- `Name::to_utf8` -/
  toUtf8 : Name → String
  /-- `Name::from_ascii` -/
  fromAscii : String → Option Name
  /-- `Message::to_vec`, `BinEncodable::to_bytes` -/
  toVec : Message → Option Bytes
  /-- `Message::from_vec`, `BinDecodable::from_bytes` -/
  fromVec : Bytes → Option Message

/-! ### What the wire keeps

A name on the wire carries no fully-qualified flag, and every name that is read from it is fully
qualified. Everything else of a message comes back as it was encoded. -/

/-- The name as it comes off the wire. -/
def Name.qualified (n : Name) : Name := n.setFqdn true

/-- The names in record data as they come off the wire. -/
def RData.qualified : RData → RData
  | .ANAME n => .ANAME n.qualified
  | .CNAME n => .CNAME n.qualified
  | .NS n => .NS n.qualified
  | .PTR n => .PTR n.qualified
  | .SOA soa => .SOA { soa with mname := soa.mname.qualified, rname := soa.rname.qualified }
  | .A addr => .A addr
  | .AAAA addr => .AAAA addr
  | .other rtype rdata => .other rtype rdata

/-- A record as it comes off the wire. -/
def Record.qualified (r : Record) : Record := ⟨r.name.qualified, r.ttl, r.data.qualified⟩

/-- A message as it comes off the wire. -/
def Message.qualified (m : Message) : Message :=
  { m with
    queries := m.queries.map fun q => { q with name := q.name.qualified }
    answers := m.answers.map Record.qualified }

@[simp] theorem Name.qualified_qualified (n : Name) : n.qualified.qualified = n.qualified := rfl

@[simp] theorem RData.qualified_qualified (d : RData) : d.qualified.qualified = d.qualified := by
  cases d <;> rfl

@[simp] theorem Record.qualified_qualified (r : Record) :
    r.qualified.qualified = r.qualified := by
  simp [Record.qualified]

@[simp] theorem Record.recordType_qualified (r : Record) :
    r.qualified.recordType = r.recordType := by
  unfold Record.recordType Record.qualified
  cases r.data <;> rfl

/-- A record without its TTL, its names as the wire writes them. -/
def Record.content (r : Record) : Name × RData := (r.name.qualified, r.data.qualified)

/-- Decoding gives back what was encoded, every name fully qualified. -/
def Hickory.RoundTrips (hk : Hickory) : Prop :=
  ∀ msg bytes, hk.toVec msg = some bytes → hk.fromVec bytes = some msg.qualified

/-! ### A codec for known messages

Enough of hickory to run the forwarder on an example: names whose labels are plain ASCII, and the
wire forms of a few messages. -/

/-- The octets of an ASCII text. -/
def ascii (s : String) : List UInt8 := s.toList.map fun c => UInt8.ofNat c.toNat

/-- The name with these labels. -/
def Name.ofLabels (labels : List String) (isFqdn : Bool) : Name := ⟨labels.map ascii, isFqdn⟩

/-- The text of a name with plain labels. -/
def Name.text (n : Name) : String :=
  String.ofList (List.intercalate ['.'] (n.labels.map (·.map fun b => Char.ofNat b.toNat)) ++
    if n.isFqdn then ['.'] else [])

/-- The pieces of a text between its dots. -/
def splitDots : List Char → List (List Char)
  | [] => [[]]
  | c :: cs =>
    match c, splitDots cs with
    | '.', pieces => [] :: pieces
    | c, [] => [[c]]
    | c, piece :: pieces => (c :: piece) :: pieces

/-- The name a plain text denotes; no text at all is the relative name without labels. -/
def Name.ofText (s : String) : Option Name :=
  if s = "." then some Name.root
  else if s = "" then some ⟨[], false⟩
  else
    let pieces := splitDots s.toList
    let isFqdn := pieces.getLast? == some []
    let labels := if isFqdn then pieces.dropLast else pieces
    if labels.contains [] then none
    else some ⟨labels.map fun l => l.map fun c => UInt8.ofNat c.toNat, isFqdn⟩

/-- The codec that knows these messages and their wire forms. -/
def Hickory.knowing (table : List (Message × Bytes)) : Hickory where
  toUtf8 := Name.text
  fromAscii := Name.ofText
  toVec msg := (table.find? fun t => t.1 = msg).map Prod.snd
  fromVec bytes := (table.find? fun t => t.2 = bytes).map fun t => t.1.qualified

theorem Hickory.roundTrips_knowing {table : List (Message × Bytes)}
    (h : (table.map Prod.snd).Nodup) : (Hickory.knowing table).RoundTrips := by
  intro msg bytes henc
  obtain ⟨t, ht, rfl⟩ := Option.map_eq_some_iff.mp henc
  have hmem := List.mem_of_find?_eq_some ht
  have hmsg : t.1 = msg := by simpa using List.find?_some ht
  obtain ⟨u, hu⟩ : ∃ u, (table.find? fun t' => t'.2 = t.2) = some u := by
    rw [← Option.isSome_iff_exists, List.find?_isSome]
    exact ⟨t, hmem, by simp⟩
  -- the wire forms are distinct, so the message found is the one encoded
  have hut : u.2 = t.2 := by simpa using List.find?_some hu
  have heq := List.inj_on_of_nodup_map h (List.mem_of_find?_eq_some hu) hmem hut
  show (table.find? fun t' => t'.2 = t.2).map (fun t => t.1.qualified) = _
  rw [hu, heq, Option.map_some, hmsg]

/-! ## Errors -/

/-- `NetError`, as the resolver reports it. A reply without a record of the type that was asked for
is such an error too, `NoRecordsFound`, with the response code it came with: `NoError` when the name
is there. -/
inductive NetError
  | Timeout
  | NoRecordsFound (responseCode : ResponseCode)
  | Io (message : String)
  | Msg (message : String)
  deriving DecidableEq, Repr

/-- `LookupError`. -/
inductive LookupError
  | Net (e : NetError)
  | Io (message : String)
  deriving DecidableEq, Repr

/-- A computation that succeeds did so at every `?`. -/
theorem bind_eq_ok {ε α β : Type} {x : Except ε α} {f : α → Except ε β} {b : β}
    (h : (x >>= f) = .ok b) : ∃ a, x = .ok a ∧ f a = .ok b := by
  cases x with
  | error e => cases h
  | ok a => exact ⟨a, rfl, h⟩

end Heimdallr
