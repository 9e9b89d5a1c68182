import Heimdallr.Core.Filter
import Heimdallr.Resolver.Dns64
import Heimdallr.Resolver.QnameMin

/-!
# The cache-aware forwarder (`core/resolver/forward.rs`)

`CacheForwardAuthority::lookup` looks the key up in the cache, forwards to the resolver on a miss,
rewrites and checks the answer, stores it, and returns. `lookupAny` is its QTYPE=ANY path and
`prefetch` the background task a hit may spawn. They are tasks over `Op`: the stages between the
two locked sections of the miss path only use the network and the counters (`assemble`, `flatten`),
so they are `Net` programs, and their results depend on the replies alone.

* The stages stand in the order of the source: the resolver, DNS64, the CNAMEs of DNAMEs, the limit
  on CNAME chains, the rebinding check, encoding and storing, the addresses of a CNAME target. What
  is stored is what has been put together before the last of them. An error of the resolver is
  returned before any of the others.
* The key is the printed name, the number of the type, and a subnet that `extract_ecs_scope` never
  finds. The forwarder asks upstream for the name with the fully-qualified flag off (`fwd_name`), so
  the names it puts into answers differ in the flag from those that come off the wire.
* A lookup counts and returns what it finds, stale or not; the flag `stale` of a hit is not read.
* What `Lookup::new_with_max_ttl` and `AuthLookup::from` expose of a record list is the records, and
  a `LookupControlFlow::Continue` is its result, so a lookup returns an `Answer`.
* `QTYPE=ANY` asks for A and for AAAA, cache first, and returns the first answer with a record in
  it.

Out of scope: the query log and the responses' extended error codes, which no caller sets, and the
validation of DNSSEC, which is hickory's.
-/

namespace Heimdallr.Resolver

open Lib

/-- What `lookup` reads of the request: the address it came from. -/
structure RequestInfo where
  src : SocketAddr

/-- `CacheForwardAuthority`, less the resolver and the cache (they are effects) and the fields
`lookup` does not read. -/
structure CacheForwardAuthority where
  qnameMinimization : QnameMinConfig
  filter : Filter
  dns64Prefix : Option Dns64Prefix
  dns64AlwaysSynthesize : Bool
  ecs : Bool

/-- The forwarder `build_cache_forwarder` makes of the default configuration. -/
def CacheForwardAuthority.default : CacheForwardAuthority where
  qnameMinimization := QnameMinConfig.default
  filter := Filter.default
  dns64Prefix := none
  dns64AlwaysSynthesize := false
  ecs := false

/-- The result of a lookup: an error, or the records of the answer. -/
abbrev Answer := Except LookupError (List Record)

/-! ## Small parts -/

/-- `let mut fwd_name: Name = name.into(); fwd_name.set_fqdn(false)`. -/
def fwdName (name : LowerName) : Name := name.name.setFqdn false

/-- `extract_ecs_scope`: nothing yet. -/
def extractEcsScope (_requestInfo : Option RequestInfo) : Option (IpAddr × UInt8) := none

/-- The message that is stored: `NoError` and the records as answers. Nobody reads its id back; it
stays zero here. -/
def cacheMessage (records : List Record) : Message :=
  { metadata := { responseCode := .NoError }, answers := records }

/-- The TTL an answer is stored with: that of its shortest-lived record, 300 s without records. -/
def minTtl (records : List Record) : Duration :=
  (records.map fun r => Duration.fromSecs r.ttl.toNat).min?.getD (Duration.fromSecs 300)

/-- `if let Ok(bytes) = msg.to_vec() { cache.insert(key, bytes, min_ttl) }`. -/
def storeAnswer (hk : Hickory) (key : CacheKey) (records : List Record) : Task Unit :=
  match hk.toVec (cacheMessage records) with
  | some bytes => .perform (Op.insert key bytes (minTtl records))
  | none => return ()

/-- `synthesize_dname_cnames`: one CNAME from the query name to the target of every DNAME (stored
as `ANAME`) whose target is not the query name. -/
def synthesizeDnameCnames (records : List Record) (original : Name) : List Record :=
  records.filterMap fun r =>
    match r.data with
    | .ANAME dname =>
      if dname.eq original then none else some ⟨original, r.ttl, .CNAME dname⟩
    | _ => none

/-! ## The stages of the miss path -/

namespace CacheForwardAuthority

/-- Stage 2: forward to upstream, minimized or not. -/
def resolve (self : CacheForwardAuthority) (fwd : Name) (rtype : RecordType) : Net Reply := do
  if self.qnameMinimization.enable then
    match ← resolveWithMinimization fwd rtype self.qnameMinimization with
    | .ok res => return .ok res.records
    | .error e => return .error e
  else
    upstream fwd rtype

/-- The synthesized records for the reply to the chained A question. -/
def dns64Records (fwd : Name) (aLookup : List Record) (aaaaList : List Ipv6Addr) : List Record :=
  let minATtl := (aLookup.filterMap fun r =>
    if r.recordType = .A then some r.ttl else none).min?.getD 300
  aaaaList.map fun synth => ⟨fwd, minATtl, .AAAA synth⟩

/-- The addresses of the A records of an answer. -/
def aAddresses (records : List Record) : List Ipv4Addr :=
  records.filterMap fun r =>
    match r.data with
    | .A addr => some addr
    | _ => none

/-- Whether DNS64 synthesizes, and with which prefix: for an AAAA query, when upstream had no AAAA
or `always_synthesize` is set. -/
def dns64Wanted (self : CacheForwardAuthority) (rtype : RecordType) (lookup : List Record) :
    Option Dns64Prefix :=
  if rtype = .AAAA then
    let upstreamAaaa := lookup.any fun r => r.recordType == .AAAA
    if !upstreamAaaa || self.dns64AlwaysSynthesize then self.dns64Prefix else none
  else none

/-- DNS64: a chained A question, and its addresses embedded. -/
def dns64 (self : CacheForwardAuthority) (fwd : Name) (rtype : RecordType)
    (lookup : List Record) : Net (List Record) :=
  match self.dns64Wanted rtype lookup with
  | none => return []
  | some pre => do
    match ← upstream (fwd.setFqdn false) .A with
    | .ok aLookup =>
      if !(aAddresses aLookup).isEmpty then
        let aaaaList ← synthesizeAaaa (aAddresses aLookup) pre
        return dns64Records fwd aLookup aaaaList
      else return []
    | .error _ => return []

/-- What the miss path has gathered when it comes to store it: the upstream answer, the DNS64
records, and both with the DNAME substitutions. -/
structure Assembled where
  lookup : List Record
  dns64 : List Record
  records : List Record

/-- The answer with DNS64 records and, when it has a DNAME, the synthesized CNAMEs. -/
def rewritten (fwd : Name) (lookup dns64 : List Record) : List Record :=
  let records := lookup ++ dns64
  if records.any fun r => r.recordType == .ANAME then
    records ++ synthesizeDnameCnames records fwd
  else records

/-- `self.filter.cname_cloaking && self.filter.cname_chain_truncated(&records)`. -/
def chainRefused (self : CacheForwardAuthority) (records : List Record) : Net Bool :=
  if self.filter.cnameCloaking then self.filter.cnameChainTruncated records else pure false

/-- `self.filter.rebinding && self.filter.rebinding_detected(&records)`. -/
def rebindingSeen (self : CacheForwardAuthority) (records : List Record) : Net Bool :=
  if self.filter.rebinding then self.filter.rebindingDetected records else pure false

/-- Everything before the answer is stored: forward, DNS64, DNAME, the cloaking check, and the
rebinding check, whose outcome is only logged. -/
def assemble (self : CacheForwardAuthority) (fwd : Name) (rtype : RecordType) :
    Net (Except LookupError Assembled) := do
  match ← self.resolve fwd rtype with
  | .error e => return .error (.Net e)
  | .ok lookup =>
    let dns64Synthesized ← self.dns64 fwd rtype lookup
    let records := rewritten fwd lookup dns64Synthesized
    if ← self.chainRefused records then
      return .error (.Io "CNAME chain truncated (limit exceeded)")
    else
      let _ ← self.rebindingSeen records
      return .ok { lookup, dns64 := dns64Synthesized, records }

end CacheForwardAuthority

/-- The target of the first CNAME. -/
def syntheticTarget (records : List Record) : Option Name :=
  records.findSome? fun r =>
    match r.data with
    | .CNAME cname => some cname
    | _ => none

/-- The records of a reply, none for an error. -/
def okRecords : Reply → List Record
  | .ok records => records
  | .error _ => []

/-- ANAME flattening: the A and AAAA answers for the target of the first CNAME are appended. -/
def flatten (hk : Hickory) (records : List Record) : Net (List Record) := do
  match syntheticTarget records with
  | none => return records
  | some target =>
    let targetName := (hk.fromAscii (hk.toUtf8 target)).getD Name.root
    let aLookup ← upstream targetName .A
    let aaaaLookup ← upstream targetName .AAAA
    return records ++ okRecords aLookup ++ okRecords aaaaLookup

/-! ## The tasks -/

/-- The background task a hit may spawn. -/
def prefetch (hk : Hickory) (name : LowerName) (rtype : RecordType) : Task Unit := do
  match ← (upstream (fwdName name) rtype).lift with
  | .ok records => storeAnswer hk ⟨hk.toUtf8 name.name, rtype.toU16, none⟩ records
  | .error _ => return ()

/-- The answers stored under a key, when there is an entry that decodes. -/
def cachedAnswers (hk : Hickory) (found : Option (Hit × Bool)) : Option (List Record) :=
  found.bind fun f => (hk.fromVec f.1.bytes).map (·.answers)

/-- The loop of `lookup_any`. -/
def anyLoop (hk : Hickory) (name : LowerName) : List RecordType → Task Answer
  | [] => return .error (.Io "RFC 8482: no address records for ANY query")
  | rtype :: rest => do
    let key : CacheKey := ⟨hk.toUtf8 name.name, rtype.toU16, none⟩
    match cachedAnswers hk (← .perform (Op.lookup key)) with
    | some (r :: records) => return .ok (r :: records)
    | _ =>
      match ← (upstream (fwdName name) rtype).lift with
      | .ok (r :: records) => do
        storeAnswer hk key (r :: records)
        return .ok (r :: records)
      | _ => anyLoop hk name rest

/-- `lookup_any`. -/
def lookupAny (hk : Hickory) (name : LowerName) : Task Answer := anyLoop hk name [.A, .AAAA]

namespace CacheForwardAuthority

/-- The key of a query. -/
def cacheKey (self : CacheForwardAuthority) (hk : Hickory) (name : LowerName) (rtype : RecordType)
    (requestInfo : Option RequestInfo) : CacheKey :=
  ⟨hk.toUtf8 name.name, rtype.toU16, if self.ecs then extractEcsScope requestInfo else none⟩

/-- `lookup` from the cache miss on. -/
def missPath (self : CacheForwardAuthority) (hk : Hickory) (key : CacheKey) (name : LowerName)
    (rtype : RecordType) : Task Answer := do
  match ← (self.assemble (fwdName name) rtype).lift with
  | .error e => return .error e
  | .ok a =>
    storeAnswer hk key a.records
    let records ← (flatten hk a.records).lift
    return .ok (if !a.dns64.isEmpty then records else a.lookup)

/-- `lookup`. -/
def lookup (self : CacheForwardAuthority) (hk : Hickory) (name : LowerName) (rtype : RecordType)
    (requestInfo : Option RequestInfo) : Task Answer :=
  if rtype = .ANY then lookupAny hk name
  else do
    let key := self.cacheKey hk name rtype requestInfo
    match ← .perform (Op.lookup key) with
    | none => self.missPath hk key name rtype
    | some (hit, doPrefetch) => do
      if doPrefetch then
        Prog.perform (Op.spawnPrefetch name rtype)
      match hk.fromVec hit.bytes with
      | some msg => return .ok msg.answers
      | none => self.missPath hk key name rtype

end CacheForwardAuthority

end Heimdallr.Resolver
