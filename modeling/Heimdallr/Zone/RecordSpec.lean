import Heimdallr.Zone.Record

/-!
# What an edit does to the records

One specification for the two edits: a call names a `Target`, reads the file, and either fails,
finds nothing to do, or writes records that differ from those of the file in two places only, the
target and the SOA record.

## What is relied on of hickory

* `ZoneLib.Laws lib origin`, for a zone with an absolute name: what the parser delivers has absolute
  owners and one SOA record in an SOA set, and `upsert` touches the set of its record only. It may
  refuse a record where the owner has others (a CNAME beside data, an older SOA), and says nothing
  of it; a record of a new owner is added.
* `ZoneLib.Stable`, for the records of one zone: their data is what its texts are read as. This is
  no law. It fails for relative names in data, which a zone file may have, and for texts that are
  printed without their quotes.
* `ZoneLib.ReadsBack`, for the records of one file that is written: the owners are read as they are
  meant and the sets come back under their completed keys. It says nothing of two sets that fall
  together under one key, which is what a relative owner can lead to. `Zone.WellFormed` derives what
  it needs of it from the single lines.

## Results

* `loadHandler_eq_ok`, `edit_eq_ok`: what a call that gets as far as the writing has read and
  computed.
* `readOwner_shortName`: a shortened owner name is read as the name it stands for.
* `ReadsBack.lookup_of_ne`: what is under a key of the file that was written.

`ZoneLib.knowing` is a library that reads a few files and has the laws, for the examples of the
modules over this one.
-/

namespace Heimdallr

/-- The mnemonic of a record type; a type without one has its number (RFC 3597). -/
def RecordType.mnemonic : RecordType → String
  | .A => "A"
  | .AAAA => "AAAA"
  | .ANAME => "ANAME"
  | .ANY => "ANY"
  | .AXFR => "AXFR"
  | .CAA => "CAA"
  | .CDNSKEY => "CDNSKEY"
  | .CDS => "CDS"
  | .CERT => "CERT"
  | .CNAME => "CNAME"
  | .CSYNC => "CSYNC"
  | .DNAME => "DNAME"
  | .DNSKEY => "DNSKEY"
  | .DS => "DS"
  | .HINFO => "HINFO"
  | .HTTPS => "HTTPS"
  | .IXFR => "IXFR"
  | .KEY => "KEY"
  | .MX => "MX"
  | .NAPTR => "NAPTR"
  | .NS => "NS"
  | .NSEC => "NSEC"
  | .NSEC3 => "NSEC3"
  | .NSEC3PARAM => "NSEC3PARAM"
  | .NULL => "NULL"
  | .OPENPGPKEY => "OPENPGPKEY"
  | .OPT => "OPT"
  | .PTR => "PTR"
  | .RRSIG => "RRSIG"
  | .SIG => "SIG"
  | .SMIMEA => "SMIMEA"
  | .SOA => "SOA"
  | .SRV => "SRV"
  | .SSHFP => "SSHFP"
  | .SVCB => "SVCB"
  | .TLSA => "TLSA"
  | .TSIG => "TSIG"
  | .TXT => "TXT"
  | .ZERO => "ZERO"
  | .Unknown code => "TYPE" ++ String.ofList (Nat.toDigits 10 code.toNat)

/-! ## Completed keys -/

theorem Name.within_of_fqdn {n origin : Name} (h : n.isFqdn = true) : n.within origin = n :=
  if_pos h

@[simp] theorem LowerName.ofName_name (n : LowerName) : LowerName.ofName n.name = n := by
  cases n with
  | mk name lower => simp [LowerName.ofName, lower]

theorem LowerName.ofName_toLowercase_within (n origin : Name) :
    LowerName.ofName (n.toLowercase.within origin) = LowerName.ofName (n.within origin) := by
  unfold LowerName.ofName Name.within Name.toLowercase
  by_cases h : n.isFqdn = true
  · simp [h, lowerByte_lowerByte, Function.comp_def]
  · simp [h, lowerByte_lowerByte, Function.comp_def]

namespace RrKey

/-- The key as a master file under `origin` has it. -/
def within (k : RrKey) (origin : Name) : RrKey := ⟨.ofName (k.name.name.within origin), k.recordType⟩

/-- The owner of the key is absolute. -/
def isFqdn (k : RrKey) : Bool := k.name.name.isFqdn

theorem within_of_fqdn {k : RrKey} {origin : Name} (h : k.isFqdn = true) : k.within origin = k := by
  unfold within
  rw [Name.within_of_fqdn h, LowerName.ofName_name]

theorem isFqdn_within {k : RrKey} {origin : Name} : (k.within origin).isFqdn = true := by
  unfold within isFqdn Name.within
  split
  · assumption
  · rfl

end RrKey

namespace Zone

open Heimdallr.Net

theorem mem_of_lookup {records : Records} {k : RrKey} {set : List Record}
    (h : records.lookup k = some set) : k ∈ records :=
  AList.lookup_isSome.mp (by rw [h]; rfl)

theorem exists_lookup {records : Records} {k : RrKey} (h : k ∈ records) :
    ∃ set, records.lookup k = some set :=
  Option.isSome_iff_exists.mp (AList.lookup_isSome.mpr h)

theorem mem_entries_iff {lib : ZoneLib} {records : Records} {k : RrKey} {set : List Record} :
    (⟨k, set⟩ : Sigma fun _ : RrKey => List Record) ∈
        records.entries.insertionSort (fun a b => lib.keyLe a.1 b.1) ↔
      records.lookup k = some set := by
  rw [(List.perm_insertionSort _ _).mem_iff]
  exact AList.mem_lookup_iff.symm

theorem mem_recordSets {lib : ZoneLib} {records : Records} {r : Record} :
    r ∈ (recordSets lib records).flatten ↔ ∃ k set, records.lookup k = some set ∧ r ∈ set := by
  unfold recordSets
  simp only [List.mem_flatten, List.mem_map]
  constructor
  · rintro ⟨_, ⟨⟨k, set⟩, hmem, rfl⟩, hr⟩
    exact ⟨k, set, mem_entries_iff.mp hmem, hr⟩
  · rintro ⟨k, set, hset, hr⟩
    exact ⟨set, ⟨⟨k, set⟩, mem_entries_iff.mpr hset, rfl⟩, hr⟩

/-! ## What is relied on -/

/-- What the parser makes of the line of a record. -/
def readLine (lib : ZoneLib) (origin : Name) (r : Record) : Option Record :=
  (lib.readOwner origin (shortName lib origin r.name)).map fun owner =>
    ⟨owner, r.ttl, lib.reread origin r.data⟩

/-- A record as the parser delivers it: its owner is absolute, and SOA data is of the SOA variant
with an absolute MNAME. -/
structure ParsedRecord (r : Record) : Prop where
  absolute : r.name.isFqdn = true
  soa : r.recordType = .SOA → ∃ soa, r.data = .SOA soa ∧ soa.mname.isFqdn = true

/-- Records as the parser delivers them: no set is empty, an SOA record set has one record, and
every record is under its key. -/
structure Parsed (records : Records) : Prop where
  nonempty : ∀ k set, records.lookup k = some set → set ≠ []
  single : ∀ k set, records.lookup k = some set → k.recordType = .SOA → set.length = 1
  filed : ∀ k set r, records.lookup k = some set → r ∈ set → r.key = k ∧ ParsedRecord r

/-- The documented behaviour of hickory the edits of the zone at `origin` rest on. -/
structure ZoneLib.Laws (lib : ZoneLib) (origin : Name) : Prop where
  /-- the zone has an absolute name -/
  absolute : origin.isFqdn = true
  parsed : ∀ text records, lib.parse origin text = some records → Parsed records
  /-- `upsert` touches the record set of its record only -/
  upsert_ne : ∀ records r k, k ≠ r.key → (lib.upsert records r).lookup k = records.lookup k
  /-- and puts no record there but its own -/
  upsert_mem : ∀ records r set x, (lib.upsert records r).lookup r.key = some set → x ∈ set →
    x = r ∨ ∃ old, records.lookup r.key = some old ∧ x ∈ old
  /-- where the owner has no records yet, the record is added -/
  upsert_new : ∀ records r, (∀ k ∈ records, k.name ≠ r.key.name) →
    (lib.upsert records r).lookup r.key = some [r]
  /-- a record set of a zone (so without a CNAME beside it) can be replaced -/
  upsert_replaced : ∀ records r, lib.accepts origin records = true → r.key ∈ records →
    (lib.upsert (records.erase r.key) r).lookup r.key = some [r]
  /-- an SOA record is refused, or replaces the one there was -/
  upsert_soa : ∀ records r, r.recordType = .SOA →
    (∀ set, records.lookup r.key = some set → set.length = 1) →
    (lib.upsert records r).lookup r.key = records.lookup r.key ∨
      (lib.upsert records r).lookup r.key = some [r]

/-- The data of every record is what its text is read as: no relative name is in it, and no text
that is printed without its quotes. -/
def ZoneLib.Stable (lib : ZoneLib) (origin : Name) (records : Records) : Prop :=
  ∀ k set r, records.lookup k = some set → r ∈ set → lib.reread origin r.data = r.data

/-- Two SOA record sets end up under one owner, which the parser refuses. -/
def SoaTwice (origin : Name) (records : Records) : Prop :=
  ∃ k₁ ∈ records, ∃ k₂ ∈ records, k₁ ≠ k₂ ∧ k₁.recordType = .SOA ∧
    k₁.within origin = k₂.within origin

/-- The file written for these records is read as what was written, line by line: the names are
those meant, and the record sets come back, each under its completed key. Nothing is said of two
sets that fall together under one key, but that two SOA sets are refused. -/
structure ZoneLib.ReadsBack (lib : ZoneLib) (origin : Name) (records : Records) : Prop where
  apex : lib.readOwner origin ['@'] = some origin
  base : lib.readOwner origin (lib.nameText origin) = some origin
  /-- the full text of an owner -/
  owner : ∀ k set r, records.lookup k = some set → r ∈ set →
    lib.readOwner origin (lib.nameText r.name) = some (r.name.within origin)
  /-- a text without the origin at its end is completed with it -/
  below : ∀ k set r t, records.lookup k = some set → r ∈ set →
    lib.nameText r.name = t ++ '.' :: lib.nameText origin →
    lib.readOwner origin t = some (r.name.within origin)
  /-- the two names in the data of an SOA record are completed -/
  soa : ∀ k set r soa, records.lookup k = some set → r ∈ set → r.data = .SOA soa →
    lib.reread origin r.data =
      .SOA { soa with mname := soa.mname.within origin, rname := soa.rname.within origin }
  refused : lib.parse origin (zoneText lib origin records) = none ↔ SoaTwice origin records
  sets : ∀ after, lib.parse origin (zoneText lib origin records) = some after →
    ∀ k set, records.lookup k = some set → set ≠ [] → generated k.recordType = false →
      (∀ k' ∈ records, k'.within origin = k.within origin → k' = k) →
      after.lookup (k.within origin) = some (set.filterMap (readLine lib origin))
  others : ∀ after, lib.parse origin (zoneText lib origin records) = some after →
    ∀ k, (∀ k' ∈ records, generated k'.recordType = false → k'.within origin ≠ k) →
      after.lookup k = none

/-! ## Calls -/

/-- A request to the record API. -/
inductive RecordCall
  | insert (create : RecordCreate)
  | delete (request : RecordDelete)
  deriving DecidableEq, Repr

/-- What a call is about: the zone, the owner as the request has it, and the type. -/
structure Target where
  origin : Name
  owner : Name
  rtype : RecordType
  deriving DecidableEq, Repr

namespace Target

/-- The key the call looks up or inserts under. -/
def key (t : Target) : RrKey := ⟨.ofName t.owner, t.rtype⟩

/-- The record set the request means: a relative owner is one of the zone. -/
def rrset (t : Target) : RrKey := ⟨.ofName (t.owner.within t.origin), t.rtype⟩

theorem key_within (t : Target) : t.key.within t.origin = t.rrset := by
  unfold RrKey.within rrset
  rw [← LowerName.ofName_toLowercase_within t.owner]
  rfl

theorem isFqdn_key (t : Target) : t.key.isFqdn = t.owner.isFqdn := rfl

theorem isFqdn_rrset (t : Target) : t.rrset.isFqdn = true := by
  rw [← key_within]
  exact RrKey.isFqdn_within

end Target

section Calls

variable (lib : ZoneLib) (zoneCfg : ZoneConfig) (zonesDir : Text)

namespace RecordCall

/-- The type of the request, as a text. -/
def recordType : RecordCall → String
  | insert create => create.recordType
  | delete request => request.recordType

/-- The owner of the request, as a text. -/
def name : RecordCall → String
  | insert create => create.name
  | delete request => request.name

/-- The owner is one of the spellings of the origin that the call knows. -/
def namesOrigin : RecordCall → Bool
  | insert create => create.namesOrigin zoneCfg
  | delete request => request.namesOrigin zoneCfg

/-- What the call is about, once its two strings are read. -/
def target (call : RecordCall) : Except RecordError Target := do
  let rtype ← parseRecordType call.recordType
  let origin ← orErr (.InvalidZoneName zoneCfg.name) (lib.fromAscii zoneCfg.name)
  let owner ← ownerOf lib origin (call.namesOrigin zoneCfg) call.name
  return ⟨origin, owner, rtype⟩

/-- The call up to the writing; `none` when there is nothing to write. -/
def edit (disk : Disk) : RecordCall → Except RecordError (Option (Name × Records))
  | insert create => do
    let edited ← insertEdit lib zoneCfg zonesDir disk create
    return some edited
  | delete request => do
    let (origin, records, removed) ← deleteEdit lib zoneCfg zonesDir disk request
    return if 0 < removed then some (origin, records) else none

/-- The call as a whole. -/
def run (disk : Disk) (call : RecordCall) (w : WriteOutcome) : Except RecordError Unit × Disk :=
  match call with
  | insert create => insertRecord lib zoneCfg zonesDir disk create w
  | delete request =>
    let (result, disk) := deleteRecords lib zoneCfg zonesDir disk request w
    (result.map fun _ => (), disk)

theorem edit_insert {disk : Disk} {create : RecordCreate} {origin : Name} {records : Records}
    (h : insertEdit lib zoneCfg zonesDir disk create = .ok (origin, records)) :
    (insert create).edit lib zoneCfg zonesDir disk = .ok (some (origin, records)) := by
  show (insertEdit lib zoneCfg zonesDir disk create >>= _) = _
  rw [h]
  rfl

theorem edit_delete {disk : Disk} {request : RecordDelete} {origin : Name} {records : Records}
    {removed : Nat}
    (h : deleteEdit lib zoneCfg zonesDir disk request = .ok (origin, records, removed))
    (hpos : 0 < removed) :
    (delete request).edit lib zoneCfg zonesDir disk = .ok (some (origin, records)) := by
  show (deleteEdit lib zoneCfg zonesDir disk request >>= _) = _
  rw [h]
  exact congrArg Except.ok (if_pos hpos)

/-- A call is its edit and the writing of what it came to. -/
theorem run_eq (disk : Disk) (call : RecordCall) (w : WriteOutcome) :
    call.run lib zoneCfg zonesDir disk w =
      match call.edit lib zoneCfg zonesDir disk with
      | .error e => (.error e, disk)
      | .ok none => (.ok (), disk)
      | .ok (some (origin, records)) =>
        persistZone lib disk (zonePath zoneCfg zonesDir) origin records w := by
  cases call with
  | insert create =>
    unfold run edit insertRecord
    dsimp only
    cases insertEdit lib zoneCfg zonesDir disk create <;> rfl
  | delete request =>
    unfold run edit deleteRecords
    dsimp only
    cases deleteEdit lib zoneCfg zonesDir disk request with
    | error e => rfl
    | ok edited =>
      obtain ⟨origin, records, removed⟩ := edited
      by_cases hpos : 0 < removed
      · simp only [bind, Except.bind, pure, Except.pure, hpos, if_true]
        cases w <;> rfl
      · simp only [bind, Except.bind, pure, Except.pure, hpos, if_false]
        rfl

end RecordCall

end Calls

/-! ## What a call reads -/

section Load

variable {lib : ZoneLib} {zoneCfg : ZoneConfig} {zonesDir : Text}

theorem orErr_eq_ok {α : Type} {e : RecordError} {o : Option α} {a : α}
    (h : orErr e o = .ok a) : o = some a := by
  cases o with
  | none => cases h
  | some b => rw [Except.ok.inj h]

/-- The records after `patch_soa_rname`. -/
def patched (lib : ZoneLib) (origin rname : Name) (records : Records) : Records :=
  match oldSoa records origin with
  | some soa => lib.upsert (records.erase (soaKey origin)) (patchedSoa origin rname soa)
  | none => records

/-- The zone in the file, as the parser reads it. -/
def zoneOnDisk (lib : ZoneLib) (zoneCfg : ZoneConfig) (zonesDir : Text) (origin : Name)
    (disk : Disk) : Option Records :=
  (disk (zonePath zoneCfg zonesDir)).join.bind (lib.parse origin)

/-- A zone was read: where it stands on the disk, and the RNAME that goes into it. -/
structure Loaded (lib : ZoneLib) (zoneCfg : ZoneConfig) (zonesDir : Text) (disk : Disk)
    (origin rname : Name) (before : Records) : Prop where
  zoneName : lib.fromAscii zoneCfg.name = some origin
  newRname : lib.nameOf defaultSoaRname = some rname
  read : zoneOnDisk lib zoneCfg zonesDir origin disk = some before
  accepted : lib.accepts origin before = true

theorem patchSoaRname_eq_ok {records handler : Records} {origin : Name} {rname : Text}
    (h : patchSoaRname lib records origin rname = .ok handler) :
    ∃ n, lib.nameOf rname = some n ∧ handler = patched lib origin n records := by
  obtain ⟨n, hn, h⟩ := bind_eq_ok h
  refine ⟨n, orErr_eq_ok hn, ?_⟩
  unfold patched
  cases hsoa : oldSoa records origin with
  | some soa =>
    rw [hsoa] at h
    exact (Except.ok.inj h).symm
  | none =>
    rw [hsoa] at h
    exact (Except.ok.inj h).symm

theorem tryFromConfig_eq_some {origin : Name} {text : Option Text} {records : Records}
    (h : tryFromConfig lib origin text = some records) :
    text.bind (lib.parse origin) = some records ∧ lib.accepts origin records = true := by
  obtain ⟨t, rfl, h⟩ := Option.bind_eq_some_iff.mp h
  obtain ⟨r, hr, h⟩ := Option.bind_eq_some_iff.mp h
  split at h
  · rename_i haccepted
    obtain rfl := Option.some.inj h
    exact ⟨hr, haccepted⟩
  · cases h

/-- What `load_handler` has done when it succeeds. -/
theorem loadHandler_eq_ok {disk : Disk} {handler : Records}
    (h : loadHandler lib disk zoneCfg zonesDir = .ok handler) :
    ∃ origin rname before, Loaded lib zoneCfg zonesDir disk origin rname before ∧
      handler = patched lib origin rname before := by
  obtain ⟨file, hfile, h⟩ := bind_eq_ok h
  obtain ⟨text, htext, h⟩ := bind_eq_ok h
  obtain ⟨origin, horigin, h⟩ := bind_eq_ok h
  obtain ⟨before, hbefore, h⟩ := bind_eq_ok h
  obtain ⟨rname, hrname, rfl⟩ := patchSoaRname_eq_ok h
  obtain ⟨hparse, haccepted⟩ := tryFromConfig_eq_some (orErr_eq_ok hbefore)
  have hpath : zonePath zoneCfg zonesDir = resolveZonePath file.toList zonesDir := by
    unfold zonePath
    rw [orErr_eq_ok hfile]
    rfl
  have hread : zoneOnDisk lib zoneCfg zonesDir origin disk = some before := by
    unfold zoneOnDisk
    rw [hpath, orErr_eq_ok htext]
    exact hparse
  exact ⟨origin, rname, before, ⟨orErr_eq_ok horigin, hrname, hread, haccepted⟩, rfl⟩

/-- A zone that can be read and has a file in its configuration is loaded. -/
theorem Loaded.loadHandler_eq {disk : Disk} {origin rname : Name} {before : Records} {file : String}
    (h : Loaded lib zoneCfg zonesDir disk origin rname before) (hfile : zoneCfg.file = some file) :
    loadHandler lib disk zoneCfg zonesDir = .ok (patched lib origin rname before) := by
  have hpath : zonePath zoneCfg zonesDir = resolveZonePath file.toList zonesDir := by
    unfold zonePath
    rw [hfile]
    rfl
  obtain ⟨text, htext, hparse⟩ := Option.bind_eq_some_iff.mp h.read
  have hdisk : disk (resolveZonePath file.toList zonesDir) = some (some text) := by
    rw [← hpath]
    exact Option.join_eq_some_iff.mp htext
  have htry : tryFromConfig lib origin (some text) = some before := by
    show (lib.parse origin text).bind _ = _
    rw [hparse]
    exact if_pos h.accepted
  unfold loadHandler loadZoneFile patchSoaRname patched
  rw [hfile]
  simp only [bind, Except.bind, hdisk, h.zoneName, h.newRname, orErr, htry]
  cases oldSoa before origin <;> rfl

end Load

/-! ## What a call writes -/

section Edit

variable {lib : ZoneLib} {zoneCfg : ZoneConfig} {zonesDir : Text}

theorem parseSvcbRdata_type {rtype : RecordType} {data : Text} {rdata : RData}
    (h : parseSvcbRdata lib rtype data = .ok rdata) :
    Record.recordType ⟨.root, 0, rdata⟩ = rtype := by
  obtain ⟨d, -, h⟩ := bind_eq_ok h
  split at h
  · rename_i htype
    cases h
    exact htype
  · cases h

/-- The data that is read for a type is of that type. -/
theorem parseRdata_type {rtype : RecordType} {data : Text} {rdata : RData}
    (h : parseRdata lib rtype data = .ok rdata) (n : Name) (ttl : UInt32) :
    Record.recordType ⟨n, ttl, rdata⟩ = rtype := by
  unfold parseRdata at h
  cases rtype with
  | A | AAAA | CNAME | NS | PTR | TLSA | ANAME | SOA =>
    obtain ⟨_, -, h⟩ := bind_eq_ok h
    cases h
    rfl
  | MX =>
    dsimp only at h
    split at h
    · obtain ⟨_, -, h⟩ := bind_eq_ok h
      obtain ⟨_, -, h⟩ := bind_eq_ok h
      cases h
      rfl
    · cases h
  | TXT =>
    cases h
    rfl
  | SRV =>
    dsimp only at h
    split at h
    · obtain ⟨_, -, h⟩ := bind_eq_ok h
      obtain ⟨_, -, h⟩ := bind_eq_ok h
      obtain ⟨_, -, h⟩ := bind_eq_ok h
      obtain ⟨_, -, h⟩ := bind_eq_ok h
      cases h
      rfl
    · cases h
  | SSHFP | SVCB | HTTPS => exact parseSvcbRdata_type h
  | _ => cases h

/-- The record a request asks to insert. -/
def Inserted (lib : ZoneLib) (t : Target) (create : RecordCreate) (r : Record) : Prop :=
  ∃ rdata, parseRdata lib t.rtype create.data.toList = .ok rdata ∧
    r = ⟨t.owner, create.ttl.getD 3600, rdata⟩

theorem Inserted.key {t : Target} {create : RecordCreate} {r : Record}
    (h : Inserted lib t create r) : r.key = t.key := by
  obtain ⟨rdata, hrdata, rfl⟩ := h
  unfold Record.key Target.key
  rw [parseRdata_type hrdata]

/-- What a call makes of the records it has read; `none` when it leaves them as they are. -/
inductive Edited (lib : ZoneLib) (t : Target) (handler : Records) :
    RecordCall → Option Records → Prop
  | inserted (create : RecordCreate) (r : Record) (hr : Inserted lib t create r) :
    Edited lib t handler (.insert create) (some (lib.upsert handler r))
  | deleted (request : RecordDelete) (hmem : t.key ∈ handler) :
    Edited lib t handler (.delete request) (some (handler.erase t.key))
  | absent (request : RecordDelete) (hset : ∀ set, handler.lookup t.key = some set → set = []) :
    Edited lib t handler (.delete request) none

theorem target_eq_ok {call : RecordCall} {rtype : RecordType} {origin owner : Name}
    (hrtype : parseRecordType call.recordType = .ok rtype)
    (horigin : orErr (.InvalidZoneName zoneCfg.name) (lib.fromAscii zoneCfg.name) = .ok origin)
    (howner : ownerOf lib origin (call.namesOrigin zoneCfg) call.name = .ok owner) :
    call.target lib zoneCfg = .ok ⟨origin, owner, rtype⟩ := by
  unfold RecordCall.target
  rw [hrtype, horigin]
  show (ownerOf lib origin (call.namesOrigin zoneCfg) call.name >>= fun owner => _) = _
  rw [howner]
  rfl

/-- What the target of a call is made of. -/
theorem of_target_eq_ok {call : RecordCall} {t : Target} (h : call.target lib zoneCfg = .ok t) :
    parseRecordType call.recordType = .ok t.rtype ∧ lib.fromAscii zoneCfg.name = some t.origin ∧
      ownerOf lib t.origin (call.namesOrigin zoneCfg) call.name = .ok t.owner := by
  obtain ⟨rtype, hrtype, h⟩ := bind_eq_ok h
  obtain ⟨origin, horigin, h⟩ := bind_eq_ok h
  obtain ⟨owner, howner, h⟩ := bind_eq_ok h
  obtain rfl := Except.ok.inj h
  exact ⟨hrtype, orErr_eq_ok horigin, howner⟩

theorem insertEdit_eq_ok {disk : Disk} {create : RecordCreate} {origin : Name} {records : Records}
    (h : insertEdit lib zoneCfg zonesDir disk create = .ok (origin, records)) :
    ∃ t rname before r, (RecordCall.insert create).target lib zoneCfg = .ok t ∧ t.origin = origin ∧
      Loaded lib zoneCfg zonesDir disk origin rname before ∧ Inserted lib t create r ∧
      records = lib.upsert (patched lib origin rname before) r := by
  obtain ⟨handler, hhandler, h⟩ := bind_eq_ok h
  obtain ⟨rtype, hrtype, h⟩ := bind_eq_ok h
  obtain ⟨origin', horigin, h⟩ := bind_eq_ok h
  obtain ⟨name, hname, h⟩ := bind_eq_ok h
  obtain ⟨rdata, hrdata, h⟩ := bind_eq_ok h
  cases h
  obtain ⟨origin', rname, before, hload, rfl⟩ := loadHandler_eq_ok hhandler
  obtain rfl := Option.some.inj (hload.zoneName.symm.trans (orErr_eq_ok horigin))
  exact ⟨⟨origin', name, rtype⟩, rname, before, _, target_eq_ok hrtype horigin hname, rfl, hload,
    ⟨rdata, hrdata, rfl⟩, rfl⟩

/-- An insertion is about the target of its request. -/
theorem insertEdit_eq {disk : Disk} {create : RecordCreate} :
    insertEdit lib zoneCfg zonesDir disk create = do
      let handler ← loadHandler lib disk zoneCfg zonesDir
      let t ← (RecordCall.insert create).target lib zoneCfg
      let rdata ← parseRdata lib t.rtype create.data.toList
      return (t.origin, lib.upsert handler ⟨t.owner, create.ttl.getD 3600, rdata⟩) := by
  unfold RecordCall.target
  simp only [bind_assoc, pure_bind]
  rfl

/-- A deletion is about the target of its request. -/
theorem deleteEdit_eq {disk : Disk} {request : RecordDelete} :
    deleteEdit lib zoneCfg zonesDir disk request = do
      let handler ← loadHandler lib disk zoneCfg zonesDir
      let t ← (RecordCall.delete request).target lib zoneCfg
      return (t.origin, handler.erase t.key, ((handler.lookup t.key).map List.length).getD 0) := by
  unfold RecordCall.target
  simp only [bind_assoc, pure_bind]
  rfl

/-- The insertion into a zone that is loaded. -/
theorem insertEdit_ok {disk : Disk} {create : RecordCreate} {handler : Records} {t : Target}
    {rdata : RData} (hload : loadHandler lib disk zoneCfg zonesDir = .ok handler)
    (htarget : (RecordCall.insert create).target lib zoneCfg = .ok t)
    (hrdata : parseRdata lib t.rtype create.data.toList = .ok rdata) :
    insertEdit lib zoneCfg zonesDir disk create =
      .ok (t.origin, lib.upsert handler ⟨t.owner, create.ttl.getD 3600, rdata⟩) := by
  rw [insertEdit_eq, hload, htarget]
  show (parseRdata lib t.rtype create.data.toList >>= fun rdata => _) = _
  rw [hrdata]
  rfl

/-- The deletion from a zone that is loaded. -/
theorem deleteEdit_ok {disk : Disk} {request : RecordDelete} {handler : Records} {t : Target}
    (hload : loadHandler lib disk zoneCfg zonesDir = .ok handler)
    (htarget : (RecordCall.delete request).target lib zoneCfg = .ok t) :
    deleteEdit lib zoneCfg zonesDir disk request =
      .ok (t.origin, handler.erase t.key, ((handler.lookup t.key).map List.length).getD 0) := by
  rw [deleteEdit_eq, hload, htarget]
  rfl

/-- A deletion that finds nothing leaves the file alone. -/
theorem deleteRecords_zero {disk : Disk} {request : RecordDelete} {origin : Name}
    {records : Records} {w : WriteOutcome}
    (h : deleteEdit lib zoneCfg zonesDir disk request = .ok (origin, records, 0)) :
    deleteRecords lib zoneCfg zonesDir disk request w = (.ok 0, disk) := by
  unfold deleteRecords
  rw [h]
  rfl

theorem deleteEdit_eq_ok {disk : Disk} {request : RecordDelete} {origin : Name} {records : Records}
    {removed : Nat}
    (h : deleteEdit lib zoneCfg zonesDir disk request = .ok (origin, records, removed)) :
    ∃ t rname before, (RecordCall.delete request).target lib zoneCfg = .ok t ∧ t.origin = origin ∧
      Loaded lib zoneCfg zonesDir disk origin rname before ∧
      records = (patched lib origin rname before).erase t.key ∧
      removed = (((patched lib origin rname before).lookup t.key).map List.length).getD 0 := by
  obtain ⟨handler, hhandler, h⟩ := bind_eq_ok h
  obtain ⟨rtype, hrtype, h⟩ := bind_eq_ok h
  obtain ⟨origin', horigin, h⟩ := bind_eq_ok h
  obtain ⟨name, hname, h⟩ := bind_eq_ok h
  cases h
  obtain ⟨origin', rname, before, hload, rfl⟩ := loadHandler_eq_ok hhandler
  obtain rfl := Option.some.inj (hload.zoneName.symm.trans (orErr_eq_ok horigin))
  exact ⟨⟨origin', name, rtype⟩, rname, before, target_eq_ok hrtype horigin hname, rfl, hload, rfl,
    rfl⟩

/-- What a call that does not fail before the writing has done. -/
theorem edit_eq_ok {disk : Disk} {call : RecordCall} {e : Option (Name × Records)}
    (h : call.edit lib zoneCfg zonesDir disk = .ok e) :
    ∃ t rname before records, call.target lib zoneCfg = .ok t ∧
      Loaded lib zoneCfg zonesDir disk t.origin rname before ∧
      Edited lib t (patched lib t.origin rname before) call records ∧
      e = records.map fun r => (t.origin, r) := by
  cases call with
  | insert create =>
    obtain ⟨⟨origin, records⟩, hedit, h⟩ := bind_eq_ok h
    cases h
    obtain ⟨t, rname, before, r, htarget, rfl, hload, hr, rfl⟩ := insertEdit_eq_ok hedit
    exact ⟨t, rname, before, _, htarget, hload, .inserted create r hr, rfl⟩
  | delete request =>
    obtain ⟨⟨origin, records, removed⟩, hedit, h⟩ := bind_eq_ok h
    obtain ⟨t, rname, before, htarget, rfl, hload, rfl, hremoved⟩ := deleteEdit_eq_ok hedit
    have he := Except.ok.inj h
    rw [hremoved] at he
    -- no set, an empty one, or one with records to remove
    cases hlookup : (patched lib t.origin rname before).lookup t.key with
    | none =>
      rw [hlookup] at he
      exact ⟨t, rname, before, none, htarget, hload, .absent request (by simp [hlookup]), he.symm⟩
    | some set =>
      rw [hlookup] at he
      cases set with
      | nil =>
        exact ⟨t, rname, before, none, htarget, hload, .absent request (by simp [hlookup]), he.symm⟩
      | cons r set =>
        exact ⟨t, rname, before, _, htarget, hload, .deleted request (mem_of_lookup hlookup), he.symm⟩

/-! ### The records in memory -/

variable {origin rname : Name} {before : Records}

theorem Parsed.isFqdn (hparsed : Parsed before) {k : RrKey} (h : k ∈ before) : k.isFqdn = true := by
  obtain ⟨set, hset⟩ := exists_lookup h
  obtain ⟨r, hr⟩ := List.exists_mem_of_ne_nil set (hparsed.nonempty k set hset)
  obtain ⟨rfl, hrecord⟩ := hparsed.filed k set r hset hr
  exact hrecord.absolute

/-- The SOA record set of a parsed zone begins with an SOA record. -/
theorem Parsed.oldSoa_eq (hparsed : Parsed before) (h : soaKey origin ∈ before) :
    ∃ soa, oldSoa before origin = some soa ∧ soa.mname.isFqdn = true := by
  obtain ⟨set, hset⟩ := exists_lookup h
  cases set with
  | nil => exact absurd rfl (hparsed.nonempty _ _ hset)
  | cons r set =>
    obtain ⟨hkey, hrecord⟩ := hparsed.filed _ _ r hset List.mem_cons_self
    obtain ⟨soa, hsoa, hmname⟩ := hrecord.soa (congrArg RrKey.recordType hkey)
    obtain ⟨name, ttl, data⟩ := r
    obtain rfl : data = .SOA soa := hsoa
    refine ⟨soa, ?_, hmname⟩
    unfold oldSoa
    rw [hset]

theorem oldSoa_eq_none (h : soaKey origin ∉ before) : oldSoa before origin = none := by
  unfold oldSoa
  rw [AList.lookup_eq_none.mpr h]

theorem lookup_patched_ne (hlaws : lib.Laws origin) {k : RrKey} (hk : k ≠ soaKey origin) :
    (patched lib origin rname before).lookup k = before.lookup k := by
  unfold patched
  split
  · rw [hlaws.upsert_ne _ _ _ hk, AList.lookup_erase_ne hk]
  · rfl

theorem lookup_patched_soa (hlaws : lib.Laws origin) (haccepted : lib.accepts origin before = true)
    {soa : SOA} (h : oldSoa before origin = some soa) (hmem : soaKey origin ∈ before) :
    (patched lib origin rname before).lookup (soaKey origin) =
      some [patchedSoa origin rname soa] := by
  unfold patched
  rw [h]
  exact hlaws.upsert_replaced before (patchedSoa origin rname soa) haccepted hmem

theorem mem_patched (hlaws : lib.Laws origin) (hparsed : Parsed before)
    (haccepted : lib.accepts origin before = true) {k : RrKey} :
    k ∈ patched lib origin rname before ↔ k ∈ before := by
  by_cases hk : k = soaKey origin
  · subst hk
    by_cases hmem : soaKey origin ∈ before
    · obtain ⟨soa, hsoa, -⟩ := hparsed.oldSoa_eq hmem
      have hlookup : (patched lib origin rname before).lookup (soaKey origin) = _ :=
        lookup_patched_soa hlaws haccepted hsoa hmem
      exact iff_of_true (mem_of_lookup hlookup) hmem
    · unfold patched
      rw [oldSoa_eq_none hmem]
  · rw [← AList.lookup_isSome, lookup_patched_ne hlaws hk, AList.lookup_isSome]

theorem ne_nil_of_patched (hlaws : lib.Laws origin) (hparsed : Parsed before)
    (haccepted : lib.accepts origin before = true) {k : RrKey} {set : List Record}
    (h : (patched lib origin rname before).lookup k = some set) : set ≠ [] := by
  by_cases hk : k = soaKey origin
  · subst hk
    have hmem : soaKey origin ∈ before :=
      (mem_patched hlaws hparsed haccepted).mp (mem_of_lookup h)
    obtain ⟨soa, hsoa, -⟩ := hparsed.oldSoa_eq hmem
    rw [lookup_patched_soa hlaws haccepted hsoa hmem] at h
    obtain rfl := Option.some.inj h
    exact List.cons_ne_nil _ _
  · rw [lookup_patched_ne hlaws hk] at h
    exact hparsed.nonempty k set h

/-- The records in memory are under their keys. -/
theorem key_of_patched (hlaws : lib.Laws origin) (hparsed : Parsed before)
    (haccepted : lib.accepts origin before = true) {k : RrKey} {set : List Record} {r : Record}
    (hset : (patched lib origin rname before).lookup k = some set) (hr : r ∈ set) : r.key = k := by
  by_cases hk : k = soaKey origin
  · subst hk
    have hmem := (mem_patched hlaws hparsed haccepted).mp (mem_of_lookup hset)
    obtain ⟨soa, hold, -⟩ := hparsed.oldSoa_eq hmem
    rw [lookup_patched_soa hlaws haccepted hold hmem] at hset
    obtain rfl := Option.some.inj hset
    obtain rfl := List.mem_singleton.mp hr
    rfl
  · rw [lookup_patched_ne hlaws hk] at hset
    exact (hparsed.filed k set r hset hr).1

/-- Away from its target, an edit leaves what was read. -/
theorem Edited.lookup_ne {t : Target} (hlaws : lib.Laws t.origin) {handler records : Records}
    {call : RecordCall} (h : Edited lib t handler call (some records)) {k : RrKey}
    (hk : k ≠ t.key) : records.lookup k = handler.lookup k := by
  cases h with
  | inserted create r hr => exact hlaws.upsert_ne _ _ _ (hr.key ▸ hk)
  | deleted request hmem => exact AList.lookup_erase_ne hk

end Edit

/-! ## What is read of the file that was written -/

section ReadBack

theorem eq_append_of_stripSuffix {suffix t stripped : Text}
    (h : stripSuffix suffix t = some stripped) : t = stripped ++ suffix := by
  unfold stripSuffix at h
  split at h
  · rename_i hsuffix
    obtain ⟨front, rfl⟩ := List.isSuffixOf_iff_suffix.mp hsuffix
    obtain rfl := Option.some.inj h
    simp
  · cases h

variable {lib : ZoneLib} {origin : Name} {records : Records}

namespace ZoneLib.ReadsBack

/-- Nothing but a second SOA record keeps the file from being read. -/
theorem exists_parse (hback : lib.ReadsBack origin records) (honce : ¬ SoaTwice origin records) :
    ∃ after, lib.parse origin (zoneText lib origin records) = some after :=
  Option.ne_none_iff_exists'.mp (mt hback.refused.mp honce)

/-- The shortened owner of a record is read as the owner. -/
theorem readOwner_shortName (hback : lib.ReadsBack origin records) {k : RrKey} {set : List Record}
    {r : Record} (hset : records.lookup k = some set) (hr : r ∈ set) :
    lib.readOwner origin (shortName lib origin r.name) = some (r.name.within origin) := by
  have howner := hback.owner k set r hset hr
  unfold shortName
  dsimp only
  split
  · -- the text of the origin: both names are read from it
    rename_i htext
    rw [hback.apex, ← hback.base, ← htext, howner]
  · split
    · rename_i stripped hstripped
      exact hback.below k set r stripped hset hr (eq_append_of_stripSuffix hstripped)
    · exact howner

theorem readLine_eq (hback : lib.ReadsBack origin records) {k : RrKey} {set : List Record}
    {r : Record} (hset : records.lookup k = some set) (hr : r ∈ set) :
    readLine lib origin r = some ⟨r.name.within origin, r.ttl, lib.reread origin r.data⟩ := by
  unfold readLine
  rw [hback.readOwner_shortName hset hr]
  rfl

/-- The file has under an absolute key what was written for it, when no other key is read as this
one. -/
theorem lookup_of_source (hback : lib.ReadsBack origin records) {after : Records} {k : RrKey}
    (hafter : lib.parse origin (zoneText lib origin records) = some after) (hk : k.isFqdn = true)
    (hsource : ∀ k' ∈ records, k'.within origin = k → k' = k)
    (hgen : generated k.recordType = false)
    (hset : ∀ set, records.lookup k = some set → set ≠ []) :
    after.lookup k = (records.lookup k).map (List.filterMap (readLine lib origin)) := by
  cases hlookup : records.lookup k with
  | none =>
    refine hback.others after hafter k fun k' hk' _ hwithin => ?_
    obtain rfl := hsource k' hk' hwithin
    exact AList.lookup_eq_none.mp hlookup hk'
  | some set =>
    have hself : k.within origin = k := RrKey.within_of_fqdn hk
    have hread := hback.sets after hafter k set hlookup (hset set hlookup) hgen
    rw [hself] at hread
    exact hread hsource

/-- Where all keys but `odd` are absolute, this is so of every key but the one `odd` is read as. -/
theorem lookup_of_ne (hback : lib.ReadsBack origin records) {after : Records} {odd k : RrKey}
    (hafter : lib.parse origin (zoneText lib origin records) = some after)
    (hfqdn : ∀ k' ∈ records, k' ≠ odd → k'.isFqdn = true) (hk : k.isFqdn = true)
    (hne : k ≠ odd.within origin) (hgen : generated k.recordType = false)
    (hset : ∀ set, records.lookup k = some set → set ≠ []) :
    after.lookup k = (records.lookup k).map (List.filterMap (readLine lib origin)) := by
  refine hback.lookup_of_source hafter hk ?_ hgen hset
  intro k' hk' hwithin
  have hodd : k' ≠ odd := by
    rintro rfl
    exact hne hwithin.symm
  rw [← hwithin, RrKey.within_of_fqdn (hfqdn k' hk' hodd)]

end ZoneLib.ReadsBack

/-- A record set as the parser delivers it comes back as it is, when its data does. -/
theorem filterMap_readLine_of_parsed (hback : lib.ReadsBack origin records) {k : RrKey}
    {set : List Record} (hset : records.lookup k = some set)
    (hparsed : ∀ r ∈ set, ParsedRecord r)
    (hstable : ∀ r ∈ set, lib.reread origin r.data = r.data) :
    set.filterMap (readLine lib origin) = set := by
  have hsome : ∀ r ∈ set, readLine lib origin r = some r := by
    intro r hr
    rw [hback.readLine_eq hset hr, Name.within_of_fqdn (hparsed r hr).absolute, hstable r hr]
  rw [List.filterMap_congr hsome, List.filterMap_some]

end ReadBack

/-! ## A library for known files

Enough of hickory to run the edits on an example: names with plain labels, address and SOA records,
and the records of a few files. -/

section Knowing

/-- Lexicographic order. -/
def lexLe : List Nat → List Nat → Bool
  | [], _ => true
  | _ :: _, [] => false
  | a :: as, b :: bs => a < b || (a == b && lexLe as bs)

/-- The labels from the right, and the type. -/
def rank (k : RrKey) : List Nat :=
  (k.name.name.labels.reverse.map fun l => l.map UInt8.toNat ++ [0]).flatten ++
    [k.recordType.toU16.toNat]

instance : DecidableEq Records := fun a b =>
  decidable_of_iff (a.entries = b.entries) AList.ext_iff.symm

/-- The records in the order of their keys. -/
def inOrder (records : Records) : Records where
  entries := records.entries.insertionSort fun a b => lexLe (rank a.1) (rank b.1)
  nodupKeys := (List.perm_nodupKeys (List.perm_insertionSort _ _)).mpr records.nodupKeys

theorem lookup_inOrder (records : Records) (k : RrKey) :
    (inOrder records).lookup k = records.lookup k :=
  AList.perm_lookup (List.perm_insertionSort _ _)

/-- A record set for each owner and type; SOA records replace one another. -/
def upsertPlain (records : Records) (r : Record) : Records :=
  inOrder (records.insert r.key
    (match records.lookup r.key with
    | some set => if r.recordType = .SOA then [r] else set ++ [r]
    | none => [r]))

/-- The text of address and SOA data. -/
def plainData : RData → Text
  | .A addr => displayIpv4 addr
  | .SOA soa =>
    List.intercalate [' '] ([soa.mname.text.toList, soa.rname.text.toList] ++
      [(soa.serial.toNat : Int), soa.refresh.toInt, soa.retry.toInt, soa.expire.toInt,
        soa.minimum.toNat].map fun n => (toString n).toList)
  | _ => []

/-- The names in SOA data, completed. -/
def completeSoa (origin : Name) : RData → RData
  | .SOA soa =>
    .SOA { soa with mname := soa.mname.within origin, rname := soa.rname.within origin }
  | data => data

/-- The library that knows these files. -/
def ZoneLib.knowing (files : List (Text × Records)) : ZoneLib where
  toHickory := Hickory.knowing []
  parse _ text := (files.find? fun f => f.1 = text).map Prod.snd
  accepts origin records := decide (soaKey origin ∈ records)
  upsert := upsertPlain
  keyLe a b := lexLe (rank a) (rank b)
  displayType t := t.mnemonic.toList
  displayRData := plainData
  readOwner origin t :=
    if t = ['@'] then some origin else (Name.ofText (String.ofList t)).map (·.within origin)
  reread := completeSoa
  newMx _ _ := []
  newTxt _ := []
  newSrv _ _ _ _ := []
  newTlsa _ _ _ _ := []
  matching _ := .Other
  tryFromStr _ _ := none
  hexDecode _ := none

/-- Records the known files may have: absolute names, addresses and SOA data. -/
def plainRecord (r : Record) : Bool :=
  r.name.isFqdn &&
    match r.data with
    | .A _ => true
    | .SOA soa => soa.mname.isFqdn && soa.rname.isFqdn
    | _ => false

/-- Record sets as a parser delivers them, of such records. -/
def plainRecords (records : Records) : Bool :=
  records.entries.all fun e => e.2 ≠ [] && (e.1.recordType ≠ .SOA || e.2.length = 1) &&
    e.2.all fun r => r.key = e.1 && plainRecord r

theorem parsedRecord_plain {r : Record} (h : plainRecord r = true) : ParsedRecord r := by
  obtain ⟨name, ttl, data⟩ := r
  unfold plainRecord at h
  obtain ⟨habsolute, hdata⟩ := Bool.and_eq_true_iff.mp h
  cases data with
  | A addr =>
    refine ⟨habsolute, fun htype => ?_⟩
    cases htype
  | SOA soa => exact ⟨habsolute, fun _ => ⟨soa, rfl, (Bool.and_eq_true_iff.mp hdata).1⟩⟩
  | _ => cases hdata

theorem reread_plain {files : List (Text × Records)} {origin : Name} {r : Record}
    (h : plainRecord r = true) : (ZoneLib.knowing files).reread origin r.data = r.data := by
  obtain ⟨name, ttl, data⟩ := r
  unfold plainRecord at h
  obtain ⟨-, hdata⟩ := Bool.and_eq_true_iff.mp h
  cases data with
  | A addr => rfl
  | SOA soa =>
    obtain ⟨hmname, hrname⟩ := Bool.and_eq_true_iff.mp hdata
    show RData.SOA { soa with
      mname := soa.mname.within origin, rname := soa.rname.within origin } = .SOA soa
    rw [Name.within_of_fqdn hmname, Name.within_of_fqdn hrname]
  | _ => cases hdata

section Plain

variable {records : Records}

theorem plainRecords_entry (h : plainRecords records = true) {k : RrKey} {set : List Record}
    (hset : records.lookup k = some set) :
    set ≠ [] ∧ (k.recordType = .SOA → set.length = 1) ∧
      ∀ r ∈ set, r.key = k ∧ plainRecord r = true := by
  have hentry := List.all_eq_true.mp h ⟨k, set⟩ (AList.mem_lookup_iff.mp hset)
  simp only [Bool.and_eq_true, Bool.or_eq_true, decide_eq_true_eq, List.all_eq_true] at hentry
  exact ⟨hentry.1.1, fun htype => hentry.1.2.resolve_left (not_not_intro htype), hentry.2⟩

theorem parsed_plain (h : plainRecords records = true) : Parsed records where
  nonempty _ _ hset := (plainRecords_entry h hset).1
  single _ _ hset := (plainRecords_entry h hset).2.1
  filed _ _ r hset hr :=
    have hr' := (plainRecords_entry h hset).2.2 r hr
    ⟨hr'.1, parsedRecord_plain hr'.2⟩

theorem stable_plain {files : List (Text × Records)} {origin : Name}
    (h : plainRecords records = true) : (ZoneLib.knowing files).Stable origin records := by
  intro k set r hset hr
  exact reread_plain ((plainRecords_entry h hset).2.2 r hr).2

end Plain

/-- The record set of a record after the plain `upsert`. -/
theorem lookup_upsertPlain (records : Records) (r : Record) :
    (upsertPlain records r).lookup r.key = some
      (match records.lookup r.key with
      | some set => if r.recordType = .SOA then [r] else set ++ [r]
      | none => [r]) :=
  (lookup_inOrder _ r.key).trans (AList.lookup_insert _)

theorem lookup_upsertPlain_ne {records : Records} {r : Record} {k : RrKey} (hk : k ≠ r.key) :
    (upsertPlain records r).lookup k = records.lookup k :=
  (lookup_inOrder _ k).trans (AList.lookup_insert_ne hk)

theorem lookup_upsertPlain_new {records : Records} {r : Record} (h : r.key ∉ records) :
    (upsertPlain records r).lookup r.key = some [r] := by
  rw [lookup_upsertPlain, AList.lookup_eq_none.mpr h]

theorem lookup_upsertPlain_soa {records : Records} {r : Record} (h : r.recordType = .SOA) :
    (upsertPlain records r).lookup r.key = some [r] := by
  rw [lookup_upsertPlain]
  cases records.lookup r.key with
  | none => rfl
  | some set => exact congrArg some (if_pos h)

theorem self_mem_upsertPlain {records : Records} {r : Record} {set : List Record}
    (hset : (upsertPlain records r).lookup r.key = some set) : r ∈ set := by
  rw [lookup_upsertPlain] at hset
  obtain rfl := Option.some.inj hset
  cases records.lookup r.key with
  | none => exact List.mem_singleton.mpr rfl
  | some set =>
    dsimp only
    split
    · exact List.mem_singleton.mpr rfl
    · exact List.mem_append_right _ (List.mem_singleton.mpr rfl)

/-- Beside the record there are at most those that were in its set. -/
theorem mem_upsertPlain {records : Records} {r x : Record} {set : List Record}
    (hset : (upsertPlain records r).lookup r.key = some set) :
    x ∈ set → x = r ∨ ∃ old, records.lookup r.key = some old ∧ x ∈ old := by
  rw [lookup_upsertPlain] at hset
  obtain rfl := Option.some.inj hset
  intro hx
  cases hold : records.lookup r.key with
  | none =>
    rw [hold] at hx
    exact .inl (List.mem_singleton.mp hx)
  | some old =>
    rw [hold] at hx
    dsimp only at hx
    split at hx
    · exact .inl (List.mem_singleton.mp hx)
    · rcases List.mem_append.mp hx with hmem | hmem
      · exact .inr ⟨old, rfl, hmem⟩
      · exact .inl (List.mem_singleton.mp hmem)

/-- The laws hold of a library with the plain `upsert`, once they hold of its parser. -/
theorem laws_of_upsertPlain {lib : ZoneLib} {origin : Name} (hupsert : lib.upsert = upsertPlain)
    (habsolute : origin.isFqdn = true)
    (hparsed : ∀ text records, lib.parse origin text = some records → Parsed records) :
    lib.Laws origin where
  absolute := habsolute
  parsed := hparsed
  upsert_ne records r k hk := by
    rw [hupsert, lookup_upsertPlain_ne hk]
  upsert_mem records r set x hset := by
    rw [hupsert] at hset
    exact mem_upsertPlain hset
  upsert_new records r hnew := by
    rw [hupsert, lookup_upsertPlain_new fun hmem => hnew r.key hmem rfl]
  upsert_replaced records r _ _ := by
    rw [hupsert, lookup_upsertPlain_new fun hmem => (AList.mem_erase.mp hmem).1 rfl]
  upsert_soa records r htype _ := by
    rw [hupsert]
    exact .inr (lookup_upsertPlain_soa htype)

theorem parse_knowing_head (f : Text × Records) (files : List (Text × Records)) (origin : Name) :
    (ZoneLib.knowing (f :: files)).parse origin f.1 = some f.2 := by
  have hfind : (f :: files).find? (fun g => g.1 = f.1) = some f :=
    List.find?_cons_of_pos (decide_eq_true rfl)
  exact congrArg (Option.map Prod.snd) hfind

theorem laws_of_parsed {files : List (Text × Records)} {origin : Name}
    (habsolute : origin.isFqdn = true) (h : ∀ f ∈ files, Parsed f.2) :
    (ZoneLib.knowing files).Laws origin := by
  refine laws_of_upsertPlain rfl habsolute fun text records hparse => ?_
  obtain ⟨f, hf, rfl⟩ := Option.map_eq_some_iff.mp hparse
  exact h f (List.mem_of_find?_eq_some hf)

theorem laws_knowing {files : List (Text × Records)} {origin : Name}
    (habsolute : origin.isFqdn = true) (h : files.all fun f => plainRecords f.2) :
    (ZoneLib.knowing files).Laws origin :=
  laws_of_parsed habsolute fun f hf => parsed_plain (List.all_eq_true.mp h f hf)

theorem stripSuffix_append (stripped suffix : Text) :
    stripSuffix suffix (stripped ++ suffix) = some stripped := by
  unfold stripSuffix
  rw [if_pos (List.isSuffixOf_iff_suffix.mpr (List.suffix_append stripped suffix))]
  simp

/-- The owner of a record is read from its text, in full and shortened. -/
def readsOwner (lib : ZoneLib) (origin : Name) (r : Record) : Bool :=
  lib.readOwner origin (lib.nameText r.name) = some (r.name.within origin) &&
    (stripSuffix ('.' :: lib.nameText origin) (lib.nameText r.name)).all fun t =>
      lib.readOwner origin t = some (r.name.within origin)

/-- The lines of a record set with an absolute key are read, and are what `after` has under it. -/
def readsSet (lib : ZoneLib) (origin : Name) (after : Records) (k : RrKey) (set : List Record) :
    Bool :=
  k.isFqdn && !generated k.recordType && set.all (readsOwner lib origin) &&
    after.lookup k = some (set.filterMap (readLine lib origin))

/-- `records` are read as `after`, set by set. -/
def readsAs (lib : ZoneLib) (origin : Name) (records after : Records) : Bool :=
  lib.readOwner origin (lib.nameText origin) = some origin &&
    records.entries.all (fun e => readsSet lib origin after e.1 e.2) &&
    after.keys.all fun k => k ∈ records

theorem readsBack_knowing {files : List (Text × Records)} {origin : Name} {records after : Records}
    (hparse : (ZoneLib.knowing files).parse origin
      (zoneText (ZoneLib.knowing files) origin records) = some after)
    (h : readsAs (ZoneLib.knowing files) origin records after = true) :
    (ZoneLib.knowing files).ReadsBack origin records := by
  simp only [readsAs, Bool.and_eq_true, decide_eq_true_eq] at h
  obtain ⟨⟨hbase, hsets⟩, hkeys⟩ := h
  have hset : ∀ k set, records.lookup k = some set →
      readsSet (ZoneLib.knowing files) origin after k set = true := by
    intro k set hlookup
    exact List.all_eq_true.mp hsets ⟨k, set⟩ (AList.mem_lookup_iff.mp hlookup)
  simp only [readsSet, Bool.and_eq_true, Bool.not_eq_true', decide_eq_true_eq,
    List.all_eq_true] at hset
  have hfqdn : ∀ k ∈ records, k.isFqdn = true := by
    intro k hk
    obtain ⟨set, hlookup⟩ := exists_lookup hk
    exact (hset k set hlookup).1.1.1
  have howner : ∀ k set r, records.lookup k = some set → r ∈ set →
      readsOwner (ZoneLib.knowing files) origin r = true := by
    intro k set r hlookup hr
    exact (hset k set hlookup).1.2 r hr
  simp only [readsOwner, Bool.and_eq_true, decide_eq_true_eq] at howner
  refine ⟨rfl, hbase, fun k set r hlookup hr => (howner k set r hlookup hr).1, ?_, ?_, ?_, ?_, ?_⟩
  · intro k set r t hlookup hr htext
    have hstripped := (howner k set r hlookup hr).2
    rw [htext, stripSuffix_append] at hstripped
    simpa using hstripped
  · intro k set r soa _ _ hdata
    rw [hdata]
    rfl
  · refine iff_of_false (by rw [hparse]; exact Option.some_ne_none _) ?_
    rintro ⟨k₁, hk₁, k₂, hk₂, hne, -, hwithin⟩
    rw [RrKey.within_of_fqdn (hfqdn k₁ hk₁), RrKey.within_of_fqdn (hfqdn k₂ hk₂)] at hwithin
    exact hne hwithin
  · intro after' hafter k set hlookup _ _ _
    obtain rfl := Option.some.inj (hparse.symm.trans hafter)
    rw [RrKey.within_of_fqdn (hset k set hlookup).1.1.1]
    exact (hset k set hlookup).2
  · intro after' hafter k hk
    obtain rfl := Option.some.inj (hparse.symm.trans hafter)
    rw [AList.lookup_eq_none]
    intro hmem
    have hrecords : k ∈ records := by simpa using List.all_eq_true.mp hkeys k hmem
    obtain ⟨set, hlookup⟩ := exists_lookup hrecords
    exact hk k hrecords (hset k set hlookup).1.1.2 (RrKey.within_of_fqdn (hfqdn k hrecords))

end Knowing

end Zone

end Heimdallr
