import Heimdallr.Net.Addr
import Mathlib.Data.List.AList
import Mathlib.Data.List.Sort

/-!
# Editing the records of a primary zone (`core/zone/record.rs`, `core/zone/file.rs`)

`insert_record` and `delete_records` read the zone file, change the records in memory and write the
whole file anew. Reading patches the SOA record (`patch_soa_rname`), with the RNAME of
`Config::default()`. Writing shortens the owner names and leaves out the records that DNSSEC signing
generates.

* A zone in memory is a map from an owner and a type to a list of records (`Records`), as hickory's
  `InMemoryZoneHandler` keeps it; the owner in a key is in lower case, those in the records are not.
  RRSIGs that hickory keeps beside the records of a set are left out: nothing that is modelled adds
  them.
* `RecordType.fromU16` and `toU16` are hickory's numbers; a number with a name of its own is never
  `Unknown`. `parse_record_type` has a table of its own, in which `DNAME` is the type hickory calls
  `ANAME`, and `ANAME` is `CNAME`.
* The readers of record data follow the source field by field, with the names and texts its errors
  have (`RecordError`); of an error that wraps another one the inner text is left out.
* The file is a text. `persistZone` writes it in one go; what becomes of the write is an argument
  (`WriteOutcome`): done, no directory, refused, or cut short.
* `str` methods are those of `std` on the list of characters. `to_uppercase` changes the characters
  of which the result can be ASCII, since only then can a type be named.

The in-memory zone, the master-file parser and the text forms of record data are hickory's, and stay
parameters (`ZoneLib`). What the proofs rely on is stated in `Zone.RecordSpec`, for the zone at hand
and for the file that was written.

Out of scope: `nx_proof_kind`, which is handed to hickory and does not change the records.
-/

namespace Heimdallr

/-- The record types that have a name of their own. -/
def RecordType.named : List RecordType :=
  [.A, .AAAA, .ANAME, .ANY, .AXFR, .CAA, .CDNSKEY, .CDS, .CERT, .CNAME, .CSYNC, .DNAME, .DNSKEY, .DS,
    .HINFO, .HTTPS, .IXFR, .KEY, .MX, .NAPTR, .NS, .NSEC, .NSEC3, .NSEC3PARAM, .NULL, .OPENPGPKEY, .OPT,
    .PTR, .RRSIG, .SIG, .SMIMEA, .SOA, .SRV, .SSHFP, .SVCB, .TLSA, .TSIG, .TXT, .ZERO]

/-- `RecordType::from(u16)`. -/
def RecordType.fromU16 (code : UInt16) : RecordType :=
  (named.find? fun t => t.toU16 == code).getD (.Unknown code)

/-! ## Names and keys -/

deriving instance DecidableEq, Repr for LowerName

theorem lowerByte_lowerByte (b : UInt8) : lowerByte (lowerByte b) = lowerByte b := by
  unfold lowerByte
  grind

theorem Name.toLowercase_toLowercase (n : Name) : n.toLowercase.toLowercase = n.toLowercase := by
  simp [Name.toLowercase, lowerByte_lowerByte, Function.comp_def]

/-- `LowerName::from`. -/
def LowerName.ofName (n : Name) : LowerName := ⟨n.toLowercase, n.toLowercase_toLowercase⟩

/-- A name of a master file: a relative one is completed with the origin. -/
def Name.within (n origin : Name) : Name :=
  if n.isFqdn then n else ⟨n.labels ++ origin.labels, true⟩

/-- At or below `origin`, upper and lower case taken as one. -/
def Name.inZone (n origin : Name) : Bool :=
  n.isFqdn == origin.isFqdn &&
    origin.toLowercase.labels.isSuffixOf n.toLowercase.labels

/-- `hickory_proto::rr::RrKey`. -/
structure RrKey where
  name : LowerName
  recordType : RecordType
  deriving DecidableEq, Repr

/-- The key a record is kept under. -/
def Record.key (r : Record) : RrKey := ⟨.ofName r.name, r.recordType⟩

/-- The records of a zone: `BTreeMap<RrKey, Arc<RecordSet>>`, a `RecordSet` being its records. -/
abbrev Records := AList fun _ : RrKey => List Record

namespace Zone

open Heimdallr.Net

/-! ## What hickory does -/

/-- `hickory_proto::rr::rdata::tlsa::Matching`, as far as the source tells the values apart. -/
inductive Matching
  | Sha256
  | Sha512
  | Other
  deriving DecidableEq, Repr

/-- What the record functions call in hickory and the `hex` crate. -/
structure ZoneLib extends Hickory where
  /-- `Parser::parse`: a master file and the origin it is read under -/
  parse : Name → Text → Option Records
  /-- `InMemoryZoneHandler::new`: whether the parsed records make up a zone -/
  accepts : Name → Records → Bool
  /-- `upsert_mut` -/
  upsert : Records → Record → Records
  /-- `Ord for RrKey`, as `≤` -/
  keyLe : RrKey → RrKey → Bool
  /-- `Display for RecordType` -/
  displayType : RecordType → Text
  /-- `Display for RData` -/
  displayRData : RData → Text
  /-- the owner field of a line of a master file, under an origin -/
  readOwner : Name → Text → Option Name
  /-- what the parser makes of the text of some record data, under an origin -/
  reread : Name → RData → RData
  /-- `MX::new`, `TXT::new`, `SRV::new`, `TLSA::new`: the octets stand for the value -/
  newMx : UInt16 → Name → List UInt8
  newTxt : List Text → List UInt8
  newSrv : UInt16 → UInt16 → UInt16 → Name → List UInt8
  newTlsa : UInt8 → UInt8 → UInt8 → List UInt8 → List UInt8
  /-- `Matching::from` -/
  matching : UInt8 → Matching
  /-- `RData::try_from_str` -/
  tryFromStr : RecordType → Text → Option RData
  /-- `hex::decode` -/
  hexDecode : Text → Option (List UInt8)

/-! ## Errors -/

/-- The errors of the record functions. The text of the inner error is left out. -/
inductive RecordError
  /-- `zone {}: no file configured` -/
  | NoFile (zone : String)
  /-- `zone file not found: {}` -/
  | FileNotFound (path : Text)
  /-- `invalid zone origin` -/
  | InvalidOrigin
  /-- `failed to parse zone file {}` -/
  | ParseFailed (path : Text)
  /-- `invalid SOA RNAME '{rname_str}'` -/
  | InvalidRname (rname : Text)
  /-- `unknown record type: {other}` -/
  | UnknownType (other : Text)
  /-- `invalid zone name '{}'` -/
  | InvalidZoneName (zone : String)
  /-- `invalid record name '{}'` -/
  | InvalidRecordName (name : String)
  /-- `invalid {what} '{data}'`, as in `invalid A record data`, `invalid CNAME`, `invalid SOA
  MNAME` -/
  | InvalidData (what : String) (data : Text)
  /-- `invalid {rtype} data '{data}'` -/
  | InvalidTyped (rtype : RecordType) (data : Text)
  /-- `invalid {what}`, as in `invalid MX priority`, `invalid SOA serial`, `invalid TLSA hex data` -/
  | Invalid (what : String)
  /-- `invalid TLSA {what}: {part}` -/
  | InvalidTlsa (what : String) (part : Text)
  /-- `{rtype} data must be '{shape}', got: {data}` -/
  | WrongShape (rtype : RecordType) (shape : String) (data : Text)
  /-- `TLSA {hash} hash must be {expected} bytes, got {len}` -/
  | HashLength (hash : String) (expected len : Nat)
  /-- `expected RData::{rtype}, got {other:?}` -/
  | UnexpectedRData (rtype : RecordType)
  /-- `CAA record insertion via API not yet supported (use zone file)` -/
  | CaaUnsupported
  /-- `record type {other} insertion not yet supported via API (use zone file instead)` -/
  | Unsupported (rtype : RecordType)
  /-- `create zone dir {}` -/
  | CreateDir (path : Text)
  /-- `write zone file {}` -/
  | WriteFile (path : Text)
  deriving DecidableEq, Repr

/-- `map_err` on an `Option`-like result. -/
def orErr {α : Type} (e : RecordError) : Option α → Except RecordError α
  | some a => .ok a
  | none => .error e

/-! ## Texts -/

/-- `char::is_whitespace`. -/
def isWhitespace (c : Char) : Bool :=
  let n := c.toNat
  (9 ≤ n && n ≤ 13) || n == 0x20 || n == 0x85 || n == 0xA0 || n == 0x1680 ||
    (0x2000 ≤ n && n ≤ 0x200A) || n == 0x2028 || n == 0x2029 || n == 0x202F || n == 0x205F ||
    n == 0x3000

/-- `str::split_whitespace`. -/
def splitWhitespace (t : Text) : List Text := (t.splitOnP isWhitespace).filter (· ≠ [])

/-- `str::trim_matches`. -/
def trimMatches (p : Char → Bool) (t : Text) : Text :=
  ((t.dropWhile p).reverse.dropWhile p).reverse

/-- The character `"`. -/
def doubleQuote : Char := Char.ofNat 0x22

/-- The apostrophe. -/
def singleQuote : Char := Char.ofNat 0x27

/-- `str::strip_suffix`. -/
def stripSuffix (suffix t : Text) : Option Text :=
  if suffix.isSuffixOf t then some (t.take (t.length - suffix.length)) else none

/-- `char::to_uppercase`, as far as its result can be ASCII; the other characters are left alone. -/
def upperChar (c : Char) : Text :=
  match c.toNat with
  | 0xDF => ['S', 'S']
  | 0x131 => ['I']
  | 0x17F => ['S']
  | 0xFB00 => ['F', 'F']
  | 0xFB01 => ['F', 'I']
  | 0xFB02 => ['F', 'L']
  | 0xFB03 => ['F', 'F', 'I']
  | 0xFB04 => ['F', 'F', 'L']
  | 0xFB05 => ['S', 'T']
  | 0xFB06 => ['S', 'T']
  | _ => [c.toUpper]

/-- `str::to_uppercase`. -/
def toUppercase (t : Text) : Text := t.flatMap upperChar

/-- The value of a text of digits. -/
def parseDigits (t : Text) : Option Nat :=
  if t = [] then none else (t.mapM (toDigit 10)).map (ofDigits 10)

/-- `FromStr` of an unsigned type below `bound`. -/
def parseUnsigned (bound : Nat) (t : Text) : Option Nat :=
  let digits :=
    match t with
    | '+' :: rest => rest
    | t => t
  (parseDigits digits).filter (· < bound)

/-- `i32::from_str`. -/
def parseI32 (t : Text) : Option Int32 :=
  match t with
  | '-' :: rest => ((parseDigits rest).filter (· ≤ 2147483648)).map fun n => Int32.ofInt (-n)
  | t => (parseUnsigned 2147483648 t).map Int32.ofNat

/-- `u8::from_str`. -/
def parseU8 (t : Text) : Option UInt8 := (parseUnsigned 256 t).map UInt8.ofNat

/-- `u32::from_str`. -/
def parseU32 (t : Text) : Option UInt32 := (parseUnsigned 4294967296 t).map UInt32.ofNat

/-! ## Record types and record data -/

/-- The names `parse_record_type` knows. `DNAME` is read as hickory's `ANAME`, and `ANAME` as
`CNAME`. -/
def typeNames : List (String × RecordType) :=
  [("A", .A), ("AAAA", .AAAA), ("CNAME", .CNAME), ("MX", .MX), ("NS", .NS), ("SOA", .SOA),
    ("TXT", .TXT), ("SRV", .SRV), ("PTR", .PTR), ("TLSA", .TLSA), ("SSHFP", .SSHFP),
    ("HTTPS", .HTTPS), ("SVCB", .SVCB), ("CAA", .CAA), ("DNSKEY", .DNSKEY), ("DS", .DS),
    ("RRSIG", .RRSIG), ("NSEC", .NSEC), ("NSEC3", .NSEC3), ("NSEC3PARAM", .NSEC3PARAM),
    ("DNAME", .ANAME), ("ANAME", .CNAME), ("ANY", .ANY)]

/-- `parse_record_type`. -/
def parseRecordType (s : String) : Except RecordError RecordType :=
  let upper := toUppercase s.toList
  match typeNames.find? fun n => n.1.toList = upper with
  | some n => .ok n.2
  | none =>
    match parseU16 upper with
    | some code => .ok (.fromU16 code)
    | none => .error (.UnknownType upper)

section ParseRdata

variable (lib : ZoneLib)

/-- `Name::from_ascii`. -/
def ZoneLib.nameOf (t : Text) : Option Name := lib.fromAscii (String.ofList t)

/-- `parse_tlsa_data`. -/
def parseTlsaData (data : Text) : Except RecordError (List UInt8) := do
  match splitWhitespace data with
  | [usage, selector, matchingType, hex] =>
    let usage ← orErr (.InvalidTlsa "cert_usage" usage) (parseU8 usage)
    let selector ← orErr (.InvalidTlsa "selector" selector) (parseU8 selector)
    let matchingType ← orErr (.InvalidTlsa "matching type" matchingType) (parseU8 matchingType)
    let certData ← orErr (.Invalid "TLSA hex data") (lib.hexDecode (trimMatches isWhitespace hex))
    match lib.matching matchingType with
    | .Sha256 => if certData.length ≠ 32 then throw (.HashLength "SHA-256" 32 certData.length)
    | .Sha512 => if certData.length ≠ 64 then throw (.HashLength "SHA-512" 64 certData.length)
    | .Other => pure ()
    return lib.newTlsa usage selector matchingType certData
  | _ => throw (.WrongShape .TLSA "<usage> <selector> <matching> <hex_data>" data)

/-- `parse_svcb_data`, `parse_https_data`, `parse_sshfp_data`: hickory's reader, and the check that
the data is of the type asked for. -/
def parseSvcbRdata (rtype : RecordType) (data : Text) : Except RecordError RData := do
  let rdata ← orErr (.InvalidTyped rtype data) (lib.tryFromStr rtype data)
  if Record.recordType ⟨.root, 0, rdata⟩ = rtype then return rdata
  else throw (.UnexpectedRData rtype)

/-- The data of an SOA record. -/
def parseSoaData (data : Text) : Except RecordError SOA := do
  match splitWhitespace data with
  | [mname, rname, serial, refresh, retry, expire, minimum] =>
    let mname ← orErr (.InvalidData "SOA MNAME" mname) (lib.nameOf mname)
    let rname ← orErr (.InvalidData "SOA RNAME" rname) (lib.nameOf rname)
    let serial ← orErr (.Invalid "SOA serial") (parseU32 serial)
    let refresh ← orErr (.Invalid "SOA refresh") (parseI32 refresh)
    let retry ← orErr (.Invalid "SOA retry") (parseI32 retry)
    let expire ← orErr (.Invalid "SOA expire") (parseI32 expire)
    let minimum ← orErr (.Invalid "SOA minimum") (parseU32 minimum)
    return ⟨mname, rname, serial, refresh, retry, expire, minimum⟩
  | _ =>
    throw (.WrongShape .SOA
      "<mname> <rname> <serial> <refresh> <retry> <expire> <minimum>" data)

/-- `parse_rdata`. -/
def parseRdata (rtype : RecordType) (data : Text) : Except RecordError RData :=
  match rtype with
  | .A => do
    let ip ← orErr (.InvalidData "A record data" data) (parseIpv4 data)
    return .A ip
  | .AAAA => do
    let ip ← orErr (.InvalidData "AAAA record data" data) (parseIpv6 data)
    return .AAAA ip
  | .CNAME => do
    let name ← orErr (.InvalidData "CNAME" data) (lib.nameOf data)
    return .CNAME name
  | .NS => do
    let name ← orErr (.InvalidData "NS" data) (lib.nameOf data)
    return .NS name
  | .MX =>
    match splitWhitespace data with
    | [preference, exchange] => do
      let preference ← orErr (.Invalid "MX priority") (parseU16 preference)
      let exchange ← orErr (.InvalidData "MX exchange" exchange) (lib.nameOf exchange)
      return .other .MX (lib.newMx preference exchange)
    | _ => .error (.WrongShape .MX "<priority> <exchange>" data)
  | .TXT =>
    let txt := trimMatches (· == singleQuote) (trimMatches (· == doubleQuote) data)
    .ok (.other .TXT (lib.newTxt [txt]))
  | .SRV =>
    match splitWhitespace data with
    | [priority, weight, port, target] => do
      let priority ← orErr (.Invalid "SRV priority") (parseU16 priority)
      let weight ← orErr (.Invalid "SRV weight") (parseU16 weight)
      let port ← orErr (.Invalid "SRV port") (parseU16 port)
      let target ← orErr (.InvalidData "SRV target" target) (lib.nameOf target)
      return .other .SRV (lib.newSrv priority weight port target)
    | _ => .error (.WrongShape .SRV "<priority> <weight> <port> <target>" data)
  | .PTR => do
    let name ← orErr (.InvalidData "PTR" data) (lib.nameOf data)
    return .PTR name
  | .TLSA => do
    let tlsa ← parseTlsaData lib data
    return .other .TLSA tlsa
  | .SSHFP => parseSvcbRdata lib .SSHFP data
  | .SVCB => parseSvcbRdata lib .SVCB data
  | .HTTPS => parseSvcbRdata lib .HTTPS data
  | .ANAME => do
    let name ← orErr (.InvalidData "DNAME" data) (lib.nameOf data)
    return .ANAME name
  | .CAA => .error .CaaUnsupported
  | .SOA => do
    let soa ← parseSoaData lib data
    return .SOA soa
  | other => .error (.Unsupported other)

end ParseRdata

/-! ## Reading the zone file -/

/-- `ZoneConfig`: what the record functions read of it. -/
structure ZoneConfig where
  name : String
  file : Option String
  deriving DecidableEq, Repr

/-- `Config::soa_rname`: the address of `hostadmin`, its `@` replaced, or its name at `host`. -/
def soaRname (host : Text) (hostadmin : Option Text) : Text :=
  let email := hostadmin.getD "hostadmin".toList
  if email.contains '@' then email.map fun c => if c = '@' then '.' else c
  else email ++ '.' :: (host.reverse.dropWhile (· = '.')).reverse

/-- `Config::default().soa_rname()`. -/
def defaultSoaRname : Text := soaRname "localhost".toList none

/-- The files by path. A file whose content is not text the parser can be given has none. -/
abbrev Disk := Text → Option (Option Text)

/-- `resolve_zone_path`. -/
def resolveZonePath (filePath zonesDir : Text) : Text :=
  if filePath.head? = some '/' then filePath
  else if zonesDir = [] ∨ zonesDir.getLast? = some '/' then zonesDir ++ filePath
  else zonesDir ++ '/' :: filePath

section Load

variable (lib : ZoneLib)

/-- The key of the SOA record at the apex. -/
def soaKey (origin : Name) : RrKey := ⟨.ofName origin, .SOA⟩

/-- The data of the first record of the SOA record set. -/
def oldSoa (records : Records) (origin : Name) : Option SOA :=
  match records.lookup (soaKey origin) with
  | some (⟨_, _, .SOA soa⟩ :: _) => some soa
  | _ => none

/-- The SOA record `patch_soa_rname` puts in: another RNAME, and a TTL of one day. -/
def patchedSoa (origin rname : Name) (soa : SOA) : Record :=
  ⟨origin, 86400, .SOA { soa with rname }⟩

/-- `patch_soa_rname`. -/
def patchSoaRname (records : Records) (origin : Name) (rname : Text) :
    Except RecordError Records := do
  let newRname ← orErr (.InvalidRname rname) (lib.nameOf rname)
  match oldSoa records origin with
  | some soa =>
    return lib.upsert (records.erase (soaKey origin)) (patchedSoa origin newRname soa)
  | none => return records

/-- `FileZoneHandler::try_from_config`: the text is parsed, and has to make up a zone. -/
def tryFromConfig (origin : Name) (text : Option Text) : Option Records := do
  let text ← text
  let records ← lib.parse origin text
  if lib.accepts origin records then some records else none

/-- `load_zone_file_with_proof`. -/
def loadZoneFile (disk : Disk) (filePath : Text) (zoneName : String) (zonesDir : Text)
    (soaRnameOverride : Option Text) : Except RecordError Records := do
  let path := resolveZonePath filePath zonesDir
  let text ← orErr (.FileNotFound path) (disk path)
  let origin ← orErr .InvalidOrigin (lib.fromAscii zoneName)
  let records ← orErr (.ParseFailed path) (tryFromConfig lib origin text)
  match soaRnameOverride with
  | some rname => patchSoaRname lib records origin rname
  | none => return records

/-- `load_handler`: the RNAME is the one of a default configuration. -/
def loadHandler (disk : Disk) (zoneCfg : ZoneConfig) (zonesDir : Text) :
    Except RecordError Records := do
  let filePath ← orErr (.NoFile zoneCfg.name) zoneCfg.file
  loadZoneFile lib disk filePath.toList zoneCfg.name zonesDir (some defaultSoaRname)

end Load

/-! ## Writing the zone file -/

/-- The types `persist_zone` leaves out. -/
def generated : RecordType → Bool
  | .RRSIG | .NSEC | .NSEC3 | .NSEC3PARAM | .DNSKEY => true
  | _ => false

/-- What becomes of the two system calls of `persist_zone`. -/
inductive WriteOutcome
  | ok
  /-- `create_dir_all` fails -/
  | noDir
  /-- the file is not opened -/
  | refused
  /-- the file was truncated, and the writing stopped after `len` characters -/
  | cut (len : Nat)
  deriving DecidableEq, Repr

section Persist

variable (lib : ZoneLib)

/-- The text of a name. -/
def ZoneLib.nameText (n : Name) : Text := (lib.toUtf8 n).toList

/-- The owner field of a line: `@` for the origin, a name below it without the origin. -/
def shortName (origin name : Name) : Text :=
  let base := lib.nameText origin
  let text := lib.nameText name
  if text = base then ['@']
  else
    match stripSuffix ('.' :: base) text with
    | some stripped => stripped
    | none => text

/-- `{short_name} {ttl} IN {rtype} {rdata}`. -/
def recordLine (origin : Name) (r : Record) : Text :=
  shortName lib origin r.name ++ ' ' :: Nat.toDigits 10 r.ttl.toNat ++ " IN ".toList ++
    lib.displayType r.recordType ++ ' ' :: lib.displayRData r.data

/-- The record sets in the order of their keys. -/
def recordSets (records : Records) : List (List Record) :=
  (records.entries.insertionSort fun a b => lib.keyLe a.1 b.1).map (·.2)

/-- The records that are written. -/
def writtenRecords (records : Records) : List Record :=
  (recordSets lib records).flatten.filter fun r => !generated r.recordType

/-- The content of the zone file. -/
def zoneText (origin : Name) (records : Records) : Text :=
  let lines :=
    ["$ORIGIN ".toList ++ lib.nameText origin, "$TTL 3600".toList, []] ++
      (writtenRecords lib records).map (recordLine lib origin) ++ [[]]
  List.intercalate ['\n'] lines

/-- `create_dir_all` and `fs::write`. -/
def writeFile (disk : Disk) (path content : Text) : WriteOutcome → Except RecordError Unit × Disk
  | .ok => (.ok (), Function.update disk path (some (some content)))
  | .noDir => (.error (.CreateDir path), disk)
  | .refused => (.error (.WriteFile path), disk)
  | .cut len =>
    (.error (.WriteFile path), Function.update disk path (some (some (content.take len))))

/-- `persist_zone`. -/
def persistZone (disk : Disk) (path : Text) (origin : Name) (records : Records)
    (w : WriteOutcome) : Except RecordError Unit × Disk :=
  writeFile disk path (zoneText lib origin records) w

end Persist

/-! ## The two edits -/

/-- `RecordCreate`: the body of an insertion. -/
structure RecordCreate where
  name : String
  recordType : String
  ttl : Option UInt32
  data : String
  deriving DecidableEq, Repr

/-- `RecordDelete`: the parameters of a deletion. -/
structure RecordDelete where
  name : String
  recordType : String
  deriving DecidableEq, Repr

section Edits

variable (lib : ZoneLib) (zoneCfg : ZoneConfig) (zonesDir : Text)

/-- The path of the zone file. -/
def zonePath : Text := resolveZonePath (zoneCfg.file.getD "").toList zonesDir

/-- The owner a request names: the origin for one of its own spellings, else the name as it is
written. -/
def ownerOf (origin : Name) (isOrigin : Bool) (name : String) : Except RecordError Name :=
  if isOrigin then .ok origin else orErr (.InvalidRecordName name) (lib.fromAscii name)

/-- The spellings of the origin in `insert_record`. -/
def RecordCreate.namesOrigin (create : RecordCreate) : Bool :=
  create.name == "@" || create.name == zoneCfg.name || create.name == ""

/-- The spellings of the origin in `delete_records`. -/
def RecordDelete.namesOrigin (delete : RecordDelete) : Bool :=
  delete.name == "@" || delete.name == zoneCfg.name

/-- `insert_record` before the file is written: the origin and the records to write. What
`upsert_mut` says is not looked at. -/
def insertEdit (disk : Disk) (create : RecordCreate) : Except RecordError (Name × Records) := do
  let handler ← loadHandler lib disk zoneCfg zonesDir
  let rtype ← parseRecordType create.recordType
  let origin ← orErr (.InvalidZoneName zoneCfg.name) (lib.fromAscii zoneCfg.name)
  let name ← ownerOf lib origin (create.namesOrigin zoneCfg) create.name
  let ttl := create.ttl.getD 3600
  let rdata ← parseRdata lib rtype create.data.toList
  return (origin, lib.upsert handler ⟨name, ttl, rdata⟩)

/-- `insert_record`. -/
def insertRecord (disk : Disk) (create : RecordCreate) (w : WriteOutcome) :
    Except RecordError Unit × Disk :=
  match insertEdit lib zoneCfg zonesDir disk create with
  | .error e => (.error e, disk)
  | .ok (origin, records) =>
    persistZone lib disk (zonePath zoneCfg zonesDir) origin records w

/-- `delete_records` before the file is written: the origin, the records that are left and how many
were removed. -/
def deleteEdit (disk : Disk) (delete : RecordDelete) :
    Except RecordError (Name × Records × Nat) := do
  let handler ← loadHandler lib disk zoneCfg zonesDir
  let rtype ← parseRecordType delete.recordType
  let origin ← orErr (.InvalidZoneName zoneCfg.name) (lib.fromAscii zoneCfg.name)
  let name ← ownerOf lib origin (delete.namesOrigin zoneCfg) delete.name
  let key : RrKey := ⟨.ofName name, rtype⟩
  return (origin, handler.erase key, ((handler.lookup key).map List.length).getD 0)

/-- `delete_records`: the file is written only when something was removed. -/
def deleteRecords (disk : Disk) (delete : RecordDelete) (w : WriteOutcome) :
    Except RecordError Nat × Disk :=
  match deleteEdit lib zoneCfg zonesDir disk delete with
  | .error e => (.error e, disk)
  | .ok (origin, records, removed) =>
    if 0 < removed then
      match persistZone lib disk (zonePath zoneCfg zonesDir) origin records w with
      | (.ok (), disk) => (.ok removed, disk)
      | (.error e, disk) => (.error e, disk)
    else (.ok removed, disk)

end Edits

end Zone

end Heimdallr
