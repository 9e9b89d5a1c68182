import Heimdallr.Lib.Words
import Heimdallr.Net.AddrText
import Heimdallr.Zone.Findable

/-!
# Posting back what a listing shows (`core/zone/record.rs`)

`list_records` shows a record as four strings, and `insert_record` takes four strings. Whoever
copies a row of the listing into a request finds the record again in most cases: the numbers, the
addresses and the names of its data are read as they were printed. `listed_posted_iff` says when.

* `DataValue` is the data of a record by type, with what hickory prints of it: fields with blanks
  between them, names by `to_utf8`, TLSA digests in hexadecimal. `Prints` is that it does, `Reads`
  that `parse_rdata` takes it.
* Names are printed by `to_utf8` and read by `from_ascii`. An internationalized name is printed with
  its letters and refused, so `NamePrints` is asked of the owner and of the names in the data.
* The data of TXT records is printed without quotes and read with those at its ends trimmed off.

Out of scope: what `upsert_mut` then makes of a record that the zone has already.
-/

namespace Heimdallr.Zone

open Heimdallr.Net Lib

/-! ## Words and numbers -/

/-- Without white space. -/
def Unbroken (t : Text) : Prop := ∀ c ∈ t, isWhitespace c = false

instance : DecidablePred Unbroken := fun t => List.decidableBAll _ t

theorem unbroken_of_graphic {t : Text} (h : Graphic t) : Unbroken t := by
  intro c hc
  obtain ⟨hlow, hhigh⟩ := h c hc
  simp [isWhitespace]
  omega

theorem unbroken_toDigits (n : Nat) : Unbroken (Nat.toDigits 10 n) :=
  unbroken_of_graphic (graphic_toDigits (by decide) (by decide) n)

theorem Unbroken.trim {t : Text} (h : Unbroken t) : trimMatches isWhitespace t = t := by
  have hdrop : ∀ s : Text, Unbroken s → s.dropWhile isWhitespace = s := by
    intro s hs
    cases s with
    | nil => rfl
    | cons c s => simp [hs c List.mem_cons_self]
  have hreverse : Unbroken t.reverse := fun c hc => h c (List.mem_reverse.mp hc)
  rw [trimMatches, hdrop t h, hdrop t.reverse hreverse, List.reverse_reverse]

/-- Fields with single blanks between them are the words of the text, but for the empty ones. -/
theorem splitWhitespace_intercalate {ws : List Text} (h : ∀ w ∈ ws, Unbroken w) :
    splitWhitespace ([' '].intercalate ws) = ws.filter (· ≠ []) := by
  have hword : ∀ w, Unbroken w → words isWhitespace w = [w].filter (· ≠ []) := by
    intro w hw
    unfold words
    rw [List.splitOnP_eq_singleton hw]
  show words isWhitespace _ = _
  induction ws with
  | nil => simp [words]
  | cons w ws ih =>
    obtain ⟨hw, hws⟩ := List.forall_mem_cons.mp h
    cases ws with
    | nil => simpa using hword w hw
    | cons w' ws =>
      rw [List.intercalate_cons_cons, List.append_assoc, List.singleton_append,
        words_append_sep (by decide), hword w hw, ih hws, ← List.filter_append,
        List.singleton_append]

theorem parseDigits_toDigits (n : Nat) : parseDigits (Nat.toDigits 10 n) = some n := by
  obtain ⟨ds, hds, hvalue⟩ := @digits_toDigits 10 (by decide) (by decide) n
  rw [parseDigits, if_neg Nat.toDigits_ne_nil, mapM_of_map hds, Option.map_some, hvalue]

theorem parseUnsigned_toDigits {bound n : Nat} (h : n < bound) :
    parseUnsigned bound (Nat.toDigits 10 n) = some n := by
  unfold parseUnsigned
  dsimp only
  split
  · rename_i heq
    exact absurd (by rw [heq, List.head?_cons]) (toDigits_no_sign (c := '+') (by decide) n)
  · rw [parseDigits_toDigits, Option.filter_some, if_pos (by simpa using h)]

theorem parseU8_toDigits (n : UInt8) : parseU8 (Nat.toDigits 10 n.toNat) = some n := by
  rw [parseU8, parseUnsigned_toDigits n.toNat_lt, Option.map_some, UInt8.ofNat_toNat]

theorem parseU32_toDigits (n : UInt32) : parseU32 (Nat.toDigits 10 n.toNat) = some n := by
  rw [parseU32, parseUnsigned_toDigits n.toNat_lt, Option.map_some, UInt32.ofNat_toNat]

/-- `Display` of an `i32`. -/
def displayI32 (n : Int32) : Text :=
  if n.toInt < 0 then '-' :: Nat.toDigits 10 n.toInt.natAbs else Nat.toDigits 10 n.toInt.natAbs

theorem parseI32_displayI32 (n : Int32) : parseI32 (displayI32 n) = some n := by
  have hlow : -2147483648 ≤ n.toInt := n.le_toInt
  have hhigh : n.toInt < 2147483648 := n.toInt_lt
  unfold displayI32 parseI32
  by_cases hneg : n.toInt < 0
  · have hvalue : -(n.toInt.natAbs : Int) = n.toInt := by omega
    rw [if_pos hneg]
    split
    · rename_i heq
      obtain ⟨-, rfl⟩ := List.cons.inj heq
      rw [parseDigits_toDigits, Option.filter_some, if_pos (by simp; omega)]
      show some (Int32.ofInt (-(n.toInt.natAbs : Int))) = some n
      rw [hvalue, Int32.ofInt_toInt]
    · rename_i hother
      exact absurd rfl (hother _)
  · have hvalue : (n.toInt.natAbs : Int) = n.toInt := by omega
    rw [if_neg hneg]
    split
    · rename_i heq
      exact absurd (by rw [heq, List.head?_cons])
        (toDigits_no_sign (c := '-') (by decide) n.toInt.natAbs)
    · rw [parseUnsigned_toDigits (by omega), Option.map_some, ← Int32.ofInt_eq_ofNat, hvalue,
        Int32.ofInt_toInt]

/-! ## Record data -/

/-- The types whose data is read by hickory. -/
inductive TypedText
  | SSHFP
  | SVCB
  | HTTPS
  deriving DecidableEq, Repr

/-- The record type it stands for. -/
def TypedText.rtype : TypedText → RecordType
  | .SSHFP => .SSHFP
  | .SVCB => .SVCB
  | .HTTPS => .HTTPS

/-- The types that `parse_rdata` has a branch for which gives data. -/
def insertTypes : List RecordType :=
  [.A, .AAAA, .CNAME, .NS, .MX, .TXT, .SRV, .PTR, .TLSA, .SSHFP, .SVCB, .HTTPS, .ANAME, .SOA]

/-- The data of a record, taken apart. -/
inductive DataValue
  | A (addr : Ipv4Addr)
  | AAAA (addr : Ipv6Addr)
  | CNAME (name : Name)
  | NS (name : Name)
  | PTR (name : Name)
  | ANAME (name : Name)
  | MX (preference : UInt16) (exchange : Name)
  | SRV (priority weight port : UInt16) (target : Name)
  | SOA (soa : SOA)
  | TLSA (usage selector matchingType : UInt8) (certData : List UInt8)
  | TXT (octets : List UInt8)
  | typed (t : TypedText) (octets : List UInt8)
  | unread (rtype : RecordType) (octets : List UInt8) (h : rtype ∉ insertTypes)

/-- Two hexadecimal digits for each octet. -/
def hexText (bytes : List UInt8) : Text :=
  bytes.flatMap fun b => [(b.toNat / 16).digitChar, (b.toNat % 16).digitChar]

/-- `trim_matches` with both quotes, as `parse_rdata` does with TXT data. -/
def unquoted (t : Text) : Text := trimMatches (· == singleQuote) (trimMatches (· == doubleQuote) t)

namespace DataValue

variable (lib : ZoneLib)

/-- The record data, as hickory keeps it. -/
def rdata : DataValue → RData
  | .A addr => .A addr
  | .AAAA addr => .AAAA addr
  | .CNAME name => .CNAME name
  | .NS name => .NS name
  | .PTR name => .PTR name
  | .ANAME name => .ANAME name
  | .MX preference exchange => .other .MX (lib.newMx preference exchange)
  | .SRV priority weight port target => .other .SRV (lib.newSrv priority weight port target)
  | .SOA soa => .SOA soa
  | .TLSA usage selector matchingType certData =>
    .other .TLSA (lib.newTlsa usage selector matchingType certData)
  | .TXT octets => .other .TXT octets
  | .typed t octets => .other t.rtype octets
  | .unread rtype octets _ => .other rtype octets

/-- The type of a record with the data. -/
def rtype (v : DataValue) : RecordType := Record.recordType ⟨.root, 0, v.rdata lib⟩

/-- The names in the data. -/
def names : DataValue → List Name
  | .CNAME name => [name]
  | .NS name => [name]
  | .PTR name => [name]
  | .ANAME name => [name]
  | .MX _ exchange => [exchange]
  | .SRV _ _ _ target => [target]
  | .SOA soa => [soa.mname, soa.rname]
  | _ => []

/-- The fields of the presentation format, for the types `parse_rdata` reads itself. -/
def fields : DataValue → Option (List Text)
  | .A addr => some [displayIpv4 addr]
  | .AAAA addr => some [displayIpv6 addr]
  | .CNAME name => some [lib.nameText name]
  | .NS name => some [lib.nameText name]
  | .PTR name => some [lib.nameText name]
  | .ANAME name => some [lib.nameText name]
  | .MX preference exchange => some [Nat.toDigits 10 preference.toNat, lib.nameText exchange]
  | .SRV priority weight port target =>
    some [Nat.toDigits 10 priority.toNat, Nat.toDigits 10 weight.toNat, Nat.toDigits 10 port.toNat,
      lib.nameText target]
  | .SOA soa =>
    some [lib.nameText soa.mname, lib.nameText soa.rname, Nat.toDigits 10 soa.serial.toNat,
      displayI32 soa.refresh, displayI32 soa.retry, displayI32 soa.expire,
      Nat.toDigits 10 soa.minimum.toNat]
  | .TLSA usage selector matchingType certData =>
    some [Nat.toDigits 10 usage.toNat, Nat.toDigits 10 selector.toNat,
      Nat.toDigits 10 matchingType.toNat, hexText certData]
  | _ => none

/-- A name that is one word, and read as it is printed. -/
structure PrintsWord (n : Name) : Prop where
  reread : lib.nameOf (lib.nameText n) = some n
  ne_nil : lib.nameText n ≠ []
  unbroken : Unbroken (lib.nameText n)

/-- The data prints in its presentation format, with names and octets that are read as they are
printed. -/
structure Prints (v : DataValue) : Prop where
  text : ∀ fs, v.fields lib = some fs → lib.displayRData (v.rdata lib) = [' '].intercalate fs
  names : ∀ n ∈ v.names, PrintsWord lib n
  hex : ∀ usage selector matchingType certData, v = .TLSA usage selector matchingType certData →
    lib.hexDecode (hexText certData) = some certData

/-- The length of a certificate association fits its matching type, and there is one. -/
def HashFits (matchingType : UInt8) (certData : List UInt8) : Prop :=
  certData ≠ [] ∧ (lib.matching matchingType = .Sha256 → certData.length = 32) ∧
    (lib.matching matchingType = .Sha512 → certData.length = 64)

/-- What it takes for the printed data to be read as the data. -/
def Reads : DataValue → Prop
  | .TLSA _ _ matchingType certData => HashFits lib matchingType certData
  | .TXT octets => lib.newTxt [unquoted (lib.displayRData (.other .TXT octets))] = octets
  | .typed t octets =>
    lib.tryFromStr t.rtype (lib.displayRData (.other t.rtype octets)) = some (.other t.rtype octets)
  | .unread _ _ _ => False
  | _ => True

end DataValue

/-! ## The data is read -/

section Read

variable {lib : ZoneLib}

open DataValue

theorem unbroken_hexText (bytes : List UInt8) : Unbroken (hexText bytes) := by
  intro c hc
  obtain ⟨b, -, hb⟩ := List.mem_flatMap.mp hc
  have hb' : b.toNat < 256 := b.toNat_lt
  have hdigit : ∀ d < 16, isWhitespace (Nat.digitChar d) = false := by decide
  rcases List.mem_pair.mp hb with rfl | rfl
  · exact hdigit _ (by omega)
  · exact hdigit _ (by omega)

theorem unbroken_displayI32 (n : Int32) : Unbroken (displayI32 n) := by
  unfold displayI32
  split
  · exact List.forall_mem_cons.mpr ⟨by decide, unbroken_toDigits _⟩
  · exact unbroken_toDigits _

theorem displayI32_ne_nil (n : Int32) : displayI32 n ≠ [] := by
  unfold displayI32
  split
  · exact List.cons_ne_nil _ _
  · exact Nat.toDigits_ne_nil

theorem parseRdata_mx {preference : UInt16} {exchange : Name} (hname : PrintsWord lib exchange) :
    parseRdata lib .MX ([' '].intercalate [Nat.toDigits 10 preference.toNat, lib.nameText exchange]) =
      .ok (.other .MX (lib.newMx preference exchange)) := by
  unfold parseRdata
  dsimp only
  rw [splitWhitespace_intercalate (by simp [unbroken_toDigits, hname.unbroken])]
  simp [hname.ne_nil, parseU16_toDigits, hname.reread, orErr, bind, Except.bind, pure, Except.pure]

theorem parseRdata_srv {priority weight port : UInt16} {target : Name}
    (hname : PrintsWord lib target) :
    parseRdata lib .SRV ([' '].intercalate [Nat.toDigits 10 priority.toNat,
        Nat.toDigits 10 weight.toNat, Nat.toDigits 10 port.toNat, lib.nameText target]) =
      .ok (.other .SRV (lib.newSrv priority weight port target)) := by
  unfold parseRdata
  dsimp only
  rw [splitWhitespace_intercalate (by simp [unbroken_toDigits, hname.unbroken])]
  simp [hname.ne_nil, parseU16_toDigits, hname.reread, orErr, bind, Except.bind, pure, Except.pure]

theorem parseSoaData_fields {soa : SOA} (hmname : PrintsWord lib soa.mname)
    (hrname : PrintsWord lib soa.rname) {fs : List Text}
    (hfs : (DataValue.SOA soa).fields lib = some fs) :
    parseSoaData lib ([' '].intercalate fs) = .ok soa := by
  obtain rfl := Option.some.inj hfs
  unfold parseSoaData
  rw [splitWhitespace_intercalate (by
    simp [unbroken_toDigits, unbroken_displayI32, hmname.unbroken, hrname.unbroken])]
  simp [hmname.ne_nil, hrname.ne_nil, displayI32_ne_nil, parseU32_toDigits, parseI32_displayI32,
    hmname.reread, hrname.reread, orErr, bind, Except.bind, pure, Except.pure]

/-- The hash of a certificate association is checked when it is read. -/
theorem parseTlsaData_fields (usage selector : UInt8) {matchingType : UInt8} {certData : List UInt8}
    (hhex : lib.hexDecode (hexText certData) = some certData) {fs : List Text}
    (hfs : (DataValue.TLSA usage selector matchingType certData).fields lib = some fs) :
    parseTlsaData lib ([' '].intercalate fs) =
        .ok (lib.newTlsa usage selector matchingType certData) ↔
      HashFits lib matchingType certData := by
  obtain rfl := Option.some.inj hfs
  unfold parseTlsaData HashFits
  rw [splitWhitespace_intercalate (by simp [unbroken_toDigits, unbroken_hexText])]
  by_cases hcert : certData = []
  · simp [hcert, hexText]
  · have hne : hexText certData ≠ [] := by
      obtain ⟨b, bs, rfl⟩ := List.exists_cons_of_ne_nil hcert
      simp [hexText]
    simp only [hne, hhex, parseU8_toDigits, (unbroken_hexText certData).trim,
      Nat.toDigits_ne_nil, orErr, bind, Except.bind, pure, Except.pure, List.filter_cons,
      List.filter_nil, ne_eq, not_false_eq_true, decide_true, if_true]
    cases lib.matching matchingType with
    | Sha256 =>
      by_cases hlen : certData.length = 32
      · simp [hcert, hlen]
      · simp [hcert, hlen, throw, throwThe, MonadExceptOf.throw]
    | Sha512 =>
      by_cases hlen : certData.length = 64
      · simp [hcert, hlen]
      · simp [hcert, hlen, throw, throwThe, MonadExceptOf.throw]
    | Other => simp [hcert]

theorem parseSvcbRdata_iff {rtype : RecordType} {data : Text} {octets : List UInt8} :
    parseSvcbRdata lib rtype data = .ok (.other rtype octets) ↔
      lib.tryFromStr rtype data = some (.other rtype octets) := by
  constructor
  · intro h
    obtain ⟨rdata, hrdata, h⟩ := bind_eq_ok h
    split at h
    · obtain rfl := Except.ok.inj h
      exact orErr_eq_ok hrdata
    · cases h
  · intro h
    unfold parseSvcbRdata
    rw [h]
    exact if_pos rfl

theorem parseRdata_unread {rtype : RecordType} (h : rtype ∉ insertTypes) (data : Text)
    (rdata : RData) : parseRdata lib rtype data ≠ .ok rdata := by
  intro hread
  unfold parseRdata at hread
  cases rtype with
  | A | AAAA | CNAME | NS | MX | TXT | SRV | PTR | TLSA | SSHFP | SVCB | HTTPS | ANAME | SOA =>
    exact absurd (by decide) h
  | _ => cases hread

/-- **When printed data is read as the data it was.** -/
theorem parseRdata_iff {v : DataValue} (hv : v.Prints lib) :
    parseRdata lib (v.rtype lib) (lib.displayRData (v.rdata lib)) = .ok (v.rdata lib) ↔
      v.Reads lib := by
  have hone : ∀ t : Text, v.fields lib = some [t] → lib.displayRData (v.rdata lib) = t := by
    intro t ht
    rw [hv.text _ ht, List.intercalate_singleton]
  cases v with
  | A addr =>
    refine iff_of_true ?_ trivial
    rw [hone _ rfl]
    show (orErr _ (parseIpv4 (displayIpv4 addr)) >>= fun ip => _) = _
    rw [parseIpv4_displayIpv4]
    rfl
  | AAAA addr =>
    refine iff_of_true ?_ trivial
    rw [hone _ rfl]
    show (orErr _ (parseIpv6 (displayIpv6 addr)) >>= fun ip => _) = _
    rw [parseIpv6_displayIpv6]
    rfl
  | CNAME name | NS name | PTR name | ANAME name =>
    refine iff_of_true ?_ trivial
    have hname := hv.names name List.mem_cons_self
    rw [hone _ rfl]
    show (orErr _ (lib.nameOf (lib.nameText name)) >>= fun n => _) = _
    rw [hname.reread]
    rfl
  | MX preference exchange =>
    refine iff_of_true ?_ trivial
    rw [hv.text _ rfl]
    exact parseRdata_mx (hv.names exchange List.mem_cons_self)
  | SRV priority weight port target =>
    refine iff_of_true ?_ trivial
    rw [hv.text _ rfl]
    exact parseRdata_srv (hv.names target List.mem_cons_self)
  | SOA soa =>
    refine iff_of_true ?_ trivial
    have hnames := List.forall_mem_cons.mp hv.names
    have hsoa := parseSoaData_fields hnames.1 (hnames.2 _ List.mem_cons_self) rfl
    rw [hv.text _ rfl]
    show (parseSoaData lib _ >>= fun soa => _) = _
    rw [hsoa]
    rfl
  | TLSA usage selector matchingType certData =>
    have hhex := hv.hex usage selector matchingType certData rfl
    rw [hv.text _ rfl]
    refine Iff.trans ?_ (parseTlsaData_fields usage selector hhex rfl)
    constructor
    · intro h
      obtain ⟨tlsa, htlsa, h⟩ := bind_eq_ok h
      have hoctets := (RData.other.inj (Except.ok.inj h)).2
      rwa [← hoctets]
    · intro h
      show (parseTlsaData lib _ >>= fun tlsa => _) = _
      rw [h]
      rfl
  | TXT octets =>
    show Except.ok _ = Except.ok _ ↔ _
    simp [Reads, DataValue.rdata, unquoted]
  | typed t octets => cases t <;> exact parseSvcbRdata_iff
  | unread rtype octets h => exact iff_of_false (parseRdata_unread h _ _) id

end Read

/-! ## The row is posted -/

/-- The insertion with the strings of a summary. -/
def RecordSummary.create (s : RecordSummary) : RecordCreate :=
  ⟨s.name, s.recordType, some s.ttl, s.data⟩

section Posted

variable {lib : ZoneLib} {zoneCfg : ZoneConfig} {zonesDir : Text} {disk : Disk}
  {origin : Name} {handler : Records}

/-- The owner of a posted row is the owner of the record. -/
theorem ownerOf_posted {r : Record} (hprints : lib.NamePrints r.name)
    (habsolute : r.name.isFqdn = true)
    (horigin : lib.fromAscii zoneCfg.name = some origin) :
    ownerOf lib origin ((RecordSummary.ofRecord lib r).create.namesOrigin zoneCfg)
      (RecordSummary.ofRecord lib r).create.name = .ok r.name := by
  have hfull : (RecordSummary.ofRecord lib r).create.name.toList.getLast? = some '.' :=
    hprints.dot habsolute
  rw [namesOrigin_of_full hfull]
  show ownerOf lib origin (lib.toUtf8 r.name == zoneCfg.name) (lib.toUtf8 r.name) = .ok r.name
  by_cases hzone : lib.toUtf8 r.name = zoneCfg.name
  · rw [← hzone, hprints.reread] at horigin
    rw [beq_iff_eq.mpr hzone, Option.some.inj horigin]
    rfl
  · rw [beq_eq_false_iff_ne.mpr hzone, ownerOf, if_neg (by simp), hprints.reread]
    rfl

/-- What the posted row comes to, once its type and its data are read. -/
theorem insertEdit_posted {r : Record} (hload : loadHandler lib disk zoneCfg zonesDir = .ok handler)
    (horigin : lib.fromAscii zoneCfg.name = some origin) (hprints : lib.NamePrints r.name)
    (habsolute : r.name.isFqdn = true) :
    insertEdit lib zoneCfg zonesDir disk (RecordSummary.ofRecord lib r).create = do
      let rtype ← parseRecordType (String.ofList (lib.displayType r.recordType))
      let rdata ← parseRdata lib rtype (lib.displayRData r.data)
      return (origin, lib.upsert handler ⟨r.name, r.ttl, rdata⟩) := by
  have howner := ownerOf_posted hprints habsolute horigin
  unfold insertEdit
  rw [hload, horigin]
  show (parseRecordType _ >>= fun rtype => ownerOf lib origin _ _ >>= fun name =>
    parseRdata lib rtype _ >>= fun rdata => _) = _
  rw [howner]
  simp [RecordSummary.create, RecordSummary.ofRecord]
  rfl

/-- The posted row asks for the record it shows, or is refused, or asks for another record of the
same name and TTL. -/
def PostsBack (lib : ZoneLib) (zoneCfg : ZoneConfig) (zonesDir : Text) (disk : Disk)
    (handler : Records) (r : Record) (ok : Prop) : Prop :=
  ∃ origin, lib.fromAscii zoneCfg.name = some origin ∧
    (ok → insertEdit lib zoneCfg zonesDir disk (RecordSummary.ofRecord lib r).create =
      .ok (origin, lib.upsert handler r)) ∧
    (¬ ok → (∃ e, insertEdit lib zoneCfg zonesDir disk (RecordSummary.ofRecord lib r).create =
        .error e) ∨
      ∃ r' ≠ r, r'.name = r.name ∧ r'.ttl = r.ttl ∧
        insertEdit lib zoneCfg zonesDir disk (RecordSummary.ofRecord lib r).create =
          .ok (origin, lib.upsert handler r'))

/-- **When a row of the listing can be posted back**: its type is read as it is printed, and its data
is. -/
theorem listed_posted_iff (horigin : lib.fromAscii zoneCfg.name = some origin)
    (hlaws : lib.Laws origin) (htypes : lib.PrintsTypes)
    (hload : loadHandler lib disk zoneCfg zonesDir = .ok handler) {k : RrKey} {set : List Record}
    (hset : handler.lookup k = some set) {r : Record} (hr : r ∈ set)
    (hname : lib.NamePrints r.name) {v : DataValue} (hdata : r.data = v.rdata lib)
    (hv : v.Prints lib) :
    (∃ summaries, listRecords lib zoneCfg zonesDir disk = .ok summaries ∧
        RecordSummary.ofRecord lib r ∈ summaries) ∧
      PostsBack lib zoneCfg zonesDir disk handler r (r.recordType ∈ readTypes ∧ v.Reads lib) := by
  obtain ⟨origin, rname, before, hloaded, rfl⟩ := loadHandler_eq_ok hload
  obtain rfl := Option.some.inj (hloaded.zoneName.symm.trans horigin)
  have hparsed := hloaded.parsed hlaws
  have habsolute : r.name.isFqdn = true := by
    obtain rfl : r.key = k := key_of_patched hlaws hparsed hloaded.accepted hset hr
    exact hparsed.isFqdn ((mem_patched hlaws hparsed hloaded.accepted).mp (mem_of_lookup hset))
  have hlist : listRecords lib zoneCfg zonesDir disk =
      .ok ((recordSets lib (patched lib origin rname before)).flatten.map (.ofRecord lib)) := by
    unfold listRecords
    rw [hload]
    rfl
  have htype : r.recordType = v.rtype lib := by
    unfold DataValue.rtype Record.recordType
    rw [hdata]
  refine ⟨⟨_, hlist, (mem_listRecords hload hlist).mpr ⟨k, set, r, hset, hr, rfl⟩⟩,
    origin, horigin, ?_⟩
  rw [insertEdit_posted hload horigin hname habsolute,
    ← parseRecordType_displayType htypes, ← parseRdata_iff hv, ← hdata, ← htype]
  constructor
  · rintro ⟨hrtype, hrdata⟩
    rw [hrtype]
    show (parseRdata lib r.recordType (lib.displayRData r.data) >>= fun rdata => _) = _
    rw [hrdata]
    rfl
  · intro hnot
    cases hrtype : parseRecordType (String.ofList (lib.displayType r.recordType)) with
    | error e => exact .inl ⟨e, rfl⟩
    | ok rtype =>
      show (∃ e, (parseRdata lib rtype (lib.displayRData r.data) >>= fun rdata => _) = _) ∨ _
      cases hrdata : parseRdata lib rtype (lib.displayRData r.data) with
      | error e => exact .inl ⟨e, rfl⟩
      | ok rdata =>
        refine .inr ⟨⟨r.name, r.ttl, rdata⟩, ?_, rfl, rfl, ?_⟩
        · -- the same record would be of the type that was read
          intro hsame
          have htyped : Record.recordType ⟨r.name, r.ttl, rdata⟩ = rtype := parseRdata_type hrdata _ _
          rw [hsame] at htyped
          obtain rfl : rdata = r.data := congrArg Record.data hsame
          rw [← htyped] at hrtype hrdata
          exact hnot ⟨hrtype, hrdata⟩
        · show (parseRdata lib rtype (lib.displayRData r.data) >>= fun rdata => _) = _
          rw [hrdata]
          rfl

end Posted

/-! ### The SOA record of the example zone -/

theorem listed_posted_soa :
    insertEdit sampleLib sampleConfig sampleDir (sampleDisk (writtenZone [sampleWww]))
        ⟨"example.com.", "SOA", some 86400,
          "ns1.example.com. hostadmin.localhost 1 3600 900 604800 300"⟩ =
      .ok (sampleOrigin, sampleLib.upsert (writtenZone [sampleWww])
        (sampleSoa 86400 (.ofLabels ["hostadmin", "localhost"] false))) := by
  have hload := sample_reload [sampleWww] List.mem_cons_self
  have hset : (writtenZone [sampleWww]).lookup (soaKey sampleOrigin) =
      some [sampleSoa 86400 (.ofLabels ["hostadmin", "localhost"] false)] := by
    decide
  have hname : sampleLib.NamePrints sampleOrigin :=
    ⟨by decide, fun _ => by decide⟩
  have hwords : ∀ n ∈ [sampleHost "ns1", Name.ofLabels ["hostadmin", "localhost"] false],
      sampleLib.nameOf (sampleLib.nameText n) = some n ∧ sampleLib.nameText n ≠ [] ∧
        Unbroken (sampleLib.nameText n) := by
    decide
  have hv : (DataValue.SOA (sampleSoaData (.ofLabels ["hostadmin", "localhost"] false))).Prints
      sampleLib := by
    refine ⟨?_, ?_, ?_⟩
    · rintro fs hfs
      obtain rfl := Option.some.inj hfs
      decide
    · intro n hn
      obtain ⟨hreread, hne, hunbroken⟩ := hwords n hn
      exact ⟨hreread, hne, hunbroken⟩
    · rintro _ _ _ _ htlsa
      cases htlsa
  obtain ⟨-, origin, horigin, hposts, -⟩ := listed_posted_iff sample_origin sampleLib_laws
    printsTypes_knowing hload hset List.mem_cons_self hname rfl hv
  obtain rfl := Option.some.inj (horigin.symm.trans sample_origin)
  have hsummary : (RecordSummary.ofRecord sampleLib
      (sampleSoa 86400 (.ofLabels ["hostadmin", "localhost"] false))).create =
        ⟨"example.com.", "SOA", some 86400,
          "ns1.example.com. hostadmin.localhost 1 3600 900 604800 300"⟩ := by
    decide
  rw [← hsummary]
  exact hposts ⟨by decide, trivial⟩

end Heimdallr.Zone
