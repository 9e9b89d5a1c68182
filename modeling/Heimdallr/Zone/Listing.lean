import Heimdallr.Zone.RecordEdits

/-!
# Listing records, and deleting what is listed

`list_records` and `get_records` read the zone file as the edits do and show its records. Whoever
deletes a record hands back the strings of the listing.

* A `RecordSummary` has the owner and the type as texts, the TTL and the data. What hickory displays
  of a type is a parameter: its mnemonic, if it has one (`PrintsTypes`). `parse_record_type` reads
  fewer types than are displayed.
* The listing shows the zone as `load_handler` has patched it, so its SOA record is not that of the
  file.
* `RemovesOnly` is what a deletion as listed should do: report the number of records of the set,
  take it out of the file, and leave the other sets with their records.

Results:
* `mem_listRecords`, `exists_matching_iff`: what the two listings show.
* `parseRecordType_displayType`: the types that are read as they are printed.
* **`listed_deleted_iff`**: when a deletion with the strings of a summary removes the record set the
  summary is of, and nothing else.
-/

namespace Heimdallr.Zone

open Heimdallr.Net

/-! ## The two listings -/

/-- `RecordSummary`: a row of a listing. -/
structure RecordSummary where
  name : String
  recordType : String
  ttl : UInt32
  data : String
  deriving DecidableEq, Repr

section Listings

variable (lib : ZoneLib) (zoneCfg : ZoneConfig) (zonesDir : Text) (disk : Disk)

/-- What both listings show of a record. -/
def RecordSummary.ofRecord (r : Record) : RecordSummary :=
  ⟨lib.toUtf8 r.name, String.ofList (lib.displayType r.recordType), r.ttl,
    String.ofList (lib.displayRData r.data)⟩

/-- The deletion with the strings of a summary. -/
def RecordSummary.request (s : RecordSummary) : RecordDelete := ⟨s.name, s.recordType⟩

/-- `list_records`. -/
def listRecords : Except RecordError (List RecordSummary) := do
  let handler ← loadHandler lib disk zoneCfg zonesDir
  return (recordSets lib handler).flatten.map (.ofRecord lib)

/-- The records `get_records` shows: those of the sets with the key asked for. The name is read as
it stands, without the spellings of the origin. -/
def matchingRecords (name recordType : String) : Except RecordError (List Record) := do
  let handler ← loadHandler lib disk zoneCfg zonesDir
  let rtype ← parseRecordType recordType
  let searchName ← orErr (.InvalidData "name" name.toList) (lib.fromAscii name)
  let sets := handler.entries.insertionSort fun a b => lib.keyLe a.1 b.1
  return (sets.filter fun e => e.1.name = .ofName searchName ∧ e.1.recordType = rtype).flatMap (·.2)

/-- `get_records`. -/
def getRecords (name recordType : String) : Except RecordError (List RecordSummary) := do
  let records ← matchingRecords lib zoneCfg zonesDir disk name recordType
  return records.map (.ofRecord lib)

end Listings

section Members

variable {lib : ZoneLib} {zoneCfg : ZoneConfig} {zonesDir : Text} {disk : Disk}
  {handler : Records}

/-- A summary is of a record of some set. -/
theorem mem_listRecords (hload : loadHandler lib disk zoneCfg zonesDir = .ok handler)
    {summaries : List RecordSummary}
    (hlist : listRecords lib zoneCfg zonesDir disk = .ok summaries) {s : RecordSummary} :
    s ∈ summaries ↔
      ∃ k set r, handler.lookup k = some set ∧ r ∈ set ∧ s = .ofRecord lib r := by
  unfold listRecords at hlist
  rw [hload] at hlist
  obtain rfl := Except.ok.inj hlist
  simp only [List.mem_map, mem_recordSets]
  constructor
  · rintro ⟨r, ⟨k, set, hset, hr⟩, rfl⟩
    exact ⟨k, set, r, hset, hr, rfl⟩
  · rintro ⟨k, set, r, hset, hr, rfl⟩
    exact ⟨r, ⟨k, set, hset, hr⟩, rfl⟩

/-- `get_records` shows the records of the set under the key of its two strings. -/
theorem exists_matching_iff (hload : loadHandler lib disk zoneCfg zonesDir = .ok handler)
    {name recordType : String} {P : Record → Prop} :
    (∃ listed, matchingRecords lib zoneCfg zonesDir disk name recordType = .ok listed ∧
        ∃ x ∈ listed, P x) ↔
      ∃ rtype n set, parseRecordType recordType = .ok rtype ∧ lib.fromAscii name = some n ∧
        handler.lookup ⟨.ofName n, rtype⟩ = some set ∧ ∃ x ∈ set, P x := by
  constructor
  · rintro ⟨listed, h, x, hx, hP⟩
    obtain ⟨handler', hload', h⟩ := bind_eq_ok h
    obtain rfl := Except.ok.inj (hload.symm.trans hload')
    obtain ⟨rtype, hrtype, h⟩ := bind_eq_ok h
    obtain ⟨n, hn, h⟩ := bind_eq_ok h
    obtain rfl := Except.ok.inj h
    obtain ⟨⟨⟨kname, ktype⟩, set⟩, hfound, hxset⟩ := List.mem_flatMap.mp hx
    obtain ⟨hentry, hk⟩ := List.mem_filter.mp hfound
    obtain ⟨rfl, rfl⟩ : kname = .ofName n ∧ ktype = rtype := by simpa using hk
    exact ⟨ktype, n, set, hrtype, orErr_eq_ok hn, mem_entries_iff.mp hentry, x, hxset, hP⟩
  · rintro ⟨rtype, n, set, hrtype, hn, hset, x, hx, hP⟩
    unfold matchingRecords
    rw [hload, hrtype, hn]
    refine ⟨_, rfl, x, List.mem_flatMap.mpr ⟨⟨⟨.ofName n, rtype⟩, set⟩, ?_, hx⟩, hP⟩
    exact List.mem_filter.mpr ⟨mem_entries_iff.mpr hset, by simp⟩

end Members

/-! ## Record types, printed and read -/

/-- How record types print: by their mnemonics, and a type without one as a word of its own. -/
structure ZoneLib.PrintsTypes (lib : ZoneLib) : Prop where
  named : ∀ t ∈ RecordType.named, lib.displayType t = t.mnemonic.toList
  unknown : ∀ code, lib.displayType (.Unknown code) = "Unknown".toList ∨
    lib.displayType (.Unknown code) = (RecordType.Unknown code).mnemonic.toList

/-- The types `parse_record_type` reads from their mnemonics. -/
def readTypes : List RecordType :=
  [.A, .AAAA, .CNAME, .MX, .NS, .SOA, .TXT, .SRV, .PTR, .TLSA, .SSHFP, .HTTPS, .SVCB, .CAA, .DNSKEY,
    .DS, .RRSIG, .NSEC, .NSEC3, .NSEC3PARAM, .ANY]

/-- Of the named types, `ANAME` and `DNAME` are read as other ones, and sixteen are not read. -/
theorem parseRecordType_named : ∀ t ∈ RecordType.named,
    parseRecordType (String.ofList t.mnemonic.toList) = .ok t ↔ t ∈ readTypes := by
  decide

theorem mem_named (t : RecordType) : t ∈ RecordType.named ∨ ∃ code, t = .Unknown code := by
  cases t with
  | Unknown code => exact .inr ⟨code, rfl⟩
  | _ => exact .inl (by decide)

theorem parseU16_letter {c : Char} {t : Text} (hplus : c ≠ '+') (hdigit : toDigit 10 c = none) :
    parseU16 (c :: t) = none := by
  unfold parseU16
  split
  · rename_i rest heq
    exact absurd (List.cons.inj heq).1 hplus
  · simp [hdigit]

/-- A text that begins with a letter is not read as a type without a mnemonic. -/
theorem parseRecordType_letter {c : Char} {t : Text} (hplus : c ≠ '+')
    (hdigit : toDigit 10 c = none) (hupper : upperChar c = [c]) (code : UInt16) :
    parseRecordType (String.ofList (c :: t)) ≠ .ok (.Unknown code) := by
  have hnamed : ∀ n ∈ typeNames, ∀ code, n.2 ≠ .Unknown code := by
    intro n hn code h
    have hmem : ∀ n ∈ typeNames, n.2 ∈ RecordType.named := by decide
    have hcode : (n.2 ∈ RecordType.named) := hmem n hn
    simp [h, RecordType.named] at hcode
  have hcons : toUppercase (String.ofList (c :: t)).toList = c :: toUppercase t := by
    simp [toUppercase, hupper]
  unfold parseRecordType
  dsimp only
  rw [hcons]
  split
  · rename_i n hfind
    intro h
    exact hnamed n (List.mem_of_find?_eq_some hfind) code (Except.ok.inj h)
  · rw [parseU16_letter hplus hdigit]
    intro h
    cases h

/-- The types that are read as they are printed. -/
theorem parseRecordType_displayType {lib : ZoneLib} (h : lib.PrintsTypes) (t : RecordType) :
    parseRecordType (String.ofList (lib.displayType t)) = .ok t ↔ t ∈ readTypes := by
  rcases mem_named t with ht | ⟨code, rfl⟩
  · rw [h.named t ht]
    exact parseRecordType_named t ht
  · have hmem : RecordType.Unknown code ∉ readTypes := by simp [readTypes]
    refine iff_of_false ?_ hmem
    rcases h.unknown code with htext | htext
    · rw [htext]
      exact parseRecordType_letter (by decide) (by decide) (by decide) code
    · rw [htext]
      have hletter : (RecordType.Unknown code).mnemonic.toList =
          'T' :: ("YPE".toList ++ Nat.toDigits 10 code.toNat) := by
        simp [RecordType.mnemonic]
      rw [hletter]
      exact parseRecordType_letter (by decide) (by decide) (by decide) code

/-! ## What a deletion has done -/

/-- An absolute owner is looked up as the one it means. -/
theorem Target.key_of_absolute {t : Target} (h : t.owner.isFqdn = true) : t.key = t.rrset := by
  have hkey : t.key.isFqdn = true := h
  rw [← t.key_within, RrKey.within_of_fqdn hkey]

section Deletions

variable {lib : ZoneLib} {zoneCfg : ZoneConfig} {zonesDir : Text} {disk disk' : Disk}
  {request : RecordDelete} {t : Target} {handler : Records}

/-- There are records to delete. -/
theorem deleteRecords_found (hload : loadHandler lib disk zoneCfg zonesDir = .ok handler)
    (htarget : (RecordCall.delete request).target lib zoneCfg = .ok t) {set : List Record}
    (hset : handler.lookup t.key = some set) (hne : set ≠ []) :
    (RecordCall.delete request).edit lib zoneCfg zonesDir disk =
        .ok (some (t.origin, handler.erase t.key)) ∧
      deleteRecords lib zoneCfg zonesDir disk request .ok =
        (.ok set.length, Function.update disk (zonePath zoneCfg zonesDir)
          (some (some (zoneText lib t.origin (handler.erase t.key))))) := by
  have hedit : deleteEdit lib zoneCfg zonesDir disk request =
      .ok (t.origin, handler.erase t.key, set.length) := by
    rw [deleteEdit_ok hload htarget, hset]
    rfl
  have hpos : 0 < set.length := List.length_pos_of_ne_nil hne
  constructor
  · exact RecordCall.edit_delete _ _ _ hedit hpos
  · unfold deleteRecords
    rw [hedit]
    dsimp only
    rw [if_pos hpos]
    rfl

/-- A deletion that reports records has found them under the key of its request. -/
theorem deleteRecords_eq_ok (hload : loadHandler lib disk zoneCfg zonesDir = .ok handler) {n : Nat}
    (h : deleteRecords lib zoneCfg zonesDir disk request .ok = (.ok n, disk')) (hn : 0 < n) :
    ∃ t set, (RecordCall.delete request).target lib zoneCfg = .ok t ∧
      handler.lookup t.key = some set ∧ set ≠ [] := by
  unfold deleteRecords at h
  rw [deleteEdit_eq, hload] at h
  cases htarget : (RecordCall.delete request).target lib zoneCfg with
  | error e =>
    rw [htarget] at h
    cases (Prod.mk.inj h).1
  | ok t =>
    rw [htarget] at h
    cases hset : handler.lookup t.key with
    | none =>
      simp only [bind, Except.bind, pure, Except.pure, hset] at h
      obtain rfl := Except.ok.inj (Prod.mk.inj h).1
      exact absurd hn (Nat.lt_irrefl 0)
    | some set =>
      refine ⟨t, set, rfl, hset, ?_⟩
      rintro rfl
      simp only [bind, Except.bind, pure, Except.pure, hset] at h
      obtain rfl := Except.ok.inj (Prod.mk.inj h).1
      exact absurd hn (Nat.lt_irrefl 0)

/-! ### The file after a deletion -/

namespace Writes

variable {rname : Name} {before records after : Records}

section Deleted

variable (h : Writes lib t rname before (.delete request) records)
  (habsolute : t.owner.isFqdn = true)
  (hback : lib.ReadsBack t.origin records)
  (hafter : lib.parse t.origin (zoneText lib t.origin records) = some after)

include h habsolute hback hafter

/-- The record set is not in the file any more. -/
theorem lookup_deleted : after.lookup t.rrset = none := by
  refine hback.others after hafter _ fun k hk _ hwithin => ?_
  have hne : k ≠ t.key := by
    cases h.edited with
    | deleted request hmem => exact (AList.mem_erase.mp hk).1
  rw [RrKey.within_of_fqdn (h.isFqdn_of_ne hk hne)] at hwithin
  exact hne (hwithin.trans (Target.key_of_absolute habsolute).symm)

end Deleted

/-- The types that signing generates are not in the file. -/
theorem lookup_generated (hback : lib.ReadsBack t.origin records)
    (hafter : lib.parse t.origin (zoneText lib t.origin records) = some after) {k : RrKey}
    (hgen : generated k.recordType = true) : after.lookup k = none := by
  refine hback.others after hafter k fun k' _ hwritten hwithin => ?_
  have hnot : generated k.recordType = false := by
    rw [← hwithin]
    exact hwritten
  rw [hnot] at hgen
  cases hgen

/-- The other record sets keep their records; in the SOA record set one stands for another. -/
theorem lookup_others (h : Writes lib t rname before (.delete request) records)
    (hstable : lib.Stable t.origin before) (hback : lib.ReadsBack t.origin records)
    (hafter : lib.parse t.origin (zoneText lib t.origin records) = some after) {k : RrKey}
    (hk : k ≠ t.rrset) (hgen : generated k.recordType = false) :
    (after.lookup k).map List.length =
        ((patched lib t.origin rname before).lookup k).map List.length ∧
      (k ≠ soaKey t.origin → after.lookup k = (patched lib t.origin rname before).lookup k) := by
  by_cases hsoa : k = soaKey t.origin
  · subst hsoa
    refine ⟨?_, fun hne => absurd rfl hne⟩
    by_cases hmem : soaKey t.origin ∈ before
    · obtain ⟨soa, hold, hmname⟩ := h.parsed.oldSoa_eq hmem
      rw [h.lookup_after_soa hback hafter hk hold hmname hmem,
        lookup_patched_soa h.laws h.accepted hold hmem]
      rfl
    · have hpatched : soaKey t.origin ∉ patched lib t.origin rname before :=
        mt h.mem_patched.mp hmem
      rw [h.lookup_after_no_soa hback hafter hk hmem, AList.lookup_eq_none.mpr hpatched]
  · have hsame : after.lookup k = (patched lib t.origin rname before).lookup k := by
      rw [h.lookup_after hback hafter hstable hk hsoa hgen, lookup_patched_ne h.laws hsoa]
    exact ⟨congrArg _ hsame, fun _ => hsame⟩

end Writes

end Deletions

/-! ## What is listed can be deleted -/

/-- A name in full is none of the spellings without a final dot. -/
theorem beq_of_full {name other : String} (hfull : name.toList.getLast? = some '.')
    (hother : other.toList.getLast? ≠ some '.') : (name == other) = false := by
  rw [beq_eq_false_iff_ne]
  rintro rfl
  exact hother hfull

/-- A name that is read as it is printed, an absolute one with its final dot. -/
structure ZoneLib.NamePrints (lib : ZoneLib) (n : Name) : Prop where
  reread : lib.fromAscii (lib.toUtf8 n) = some n
  dot : n.isFqdn = true → (lib.toUtf8 n).toList.getLast? = some '.'

/-- The deletion takes the record set under `k` out of the file and reports its length. Every other
set keeps its records; of the SOA record set only their number is said, as `patch_soa_rname` puts
another record in. -/
def RemovesOnly (lib : ZoneLib) (zoneCfg : ZoneConfig) (zonesDir : Text) (disk : Disk)
    (origin : Name) (handler : Records) (k : RrKey) (set : List Record) (request : RecordDelete) :
    Prop :=
  ∃ disk' after, deleteRecords lib zoneCfg zonesDir disk request .ok = (.ok set.length, disk') ∧
    zoneOnDisk lib zoneCfg zonesDir origin disk' = some after ∧ after.lookup k = none ∧
    ∀ k' ≠ k, (after.lookup k').map List.length = (handler.lookup k').map List.length ∧
      (k' ≠ soaKey origin → after.lookup k' = handler.lookup k')

section Listed

variable {lib : ZoneLib} {zoneCfg : ZoneConfig} {zonesDir : Text} {disk : Disk}
  {origin rname : Name} {before handler : Records}

/-- The text of an absolute name is one of the spellings of its owner in `delete_records`. -/
theorem ownerOf_printed {n : Name} (hprints : lib.NamePrints n) (habsolute : n.isFqdn = true)
    (horigin : lib.fromAscii zoneCfg.name = some origin) {request : RecordDelete}
    (hname : request.name = lib.toUtf8 n) :
    ownerOf lib origin (request.namesOrigin zoneCfg) request.name = .ok n := by
  have hat : (request.name == "@") = false :=
    beq_of_full (hname ▸ hprints.dot habsolute) (by decide)
  by_cases hzone : request.name = zoneCfg.name
  · have heq : origin = n := by
      rw [← hzone, hname, hprints.reread] at horigin
      exact (Option.some.inj horigin).symm
    simp [ownerOf, RecordDelete.namesOrigin, hzone, heq]
  · have hnot : request.namesOrigin zoneCfg = false := by
      simp [RecordDelete.namesOrigin, hat, hzone]
    unfold ownerOf
    rw [hnot, hname, hprints.reread]
    rfl

/-- What a deletion with the strings of a summary is about: the owner of the record, and the type as
it is read. -/
theorem target_of_summary {r : Record} (hprints : lib.NamePrints r.name)
    (habsolute : r.name.isFqdn = true) (horigin : lib.fromAscii zoneCfg.name = some origin)
    {t : Target} :
    (RecordCall.delete (RecordSummary.ofRecord lib r).request).target lib zoneCfg = .ok t ↔
      t = ⟨origin, r.name, t.rtype⟩ ∧
        parseRecordType (String.ofList (lib.displayType r.recordType)) = .ok t.rtype := by
  have howner : ownerOf lib origin ((RecordSummary.ofRecord lib r).request.namesOrigin zoneCfg)
      (RecordSummary.ofRecord lib r).request.name = .ok r.name :=
    ownerOf_printed hprints habsolute horigin rfl
  constructor
  · intro h
    obtain ⟨hrtype, horigin', howner'⟩ := of_target_eq_ok h
    obtain ⟨origin', owner, rtype⟩ := t
    obtain rfl := Option.some.inj (horigin'.symm.trans horigin)
    obtain rfl := Except.ok.inj (howner'.symm.trans howner)
    exact ⟨rfl, hrtype⟩
  · rintro ⟨ht, hrtype⟩
    have horigin' : orErr (.InvalidZoneName zoneCfg.name) (lib.fromAscii zoneCfg.name) =
        .ok origin := by
      rw [horigin]
      rfl
    rw [ht]
    exact target_eq_ok hrtype horigin' howner

section OneDeletion

variable {t : Target} {request : RecordDelete} (hlaws : lib.Laws t.origin)
  (hload : loadHandler lib disk zoneCfg zonesDir = .ok (patched lib t.origin rname before))
  (hloaded : Loaded lib zoneCfg zonesDir disk t.origin rname before)
  (htarget : (RecordCall.delete request).target lib zoneCfg = .ok t)
  (habsolute : t.owner.isFqdn = true)
  (hback : ∀ origin records, (RecordCall.delete request).edit lib zoneCfg zonesDir disk =
    .ok (some (origin, records)) → lib.ReadsBack origin records)

include hlaws hload hloaded htarget habsolute hback

/-- A deletion of records that are there, done: what it reports and what is in the file. -/
theorem deletion_done {set : List Record}
    (hset : (patched lib t.origin rname before).lookup t.key = some set) (hne : set ≠ []) :
    ∃ disk' after, deleteRecords lib zoneCfg zonesDir disk request .ok = (.ok set.length, disk') ∧
      zoneOnDisk lib zoneCfg zonesDir t.origin disk' = some after ∧ after.lookup t.rrset = none ∧
      (∀ k, generated k.recordType = true → after.lookup k = none) ∧
      (lib.Stable t.origin before → ∀ k ≠ t.rrset, generated k.recordType = false →
        (after.lookup k).map List.length =
            ((patched lib t.origin rname before).lookup k).map List.length ∧
          (k ≠ soaKey t.origin →
            after.lookup k = (patched lib t.origin rname before).lookup k)) := by
  obtain ⟨hedit, hrun⟩ := deleteRecords_found hload htarget hset hne
  have h : Writes lib t rname before (.delete request)
      ((patched lib t.origin rname before).erase t.key) :=
    hloaded.writes hlaws (.deleted request (mem_of_lookup hset))
  have hreads := hback _ _ hedit
  obtain ⟨after, hafter⟩ := hreads.exists_parse h.not_soaTwice_delete
  exact ⟨_, after, hrun, (zoneOnDisk_update _ _).trans hafter,
    h.lookup_deleted habsolute hreads hafter, fun k => Writes.lookup_generated hreads hafter,
    fun hstable k => h.lookup_others hstable hreads hafter⟩

/-- When a deletion removes a certain record set and nothing else: it is about this set, and there
is no other of a type that is not written. -/
theorem removesOnly_iff (hstable : lib.Stable t.origin before) {k : RrKey} {set : List Record}
    (hset : (patched lib t.origin rname before).lookup k = some set) :
    RemovesOnly lib zoneCfg zonesDir disk t.origin (patched lib t.origin rname before) k set
        request ↔
      t.key = k ∧
        ∀ k' ∈ patched lib t.origin rname before, generated k'.recordType = true → k' = k := by
  have hrrset : t.key = t.rrset := Target.key_of_absolute habsolute
  have hne : set ≠ [] := ne_nil_of_patched hlaws (hloaded.parsed hlaws) hloaded.accepted hset
  constructor
  · rintro ⟨disk', after, hdelete, hfile, -, hothers⟩
    obtain ⟨t', set', htarget', hset', hne'⟩ :=
      deleteRecords_eq_ok hload hdelete (List.length_pos_of_ne_nil hne)
    obtain rfl := Except.ok.inj (htarget.symm.trans htarget')
    obtain ⟨_, _, hrun, hfile', hgone, hgenerated, -⟩ :=
      deletion_done hlaws hload hloaded htarget habsolute hback hset' hne'
    obtain rfl := (Prod.mk.inj (hdelete.symm.trans hrun)).2
    obtain rfl := Option.some.inj (hfile.symm.trans hfile')
    constructor
    · -- the set that was looked up is gone, and no other set may be
      by_contra hother
      have hlength := (hothers t.key hother).1
      rw [hrrset, hgone, ← hrrset, hset'] at hlength
      cases hlength
    · intro k' hk' hgen
      by_contra hother
      obtain ⟨set', hset'⟩ := exists_lookup hk'
      have hlength := (hothers k' hother).1
      rw [hgenerated k' hgen, hset'] at hlength
      cases hlength
  · rintro ⟨rfl, honly⟩
    obtain ⟨disk', after, hrun, hfile, hgone, hgenerated, hothers⟩ :=
      deletion_done hlaws hload hloaded htarget habsolute hback hset hne
    refine ⟨disk', after, hrun, hfile, hrrset ▸ hgone, fun k' hk' => ?_⟩
    cases hgen : generated k'.recordType with
    | true =>
      have hnot : k' ∉ patched lib t.origin rname before := fun hmem => hk' (honly k' hmem hgen)
      rw [hgenerated k' hgen, AList.lookup_eq_none.mpr hnot]
      exact ⟨rfl, fun _ => rfl⟩
    | false => exact hothers hstable k' (hrrset ▸ hk') hgen

end OneDeletion

/-- What it takes for a listed record set to be deleted as listed: its type is read as it is
printed, and the zone has no other set of a type that `persist_zone` leaves out. -/
def DeletedAsListed (handler : Records) (k : RrKey) : Prop :=
  k.recordType ∈ readTypes ∧ ∀ k' ∈ handler, generated k'.recordType = true → k' = k

/-- **When what is listed is deleted as listed.** -/
theorem listed_deleted_iff (horigin : lib.fromAscii zoneCfg.name = some origin)
    (hlaws : lib.Laws origin) (htypes : lib.PrintsTypes)
    (hread : zoneOnDisk lib zoneCfg zonesDir origin disk = some before)
    (hstable : lib.Stable origin before)
    (hload : loadHandler lib disk zoneCfg zonesDir = .ok handler)
    (hnames : ∀ k set r, handler.lookup k = some set → r ∈ set → lib.NamePrints r.name)
    {summaries : List RecordSummary}
    (hlist : listRecords lib zoneCfg zonesDir disk = .ok summaries) {s : RecordSummary}
    (hs : s ∈ summaries)
    (hback : ∀ origin records, (RecordCall.delete s.request).edit lib zoneCfg zonesDir disk =
      .ok (some (origin, records)) → lib.ReadsBack origin records) :
    ∃ k set r, handler.lookup k = some set ∧ r ∈ set ∧ r.key = k ∧ s = .ofRecord lib r ∧
      (RemovesOnly lib zoneCfg zonesDir disk origin handler k set s.request ↔
        DeletedAsListed handler k) := by
  obtain ⟨k, set, r, hset, hr, rfl⟩ := (mem_listRecords hload hlist).mp hs
  obtain ⟨origin, rname, before, hloaded, rfl⟩ := loadHandler_eq_ok hload
  obtain rfl := Option.some.inj (hloaded.zoneName.symm.trans horigin)
  obtain rfl := Option.some.inj (hloaded.read.symm.trans hread)
  have hparsed := hloaded.parsed hlaws
  obtain rfl : r.key = k := key_of_patched hlaws hparsed hloaded.accepted hset hr
  have habsolute : r.name.isFqdn = true :=
    hparsed.isFqdn ((mem_patched hlaws hparsed hloaded.accepted).mp (mem_of_lookup hset))
  have hne : set ≠ [] := ne_nil_of_patched hlaws hparsed hloaded.accepted hset
  refine ⟨r.key, set, r, hset, hr, rfl, rfl, ?_⟩
  have htarget : ∀ t, _ ↔ _ := fun t =>
    target_of_summary (t := t) (hnames r.key set r hset hr) habsolute hloaded.zoneName
  show _ ↔ r.recordType ∈ readTypes ∧ _
  rw [← parseRecordType_displayType htypes]
  cases hcall : (RecordCall.delete (RecordSummary.ofRecord lib r).request).target lib zoneCfg with
  | error e =>
    -- the type is not read, so there is no deletion
    refine iff_of_false ?_ ?_
    · rintro ⟨disk', after, hdelete, -⟩
      obtain ⟨t, -, ht, -⟩ := deleteRecords_eq_ok hload hdelete (List.length_pos_of_ne_nil hne)
      rw [hcall] at ht
      cases ht
    · rintro ⟨hrtype, -⟩
      rw [(htarget ⟨origin, r.name, r.recordType⟩).mpr ⟨rfl, hrtype⟩] at hcall
      cases hcall
  | ok t =>
    obtain ⟨heq, hrtype⟩ := (htarget t).mp hcall
    obtain ⟨origin', owner, rtype⟩ := t
    obtain ⟨rfl, rfl⟩ : origin' = origin ∧ owner = r.name := by simpa using heq
    rw [removesOnly_iff hlaws hload hloaded hcall habsolute hback hstable hset, hrtype]
    refine and_congr_left fun _ => ?_
    show RrKey.mk (.ofName r.name) rtype = RrKey.mk (.ofName r.name) r.recordType ↔ _
    simp

/-! ### The example zone -/

theorem printsTypes_knowing {files : List (Text × Records)} : (ZoneLib.knowing files).PrintsTypes :=
  ⟨fun _ _ => rfl, fun _ => .inr rfl⟩

/-- All owners are read as they are printed. -/
def namesPrint (lib : ZoneLib) (records : Records) : Bool :=
  records.entries.all fun e => e.2.all fun r =>
    lib.fromAscii (lib.toUtf8 r.name) = some r.name && (lib.toUtf8 r.name).toList.getLast? = some '.'

theorem namePrints_of_namesPrint {records : Records} (h : namesPrint lib records = true) :
    ∀ k set r, records.lookup k = some set → r ∈ set → lib.NamePrints r.name := by
  intro k set r hset hr
  have hentry := List.all_eq_true.mp h ⟨k, set⟩ (AList.mem_lookup_iff.mp hset)
  have hname := List.all_eq_true.mp hentry r hr
  simp only [Bool.and_eq_true, decide_eq_true_eq] at hname
  exact ⟨hname.1, fun _ => hname.2⟩

/-- The row of the host that is deleted. -/
def mailSummary : RecordSummary := ⟨"mail.example.com.", "A", 3600, "192.0.2.2"⟩

/-- A host is deleted with the strings it is listed with. -/
theorem listed_deleted_mail :
    ∃ k set r, (writtenZone [sampleWww, sampleMail]).lookup k = some set ∧ r ∈ set ∧
      mailSummary = .ofRecord sampleLib r ∧
      RemovesOnly sampleLib sampleConfig sampleDir (sampleDisk (writtenZone [sampleWww, sampleMail]))
        sampleOrigin (writtenZone [sampleWww, sampleMail]) k set mailSummary.request := by
  have hhosts : [sampleWww, sampleMail] ∈ sampleHosts := List.mem_cons_of_mem _ List.mem_cons_self
  have hload := sample_reload _ hhosts
  have hnames : namesPrint sampleLib (writtenZone [sampleWww, sampleMail]) = true := by
    decide
  have hlist : listRecords sampleLib sampleConfig sampleDir
      (sampleDisk (writtenZone [sampleWww, sampleMail])) =
        .ok ((recordSets sampleLib (writtenZone [sampleWww, sampleMail])).flatten.map
          (.ofRecord sampleLib)) := by
    unfold listRecords
    rw [hload]
    rfl
  have hs : mailSummary ∈ (recordSets sampleLib (writtenZone [sampleWww, sampleMail])).flatten.map
      (.ofRecord sampleLib) := by
    decide
  have hedit : (RecordCall.delete mailSummary.request).edit sampleLib sampleConfig sampleDir
      (sampleDisk (writtenZone [sampleWww, sampleMail])) =
        .ok (some (sampleOrigin, writtenZone [sampleWww])) :=
    sample_deleted
  obtain ⟨k, set, r, hset, hr, -, hsummary, hiff⟩ :=
    listed_deleted_iff sample_origin sampleLib_laws printsTypes_knowing
      (sample_reread _ _ hhosts) (stable_plain (by decide)) hload
      (namePrints_of_namesPrint hnames) hlist hs (readsBack_of_edit hedit (sampleLib_readsBack _ List.mem_cons_self))
  have htypes : ∀ k ∈ (writtenZone [sampleWww, sampleMail]).keys,
      k.recordType ∈ readTypes ∧ generated k.recordType = false := by
    decide
  refine ⟨k, set, r, hset, hr, hsummary, hiff.mpr ⟨(htypes k (mem_of_lookup hset)).1, ?_⟩⟩
  intro k' hk' hgen
  rw [(htypes k' hk').2] at hgen
  cases hgen

/-- An `ANAME` record of the example zone. -/
def sampleAlias : Record := ⟨sampleHost "alias", 3600, .ANAME (sampleHost "www")⟩

/-- A zone with an `ANAME` record. -/
def aliasZone : Records := zoneOf [sampleSoa 86400 sampleRname, sampleWww, sampleAlias]

/-- A library that knows this zone. -/
def aliasLib : ZoneLib := .knowing [(sampleText aliasZone, aliasZone)]

/-- The row of the `ANAME` record. -/
def aliasSummary : RecordSummary := ⟨"alias.example.com.", "ANAME", 3600, ""⟩

/-- The zone is as a parser delivers it, and stays so when it is written and read. -/
theorem aliasZone_parsed : Parsed aliasZone ∧ aliasLib.Stable sampleOrigin aliasZone := by
  have hentries : ∀ e ∈ aliasZone.entries, e.2.length = 1 ∧
      ∀ r ∈ e.2, r.key = e.1 ∧ (r = sampleAlias ∨ plainRecord r = true) := by
    decide
  have hentry : ∀ k set, aliasZone.lookup k = some set → set.length = 1 ∧
      ∀ r ∈ set, r.key = k ∧ (r = sampleAlias ∨ plainRecord r = true) := fun k set hset =>
    hentries ⟨k, set⟩ (AList.mem_lookup_iff.mp hset)
  refine ⟨⟨?_, fun k set hset _ => (hentry k set hset).1, ?_⟩, ?_⟩
  · rintro k set hset rfl
    cases (hentry k [] hset).1
  · intro k set r hset hr
    obtain ⟨hkey, hrecord⟩ := (hentry k set hset).2 r hr
    refine ⟨hkey, ?_⟩
    rcases hrecord with rfl | hplain
    · refine ⟨rfl, fun htype => ?_⟩
      cases htype
    · exact parsedRecord_plain hplain
  · intro k set r hset hr
    rcases ((hentry k set hset).2 r hr).2 with rfl | hplain
    · rfl
    · exact reread_plain hplain

theorem aliasLib_laws : aliasLib.Laws sampleOrigin := by
  refine laws_of_parsed rfl ?_
  rintro f hf
  obtain rfl := List.mem_singleton.mp hf
  exact aliasZone_parsed.1

/-- The zone as it is read. -/
def aliasHandler : Records :=
  zoneOf [sampleSoa 86400 (.ofLabels ["hostadmin", "localhost"] false), sampleWww, sampleAlias]

/-- An `ANAME` record is listed, and asking for its deletion deletes nothing. -/
theorem aname_not_deleted :
    aliasLib.Laws sampleOrigin ∧ aliasLib.Stable sampleOrigin aliasZone ∧ aliasLib.PrintsTypes ∧
      loadHandler aliasLib (sampleDisk aliasZone) sampleConfig sampleDir = .ok aliasHandler ∧
      listRecords aliasLib sampleConfig sampleDir (sampleDisk aliasZone) =
        .ok [⟨"example.com.", "SOA", 86400,
            "ns1.example.com. hostadmin.localhost 1 3600 900 604800 300"⟩,
          aliasSummary, ⟨"www.example.com.", "A", 3600, "192.0.2.1"⟩] ∧
      deleteRecords aliasLib sampleConfig sampleDir (sampleDisk aliasZone) aliasSummary.request .ok =
        (.ok 0, sampleDisk aliasZone) ∧
      ¬ RemovesOnly aliasLib sampleConfig sampleDir (sampleDisk aliasZone) sampleOrigin aliasHandler
        sampleAlias.key [sampleAlias] aliasSummary.request := by
  have hload : loadHandler aliasLib (sampleDisk aliasZone) sampleConfig sampleDir =
      .ok aliasHandler :=
    sample_loaded (parse_knowing_head (sampleText aliasZone, aliasZone) _ _) (by decide)
      (by decide)
  have hlist : listRecords aliasLib sampleConfig sampleDir (sampleDisk aliasZone) =
      .ok [⟨"example.com.", "SOA", 86400,
          "ns1.example.com. hostadmin.localhost 1 3600 900 604800 300"⟩,
        aliasSummary, ⟨"www.example.com.", "A", 3600, "192.0.2.1"⟩] := by
    unfold listRecords
    rw [hload]
    decide
  -- the type is read as CNAME
  have htarget : (RecordCall.delete aliasSummary.request).target aliasLib sampleConfig =
      .ok ⟨sampleOrigin, sampleHost "alias", .CNAME⟩ := by
    decide
  have hedit : deleteEdit aliasLib sampleConfig sampleDir (sampleDisk aliasZone)
      aliasSummary.request = .ok (sampleOrigin, aliasHandler, 0) := by
    rw [deleteEdit_ok hload htarget]
    decide
  have hdelete : deleteRecords aliasLib sampleConfig sampleDir (sampleDisk aliasZone)
      aliasSummary.request .ok = (.ok 0, sampleDisk aliasZone) :=
    deleteRecords_zero hedit
  refine ⟨aliasLib_laws, aliasZone_parsed.2, printsTypes_knowing, hload, hlist, hdelete, ?_⟩
  rintro ⟨disk', after, hremoved, -⟩
  cases (Prod.mk.inj (hdelete.symm.trans hremoved)).1

end Listed

end Heimdallr.Zone
