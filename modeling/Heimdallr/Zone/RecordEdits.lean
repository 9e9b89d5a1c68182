import Heimdallr.Zone.RecordSpec

/-!
# What the record API keeps

An edit reads the file, patches the SOA record, changes its target and writes everything. The file
that is then on the disk differs from the old one at the target and at the SOA record.

* `SameButTarget` compares the zone before and after, record set by record set, as the parser reads
  it. The types that `persist_zone` leaves out are left out of the comparison.
* `SparesOthers` is what it takes, on the request and the zone before the call: the SOA record of
  the zone is the target, or is absent, or is already what the patch makes of it; and an insertion
  does not put a second SOA record under one owner, which makes the file unreadable.
* A write that fails changes nothing; one that is cut short leaves a file of which nothing is said.

Results:
* `Writes.lookup_after`, `Writes.lookup_after_soa`: the zone after an edit, key by key.
* **`only_target_iff`**: when an edit touches nothing but its target.
* `callStep`: one call of a sequence, for the runs of `Zone.WellFormed` and `Zone.Runs`.
-/

namespace Heimdallr.Zone

open Heimdallr.Net

section Written

variable {lib : ZoneLib} {zoneCfg : ZoneConfig} {zonesDir : Text} {disk : Disk}
  {call : RecordCall} {t : Target} {rname : Name} {before records : Records}

theorem Loaded.parsed {origin : Name} (hlaws : lib.Laws origin)
    (hload : Loaded lib zoneCfg zonesDir disk origin rname before) : Parsed before := by
  obtain ⟨text, -, hparse⟩ := Option.bind_eq_some_iff.mp hload.read
  exact hlaws.parsed _ _ hparse

/-- The target is an SOA record under a relative name, and the owner this name stands for has one. -/
def SecondSoa (t : Target) (before : Records) : Prop :=
  t.rtype = .SOA ∧ t.owner.isFqdn = false ∧ t.rrset ∈ before

/-- A zone that was read and edited, and is about to be written. -/
structure Writes (lib : ZoneLib) (t : Target) (rname : Name) (before : Records) (call : RecordCall)
    (records : Records) : Prop where
  laws : lib.Laws t.origin
  parsed : Parsed before
  accepted : lib.accepts t.origin before = true
  edited : Edited lib t (patched lib t.origin rname before) call (some records)

/-- What was read from the file of a zone and then edited is about to be written. -/
theorem Loaded.writes (hlaws : lib.Laws t.origin)
    (hload : Loaded lib zoneCfg zonesDir disk t.origin rname before)
    (hedited : Edited lib t (patched lib t.origin rname before) call (some records)) :
    Writes lib t rname before call records :=
  ⟨hlaws, hload.parsed hlaws, hload.accepted, hedited⟩

namespace Writes

variable (h : Writes lib t rname before call records)

include h

theorem mem_patched {k : RrKey} : k ∈ patched lib t.origin rname before ↔ k ∈ before :=
  Zone.mem_patched h.laws h.parsed h.accepted

theorem mem_of_ne {k : RrKey} (hk : k ≠ t.key) : k ∈ records ↔ k ∈ before := by
  rw [← AList.lookup_isSome, h.edited.lookup_ne h.laws hk, AList.lookup_isSome, h.mem_patched]

/-- All keys are absolute, except perhaps the one that was inserted. -/
theorem isFqdn_of_ne {k : RrKey} (hmem : k ∈ records) (hk : k ≠ t.key) : k.isFqdn = true :=
  h.parsed.isFqdn ((h.mem_of_ne hk).mp hmem)

/-- The parser refuses the file when an SOA record was inserted under a relative name that stands for
an owner with an SOA record. -/
theorem soaTwice_iff :
    SoaTwice t.origin records ↔
      t.key ∈ records ∧ SecondSoa t before := by
  constructor
  · rintro ⟨k₁, hk₁, k₂, hk₂, hne, htype, hwithin⟩
    -- of two keys that fall together one is relative, and only the target can be
    have hone : k₁ = t.key ∨ k₂ = t.key := by
      by_contra hboth
      obtain ⟨h₁, h₂⟩ := not_or.mp hboth
      rw [RrKey.within_of_fqdn (h.isFqdn_of_ne hk₁ h₁),
        RrKey.within_of_fqdn (h.isFqdn_of_ne hk₂ h₂)] at hwithin
      exact hne hwithin
    have hother : ∃ k ∈ records, k ≠ t.key ∧ k.recordType = .SOA ∧ k.within t.origin = t.rrset := by
      have htypes : (k₁.within t.origin).recordType = (k₂.within t.origin).recordType := by
        rw [hwithin]
      rcases hone with rfl | rfl
      · exact ⟨k₂, hk₂, hne.symm, htypes.symm.trans htype, hwithin.symm.trans t.key_within⟩
      · exact ⟨k₁, hk₁, hne, htype, hwithin.trans t.key_within⟩
    obtain ⟨k, hk, hkne, hktype, hkwithin⟩ := hother
    have hself : k = t.rrset := by
      rw [← hkwithin, RrKey.within_of_fqdn (h.isFqdn_of_ne hk hkne)]
    subst hself
    refine ⟨?_, hktype, ?_, (h.mem_of_ne hkne).mp hk⟩
    · rcases hone with rfl | rfl <;> assumption
    · rw [← t.isFqdn_key, ← Bool.not_eq_true]
      intro hfqdn
      exact hkne (t.key_within.symm.trans (RrKey.within_of_fqdn hfqdn))
  · rintro ⟨hmem, htype, hrelative, hbefore⟩
    -- the relative key and the absolute one it stands for
    have hne : t.key ≠ t.rrset := by
      intro heq
      have hfqdn := t.isFqdn_rrset
      rw [← heq, t.isFqdn_key, hrelative] at hfqdn
      cases hfqdn
    refine ⟨t.key, hmem, t.rrset, (h.mem_of_ne hne.symm).mpr hbefore, hne, htype, ?_⟩
    rw [t.key_within, RrKey.within_of_fqdn t.isFqdn_rrset]

omit h in
/-- After an insertion, the two SOA records are the one inserted and the one that was there. -/
theorem soaTwice_insert {create : RecordCreate}
    (h : Writes lib t rname before (.insert create) records) :
    SoaTwice t.origin records ↔ SecondSoa t before := by
  rw [h.soaTwice_iff]
  refine and_iff_right_of_imp ?_
  rintro ⟨-, hrelative, -⟩
  have hedited := h.edited
  cases hedited with
  | inserted create r hr =>
    have hkey := hr.key
    -- the owners in memory are absolute, so the relative one is new
    have hnew : ∀ k ∈ patched lib t.origin rname before, k.name ≠ r.key.name := by
      intro k hk hname
      have hfqdn := h.parsed.isFqdn (h.mem_patched.mp hk)
      rw [RrKey.isFqdn, hname, hkey, ← RrKey.isFqdn, t.isFqdn_key, hrelative] at hfqdn
      cases hfqdn
    rw [← hkey]
    exact mem_of_lookup (h.laws.upsert_new _ _ hnew)

omit h in
theorem not_soaTwice_delete {request : RecordDelete}
    (h : Writes lib t rname before (.delete request) records) : ¬ SoaTwice t.origin records := by
  rw [h.soaTwice_iff]
  rintro ⟨hmem, -⟩
  cases h.edited with
  | deleted request _ => exact (AList.mem_erase.mp hmem).1 rfl

variable {after : Records} (hback : lib.ReadsBack t.origin records)
  (hafter : lib.parse t.origin (zoneText lib t.origin records) = some after)

include hback hafter

/-- **Away from the target and the SOA record**, the file has what it had. -/
theorem lookup_after (hstable : lib.Stable t.origin before) {k : RrKey} (hk : k ≠ t.rrset)
    (hsoa : k ≠ soaKey t.origin) (hgen : generated k.recordType = false) :
    after.lookup k = before.lookup k := by
  by_cases hfqdn : k.isFqdn = true
  · have hkey : k ≠ t.key := by
      rintro rfl
      exact hk ((RrKey.within_of_fqdn hfqdn).symm.trans t.key_within)
    have hsame : records.lookup k = before.lookup k := by
      rw [h.edited.lookup_ne h.laws hkey, lookup_patched_ne h.laws hsoa]
    have hset : ∀ set, records.lookup k = some set → set ≠ [] := by
      intro set hset
      exact h.parsed.nonempty k set (hsame ▸ hset)
    rw [hback.lookup_of_ne hafter (fun k' hk' => h.isFqdn_of_ne hk') hfqdn (t.key_within ▸ hk) hgen
      hset, hsame]
    cases hlookup : before.lookup k with
    | none => rfl
    | some set =>
      have hrecords : ∀ r ∈ set, ParsedRecord r := fun r hr => (h.parsed.filed k set r hlookup hr).2
      rw [Option.map_some, filterMap_readLine_of_parsed hback (hsame.trans hlookup) hrecords
        fun r hr => hstable k set r hlookup hr]
  · -- a parsed zone has no relative keys, before or after
    have hparsed := h.laws.parsed _ _ hafter
    rw [AList.lookup_eq_none.mpr fun hmem => hfqdn (hparsed.isFqdn hmem),
      AList.lookup_eq_none.mpr fun hmem => hfqdn (h.parsed.isFqdn hmem)]

/-- **The SOA record**, when it is not the target: the patched one, its RNAME completed. -/
theorem lookup_after_soa (hsoa : soaKey t.origin ≠ t.rrset) {soa : SOA}
    (hold : oldSoa before t.origin = some soa) (hmname : soa.mname.isFqdn = true)
    (hmem : soaKey t.origin ∈ before) :
    after.lookup (soaKey t.origin) =
      some [⟨t.origin, 86400, .SOA { soa with rname := rname.within t.origin }⟩] := by
  have hfqdn : (soaKey t.origin).isFqdn = true := h.laws.absolute
  have hkey : soaKey t.origin ≠ t.key := by
    intro heq
    rw [heq] at hfqdn hsoa
    exact hsoa ((RrKey.within_of_fqdn hfqdn).symm.trans t.key_within)
  have hrecords : records.lookup (soaKey t.origin) = some [patchedSoa t.origin rname soa] := by
    rw [h.edited.lookup_ne h.laws hkey, lookup_patched_soa h.laws h.accepted hold hmem]
  have hline : readLine lib t.origin (patchedSoa t.origin rname soa) =
      some ⟨t.origin, 86400, .SOA { soa with rname := rname.within t.origin }⟩ := by
    rw [hback.readLine_eq hrecords (List.mem_singleton.mpr rfl),
      hback.soa _ _ _ { soa with rname } hrecords (List.mem_singleton.mpr rfl) rfl]
    show some (Record.mk (t.origin.within t.origin) _ _) = _
    rw [Name.within_of_fqdn h.laws.absolute, Name.within_of_fqdn hmname]
    rfl
  have hset : ∀ set, records.lookup (soaKey t.origin) = some set → set ≠ [] := by
    intro set hset
    obtain rfl := Option.some.inj (hrecords.symm.trans hset)
    exact List.cons_ne_nil _ _
  rw [hback.lookup_of_ne hafter (fun k' hk' => h.isFqdn_of_ne hk') hfqdn (t.key_within ▸ hsoa) rfl
    hset, hrecords, Option.map_some, List.filterMap_cons_some hline, List.filterMap_nil]

/-- A zone without an SOA record at the apex gets none. -/
theorem lookup_after_no_soa (hsoa : soaKey t.origin ≠ t.rrset) (hmem : soaKey t.origin ∉ before) :
    after.lookup (soaKey t.origin) = none := by
  refine hback.others after hafter _ fun k hk _ hwithin => ?_
  have hkey : k ≠ t.key := by
    rintro rfl
    exact hsoa (hwithin.symm.trans t.key_within)
  rw [RrKey.within_of_fqdn (h.isFqdn_of_ne hk hkey)] at hwithin
  exact hmem (hwithin ▸ (h.mem_of_ne hkey).mp hk)

end Writes

end Written

/-! ## One edit -/

section OneEdit

variable {lib : ZoneLib} {zoneCfg : ZoneConfig} {zonesDir : Text} {disk disk' : Disk}
  {call : RecordCall} {t : Target} {rname : Name} {before records : Records}

/-- The SOA record stays as it is: it is the target, there is none, or it is the very record that
`patch_soa_rname` puts in. -/
def SoaStays (t : Target) (rname : Name) (before : Records) : Prop :=
  t.rrset = soaKey t.origin ∨ soaKey t.origin ∉ before ∨
    ∃ soa, before.lookup (soaKey t.origin) = some [⟨t.origin, 86400, .SOA soa⟩] ∧
      soa.rname = rname.within t.origin

/-- When a call leaves everything but its target alone. A deletion may find nothing to delete. -/
def SparesOthers (t : Target) (rname : Name) (before : Records) : RecordCall → Prop
  | .insert _ => ¬ SecondSoa t before ∧ SoaStays t rname before
  | .delete _ => t.key ∉ before ∨ SoaStays t rname before

/-- `after` differs from `before` at most in the target and in the types that are not written. -/
def SameButTarget (t : Target) (before after : Records) : Prop :=
  ∀ k, k ≠ t.rrset → generated k.recordType = false → after.lookup k = before.lookup k

/-- The file that is written has everything but the target as it was, exactly when it can be read
and the SOA record stays. -/
theorem Writes.sameButTarget_iff (h : Writes lib t rname before call records)
    (hstable : lib.Stable t.origin before) (hback : lib.ReadsBack t.origin records) :
    (∃ after, lib.parse t.origin (zoneText lib t.origin records) = some after ∧
        SameButTarget t before after) ↔
      ¬ SoaTwice t.origin records ∧ SoaStays t rname before := by
  constructor
  · rintro ⟨after, hafter, hsame⟩
    refine ⟨fun htwice => ?_, ?_⟩
    · rw [hback.refused.mpr htwice] at hafter
      cases hafter
    · by_cases htarget : t.rrset = soaKey t.origin
      · exact .inl htarget
      · by_cases hmem : soaKey t.origin ∈ before
        · obtain ⟨soa, hold, hmname⟩ := h.parsed.oldSoa_eq hmem
          have hsoa := h.lookup_after_soa hback hafter (Ne.symm htarget) hold hmname hmem
          rw [hsame _ (Ne.symm htarget) rfl] at hsoa
          exact .inr (.inr ⟨_, hsoa, rfl⟩)
        · exact .inr (.inl hmem)
  · rintro ⟨htwice, hstays⟩
    obtain ⟨after, hafter⟩ := hback.exists_parse htwice
    refine ⟨after, hafter, fun k hk hgen => ?_⟩
    by_cases hsoa : k = soaKey t.origin
    · subst hsoa
      rcases hstays with htarget | hmem | ⟨soa, hlookup, hrname⟩
      · exact absurd htarget.symm hk
      · rw [h.lookup_after_no_soa hback hafter hk hmem, AList.lookup_eq_none.mpr hmem]
      · have hmem : soaKey t.origin ∈ before := mem_of_lookup hlookup
        have hold : oldSoa before t.origin = some soa := by
          unfold oldSoa
          rw [hlookup]
        obtain ⟨soa', hold', hmname⟩ := h.parsed.oldSoa_eq hmem
        obtain rfl := Option.some.inj (hold'.symm.trans hold)
        rw [h.lookup_after_soa hback hafter hk hold hmname hmem, hlookup, ← hrname]
    · exact h.lookup_after hback hafter hstable hk hsoa hgen

/-- A write that succeeds has put the content in the file. -/
theorem persistZone_eq_ok {path : Text} {origin : Name} {w : WriteOutcome}
    (h : persistZone lib disk path origin records w = (.ok (), disk')) :
    disk' = Function.update disk path (some (some (zoneText lib origin records))) := by
  cases w with
  | ok => exact (Prod.mk.inj h).2.symm
  | noDir => cases (Prod.mk.inj h).1
  | refused => cases (Prod.mk.inj h).1
  | cut len => cases (Prod.mk.inj h).1

theorem zoneOnDisk_update (origin : Name) (content : Text) :
    zoneOnDisk lib zoneCfg zonesDir origin
      (Function.update disk (zonePath zoneCfg zonesDir) (some (some content))) =
      lib.parse origin content := by
  unfold zoneOnDisk
  rw [Function.update_self]
  rfl

/-- A call whose writing goes through has put what it computed in the file. -/
theorem run_of_edit {origin : Name}
    (h : call.edit lib zoneCfg zonesDir disk = .ok (some (origin, records))) :
    call.run lib zoneCfg zonesDir disk .ok =
      (.ok (), Function.update disk (zonePath zoneCfg zonesDir)
        (some (some (zoneText lib origin records)))) := by
  rw [RecordCall.run_eq, h]
  rfl

theorem insertRecord_of_edit {create : RecordCreate} {origin : Name}
    (h : insertEdit lib zoneCfg zonesDir disk create = .ok (origin, records)) :
    insertRecord lib zoneCfg zonesDir disk create .ok =
      (.ok (), Function.update disk (zonePath zoneCfg zonesDir)
        (some (some (zoneText lib origin records)))) := by
  unfold insertRecord
  rw [h]
  rfl

/-- What an edit writes is read back once the records it computes are. -/
theorem readsBack_of_edit {origin : Name} {records : Records}
    (h : call.edit lib zoneCfg zonesDir disk = .ok (some (origin, records)))
    (hback : lib.ReadsBack origin records) :
    ∀ origin' records', call.edit lib zoneCfg zonesDir disk = .ok (some (origin', records')) →
      lib.ReadsBack origin' records' := by
  intro origin' records' h'
  obtain ⟨rfl, rfl⟩ := Prod.mk.inj (Option.some.inj (Except.ok.inj (h.symm.trans h')))
  exact hback

/-- **When an edit touches only its target.** -/
theorem only_target_iff (hlaws : lib.Laws t.origin) (htarget : call.target lib zoneCfg = .ok t)
    (hrname : lib.nameOf defaultSoaRname = some rname)
    (hbefore : zoneOnDisk lib zoneCfg zonesDir t.origin disk = some before)
    (hstable : lib.Stable t.origin before) {w : WriteOutcome}
    (hrun : call.run lib zoneCfg zonesDir disk w = (.ok (), disk'))
    (hback : ∀ origin records, call.edit lib zoneCfg zonesDir disk = .ok (some (origin, records)) →
      lib.ReadsBack origin records) :
    (∃ after, zoneOnDisk lib zoneCfg zonesDir t.origin disk' = some after ∧
        SameButTarget t before after) ↔ SparesOthers t rname before call := by
  rw [RecordCall.run_eq] at hrun
  cases hedit : call.edit lib zoneCfg zonesDir disk with
  | error e =>
    rw [hedit] at hrun
    cases hrun
  | ok e =>
    rw [hedit] at hrun
    obtain ⟨t', rname', before', result, htarget', hload, hedited, rfl⟩ := edit_eq_ok hedit
    obtain rfl := Except.ok.inj (htarget'.symm.trans htarget)
    obtain rfl := Option.some.inj (hload.newRname.symm.trans hrname)
    obtain rfl := Option.some.inj (hload.read.symm.trans hbefore)
    have hwrites : ∀ records, result = some records → Writes lib t' rname' before' call records := by
      rintro records rfl
      exact hload.writes hlaws hedited
    have hparse : ∀ records, result = some records →
        zoneOnDisk lib zoneCfg zonesDir t'.origin disk' =
          lib.parse t'.origin (zoneText lib t'.origin records) := by
      rintro records rfl
      rw [persistZone_eq_ok hrun, zoneOnDisk_update]
    cases hedited with
    | inserted create r hr =>
      have h := hwrites _ rfl
      rw [hparse _ rfl, h.sameButTarget_iff hstable (hback _ _ hedit), h.soaTwice_insert]
      rfl
    | deleted request hmem =>
      have h := hwrites _ rfl
      rw [hparse _ rfl, h.sameButTarget_iff hstable (hback _ _ hedit)]
      have hbefore' : t'.key ∈ before' := h.mem_patched.mp hmem
      show _ ↔ t'.key ∉ before' ∨ SoaStays t' rname' before'
      rw [and_iff_right h.not_soaTwice_delete, or_iff_right (not_not_intro hbefore')]
    | absent request hset =>
      obtain rfl : disk = disk' := (Prod.mk.inj hrun).2
      refine iff_of_true ⟨before', hload.read, fun k _ _ => rfl⟩ (.inl fun hmem => ?_)
      -- a set that is in the file has records, before and after the patching
      have hpatched : t'.key ∈ patched lib t'.origin rname' before' :=
        (mem_patched hlaws (hload.parsed hlaws) hload.accepted).mpr hmem
      obtain ⟨set, hlookup⟩ := exists_lookup hpatched
      exact ne_nil_of_patched hlaws (hload.parsed hlaws) hload.accepted hlookup (hset set hlookup)

/-! ### An example zone -/

/-- `example.com.` -/
def sampleOrigin : Name := .ofLabels ["example", "com"] true

/-- A name below it. -/
def sampleHost (label : String) : Name := .ofLabels [label, "example", "com"] true

/-- The data of its SOA record, but for the RNAME. -/
def sampleSoaData (rname : Name) : SOA := ⟨sampleHost "ns1", rname, 1, 3600, 900, 604800, 300⟩

/-- Its SOA record. -/
def sampleSoa (ttl : UInt32) (rname : Name) : Record :=
  ⟨sampleOrigin, ttl, .SOA (sampleSoaData rname)⟩

/-- The RNAME of a default configuration, completed. -/
def sampleRname : Name := .ofLabels ["hostadmin", "localhost", "example", "com"] true

/-- A host and the last octet of its address. -/
def sampleAddress (label : String) (last : UInt8) : Record :=
  ⟨sampleHost label, 3600, .A ⟨192, 0, 2, last⟩⟩

/-- The host the zone begins with. -/
def sampleWww : Record := sampleAddress "www" 1

/-- The host the calls are about. -/
def sampleMail : Record := sampleAddress "mail" 2

/-- A third host. -/
def sampleFtp : Record := sampleAddress "ftp" 3

/-- These records, one added after the other. -/
def zoneOf (records : List Record) : Records := records.foldl upsertPlain ∅

/-- The zone as it was set up. -/
def sampleZone : Records :=
  zoneOf [sampleSoa 3600 (sampleHost "admin"), sampleWww]

/-- The zone with these hosts as an edit writes it. -/
def writtenZone (hosts : List Record) : Records :=
  zoneOf (sampleSoa 86400 (.ofLabels ["hostadmin", "localhost"] false) :: hosts)

/-- The same as it is read. -/
def rereadZone (hosts : List Record) : Records :=
  zoneOf (sampleSoa 86400 sampleRname :: hosts)

/-- The file of a zone at `example.com.` -/
def sampleText (records : Records) : Text := zoneText (.knowing []) sampleOrigin records

/-- The hosts of the files that edits of the example write. -/
def sampleHosts : List (List Record) :=
  [[sampleWww], [sampleWww, sampleMail], [sampleWww, sampleFtp],
    [sampleWww, sampleMail, sampleFtp]]

/-- The file of the zone, one without its SOA record, and those of the edits. -/
def sampleLib : ZoneLib :=
  .knowing ([sampleZone, zoneOf [sampleWww]].map (fun zone => (sampleText zone, zone)) ++
    sampleHosts.map fun hosts => (sampleText (writtenZone hosts), rereadZone hosts))

/-- The zone in the configuration. -/
def sampleConfig : ZoneConfig := ⟨"example.com.", some "example.com.zone"⟩

/-- The directory of the zone files. -/
def sampleDir : Text := "/etc/heimdallr/zones".toList

/-- A disk with the file of the zone. -/
def sampleDisk (records : Records) : Disk :=
  Function.update (fun _ => none) (zonePath sampleConfig sampleDir)
    (some (some (sampleText records)))

/-- The insertion of the host. -/
def insertMail : RecordCall := .insert ⟨"mail.example.com.", "A", none, "192.0.2.2"⟩

theorem sampleLib_laws : sampleLib.Laws sampleOrigin := laws_knowing rfl (by decide)

theorem sampleLib_read : sampleLib.parse sampleOrigin (sampleText sampleZone) = some sampleZone :=
  parse_knowing_head (sampleText sampleZone, sampleZone) _ _

theorem sampleLib_parse : ∀ hosts ∈ sampleHosts,
    sampleLib.parse sampleOrigin (sampleText (writtenZone hosts)) = some (rereadZone hosts) := by
  decide

theorem zoneText_knowing {files : List (Text × Records)} (records : Records) :
    zoneText (.knowing files) sampleOrigin records = sampleText records := rfl

theorem zoneText_sample (records : Records) :
    zoneText sampleLib sampleOrigin records = sampleText records := zoneText_knowing records

theorem zoneOnDisk_sample {files : List (Text × Records)} (origin : Name) (zone : Records) :
    zoneOnDisk (.knowing files) sampleConfig sampleDir origin (sampleDisk zone) =
      (ZoneLib.knowing files).parse sampleOrigin (sampleText zone) :=
  zoneOnDisk_update _ _

theorem sampleZone_read (origin : Name) :
    zoneOnDisk sampleLib sampleConfig sampleDir origin (sampleDisk sampleZone) = some sampleZone :=
  (zoneOnDisk_sample origin sampleZone).trans sampleLib_read

theorem sample_reread (origin : Name) (hosts : List Record) (h : hosts ∈ sampleHosts) :
    zoneOnDisk sampleLib sampleConfig sampleDir origin (sampleDisk (writtenZone hosts)) =
      some (rereadZone hosts) :=
  (zoneOnDisk_sample origin _).trans (sampleLib_parse hosts h)

/-- What the edits of the example write is read back. -/
theorem sampleLib_readsBack (hosts : List Record) (h : hosts ∈ sampleHosts) :
    sampleLib.ReadsBack sampleOrigin (writtenZone hosts) := by
  have hreads : ∀ hosts ∈ sampleHosts,
      readsAs sampleLib sampleOrigin (writtenZone hosts) (rereadZone hosts) = true := by
    decide
  refine readsBack_knowing ?_ (hreads hosts h)
  exact (congrArg _ (zoneText_sample _)).trans (sampleLib_parse hosts h)

/-- What this call is about. -/
def mailTarget : Target := ⟨sampleOrigin, sampleHost "mail", .A⟩

theorem sample_origin : sampleLib.fromAscii sampleConfig.name = some sampleOrigin := by
  decide

theorem sample_rname : sampleLib.nameOf defaultSoaRname =
    some (.ofLabels ["hostadmin", "localhost"] false) := by
  decide

theorem insertMail_target : insertMail.target sampleLib sampleConfig = .ok mailTarget := by
  decide

theorem sampleDisk_self (zone : Records) :
    sampleDisk zone (zonePath sampleConfig sampleDir) = some (some (sampleText zone)) :=
  Function.update_self _ _ _

theorem sampleDisk_update (zone zone' : Records) :
    Function.update (sampleDisk zone) (zonePath sampleConfig sampleDir)
      (some (some (sampleText zone'))) = sampleDisk zone' :=
  Function.update_idem _ _ _

/-- The zone of a file that can be read is loaded, with the RNAME of a default configuration. -/
theorem sample_loaded {files : List (Text × Records)} {zone records handler : Records}
    (hparse : (ZoneLib.knowing files).parse sampleOrigin (sampleText zone) = some records)
    (hsoa : soaKey sampleOrigin ∈ records)
    (hhandler : patched (.knowing files) sampleOrigin (.ofLabels ["hostadmin", "localhost"] false)
      records = handler) :
    loadHandler (.knowing files) (sampleDisk zone) sampleConfig sampleDir = .ok handler := by
  rw [← hhandler]
  exact Loaded.loadHandler_eq ⟨sample_origin, sample_rname, (zoneOnDisk_sample _ _).trans hparse,
    decide_eq_true hsoa⟩ rfl

theorem sample_load : loadHandler sampleLib (sampleDisk sampleZone) sampleConfig sampleDir =
    .ok (writtenZone [sampleWww]) :=
  sample_loaded sampleLib_read (by decide) (by decide)

/-- What an edit has written is loaded as it was. -/
theorem sample_reload (hosts : List Record) (h : hosts ∈ sampleHosts) :
    loadHandler sampleLib (sampleDisk (writtenZone hosts)) sampleConfig sampleDir =
      .ok (writtenZone hosts) := by
  have hpatched : ∀ hosts ∈ sampleHosts, soaKey sampleOrigin ∈ rereadZone hosts ∧
      patched sampleLib sampleOrigin (.ofLabels ["hostadmin", "localhost"] false)
        (rereadZone hosts) = writtenZone hosts := by
    decide
  exact sample_loaded (sampleLib_parse hosts h) (hpatched hosts h).1 (hpatched hosts h).2

theorem writtenZone_concat (hosts : List Record) (host : Record) :
    writtenZone (hosts ++ [host]) = upsertPlain (writtenZone hosts) host :=
  List.foldl_concat upsertPlain ∅ host (_ :: hosts)

/-- The insertion of a host, whichever file the zone was loaded from. -/
theorem sample_inserted {disk : Disk} {hosts : List Record} {create : RecordCreate} {host : Record}
    (hload : loadHandler sampleLib disk sampleConfig sampleDir = .ok (writtenZone hosts))
    (htarget : (RecordCall.insert create).target sampleLib sampleConfig =
      .ok ⟨sampleOrigin, host.name, .A⟩)
    (hrdata : parseRdata sampleLib .A create.data.toList = .ok host.data)
    (httl : create.ttl.getD 3600 = host.ttl) :
    (RecordCall.insert create).edit sampleLib sampleConfig sampleDir disk =
      .ok (some (sampleOrigin, writtenZone (hosts ++ [host]))) := by
  refine RecordCall.edit_insert _ _ _ ?_
  rw [insertEdit_ok hload htarget hrdata, httl, writtenZone_concat]
  rfl

theorem insertMail_rdata : parseRdata sampleLib .A "192.0.2.2".toList =
    .ok (.A ⟨192, 0, 2, 2⟩) := by
  decide

/-- The first edit of the zone. -/
theorem sample_insert : insertMail.edit sampleLib sampleConfig sampleDir (sampleDisk sampleZone) =
    .ok (some (sampleOrigin, writtenZone [sampleWww, sampleMail])) :=
  sample_inserted sample_load insertMail_target insertMail_rdata rfl

/-- A call on a disk with the file of a zone leaves one with the file of what it computed. -/
theorem sample_run {call : RecordCall} {zone records : Records}
    (h : call.edit sampleLib sampleConfig sampleDir (sampleDisk zone) =
      .ok (some (sampleOrigin, records))) :
    call.run sampleLib sampleConfig sampleDir (sampleDisk zone) .ok =
      (.ok (), sampleDisk records) := by
  rw [run_of_edit h, zoneText_sample, sampleDisk_update]

/-- A second edit: the SOA record is patched already. -/
theorem only_target_patched :
    ∃ after, zoneOnDisk sampleLib sampleConfig sampleDir sampleOrigin
        (insertMail.run sampleLib sampleConfig sampleDir
          (sampleDisk (writtenZone [sampleWww])) .ok).2 = some after ∧
      SameButTarget mailTarget (rereadZone [sampleWww]) after := by
  have hedit : insertMail.edit sampleLib sampleConfig sampleDir
      (sampleDisk (writtenZone [sampleWww])) =
        .ok (some (sampleOrigin, writtenZone [sampleWww, sampleMail])) :=
    sample_inserted (sample_reload _ List.mem_cons_self) insertMail_target insertMail_rdata rfl
  have hsoa : (rereadZone [sampleWww]).lookup (soaKey sampleOrigin) =
      some [sampleSoa 86400 sampleRname] := by
    decide
  have hback := sampleLib_readsBack [sampleWww, sampleMail]
    (List.mem_cons_of_mem _ List.mem_cons_self)
  have hstable : sampleLib.Stable sampleOrigin (rereadZone [sampleWww]) :=
    stable_plain (by decide)
  rw [sample_run hedit]
  refine (only_target_iff sampleLib_laws insertMail_target sample_rname
    (sample_reread _ _ List.mem_cons_self) hstable (sample_run hedit)
    (readsBack_of_edit hedit hback)).mpr ⟨?_, .inr (.inr ⟨sampleSoaData sampleRname, hsoa, rfl⟩)⟩
  rintro ⟨htype, -⟩
  cases htype

/-- The first edit of a zone: a host is added, and the SOA record is another one afterwards. -/
theorem soa_rewritten :
    sampleLib.Laws sampleOrigin ∧ sampleLib.Stable sampleOrigin sampleZone ∧
      sampleLib.ReadsBack sampleOrigin (writtenZone [sampleWww, sampleMail]) ∧
      insertMail.edit sampleLib sampleConfig sampleDir (sampleDisk sampleZone) =
        .ok (some (sampleOrigin, writtenZone [sampleWww, sampleMail])) ∧
      (insertMail.run sampleLib sampleConfig sampleDir (sampleDisk sampleZone) .ok).1 = .ok () ∧
      ¬ ∃ after, zoneOnDisk sampleLib sampleConfig sampleDir sampleOrigin
          (insertMail.run sampleLib sampleConfig sampleDir (sampleDisk sampleZone) .ok).2 =
            some after ∧
        SameButTarget mailTarget sampleZone after := by
  have hhosts : [sampleWww, sampleMail] ∈ sampleHosts := List.mem_cons_of_mem _ List.mem_cons_self
  rw [sample_run sample_insert, sample_reread _ _ hhosts]
  refine ⟨sampleLib_laws, stable_plain (by decide), sampleLib_readsBack _ hhosts,
    sample_insert, rfl, ?_⟩
  rintro ⟨after, hafter, hsame⟩
  obtain rfl := Option.some.inj hafter
  have hsoa := hsame (soaKey sampleOrigin) (by decide) rfl
  revert hsoa
  decide

end OneEdit

/-! ## Sequences of edits -/

/-- One call of a sequence, with what becomes of its writing; failed calls are part of it. -/
def callStep (lib : ZoneLib) (zoneCfg : ZoneConfig) (zonesDir : Text)
    (a : RecordCall × WriteOutcome) (disk : Disk) : Option Disk :=
  some (a.1.run lib zoneCfg zonesDir disk a.2).2

/-- The deletion of the host. -/
def deleteMail : RecordCall := .delete ⟨"mail.example.com.", "A"⟩

theorem deleteMail_target : deleteMail.target sampleLib sampleConfig = .ok mailTarget := by
  decide

/-- The host is taken out of the zone as it was written. -/
theorem sample_deleted : deleteMail.edit sampleLib sampleConfig sampleDir
    (sampleDisk (writtenZone [sampleWww, sampleMail])) =
      .ok (some (sampleOrigin, writtenZone [sampleWww])) := by
  have herase : (writtenZone [sampleWww, sampleMail]).erase mailTarget.key =
        writtenZone [sampleWww] ∧
      (writtenZone [sampleWww, sampleMail]).lookup mailTarget.key = some [sampleMail] := by
    decide
  have hload := sample_reload [sampleWww, sampleMail] (List.mem_cons_of_mem _ List.mem_cons_self)
  have hedit := deleteEdit_ok hload deleteMail_target
  rw [herase.1, herase.2] at hedit
  exact RecordCall.edit_delete _ _ _ hedit Nat.one_pos

theorem sample_delete : deleteMail.edit sampleLib sampleConfig sampleDir
    (insertMail.run sampleLib sampleConfig sampleDir (sampleDisk sampleZone) .ok).2 =
      .ok (some (sampleOrigin, writtenZone [sampleWww])) := by
  rw [sample_run sample_insert]
  exact sample_deleted

end Heimdallr.Zone
