import Heimdallr.Zone.Listing

/-!
# Finding what was inserted

An insertion, a listing and a deletion with the same two strings read the owner in three ways, and
between them the zone goes through its file. `insert_record` knows three spellings of the origin,
`delete_records` two and `get_records` none; the owners that are read from a file are absolute.

* `Found` is a row of `get_records` with the owner, type, TTL and data that were inserted;
  `TakenOut` a deletion that reports at least one record and leaves no such set.
* hickory's `upsert_mut` may refuse a record, and `insert_record` does not look at what it returns.
  `ZoneLib.Refuses` is this answer, as a parameter, with what it means for the records.
* `StaysFindable` is the condition, on the request, the zone and the data: an owner written in full,
  a record that is taken or already there, and data that survives the file.

Results:
* `absolute_of_found`: only an absolute owner is found.
* `Inserts.present_iff`: the inserted record in the zone that is read again.
* **`inserted_found_iff`**: when an inserted record is listed and deleted under the strings it was
  inserted with.
-/

namespace Heimdallr.Zone

open Heimdallr.Net

/-- When `upsert_mut` refuses a record: it returns `false`, and changes nothing. -/
structure ZoneLib.Refuses (lib : ZoneLib) (refuses : Records → Record → Bool) : Prop where
  kept : ∀ records r, refuses records r = true → lib.upsert records r = records
  taken : ∀ records r, refuses records r = false →
    ∃ set, (lib.upsert records r).lookup r.key = some set ∧ r ∈ set
  /-- an SOA record that is taken replaces the one there was -/
  taken_soa : ∀ records r, refuses records r = false → r.recordType = .SOA →
    (lib.upsert records r).lookup r.key = some [r]

/-- `get_records` with the two strings of the insertion shows the record, under the key it is filed
under. -/
def Found (lib : ZoneLib) (zoneCfg : ZoneConfig) (zonesDir : Text) (disk : Disk)
    (create : RecordCreate) (k : RrKey) (r : Record) : Prop :=
  ∃ listed, matchingRecords lib zoneCfg zonesDir disk create.name create.recordType = .ok listed ∧
    ∃ x ∈ listed, x.key = k ∧ x.ttl = r.ttl ∧ x.data = r.data

/-- `delete_records` with the two strings of the insertion reports at least one record, and the
record set is not in the file afterwards. -/
def TakenOut (lib : ZoneLib) (zoneCfg : ZoneConfig) (zonesDir : Text) (disk : Disk) (origin : Name)
    (create : RecordCreate) (k : RrKey) : Prop :=
  ∃ n disk' after, deleteRecords lib zoneCfg zonesDir disk ⟨create.name, create.recordType⟩ .ok =
      (.ok n, disk') ∧ 1 ≤ n ∧
    zoneOnDisk lib zoneCfg zonesDir origin disk' = some after ∧ after.lookup k = none

/-- The record is in the set already, with this TTL and data. -/
def Present (records : Records) (k : RrKey) (r : Record) : Prop :=
  ∃ set, records.lookup k = some set ∧ ∃ x ∈ set, x.ttl = r.ttl ∧ x.data = r.data

theorem present_of_single {records : Records} {k : RrKey} {r x : Record}
    (h : records.lookup k = some [x]) : Present records k r ↔ x.ttl = r.ttl ∧ x.data = r.data := by
  unfold Present
  rw [h]
  simp

/-- The SOA record is the one `patch_soa_rname` puts in. -/
def PatchedAlike (rname : Name) (r : Record) : Prop :=
  r.ttl = 86400 ∧ ∃ soa, r.data = .SOA soa ∧ soa.rname = rname ∧ soa.mname.isFqdn = true

/-- What it takes for an inserted record to be found and deleted under the strings it was inserted
with. -/
structure StaysFindable (lib : ZoneLib) (refuses : Records → Record → Bool) (handler : Records)
    (rname : Name) (t : Target) (create : RecordCreate) (r : Record) : Prop where
  /-- the owner is written in full, with its final dot -/
  full : create.name.toList.getLast? = some '.'
  /-- and so is absolute: the final dot is not an escaped one -/
  absolute : t.owner.isFqdn = true
  /-- `upsert_mut` takes the record, or the zone has it -/
  taken : refuses handler r = false ∨ Present handler t.key r
  /-- the text of its data is read as that data; the SOA record of the zone is patched when it is
  read -/
  data : if t.rrset = soaKey t.origin then PatchedAlike rname r
    else lib.reread t.origin r.data = r.data

section Inserted

variable {lib : ZoneLib} {zoneCfg : ZoneConfig} {zonesDir : Text} {disk disk' : Disk}
  {create : RecordCreate} {t : Target} {rname : Name} {before handler records after : Records}

/-- No type can be inserted that is left out when the file is written. -/
theorem generated_of_parseRdata {rtype : RecordType} {data : Text} {rdata : RData}
    (h : parseRdata lib rtype data = .ok rdata) : generated rtype = false := by
  cases hgen : generated rtype with
  | false => rfl
  | true =>
    unfold parseRdata at h
    cases rtype with
    | RRSIG | NSEC | NSEC3 | NSEC3PARAM | DNSKEY => cases h
    | _ => cases hgen

/-! ### The strings of the request, read again -/

/-- Of the spellings of the origin, only the name of the zone ends with a dot. -/
theorem namesOrigin_of_full (hfull : create.name.toList.getLast? = some '.') :
    create.namesOrigin zoneCfg = (create.name == zoneCfg.name) := by
  unfold RecordCreate.namesOrigin
  rw [beq_of_full hfull (by decide : "@".toList.getLast? ≠ some '.'),
    beq_of_full hfull (by decide : "".toList.getLast? ≠ some '.'), Bool.false_or, Bool.or_false]

/-- So a deletion with the strings of the insertion has the target of the insertion. -/
theorem delete_target_of_full (hfull : create.name.toList.getLast? = some '.') :
    (RecordCall.delete ⟨create.name, create.recordType⟩).target lib zoneCfg =
      (RecordCall.insert create).target lib zoneCfg := by
  have hsame : (RecordCall.delete ⟨create.name, create.recordType⟩).namesOrigin zoneCfg =
      (RecordCall.insert create).namesOrigin zoneCfg := by
    show (create.name == "@" || create.name == zoneCfg.name) = create.namesOrigin zoneCfg
    rw [namesOrigin_of_full hfull,
      beq_of_full hfull (by decide : "@".toList.getLast? ≠ some '.'), Bool.false_or]
  unfold RecordCall.target
  rw [hsame]
  rfl

/-- An owner written in full is the one its text stands for. -/
theorem fromAscii_of_full (htarget : (RecordCall.insert create).target lib zoneCfg = .ok t)
    (hfull : create.name.toList.getLast? = some '.') :
    lib.fromAscii create.name = some t.owner := by
  obtain ⟨-, horigin, howner⟩ := of_target_eq_ok htarget
  have howner' : ownerOf lib t.origin (create.name == zoneCfg.name) create.name = .ok t.owner := by
    rw [← namesOrigin_of_full hfull]
    exact howner
  by_cases hzone : create.name = zoneCfg.name
  · rw [beq_iff_eq.mpr hzone] at howner'
    rw [hzone, horigin, Except.ok.inj howner']
  · rw [beq_eq_false_iff_ne.mpr hzone] at howner'
    exact orErr_eq_ok howner'

/-! ### The zone, read again -/

/-- What was read once from a configured file is read again when the file has a zone. -/
theorem loadHandler_of_loaded (hload : loadHandler lib disk zoneCfg zonesDir = .ok handler)
    {origin : Name} (hloaded : Loaded lib zoneCfg zonesDir disk' origin rname after) :
    loadHandler lib disk' zoneCfg zonesDir = .ok (patched lib origin rname after) := by
  obtain ⟨file, hfile, -⟩ := bind_eq_ok hload
  exact hloaded.loadHandler_eq (orErr_eq_ok hfile)

namespace Writes

variable (h : Writes lib t rname before (.insert create) records)
  (habsolute : t.owner.isFqdn = true)

include h habsolute

theorem isFqdn_all : ∀ k ∈ records, k.isFqdn = true := by
  intro k hk
  by_cases hkey : k = t.key
  · subst hkey
    exact habsolute
  · exact h.isFqdn_of_ne hk hkey

/-- The record set of the target, as it is read. -/
theorem lookup_inserted (hback : lib.ReadsBack t.origin records)
    (hafter : lib.parse t.origin (zoneText lib t.origin records) = some after)
    (hgen : generated t.rtype = false) (hne : ∀ set, records.lookup t.key = some set → set ≠ []) :
    after.lookup t.key = (records.lookup t.key).map
      (List.map fun y => ⟨y.name.within t.origin, y.ttl, lib.reread t.origin y.data⟩) := by
  have hsource : ∀ k ∈ records, k.within t.origin = t.key → k = t.key := by
    intro k hk hwithin
    rw [← hwithin, RrKey.within_of_fqdn (h.isFqdn_all habsolute k hk)]
  have hkey : t.key.isFqdn = true := habsolute
  rw [hback.lookup_of_source hafter hkey hsource hgen hne]
  cases hset : records.lookup t.key with
  | none => rfl
  | some set =>
    have hlines : ∀ y ∈ set, readLine lib t.origin y =
        some ⟨y.name.within t.origin, y.ttl, lib.reread t.origin y.data⟩ := by
      intro y hy
      exact hback.readLine_eq hset hy
    rw [Option.map_some, Option.map_some, List.filterMap_congr hlines]
    simp

end Writes

/-! ### The two calls after it -/

/-- A record is listed only under an absolute owner: the owners that were read are absolute. -/
theorem absolute_of_found (hlaws : lib.Laws t.origin)
    (horigin : lib.fromAscii zoneCfg.name = some t.origin) {k : RrKey} {r : Record}
    (hfound : Found lib zoneCfg zonesDir disk' create k r) :
    ∃ n, lib.fromAscii create.name = some n ∧ n.isFqdn = true := by
  obtain ⟨listed, hlisted, hx⟩ := hfound
  obtain ⟨handler', hload, -⟩ := bind_eq_ok hlisted
  obtain ⟨rtype, n, set, -, hn, hset, -⟩ := (exists_matching_iff hload).mp ⟨listed, hlisted, hx⟩
  obtain ⟨origin, rname, after, hloaded, rfl⟩ := loadHandler_eq_ok hload
  obtain rfl := Option.some.inj (hloaded.zoneName.symm.trans horigin)
  have hparsed := hloaded.parsed hlaws
  exact ⟨n, hn, hparsed.isFqdn ((mem_patched hlaws hparsed hloaded.accepted).mp (mem_of_lookup hset))⟩

/-- With its owner in full, the record is listed when the zone that is read has it. -/
theorem found_iff (hlaws : lib.Laws t.origin)
    (htarget : (RecordCall.insert create).target lib zoneCfg = .ok t)
    (hfull : create.name.toList.getLast? = some '.')
    (hload : loadHandler lib disk' zoneCfg zonesDir = .ok (patched lib t.origin rname after))
    (hloaded : Loaded lib zoneCfg zonesDir disk' t.origin rname after) {r : Record} :
    Found lib zoneCfg zonesDir disk' create t.key r ↔
      Present (patched lib t.origin rname after) t.key r := by
  have hrtype := (of_target_eq_ok htarget).1
  have hname := fromAscii_of_full htarget hfull
  unfold Found Present
  rw [exists_matching_iff hload]
  constructor
  · rintro ⟨rtype, n, set, hrtype', hn, hset, x, hx, -, hsame⟩
    obtain rfl := Except.ok.inj (hrtype'.symm.trans hrtype)
    obtain rfl := Option.some.inj (hn.symm.trans hname)
    exact ⟨set, hset, x, hx, hsame⟩
  · rintro ⟨set, hset, x, hx, hsame⟩
    exact ⟨t.rtype, t.owner, set, hrtype, hname, hset, x, hx,
      key_of_patched hlaws (hloaded.parsed hlaws) hloaded.accepted hset hx, hsame⟩

/-- And what is listed can be deleted. -/
theorem takenOut_of_present (hlaws : lib.Laws t.origin)
    (htarget : (RecordCall.insert create).target lib zoneCfg = .ok t)
    (hfull : create.name.toList.getLast? = some '.') (habsolute : t.owner.isFqdn = true)
    (hload : loadHandler lib disk' zoneCfg zonesDir = .ok (patched lib t.origin rname after))
    (hloaded : Loaded lib zoneCfg zonesDir disk' t.origin rname after)
    (hback : ∀ origin records, (RecordCall.delete ⟨create.name, create.recordType⟩).edit lib zoneCfg
      zonesDir disk' = .ok (some (origin, records)) → lib.ReadsBack origin records)
    {r : Record} (hpresent : Present (patched lib t.origin rname after) t.key r) :
    TakenOut lib zoneCfg zonesDir disk' t.origin create t.rrset := by
  obtain ⟨set, hset, x, hx, -⟩ := hpresent
  have hne : set ≠ [] := List.ne_nil_of_mem hx
  rw [← delete_target_of_full hfull] at htarget
  obtain ⟨disk'', last, hrun, hfile, hgone, -⟩ :=
    deletion_done hlaws hload hloaded htarget habsolute hback hset hne
  exact ⟨set.length, disk'', last, hrun, List.length_pos_of_ne_nil hne, hfile, hgone⟩

/-! ### The record, read back -/

theorem soa_of_parseRdata {data : Text} {rdata : RData} (h : parseRdata lib .SOA data = .ok rdata) :
    ∃ soa, rdata = .SOA soa := by
  obtain ⟨soa, -, h⟩ := bind_eq_ok h
  exact ⟨soa, (Except.ok.inj h).symm⟩

theorem within_eq_self_iff {n origin : Name} : n.within origin = n ↔ n.isFqdn = true := by
  constructor
  · intro h
    by_contra hrelative
    unfold Name.within at h
    rw [if_neg hrelative] at h
    rw [← h] at hrelative
    exact hrelative rfl
  · exact Name.within_of_fqdn

/-- The zone before and after an insertion under an absolute owner, both as they are read. -/
structure Inserts (lib : ZoneLib) (refuses : Records → Record → Bool) (zoneCfg : ZoneConfig)
    (zonesDir : Text) (disk' : Disk) (t : Target) (rname : Name) (before after : Records)
    (create : RecordCreate) (r : Record) : Prop where
  refuses : lib.Refuses refuses
  key : r.key = t.key
  absolute : t.owner.isFqdn = true
  notGenerated : generated t.rtype = false
  soa : t.rtype = .SOA → ∃ soa, r.data = .SOA soa
  writes : Writes lib t rname before (.insert create)
    (lib.upsert (patched lib t.origin rname before) r)
  reads : lib.ReadsBack t.origin (lib.upsert (patched lib t.origin rname before) r)
  loaded : Loaded lib zoneCfg zonesDir disk' t.origin rname after
  parses : lib.parse t.origin
    (zoneText lib t.origin (lib.upsert (patched lib t.origin rname before) r)) = some after

namespace Inserts

variable {refuses : Records → Record → Bool} {r : Record}
  (h : Inserts lib refuses zoneCfg zonesDir disk' t rname before after create r)

include h

theorem upsert_ne_nil {set : List Record}
    (hset : (lib.upsert (patched lib t.origin rname before) r).lookup t.key = some set) :
    set ≠ [] := by
  cases hr : refuses (patched lib t.origin rname before) r with
  | true =>
    rw [h.refuses.kept _ _ hr] at hset
    exact ne_nil_of_patched h.writes.laws h.writes.parsed h.writes.accepted hset
  | false =>
    obtain ⟨set', hset', hmem⟩ := h.refuses.taken _ _ hr
    rw [h.key, hset] at hset'
    obtain rfl := Option.some.inj hset'
    exact List.ne_nil_of_mem hmem

/-- The set of the record, as it is read. -/
theorem lookup_after : after.lookup t.key =
    ((lib.upsert (patched lib t.origin rname before) r).lookup t.key).map
      (List.map fun y => ⟨y.name.within t.origin, y.ttl, lib.reread t.origin y.data⟩) :=
  h.writes.lookup_inserted h.absolute h.reads h.parses h.notGenerated fun _ => h.upsert_ne_nil

/-- Away from the SOA record of the zone, a record is there again exactly when its data is read as
it is and it was in the zone that was written. -/
theorem present_of_ne (hstable : lib.Stable t.origin before) (hne : t.key ≠ soaKey t.origin) :
    Present (patched lib t.origin rname after) t.key r ↔
      (refuses (patched lib t.origin rname before) r = false ∨
          Present (patched lib t.origin rname before) t.key r) ∧
        lib.reread t.origin r.data = r.data := by
  have hlaws := h.writes.laws
  have hold : ∀ set y, (patched lib t.origin rname before).lookup t.key = some set → y ∈ set →
      lib.reread t.origin y.data = y.data := by
    intro set y hset hy
    rw [lookup_patched_ne hlaws hne] at hset
    exact hstable _ set y hset hy
  constructor
  · rintro ⟨set, hset, x, hx, httl, hdata⟩
    rw [lookup_patched_ne hlaws hne, h.lookup_after] at hset
    obtain ⟨written, hwritten, rfl⟩ := Option.map_eq_some_iff.mp hset
    obtain ⟨y, hy, rfl⟩ := List.mem_map.mp hx
    replace hdata : lib.reread t.origin y.data = r.data := hdata
    cases hr : refuses (patched lib t.origin rname before) r with
    | false =>
      refine ⟨.inl rfl, ?_⟩
      -- the record that is found is the one inserted, or was there with the same data
      rw [← h.key] at hwritten
      rcases hlaws.upsert_mem _ r written y hwritten hy with rfl | ⟨set, hset, hmem⟩
      · exact hdata
      · have hsame := hold set y (h.key ▸ hset) hmem
        rw [← hdata, hsame, hsame]
    | true =>
      -- nothing was changed: what was read is what the zone had
      rw [h.refuses.kept _ _ hr] at hwritten
      have hsame := hold written y hwritten hy
      refine ⟨.inr ⟨written, hwritten, y, hy, httl, hsame.symm.trans hdata⟩, ?_⟩
      rw [← hdata, hsame, hsame]
  · rintro ⟨htaken, hreread⟩
    have hwritten : Present (lib.upsert (patched lib t.origin rname before) r) t.key r := by
      cases hr : refuses (patched lib t.origin rname before) r with
      | false =>
        obtain ⟨set, hset, hmem⟩ := h.refuses.taken _ _ hr
        rw [h.key] at hset
        exact ⟨set, hset, r, hmem, rfl, rfl⟩
      | true =>
        rw [h.refuses.kept _ _ hr]
        exact htaken.resolve_left (by rw [hr]; exact Bool.noConfusion)
    obtain ⟨set, hset, y, hy, httl, hdata⟩ := hwritten
    unfold Present
    rw [lookup_patched_ne hlaws hne, h.lookup_after, hset]
    exact ⟨_, rfl, _, List.mem_map_of_mem hy, httl, by rw [hdata]; exact hreread⟩

/-- The SOA record of the zone, as it is read and patched. -/
theorem lookup_soa (hsoa : t.key = soaKey t.origin) {y : Record} {soa : SOA}
    (hwritten : (lib.upsert (patched lib t.origin rname before) r).lookup t.key = some [y])
    (hy : y.data = .SOA soa) :
    (patched lib t.origin rname after).lookup t.key =
      some [patchedSoa t.origin rname { soa with mname := soa.mname.within t.origin }] := by
  have hread := h.lookup_after
  rw [hwritten, hsoa] at hread
  rw [hsoa] at hwritten
  have hdata := h.reads.soa _ _ _ soa hwritten (List.mem_singleton.mpr rfl) hy
  rw [Option.map_some, List.map_singleton, hdata] at hread
  have hold : oldSoa after t.origin =
      some { soa with mname := soa.mname.within t.origin, rname := soa.rname.within t.origin } := by
    unfold oldSoa
    rw [hread]
  rw [hsoa, lookup_patched_soa h.writes.laws h.loaded.accepted hold (mem_of_lookup hread)]
  rfl

/-- An SOA record that is taken is there again when it is as the one that is patched. -/
theorem present_of_taken (hsoa : t.key = soaKey t.origin)
    (hr : refuses (patched lib t.origin rname before) r = false) :
    Present (patched lib t.origin rname after) t.key r ↔ PatchedAlike rname r := by
  have htype : t.rtype = .SOA := congrArg RrKey.recordType hsoa
  obtain ⟨soa, hdata⟩ := h.soa htype
  have hrtype : r.recordType = .SOA := (congrArg RrKey.recordType h.key).trans htype
  have hwritten := h.refuses.taken_soa _ _ hr hrtype
  rw [h.key] at hwritten
  rw [present_of_single (h.lookup_soa hsoa hwritten hdata), hdata]
  constructor
  · rintro ⟨httl, hsame⟩
    have hsoas := RData.SOA.inj hsame
    exact ⟨httl.symm, soa, hdata, (congrArg SOA.rname hsoas).symm,
      within_eq_self_iff.mp (congrArg SOA.mname hsoas)⟩
  · rintro ⟨httl, soa', hdata', hrname, hmname⟩
    obtain rfl := RData.SOA.inj (hdata'.symm.trans hdata)
    refine ⟨httl.symm, ?_⟩
    show RData.SOA { soa' with mname := soa'.mname.within t.origin, rname := rname } = .SOA soa'
    rw [Name.within_of_fqdn hmname, ← hrname]

omit h in
/-- In a zone that was read, the SOA record is as it is patched. -/
theorem patchedAlike_of_present {origin : Name} (hlaws : lib.Laws origin)
    (hparsed : Parsed before) (haccepted : lib.accepts origin before = true)
    (hpresent : Present (patched lib origin rname before) (soaKey origin) r) :
    PatchedAlike rname r := by
  obtain ⟨set, hset, -⟩ := id hpresent
  have hmem : soaKey origin ∈ before :=
    (Zone.mem_patched hlaws hparsed haccepted).mp (mem_of_lookup hset)
  obtain ⟨soa, hold, hmname⟩ := hparsed.oldSoa_eq hmem
  obtain ⟨httl, hdata⟩ :=
    (present_of_single (lookup_patched_soa hlaws haccepted hold hmem)).mp hpresent
  exact ⟨httl.symm, _, hdata.symm, rfl, hmname⟩

/-- Where the record is refused, patching again changes nothing. -/
theorem lookup_of_refused (hsoa : t.key = soaKey t.origin)
    (hr : refuses (patched lib t.origin rname before) r = true) :
    (patched lib t.origin rname after).lookup t.key =
      (patched lib t.origin rname before).lookup t.key := by
  have hkept := h.refuses.kept _ _ hr
  by_cases hmem : soaKey t.origin ∈ before
  · obtain ⟨old, hold, hmname⟩ := h.writes.parsed.oldSoa_eq hmem
    have hbefore : (patched lib t.origin rname before).lookup t.key =
        some [patchedSoa t.origin rname old] := by
      rw [hsoa, lookup_patched_soa h.writes.laws h.writes.accepted hold hmem]
    have hafter := h.lookup_soa hsoa (hkept ▸ hbefore) rfl
    rw [Name.within_of_fqdn hmname] at hafter
    exact hafter.trans hbefore.symm
  · have hbefore : t.key ∉ patched lib t.origin rname before := by
      rw [hsoa]
      exact mt h.writes.mem_patched.mp hmem
    have hnone := h.lookup_after
    rw [hkept, AList.lookup_eq_none.mpr hbefore, Option.map_none] at hnone
    have hafter : soaKey t.origin ∉ after := by
      rw [← hsoa]
      exact AList.lookup_eq_none.mp hnone
    unfold patched
    rw [oldSoa_eq_none hafter, hnone]
    exact (AList.lookup_eq_none.mpr hbefore).symm

/-- The SOA record of the zone is there again when it was written and is as it is patched. -/
theorem present_of_soa (hsoa : t.key = soaKey t.origin) :
    Present (patched lib t.origin rname after) t.key r ↔
      (refuses (patched lib t.origin rname before) r = false ∨
          Present (patched lib t.origin rname before) t.key r) ∧ PatchedAlike rname r := by
  cases hr : refuses (patched lib t.origin rname before) r with
  | false => rw [h.present_of_taken hsoa hr, and_iff_right (.inl rfl)]
  | true =>
    have halike : Present (patched lib t.origin rname before) t.key r → PatchedAlike rname r := by
      rw [hsoa]
      exact patchedAlike_of_present h.writes.laws h.writes.parsed h.writes.accepted
    have hsame : Present (patched lib t.origin rname after) t.key r ↔
        Present (patched lib t.origin rname before) t.key r := by
      unfold Present
      rw [h.lookup_of_refused hsoa hr]
    rw [hsame, or_iff_right Bool.noConfusion]
    exact (and_iff_left_of_imp halike).symm

/-- **The inserted record in the zone that is read again.** -/
theorem present_iff (hstable : lib.Stable t.origin before) :
    Present (patched lib t.origin rname after) t.key r ↔
      (refuses (patched lib t.origin rname before) r = false ∨
          Present (patched lib t.origin rname before) t.key r) ∧
        if t.rrset = soaKey t.origin then PatchedAlike rname r
        else lib.reread t.origin r.data = r.data := by
  rw [← Target.key_of_absolute h.absolute]
  split
  · rename_i hsoa
    exact h.present_of_soa hsoa
  · rename_i hne
    exact h.present_of_ne hstable hne

end Inserts

/-- A successful insertion, done: what it has computed and what is in the file. -/
theorem insertion_done (hload : loadHandler lib disk zoneCfg zonesDir = .ok handler)
    (htarget : (RecordCall.insert create).target lib zoneCfg = .ok t) {rdata : RData}
    (hrdata : parseRdata lib t.rtype create.data.toList = .ok rdata) {w : WriteOutcome}
    (hinsert : insertRecord lib zoneCfg zonesDir disk create w = (.ok (), disk')) :
    let records := lib.upsert handler ⟨t.owner, create.ttl.getD 3600, rdata⟩
    insertEdit lib zoneCfg zonesDir disk create = .ok (t.origin, records) ∧
      zoneOnDisk lib zoneCfg zonesDir t.origin disk' =
        lib.parse t.origin (zoneText lib t.origin records) := by
  intro records
  have hedit : insertEdit lib zoneCfg zonesDir disk create = .ok (t.origin, records) :=
    insertEdit_ok hload htarget hrdata
  refine ⟨hedit, ?_⟩
  unfold insertRecord at hinsert
  rw [hedit] at hinsert
  rw [persistZone_eq_ok hinsert, zoneOnDisk_update]

/-- Under an absolute owner, the zone that is read again is the one the insertion was to make. -/
theorem inserts_of_read {refuses : Records → Record → Bool} (hrefuses : lib.Refuses refuses)
    (hloaded : Loaded lib zoneCfg zonesDir disk t.origin rname before) {r : Record}
    (hr : Inserted lib t create r)
    (hwrites : Writes lib t rname before (.insert create)
      (lib.upsert (patched lib t.origin rname before) r))
    (hreads : lib.ReadsBack t.origin (lib.upsert (patched lib t.origin rname before) r))
    (hwrote : zoneOnDisk lib zoneCfg zonesDir t.origin disk' =
      lib.parse t.origin
        (zoneText lib t.origin (lib.upsert (patched lib t.origin rname before) r)))
    (haccepts : lib.parse t.origin (zoneText lib t.origin
        (lib.upsert (patched lib t.origin rname before) r)) = some after →
      lib.accepts t.origin after = true)
    (habsolute : t.owner.isFqdn = true)
    (hafter : lib.parse t.origin (zoneText lib t.origin
      (lib.upsert (patched lib t.origin rname before) r)) = some after) :
    Inserts lib refuses zoneCfg zonesDir disk' t rname before after create r := by
  have hkey := hr.key
  obtain ⟨rdata, hrdata, rfl⟩ := hr
  refine ⟨hrefuses, hkey, habsolute, generated_of_parseRdata hrdata, ?_, hwrites, hreads,
    ⟨hloaded.zoneName, hloaded.newRname, hwrote.trans hafter, haccepts hafter⟩, hafter⟩
  intro htype
  rw [htype] at hrdata
  exact soa_of_parseRdata hrdata

/-- **When what was inserted is found and deleted under the strings of its insertion.** -/
theorem inserted_found_iff (hlaws : lib.Laws t.origin)
    (hdot : ∀ n, lib.fromAscii create.name = some n → n.isFqdn = true →
      create.name.toList.getLast? = some '.')
    {refuses : Records → Record → Bool} (hrefuses : lib.Refuses refuses)
    (hread : zoneOnDisk lib zoneCfg zonesDir t.origin disk = some before)
    (hstable : lib.Stable t.origin before)
    (hload : loadHandler lib disk zoneCfg zonesDir = .ok handler)
    (hrname : lib.nameOf defaultSoaRname = some rname)
    (htarget : (RecordCall.insert create).target lib zoneCfg = .ok t) {rdata : RData}
    (hrdata : parseRdata lib t.rtype create.data.toList = .ok rdata) {w : WriteOutcome}
    (hinsert : insertRecord lib zoneCfg zonesDir disk create w = (.ok (), disk'))
    (hback : ∀ origin records, insertEdit lib zoneCfg zonesDir disk create = .ok (origin, records) →
      lib.ReadsBack origin records)
    (haccepts : ∀ origin records,
      insertEdit lib zoneCfg zonesDir disk create = .ok (origin, records) →
      (∀ k ∈ records, k.isFqdn = true) → ∀ after,
      lib.parse origin (zoneText lib origin records) = some after → lib.accepts origin after = true)
    (hback' : ∀ origin records, (RecordCall.delete ⟨create.name, create.recordType⟩).edit lib zoneCfg
      zonesDir disk' = .ok (some (origin, records)) → lib.ReadsBack origin records) :
    let r : Record := ⟨t.owner, create.ttl.getD 3600, rdata⟩
    Found lib zoneCfg zonesDir disk' create t.rrset r ∧
        TakenOut lib zoneCfg zonesDir disk' t.origin create t.rrset ↔
      StaysFindable lib refuses handler rname t create r := by
  intro r
  obtain ⟨origin, rname', before, hloaded, rfl⟩ := loadHandler_eq_ok hload
  obtain rfl := Option.some.inj (hloaded.zoneName.symm.trans (of_target_eq_ok htarget).2.1)
  obtain rfl := Option.some.inj (hloaded.read.symm.trans hread)
  obtain rfl := Option.some.inj (hloaded.newRname.symm.trans hrname)
  have hr : Inserted lib t create r := ⟨rdata, hrdata, rfl⟩
  obtain ⟨hedit, hwrote⟩ := insertion_done hload htarget hrdata hinsert
  have hwrites : Writes lib t rname' before (.insert create)
      (lib.upsert (patched lib t.origin rname' before) r) :=
    hloaded.writes hlaws (.inserted create r hr)
  have hreads := hback _ _ hedit
  have hinserts := fun after habsolute hafter =>
    inserts_of_read hrefuses hloaded hr hwrites hreads hwrote
      (haccepts _ _ hedit (hwrites.isFqdn_all habsolute) after) habsolute hafter
  constructor
  · rintro ⟨hfound, -⟩
    obtain ⟨n, hn, habsolute⟩ := absolute_of_found hlaws hloaded.zoneName hfound
    have hfull := hdot n hn habsolute
    obtain rfl := Option.some.inj (hn.symm.trans (fromAscii_of_full htarget hfull))
    obtain ⟨listed, hlisted, -⟩ := id hfound
    obtain ⟨handler', hload', -⟩ := bind_eq_ok hlisted
    obtain ⟨origin, rname, after, hloaded', rfl⟩ := loadHandler_eq_ok hload'
    obtain rfl := Option.some.inj (hloaded'.zoneName.symm.trans hloaded.zoneName)
    obtain rfl := Option.some.inj (hloaded'.newRname.symm.trans hloaded.newRname)
    have h := hinserts after habsolute (hwrote.symm.trans hloaded'.read)
    rw [← Target.key_of_absolute habsolute,
      found_iff hlaws htarget hfull hload' hloaded', h.present_iff hstable] at hfound
    exact ⟨hfull, habsolute, hfound.1, hfound.2⟩
  · rintro ⟨hfull, habsolute, htaken, hdata⟩
    have honce : ¬ SoaTwice t.origin (lib.upsert (patched lib t.origin rname' before) r) := by
      rw [hwrites.soaTwice_insert]
      rintro ⟨-, hrelative, -⟩
      rw [habsolute] at hrelative
      cases hrelative
    obtain ⟨after, hafter⟩ := hreads.exists_parse honce
    have h := hinserts after habsolute hafter
    have hload' := loadHandler_of_loaded hload h.loaded
    have hpresent := (h.present_iff hstable).mpr ⟨htaken, hdata⟩
    refine ⟨?_, takenOut_of_present hlaws htarget hfull habsolute hload' h.loaded hback'
      hpresent⟩
    rw [← Target.key_of_absolute habsolute, found_iff hlaws htarget hfull hload' h.loaded]
    exact hpresent

/-! ### The example zone -/

/-- The plain `upsert` takes every record. -/
theorem refuses_knowing {files : List (Text × Records)} :
    (ZoneLib.knowing files).Refuses fun _ _ => false where
  kept records r hr := by cases hr
  taken records r _ := ⟨_, lookup_upsertPlain records r, self_mem_upsertPlain (lookup_upsertPlain _ r)⟩
  taken_soa records r _ hsoa := lookup_upsertPlain_soa hsoa

/-- The request of the example, its owner written in full. -/
def mailCreate : RecordCreate := ⟨"mail.example.com.", "A", none, "192.0.2.2"⟩

/-- A host is inserted under its full name, listed and deleted. -/
theorem inserted_found_mail :
    Found sampleLib sampleConfig sampleDir
        (insertMail.run sampleLib sampleConfig sampleDir (sampleDisk sampleZone) .ok).2 mailCreate
        mailTarget.rrset sampleMail ∧
      TakenOut sampleLib sampleConfig sampleDir
        (insertMail.run sampleLib sampleConfig sampleDir (sampleDisk sampleZone) .ok).2 sampleOrigin
        mailCreate mailTarget.rrset := by
  have hedit : insertEdit sampleLib sampleConfig sampleDir (sampleDisk sampleZone) mailCreate =
      .ok (sampleOrigin, writtenZone [sampleWww, sampleMail]) :=
    insertEdit_ok sample_load insertMail_target insertMail_rdata
  have hinsert : insertRecord sampleLib sampleConfig sampleDir (sampleDisk sampleZone) mailCreate
      .ok = (.ok (),
        (insertMail.run sampleLib sampleConfig sampleDir (sampleDisk sampleZone) .ok).2) := by
    rw [sample_run sample_insert, insertRecord_of_edit hedit, zoneText_sample, sampleDisk_update]
  have hhosts : [sampleWww, sampleMail] ∈ sampleHosts := List.mem_cons_of_mem _ List.mem_cons_self
  have hdeleted := sampleLib_readsBack [sampleWww] List.mem_cons_self
  have hrefuses : sampleLib.Refuses fun _ _ => false := refuses_knowing
  have hstable : sampleLib.Stable sampleOrigin sampleZone := stable_plain (by decide)
  refine (inserted_found_iff sampleLib_laws (fun _ _ _ => by decide) hrefuses
    (sampleZone_read _) hstable sample_load sample_rname insertMail_target insertMail_rdata hinsert
    ?_ ?_ (readsBack_of_edit sample_delete hdeleted)).mpr
      ⟨by decide, rfl, .inl rfl, ?_⟩
  · intro origin records h
    obtain ⟨rfl, rfl⟩ := Prod.mk.inj (Except.ok.inj (hedit.symm.trans h))
    exact sampleLib_readsBack _ hhosts
  · intro origin records h _ after hafter
    obtain ⟨rfl, rfl⟩ := Prod.mk.inj (Except.ok.inj (hedit.symm.trans h))
    rw [zoneText_sample, sampleLib_parse _ hhosts] at hafter
    obtain rfl := Option.some.inj hafter
    decide
  · rw [if_neg (by decide)]
    rfl

/-- An owner without the name of the zone, as in the documentation. -/
def relativeCreate : RecordCreate := ⟨"mail", "A", none, "192.0.2.2"⟩

/-- The zone as this insertion writes it. -/
def relativeZone : Records :=
  zoneOf [sampleSoa 86400 (.ofLabels ["hostadmin", "localhost"] false), sampleWww,
    ⟨.ofLabels ["mail"] false, 3600, .A ⟨192, 0, 2, 2⟩⟩]

/-- A library that knows the zone and the file of this insertion. -/
def relativeLib : ZoneLib :=
  .knowing [(sampleText sampleZone, sampleZone),
    (sampleText relativeZone, rereadZone [sampleWww, sampleMail])]

/-- The disk after the insertion. -/
def relativeDisk : Disk :=
  Function.update (sampleDisk sampleZone) (zonePath sampleConfig sampleDir)
    (some (some (zoneText relativeLib sampleOrigin relativeZone)))

/-- Both requests are about the relative owner. -/
theorem relative_target :
    (RecordCall.insert relativeCreate).target relativeLib sampleConfig =
        .ok ⟨sampleOrigin, .ofLabels ["mail"] false, .A⟩ ∧
      (RecordCall.delete ⟨"mail", "A"⟩).target relativeLib sampleConfig =
        .ok ⟨sampleOrigin, .ofLabels ["mail"] false, .A⟩ := by
  decide

theorem relative_edit : insertEdit relativeLib sampleConfig sampleDir (sampleDisk sampleZone)
    relativeCreate = .ok (sampleOrigin, relativeZone) := by
  have hload : loadHandler relativeLib (sampleDisk sampleZone) sampleConfig sampleDir =
      .ok (writtenZone [sampleWww]) :=
    sample_loaded (parse_knowing_head (sampleText sampleZone, sampleZone) _ _) (by decide)
      (by decide)
  have hzone : relativeLib.upsert (writtenZone [sampleWww])
      ⟨.ofLabels ["mail"] false, 3600, .A ⟨192, 0, 2, 2⟩⟩ = relativeZone :=
    (writtenZone_concat [sampleWww] _).symm
  have hrdata : parseRdata relativeLib .A relativeCreate.data.toList =
      .ok (.A ⟨192, 0, 2, 2⟩) := by
    decide
  rw [insertEdit_ok hload relative_target.1 hrdata]
  exact congrArg (fun zone => Except.ok (sampleOrigin, zone)) hzone

theorem relativeDisk_eq : relativeDisk = sampleDisk relativeZone := by
  have hfile : zoneText relativeLib sampleOrigin relativeZone = sampleText relativeZone :=
    zoneText_knowing relativeZone
  unfold relativeDisk
  rw [hfile, sampleDisk_update]

/-- The file is read with the completed owner. -/
theorem relative_parse : relativeLib.parse sampleOrigin (sampleText relativeZone) =
    some (rereadZone [sampleWww, sampleMail]) := by
  decide +kernel

theorem relative_reload : loadHandler relativeLib relativeDisk sampleConfig sampleDir =
    .ok (writtenZone [sampleWww, sampleMail]) := by
  rw [relativeDisk_eq]
  exact sample_loaded relative_parse (by decide) (by decide)

theorem relative_unmatched :
    matchingRecords relativeLib sampleConfig sampleDir relativeDisk "mail" "A" = .ok [] := by
  unfold matchingRecords
  rw [relative_reload]
  decide

/-- The zone has the record, and neither call finds it. -/
theorem relative_owner_lost :
    relativeLib.Laws sampleOrigin ∧ relativeLib.Stable sampleOrigin sampleZone ∧
      ∃ disk', insertRecord relativeLib sampleConfig sampleDir (sampleDisk sampleZone) relativeCreate
          .ok = (.ok (), disk') ∧
        zoneOnDisk relativeLib sampleConfig sampleDir sampleOrigin disk' =
          some (rereadZone [sampleWww, sampleMail]) ∧
        getRecords relativeLib sampleConfig sampleDir disk' "mail" "A" = .ok [] ∧
        deleteRecords relativeLib sampleConfig sampleDir disk' ⟨"mail", "A"⟩ .ok = (.ok 0, disk') ∧
        ¬ (Found relativeLib sampleConfig sampleDir disk' relativeCreate mailTarget.rrset
            sampleMail ∧
          TakenOut relativeLib sampleConfig sampleDir disk' sampleOrigin relativeCreate
            mailTarget.rrset) := by
  have hdelete : deleteEdit relativeLib sampleConfig sampleDir relativeDisk ⟨"mail", "A"⟩ =
      .ok (sampleOrigin, writtenZone [sampleWww, sampleMail], 0) := by
    rw [deleteEdit_ok relative_reload relative_target.2]
    decide
  refine ⟨laws_knowing rfl (by decide), stable_plain (by decide), relativeDisk, ?_,
    ?_, ?_, ?_, ?_⟩
  · exact insertRecord_of_edit relative_edit
  · rw [relativeDisk_eq]
    exact (zoneOnDisk_sample _ _).trans relative_parse
  · unfold getRecords
    rw [relative_unmatched]
    rfl
  · exact deleteRecords_zero hdelete
  · rintro ⟨⟨listed, hlisted, x, hx, -⟩, -⟩
    obtain rfl := Except.ok.inj (relative_unmatched.symm.trans hlisted)
    cases hx

end Inserted

end Heimdallr.Zone
