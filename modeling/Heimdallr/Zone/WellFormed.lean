import Heimdallr.Lib.Run
import Heimdallr.Zone.RecordEdits

/-!
# Zones that stay well formed (`core/zone/record.rs`)

A server loads a zone at its next start when the file has one SOA record at the apex. Every call of
the record API reads the file and writes it anew, so a sequence of calls can lose this in one call
and in the writing of it.

## What the file is read as

`persist_zone` prints record data as `Display` prints it: text with a line break in it becomes a
line of its own, and an open parenthesis or quote takes the lines after it along. So nothing is
assumed here of whole files. `ZoneLib.Legible` is about one record: it is printed on one line, and
this line in a file by itself is read as a record of its type under its completed owner.
`ZoneLib.ReadsLines` is the documented behaviour of the parser, which goes line by line. What the
written file is read as follows from the two (`parse_of_legible`).

`ZoneLib.reading` is a library that does go line by line, for a table of lines, and has the law for
every file that is made of them; the examples run on it.

## Results

* `Writes.wellFormed`, `callStep_wellFormed`: one call.
* **`stays_wellFormed`**: what keeps a zone well formed, over any sequence of calls. Calls that fail
  are steps too, and change nothing.
* `soa_deleted`: the SOA record of a well-formed zone can be deleted.

Out of scope: whether hickory makes a zone of the records (`InMemoryZoneHandler::new`). A file is
well formed by what the parser reads in it.
-/

namespace Heimdallr.Zone

open Heimdallr.Lib Heimdallr.Net

/-! ## Lines -/

section Lines

variable (lib : ZoneLib) (origin : Name)

/-- A file with these lines after its directives. -/
def linesText (lines : List Text) : Text :=
  List.intercalate ['\n'] (["$ORIGIN ".toList ++ lib.nameText origin, "$TTL 3600".toList, []] ++
    lines ++ [[]])

theorem zoneText_eq (records : Records) : zoneText lib origin records =
    linesText lib origin ((writtenRecords lib records).map (recordLine lib origin)) := rfl

/-- What a line is read as in a file by itself, if that is one record. -/
def readEntry (line : Text) : Option Record :=
  match (lib.parse origin (linesText lib origin [line])).map AList.entries with
  | some [⟨_, [r]⟩] => some r
  | _ => none

/-- No line ends within the text. -/
def Unfolded (line : Text) : Prop := '\n' ∉ line ∧ '\r' ∉ line

instance (line : Text) : Decidable (Unfolded line) :=
  inferInstanceAs (Decidable ('\n' ∉ line ∧ '\r' ∉ line))

/-- The record is printed on one line, and this line by itself is read as a record of its type under
its completed owner. -/
def ZoneLib.Legible (r : Record) : Prop :=
  Unfolded (recordLine lib origin r) ∧
    (readEntry lib origin (recordLine lib origin r)).map Record.key = some (r.key.within origin)

instance (r : Record) : Decidable (lib.Legible origin r) :=
  inferInstanceAs (Decidable (_ ∧ _))

/-- All records of a zone are legible, but those of the types that are not written. -/
def ZoneLib.AllLegible (records : Records) : Prop :=
  ∀ k set r, records.lookup k = some set → r ∈ set → generated r.recordType = false →
    lib.Legible origin r

/-- The parser goes line by line. Lines that are entries by themselves make up a file with their keys
and no others, unless two of them are SOA records of one owner. -/
def ZoneLib.ReadsLines : Prop :=
  ∀ entries : List (Text × Record),
    (∀ e ∈ entries, Unfolded e.1 ∧ readEntry lib origin e.1 = some e.2) →
    entries.Pairwise (fun a b => a.2.recordType = .SOA → a.2.key ≠ b.2.key) →
    ∃ after, lib.parse origin (linesText lib origin (entries.map Prod.fst)) = some after ∧
      (∀ k, k ∈ after ↔ ∃ e ∈ entries, e.2.key = k) ∧
      ∀ e ∈ entries, e.2.recordType = .SOA → ∃ r, after.lookup e.2.key = some [r]

end Lines

section Written

variable {lib : ZoneLib} {origin : Name} {records : Records}

theorem mem_writtenRecords {r : Record} : r ∈ writtenRecords lib records ↔
    (∃ k set, records.lookup k = some set ∧ r ∈ set) ∧ generated r.recordType = false := by
  unfold writtenRecords
  rw [List.mem_filter, mem_recordSets, Bool.not_eq_true']

/-- Records in memory: each is under its key, and an SOA record set has one. -/
structure Filed (records : Records) : Prop where
  key : ∀ k set r, records.lookup k = some set → r ∈ set → r.key = k
  single : ∀ k set, records.lookup k = some set → k.recordType = .SOA → set.length = 1

/-- No two SOA records that are written are read under one key. -/
theorem pairwise_writtenRecords (hfiled : Filed records) (honce : ¬ SoaTwice origin records) :
    (writtenRecords lib records).Pairwise fun a b =>
      a.recordType = .SOA → a.key.within origin ≠ b.key.within origin := by
  unfold writtenRecords recordSets
  refine List.Pairwise.filter _ (List.pairwise_flatten.mpr ⟨?_, ?_⟩)
  · -- within a set: one record, if they are SOA records
    simp only [List.mem_map]
    rintro _ ⟨⟨k, set⟩, hmem, rfl⟩
    have hset := mem_entries_iff.mp hmem
    by_cases htype : k.recordType = .SOA
    · obtain ⟨r, rfl⟩ := List.length_eq_one_iff.mp (hfiled.single k set hset htype)
      exact List.pairwise_singleton _ r
    · refine List.pairwise_of_forall_mem_list fun a ha b _ hsoa => absurd ?_ htype
      rw [← hfiled.key k set a hset ha]
      exact hsoa
  · -- of two sets: their keys differ, and would be two SOA record sets of one owner
    rw [List.pairwise_map]
    have hkeys := List.nodupKeys_iff_pairwise.mp
      ((List.perm_nodupKeys (List.perm_insertionSort (fun a b => lib.keyLe a.1 b.1)
        records.entries)).mpr records.nodupKeys)
    refine hkeys.imp_of_mem ?_
    rintro ⟨k, set⟩ ⟨k', set'⟩ hmem hmem' hne a ha b hb hsoa hwithin
    have hset := mem_entries_iff.mp hmem
    have hset' := mem_entries_iff.mp hmem'
    obtain rfl : a.key = k := hfiled.key k set a hset ha
    obtain rfl : b.key = k' := hfiled.key k' set' b hset' hb
    exact honce ⟨_, mem_of_lookup hset, _, mem_of_lookup hset', hne, hsoa, hwithin⟩

/-- A line and what it is read as. -/
def entryOf (lib : ZoneLib) (origin : Name) (r : Record) : Text × Record :=
  (recordLine lib origin r, (readEntry lib origin (recordLine lib origin r)).getD r)

theorem ZoneLib.Legible.entry {r : Record} (h : lib.Legible origin r) :
    readEntry lib origin (recordLine lib origin r) = some (entryOf lib origin r).2 ∧
      (entryOf lib origin r).2.key = r.key.within origin := by
  obtain ⟨x, hx, hkey⟩ := Option.map_eq_some_iff.mp h.2
  unfold entryOf
  rw [hx]
  exact ⟨rfl, hkey⟩

/-- **What a file of legible records is read as**: their keys, completed, and one SOA record under
each of those of an SOA record. -/
theorem parse_of_legible (hlines : lib.ReadsLines origin) (hfiled : Filed records)
    (hlegible : lib.AllLegible origin records) (honce : ¬ SoaTwice origin records) :
    ∃ after, lib.parse origin (zoneText lib origin records) = some after ∧
      (∀ k ∈ after, ∃ k' ∈ records, k'.within origin = k) ∧
      ∀ k r, records.lookup k = some [r] → k.recordType = .SOA →
        ∃ x, after.lookup (k.within origin) = some [x] := by
  have hwritten : ∀ r ∈ writtenRecords lib records, lib.Legible origin r := by
    intro r hr
    obtain ⟨⟨k, set, hset, hmem⟩, hgen⟩ := mem_writtenRecords.mp hr
    exact hlegible k set r hset hmem hgen
  have hentries : ∀ e ∈ (writtenRecords lib records).map (entryOf lib origin),
      Unfolded e.1 ∧ readEntry lib origin e.1 = some e.2 := by
    intro e he
    obtain ⟨r, hr, rfl⟩ := List.mem_map.mp he
    exact ⟨(hwritten r hr).1, (hwritten r hr).entry.1⟩
  have hsoas : ((writtenRecords lib records).map (entryOf lib origin)).Pairwise
      fun a b => a.2.recordType = .SOA → a.2.key ≠ b.2.key := by
    rw [List.pairwise_map]
    refine (pairwise_writtenRecords hfiled honce).imp_of_mem fun {a b} ha hb hne hsoa => ?_
    have hkey := (hwritten a ha).entry.2
    rw [hkey, (hwritten b hb).entry.2]
    exact hne ((congrArg RrKey.recordType hkey).symm.trans hsoa)
  obtain ⟨after, hafter, hkeys, hsingle⟩ := hlines _ hentries hsoas
  rw [List.map_map] at hafter
  refine ⟨after, ?_, ?_, ?_⟩
  · rw [zoneText_eq]
    exact hafter
  · intro k hk
    obtain ⟨e, he, rfl⟩ := (hkeys k).mp hk
    obtain ⟨r, hr, rfl⟩ := List.mem_map.mp he
    obtain ⟨⟨k, set, hset, hmem⟩, -⟩ := mem_writtenRecords.mp hr
    obtain rfl := hfiled.key k set r hset hmem
    exact ⟨_, mem_of_lookup hset, (hwritten r hr).entry.2.symm⟩
  · intro k r hset htype
    obtain rfl := hfiled.key k [r] r hset (List.mem_singleton.mpr rfl)
    have hr : r ∈ writtenRecords lib records := by
      refine mem_writtenRecords.mpr ⟨⟨_, _, hset, List.mem_singleton.mpr rfl⟩, ?_⟩
      rw [show r.recordType = .SOA from htype]
      rfl
    have hkey := (hwritten r hr).entry.2
    rw [← hkey]
    exact hsingle _ (List.mem_map_of_mem hr) ((congrArg RrKey.recordType hkey).trans htype)

end Written

/-! ## One edit -/

section OneEdit

variable {lib : ZoneLib} {call : RecordCall} {t : Target} {rname : Name} {before records : Records}

/-- Exactly one SOA record at the apex, and every owner at or below it. -/
structure WellFormed (origin : Name) (records : Records) : Prop where
  soa : ∃ r, records.lookup (soaKey origin) = some [r]
  owners : ∀ k ∈ records, k.name.name.inZone origin = true

/-- What an insertion or a deletion must not be about: an owner outside the zone, a second SOA
record of an owner, the SOA record of the zone. -/
def KeepsZone (t : Target) (before : Records) : RecordCall → Prop
  | .insert _ => (t.owner.within t.origin).inZone t.origin = true ∧ ¬ SecondSoa t before
  | .delete _ => t.key ≠ soaKey t.origin

/-- What the call leaves in the zone is legible, and so is what it inserts. -/
def KeepsLegible (lib : ZoneLib) (t : Target) (handler : Records) : RecordCall → Prop
  | .insert create =>
    lib.AllLegible t.origin handler ∧ ∀ r, Inserted lib t create r → lib.Legible t.origin r
  | .delete _ => lib.AllLegible t.origin (handler.erase t.key)

@[simp] theorem inZone_ofName (n origin : Name) :
    (LowerName.ofName n).name.inZone origin = n.inZone origin := by
  show n.toLowercase.inZone origin = n.inZone origin
  unfold Name.inZone
  rw [n.toLowercase_toLowercase]
  rfl

namespace Writes

variable (h : Writes lib t rname before call records)

include h

/-- In the zone that was loaded. -/
theorem filed_patched : Filed (patched lib t.origin rname before) := by
  refine ⟨fun k set r => Zone.key_of_patched h.laws h.parsed h.accepted, fun k set hset htype => ?_⟩
  by_cases hsoa : k = soaKey t.origin
  · subst hsoa
    obtain ⟨soa, hold, -⟩ := h.parsed.oldSoa_eq (h.mem_patched.mp (mem_of_lookup hset))
    rw [lookup_patched_soa h.laws h.accepted hold (h.mem_patched.mp (mem_of_lookup hset))] at hset
    obtain rfl := Option.some.inj hset
    rfl
  · rw [lookup_patched_ne h.laws hsoa] at hset
    exact h.parsed.single k set hset htype

/-- An edit puts no record under another key, and no second one into an SOA record set. -/
theorem filed : Filed records := by
  have hpatched := h.filed_patched
  cases h.edited with
  | inserted create r hr =>
    refine ⟨fun k set x hset hx => ?_, fun k set hset htype => ?_⟩
    · by_cases hk : k = r.key
      · subst hk
        rcases h.laws.upsert_mem _ r set x hset hx with rfl | ⟨old, hold, hmem⟩
        · rfl
        · exact hpatched.key _ old x hold hmem
      · rw [h.laws.upsert_ne _ _ _ hk] at hset
        exact hpatched.key k set x hset hx
    · by_cases hk : k = r.key
      · subst hk
        rcases h.laws.upsert_soa _ r htype fun set hset => hpatched.single _ set hset htype with
          hsame | hnew
        · exact hpatched.single _ set (hsame ▸ hset) htype
        · obtain rfl := Option.some.inj (hnew.symm.trans hset)
          rfl
      · rw [h.laws.upsert_ne _ _ _ hk] at hset
        exact hpatched.single k set hset htype
  | deleted request hmem =>
    have hkept : ∀ k set, (AList.erase t.key (patched lib t.origin rname before)).lookup k =
        some set → (patched lib t.origin rname before).lookup k = some set := by
      intro k set hset
      have hne : k ≠ t.key := (AList.mem_erase.mp (mem_of_lookup hset)).1
      rwa [AList.lookup_erase_ne hne] at hset
    exact ⟨fun k set x hset => hpatched.key k set x (hkept k set hset),
      fun k set hset => hpatched.single k set (hkept k set hset)⟩

/-- So is every record legible that is written. -/
theorem allLegible (hkeeps : KeepsLegible lib t (patched lib t.origin rname before) call) :
    lib.AllLegible t.origin records := by
  cases h.edited with
  | inserted create r hr =>
    intro k set x hset hx hgen
    by_cases hk : k = r.key
    · subst hk
      rcases h.laws.upsert_mem _ r set x hset hx with rfl | ⟨old, hold, hmem⟩
      · exact hkeeps.2 x hr
      · exact hkeeps.1 _ old x hold hmem hgen
    · rw [h.laws.upsert_ne _ _ _ hk] at hset
      exact hkeeps.1 k set x hset hx hgen
  | deleted request hmem => exact hkeeps

/-- The SOA record set has one record in memory. -/
theorem soa_single (hwf : WellFormed t.origin before) (hkeeps : KeepsZone t before call) :
    ∃ r, records.lookup (soaKey t.origin) = some [r] := by
  have hmem : soaKey t.origin ∈ patched lib t.origin rname before := by
    obtain ⟨r, hr⟩ := hwf.soa
    exact h.mem_patched.mpr (mem_of_lookup hr)
  have hrecords : soaKey t.origin ∈ records := by
    cases h.edited with
    | inserted create r hr =>
      by_cases hk : soaKey t.origin = r.key
      · have htype : r.recordType = .SOA := (congrArg RrKey.recordType hk).symm
        rw [hk] at hmem ⊢
        rcases h.laws.upsert_soa _ r htype fun set hset => h.filed_patched.single _ set hset htype
          with hsame | hnew
        · rwa [← AList.lookup_isSome, hsame, AList.lookup_isSome]
        · exact mem_of_lookup hnew
      · rwa [← AList.lookup_isSome, h.laws.upsert_ne _ _ _ hk, AList.lookup_isSome]
    | deleted request _ => exact AList.mem_erase.mpr ⟨Ne.symm hkeeps, hmem⟩
  obtain ⟨set, hset⟩ := exists_lookup hrecords
  obtain ⟨r, rfl⟩ := List.length_eq_one_iff.mp (h.filed.single _ set hset rfl)
  exact ⟨r, hset⟩

theorem not_soaTwice (hkeeps : KeepsZone t before call) : ¬ SoaTwice t.origin records := by
  cases call with
  | insert create => exact mt h.soaTwice_insert.mp hkeeps.2
  | delete request => exact h.not_soaTwice_delete

/-- The target of an edit is in the zone, unless the edit removed it. -/
theorem inZone_key (hkeeps : KeepsZone t before call) (hmem : t.key ∈ records) :
    t.rrset.name.name.inZone t.origin = true := by
  cases call with
  | insert create => exact (inZone_ofName _ _).trans hkeeps.1
  | delete request =>
    cases h.edited with
    | deleted request _ => exact absurd rfl (AList.mem_erase.mp hmem).1

/-- One edit keeps the zone well formed. -/
theorem wellFormed (hlines : lib.ReadsLines t.origin) (hwf : WellFormed t.origin before)
    (hkeeps : KeepsZone t before call)
    (hlegible : KeepsLegible lib t (patched lib t.origin rname before) call) :
    ∃ after, lib.parse t.origin (zoneText lib t.origin records) = some after ∧
      WellFormed t.origin after := by
  obtain ⟨after, hafter, hkeys, hsingle⟩ :=
    parse_of_legible hlines h.filed (h.allLegible hlegible) (h.not_soaTwice hkeeps)
  obtain ⟨r, hr⟩ := h.soa_single hwf hkeeps
  refine ⟨after, hafter, ?_, ?_⟩
  · have hfqdn : (soaKey t.origin).isFqdn = true := h.laws.absolute
    have hsoa := hsingle _ r hr rfl
    rwa [RrKey.within_of_fqdn hfqdn] at hsoa
  · intro k hk
    obtain ⟨k', hk', hwithin⟩ := hkeys k hk
    by_cases hkey : k' = t.key
    · subst hkey
      rw [← hwithin, t.key_within]
      exact h.inZone_key hkeeps hk'
    · rw [← hwithin, RrKey.within_of_fqdn (h.isFqdn_of_ne hk' hkey)]
      exact hwf.owners k' ((h.mem_of_ne hkey).mp hk')

end Writes

end OneEdit

/-! ## Sequences of edits -/

section Sequences

variable {lib : ZoneLib} {zoneCfg : ZoneConfig} {zonesDir : Text} {origin : Name}
  {disk disk' : Disk}

/-- The zone in the file is well formed. -/
def FileWellFormed (lib : ZoneLib) (zoneCfg : ZoneConfig) (zonesDir : Text) (origin : Name)
    (disk : Disk) : Prop :=
  ∃ records, zoneOnDisk lib zoneCfg zonesDir origin disk = some records ∧ WellFormed origin records

/-- A call that keeps a zone well formed. -/
structure Harmless (lib : ZoneLib) (zoneCfg : ZoneConfig) (zonesDir : Text)
    (a : RecordCall × WriteOutcome) (disk : Disk) : Prop where
  /-- its writing is not cut short -/
  complete : ∀ len, a.2 ≠ .cut len
  /-- it is about something it may be about -/
  keeps : ∀ t before, a.1.target lib zoneCfg = .ok t →
    zoneOnDisk lib zoneCfg zonesDir t.origin disk = some before → KeepsZone t before a.1
  /-- the zone as it is loaded, and what is inserted into it, is legible -/
  legible : ∀ t rname before, a.1.target lib zoneCfg = .ok t →
    Loaded lib zoneCfg zonesDir disk t.origin rname before →
    KeepsLegible lib t (patched lib t.origin rname before) a.1

theorem callStep_wellFormed (hlaws : lib.Laws origin) (hlines : lib.ReadsLines origin)
    (horigin : lib.fromAscii zoneCfg.name = some origin) {a : RecordCall × WriteOutcome}
    (hwf : FileWellFormed lib zoneCfg zonesDir origin disk)
    (hharmless : Harmless lib zoneCfg zonesDir a disk)
    (hstep : callStep lib zoneCfg zonesDir a disk = some disk') :
    FileWellFormed lib zoneCfg zonesDir origin disk' := by
  obtain ⟨call, w⟩ := a
  obtain rfl := Option.some.inj hstep
  rw [RecordCall.run_eq]
  cases hedit : call.edit lib zoneCfg zonesDir disk with
  | error e => exact hwf
  | ok e =>
    obtain ⟨t, rname, before, result, htarget, hload, hedited, rfl⟩ := edit_eq_ok hedit
    obtain rfl := Option.some.inj (hload.zoneName.symm.trans horigin)
    obtain ⟨before', hbefore, hwf'⟩ := id hwf
    obtain rfl := Option.some.inj (hload.read.symm.trans hbefore)
    cases result with
    | none => exact hwf
    | some records =>
      have h : Writes lib t rname before call records := hload.writes hlaws hedited
      cases w with
      | ok =>
        obtain ⟨after, hafter, hafterwf⟩ := h.wellFormed hlines hwf'
          (hharmless.keeps t before htarget hload.read)
          (hharmless.legible t rname before htarget hload)
        exact ⟨after, (zoneOnDisk_update _ _).trans hafter, hafterwf⟩
      | noDir => exact hwf
      | refused => exact hwf
      | cut len => exact absurd rfl (hharmless.complete len)

/-- **What keeps a zone well formed**, over any sequence of calls. -/
theorem stays_wellFormed (hlaws : lib.Laws origin) (hlines : lib.ReadsLines origin)
    (horigin : lib.fromAscii zoneCfg.name = some origin)
    {calls : List (RecordCall × WriteOutcome)}
    (hwf : FileWellFormed lib zoneCfg zonesDir origin disk)
    (hharmless : Along (callStep lib zoneCfg zonesDir) (Harmless lib zoneCfg zonesDir) calls disk)
    (hrun : runAll (callStep lib zoneCfg zonesDir) calls disk = some disk') :
    FileWellFormed lib zoneCfg zonesDir origin disk' := by
  refine runAll_invariant ?_ hwf hharmless hrun
  intro a s s' hs hharmless hstep
  exact callStep_wellFormed hlaws hlines horigin hs hharmless hstep

/-! ## A library that reads line by line

`ZoneLib.knowing` reads a few files as a whole. This one knows a few lines, and reads every file that
is made of them. -/

/-- The record of a line that is known. -/
def knownLine (table : List (Text × Record)) (line : Text) : Option Record :=
  (table.find? fun e => e.1 = line).map Prod.snd

/-- The record of a line is added to those of the lines before. -/
def fileLine (table : List (Text × Record)) (line : Text) (records : Records) : Option Records := do
  let r ← knownLine table line
  if r.recordType = .SOA ∧ r.key ∈ records then none else some (upsertPlain records r)

/-- The directives and the empty line are passed over, and each line after them is one record. -/
def parseLines (table : List (Text × Record)) (text : Text) : Option Records :=
  match text.splitOn '\n' with
  | _ :: _ :: _ :: lines => runAll (fileLine table) lines.dropLast ∅
  | _ => none

/-- The library that knows these lines. -/
def ZoneLib.reading (table : List (Text × Record)) : ZoneLib :=
  { ZoneLib.knowing [] with parse := fun _ => parseLines table }

section Reading

variable {table : List (Text × Record)} {origin : Name}

theorem mem_upsertPlain_iff {records : Records} {r : Record} {k : RrKey} :
    k ∈ upsertPlain records r ↔ k = r.key ∨ k ∈ records := by
  by_cases hk : k = r.key
  · subst hk
    exact iff_of_true (mem_of_lookup (lookup_upsertPlain records r)) (.inl rfl)
  · rw [← AList.lookup_isSome, lookup_upsertPlain_ne hk, AList.lookup_isSome, or_iff_right hk]

theorem fileLine_eq {e : Text × Record} {records : Records} (hknown : knownLine table e.1 = some e.2)
    (hnew : e.2.recordType = .SOA → e.2.key ∉ records) :
    fileLine table e.1 records = some (upsertPlain records e.2) := by
  unfold fileLine
  rw [hknown]
  exact if_neg fun hsoa => hnew hsoa.1 hsoa.2

/-- What a file of known lines comes to, when no SOA record comes twice. -/
theorem runAll_fileLine {entries : List (Text × Record)} {records : Records}
    (hknown : ∀ e ∈ entries, knownLine table e.1 = some e.2)
    (hnew : ∀ e ∈ entries, e.2.recordType = .SOA → e.2.key ∉ records)
    (honce : entries.Pairwise fun a b => a.2.recordType = .SOA → a.2.key ≠ b.2.key) :
    ∃ after, runAll (fileLine table) (entries.map Prod.fst) records = some after ∧
      (∀ k, k ∈ after ↔ k ∈ records ∨ ∃ e ∈ entries, e.2.key = k) ∧
      (∀ k, (∀ e ∈ entries, e.2.key ≠ k) → after.lookup k = records.lookup k) ∧
      ∀ e ∈ entries, e.2.recordType = .SOA → after.lookup e.2.key = some [e.2] := by
  induction entries generalizing records with
  | nil => exact ⟨records, rfl, by simp, fun _ _ => rfl, by simp⟩
  | cons e entries ih =>
    obtain ⟨hfirst, honce⟩ := List.pairwise_cons.mp honce
    obtain ⟨hline, hknown⟩ := List.forall_mem_cons.mp hknown
    obtain ⟨hsoa, hnew⟩ := List.forall_mem_cons.mp hnew
    have hnew' : ∀ x ∈ entries, x.2.recordType = .SOA → x.2.key ∉ upsertPlain records e.2 := by
      intro x hx htype hmem
      rcases mem_upsertPlain_iff.mp hmem with hkey | hmem
      · exact hfirst x hx ((congrArg RrKey.recordType hkey).symm.trans htype) hkey.symm
      · exact hnew x hx htype hmem
    obtain ⟨after, hafter, hkeys, hothers, hsoas⟩ := ih hknown hnew' honce
    refine ⟨after, ?_, fun k => ?_, fun k hk => ?_, ?_⟩
    · show (fileLine table e.1 records).bind _ = _
      rw [fileLine_eq hline hsoa]
      exact hafter
    · rw [hkeys, mem_upsertPlain_iff, List.exists_mem_cons_iff, or_comm (a := k = e.2.key), or_assoc,
        eq_comm (a := k)]
    · obtain ⟨hne, hrest⟩ := List.forall_mem_cons.mp hk
      rw [hothers k hrest, lookup_upsertPlain_ne hne.symm]
    · rw [List.forall_mem_cons]
      refine ⟨fun htype => ?_, hsoas⟩
      rw [hothers e.2.key fun x hx => (hfirst x hx htype).symm, lookup_upsertPlain_soa htype]

/-! ### It goes line by line -/

section Lines

variable (hbase : '\n' ∉ (ZoneLib.reading table).nameText origin)

include hbase

theorem parse_linesText {lines : List Text} (hlines : ∀ line ∈ lines, '\n' ∉ line) :
    (ZoneLib.reading table).parse origin (linesText (.reading table) origin lines) =
      runAll (fileLine table) lines ∅ := by
  have hsplit : (linesText (.reading table) origin lines).splitOn '\n' =
      ["$ORIGIN ".toList ++ (ZoneLib.reading table).nameText origin, "$TTL 3600".toList, []] ++
        lines ++ [[]] := by
    unfold linesText
    refine List.splitOn_intercalate _ ?_ (by simp)
    simp only [List.mem_append, List.mem_cons, List.not_mem_nil, or_false]
    rintro line (((rfl | rfl | rfl) | hline) | rfl)
    · rw [List.mem_append, not_or]
      exact ⟨by decide, hbase⟩
    · decide
    · exact List.not_mem_nil
    · exact hlines line hline
    · exact List.not_mem_nil
  show parseLines table _ = _
  unfold parseLines
  rw [hsplit]
  simp

/-- A line that is an entry by itself is a known one. -/
theorem knownLine_of_readEntry {line : Text} (hline : '\n' ∉ line) {r : Record}
    (h : readEntry (.reading table) origin line = some r) : knownLine table line = some r := by
  unfold readEntry at h
  rw [parse_linesText hbase fun l hl => (List.mem_singleton.mp hl) ▸ hline] at h
  cases hknown : knownLine table line with
  | none =>
    have hnone : runAll (fileLine table) [line] ∅ = none := by
      simp [runAll, fileLine, hknown]
    rw [hnone] at h
    cases h
  | some x =>
    have hone : runAll (fileLine table) [line] ∅ = some (upsertPlain ∅ x) := by
      show (fileLine table line ∅).bind _ = _
      rw [fileLine_eq (e := (line, x)) hknown fun _ => AList.notMem_empty x.key]
      rfl
    rw [hone] at h
    exact h

theorem readsLines_reading : (ZoneLib.reading table).ReadsLines origin := by
  intro entries hentries honce
  obtain ⟨after, hafter, hkeys, -, hsoas⟩ := runAll_fileLine
    (fun e he => knownLine_of_readEntry hbase (hentries e he).1.1 (hentries e he).2)
    (fun e _ _ => AList.notMem_empty e.2.key) honce
  refine ⟨after, ?_, fun k => ?_, fun e he htype => ⟨_, hsoas e he htype⟩⟩
  · rw [parse_linesText hbase]
    · exact hafter
    · intro line hline
      obtain ⟨e, he, rfl⟩ := List.mem_map.mp hline
      exact (hentries e he).1.1
  · rw [hkeys, or_iff_right (AList.notMem_empty k)]

end Lines

/-! ### It delivers what a parser delivers -/

theorem parsed_upsertPlain {r : Record} {records : Records} (hr : ParsedRecord r)
    (h : Parsed records) : Parsed (upsertPlain records r) := by
  refine ⟨fun k set hset => ?_, fun k set hset htype => ?_, fun k set x hset hx => ?_⟩
  · by_cases hk : k = r.key
    · subst hk
      exact List.ne_nil_of_mem (self_mem_upsertPlain hset)
    · exact h.nonempty k set ((lookup_upsertPlain_ne hk).symm.trans hset)
  · by_cases hk : k = r.key
    · subst hk
      rw [lookup_upsertPlain_soa htype] at hset
      obtain rfl := Option.some.inj hset
      rfl
    · exact h.single k set ((lookup_upsertPlain_ne hk).symm.trans hset) htype
  · by_cases hk : k = r.key
    · subst hk
      rcases mem_upsertPlain hset hx with rfl | ⟨old, hold, hmem⟩
      · exact ⟨rfl, hr⟩
      · exact h.filed _ old x hold hmem
    · exact h.filed k set x ((lookup_upsertPlain_ne hk).symm.trans hset) hx

theorem laws_reading (habsolute : origin.isFqdn = true)
    (htable : table.all fun e => plainRecord e.2) : (ZoneLib.reading table).Laws origin := by
  refine laws_of_upsertPlain rfl habsolute fun text records hparse => ?_
  replace hparse : parseLines table text = some records := hparse
  have hempty : ∀ k set, (∅ : Records).lookup k ≠ some set := by simp
  have hstep : ∀ line records after, Parsed records → fileLine table line records = some after →
      Parsed after := by
    intro line records after h hafter
    obtain ⟨r, hr, hfile⟩ := Option.bind_eq_some_iff.mp hafter
    obtain ⟨e, he, rfl⟩ := Option.map_eq_some_iff.mp hr
    have hplain := List.all_eq_true.mp htable e (List.mem_of_find?_eq_some he)
    split at hfile
    · cases hfile
    · obtain rfl := Option.some.inj hfile
      exact parsed_upsertPlain (parsedRecord_plain hplain) h
  unfold parseLines at hparse
  split at hparse
  · refine runAll_keeps hstep ⟨?_, ?_, ?_⟩ hparse
    · exact fun k set h => absurd h (hempty k set)
    · exact fun k set h => absurd h (hempty k set)
    · exact fun k set r h => absurd h (hempty k set)
  · cases hparse

end Reading

/-! ### The example zone, line by line -/

/-- The SOA record as it was set up and as an edit writes it, and two hosts. -/
def sampleLines : List (Text × Record) :=
  [(sampleSoa 3600 (sampleHost "admin"), sampleSoa 3600 (sampleHost "admin")),
    (sampleSoa 86400 (.ofLabels ["hostadmin", "localhost"] false), sampleSoa 86400 sampleRname),
    (sampleWww, sampleWww), (sampleMail, sampleMail)].map fun e =>
      (recordLine (.knowing []) sampleOrigin e.1, e.2)

/-- The library that knows these lines. -/
def lineLib : ZoneLib := .reading sampleLines

theorem lineLib_laws : lineLib.Laws sampleOrigin := laws_reading rfl (by decide)

theorem lineLib_readsLines : lineLib.ReadsLines sampleOrigin :=
  readsLines_reading (by decide)

theorem lineLib_origin : lineLib.fromAscii sampleConfig.name = some sampleOrigin := by
  decide

theorem lineLib_rname : lineLib.nameOf defaultSoaRname =
    some (.ofLabels ["hostadmin", "localhost"] false) := by
  decide

/-- All records that are written are legible, as a test. -/
def allLegible (lib : ZoneLib) (origin : Name) (records : Records) : Bool :=
  records.entries.all fun e => e.2.all fun r => generated r.recordType || lib.Legible origin r

theorem allLegible_of_all {records : Records} (h : allLegible lib origin records = true) :
    lib.AllLegible origin records := by
  intro k set r hset hr hgen
  have hentry := List.all_eq_true.mp h ⟨k, set⟩ (AList.mem_lookup_iff.mp hset)
  have hrecord := List.all_eq_true.mp hentry r hr
  rw [hgen, Bool.false_or, decide_eq_true_eq] at hrecord
  exact hrecord

/-- The zone as it is loaded. -/
def loadedZone (zone : Records) : Records :=
  patched lineLib sampleOrigin (.ofLabels ["hostadmin", "localhost"] false) zone

theorem loadedZone_legible : ∀ zone ∈ [sampleZone, rereadZone [sampleWww, sampleMail]],
    lineLib.AllLegible sampleOrigin (loadedZone zone) := by
  have hall : ∀ zone ∈ [sampleZone, rereadZone [sampleWww, sampleMail]],
      allLegible lineLib sampleOrigin (loadedZone zone) = true := by
    decide
  exact fun zone hzone => allLegible_of_all (hall zone hzone)

theorem sampleMail_legible : lineLib.Legible sampleOrigin sampleMail := by
  decide

/-- A host may be added to the example zone and taken out of it. -/
theorem mail_harmless {call : RecordCall} (hcall : call ∈ [insertMail, deleteMail]) {zone : Records}
    (hread : zoneOnDisk lineLib sampleConfig sampleDir sampleOrigin disk = some zone)
    (hzone : zone ∈ [sampleZone, rereadZone [sampleWww, sampleMail]]) :
    Harmless lineLib sampleConfig sampleDir (call, .ok) disk := by
  have hmail : ∀ call ∈ [insertMail, deleteMail],
      call.target lineLib sampleConfig = .ok mailTarget := by
    decide
  refine ⟨?_, fun t before htarget _ => ?_, fun t rname before htarget hload => ?_⟩
  · rintro len ⟨⟩
  · obtain rfl := Except.ok.inj ((hmail call hcall).symm.trans htarget)
    rcases List.mem_pair.mp hcall with rfl | rfl
    · refine ⟨by decide, ?_⟩
      rintro ⟨htype, -⟩
      cases htype
    · show mailTarget.key ≠ soaKey sampleOrigin
      decide
  · obtain rfl := Except.ok.inj ((hmail call hcall).symm.trans htarget)
    obtain rfl := Option.some.inj (hload.newRname.symm.trans lineLib_rname)
    obtain rfl := Option.some.inj (hload.read.symm.trans hread)
    have hlegible := loadedZone_legible before hzone
    rcases List.mem_pair.mp hcall with rfl | rfl
    · refine ⟨hlegible, ?_⟩
      rintro r ⟨rdata, hrdata, rfl⟩
      have hmail : parseRdata lineLib mailTarget.rtype "192.0.2.2".toList =
          .ok (.A ⟨192, 0, 2, 2⟩) := by
        decide
      obtain rfl := Except.ok.inj (hmail.symm.trans hrdata)
      exact sampleMail_legible
    · intro k set r hset hr hgen
      have hne : k ≠ mailTarget.key := (AList.mem_erase.mp (mem_of_lookup hset)).1
      rw [AList.lookup_erase_ne hne] at hset
      exact hlegible k set r hset hr hgen

theorem lineLib_read : zoneOnDisk lineLib sampleConfig sampleDir sampleOrigin
    (sampleDisk sampleZone) = some sampleZone := by
  have hparse : lineLib.parse sampleOrigin (sampleText sampleZone) = some sampleZone := by
    decide
  exact (zoneOnDisk_update _ _).trans hparse

theorem lineLib_wellFormed :
    FileWellFormed lineLib sampleConfig sampleDir sampleOrigin (sampleDisk sampleZone) := by
  have howners : ∀ k ∈ sampleZone.keys, k.name.name.inZone sampleOrigin = true := by
    decide
  have hsoa : sampleZone.lookup (soaKey sampleOrigin) =
      some [sampleSoa 3600 (sampleHost "admin")] := by
    decide
  exact ⟨sampleZone, lineLib_read, ⟨_, hsoa⟩, howners⟩

/-- A host is added and taken out again. -/
theorem stays_wellFormed_mail :
    FileWellFormed lineLib sampleConfig sampleDir sampleOrigin
      (deleteMail.run lineLib sampleConfig sampleDir
        (insertMail.run lineLib sampleConfig sampleDir (sampleDisk sampleZone) .ok).2 .ok).2 := by
  have hrun : runAll (callStep lineLib sampleConfig sampleDir)
      [(insertMail, .ok), (deleteMail, .ok)] (sampleDisk sampleZone) = some _ := rfl
  have hedit : insertMail.edit lineLib sampleConfig sampleDir (sampleDisk sampleZone) =
      .ok (some (sampleOrigin, writtenZone [sampleWww, sampleMail])) := by
    decide
  have hparse : lineLib.parse sampleOrigin (zoneText lineLib sampleOrigin
      (writtenZone [sampleWww, sampleMail])) = some (rereadZone [sampleWww, sampleMail]) := by
    decide
  have hinserted : ∀ disk, callStep lineLib sampleConfig sampleDir (insertMail, .ok)
      (sampleDisk sampleZone) = some disk →
      zoneOnDisk lineLib sampleConfig sampleDir sampleOrigin disk =
        some (rereadZone [sampleWww, sampleMail]) := by
    intro disk hdisk
    obtain rfl := Option.some.inj hdisk
    show zoneOnDisk _ _ _ _ (insertMail.run lineLib sampleConfig sampleDir _ .ok).2 = _
    rw [run_of_edit hedit, zoneOnDisk_update]
    exact hparse
  refine stays_wellFormed lineLib_laws lineLib_readsLines lineLib_origin lineLib_wellFormed ?_ hrun
  refine ⟨mail_harmless List.mem_cons_self lineLib_read List.mem_cons_self, fun s hs => ?_⟩
  exact ⟨mail_harmless (List.mem_cons_of_mem _ List.mem_cons_self) (hinserted s hs)
    (List.mem_cons_of_mem _ List.mem_cons_self), fun _ _ => trivial⟩

/-- The SOA record of a well-formed zone can be deleted. -/
theorem soa_deleted :
    lineLib.Laws sampleOrigin ∧ lineLib.ReadsLines sampleOrigin ∧
      FileWellFormed lineLib sampleConfig sampleDir sampleOrigin (sampleDisk sampleZone) ∧
      lineLib.AllLegible sampleOrigin (loadedZone sampleZone) ∧
      (RecordCall.delete ⟨"@", "SOA"⟩).edit lineLib sampleConfig sampleDir
          (sampleDisk sampleZone) = .ok (some (sampleOrigin, zoneOf [sampleWww])) ∧
      ((RecordCall.delete ⟨"@", "SOA"⟩).run lineLib sampleConfig sampleDir
          (sampleDisk sampleZone) .ok).1 = .ok () ∧
      ¬ FileWellFormed lineLib sampleConfig sampleDir sampleOrigin
        ((RecordCall.delete ⟨"@", "SOA"⟩).run lineLib sampleConfig sampleDir
          (sampleDisk sampleZone) .ok).2 := by
  have hparse : lineLib.parse sampleOrigin
      (zoneText lineLib sampleOrigin (zoneOf [sampleWww])) = some (zoneOf [sampleWww]) := by
    decide
  have hedit : (RecordCall.delete ⟨"@", "SOA"⟩).edit lineLib sampleConfig sampleDir
      (sampleDisk sampleZone) = .ok (some (sampleOrigin, zoneOf [sampleWww])) := by
    decide
  rw [run_of_edit hedit]
  refine ⟨lineLib_laws, lineLib_readsLines, lineLib_wellFormed,
    loadedZone_legible _ List.mem_cons_self, hedit, rfl, ?_⟩
  rintro ⟨records, hrecords, ⟨r, hsoa⟩, -⟩
  rw [zoneOnDisk_update, hparse] at hrecords
  obtain rfl := Option.some.inj hrecords
  have hnone : (zoneOf [sampleWww]).lookup (soaKey sampleOrigin) = none := by decide
  rw [hnone] at hsoa
  cases hsoa

end Sequences

end Heimdallr.Zone
