import Heimdallr.Lib.Run
import Heimdallr.Zone.RecordEdits

/-!
# What a run of record edits leaves alone

`Zone.RecordEdits` says what one edit does to the zone in the file, and `Zone.WellFormed` what keeps
a zone well formed over a run. This is about the rest of the zone: the record sets no request asked
for, and the SOA record, which every edit patches on its way.

* `Tidy`: the calls after which the file can still be read. `WritesReadable` and `ReadsStable` are
  `ZoneLib.ReadsBack` and `ZoneLib.Stable` at every step of a run; only `changed_by_target` asks for
  the second, as the patch of the SOA record can be followed without it.
* A run is over one zone. Calls that fail are steps of it, and leave the file as it is.
* The RNAME that is patched in is that of a default configuration, whatever the server's own has.

Results:
* `callStep_cases`: a call leaves the file alone or is read back as it was computed (`Stepped`).
* `Stepped.lookup_eq`, `Stepped.soa_eq`: what it keeps.
* **`changed_by_target`**: a record set that is another one after a run was the target of one of its
  calls.
* **`serial_never_moves`**: no run of edits raises the serial of the zone.
-/

namespace Heimdallr.Zone

open Heimdallr.Lib Heimdallr.Net

section Runs

variable {lib : ZoneLib} {zoneCfg : ZoneConfig} {zonesDir : Text} {disk disk' : Disk}
  {origin : Name} {a : RecordCall × WriteOutcome} {calls : List (RecordCall × WriteOutcome)}

/-- The call does not put a second SOA record under an owner, and its writing is not cut short. -/
def Tidy (lib : ZoneLib) (zoneCfg : ZoneConfig) (zonesDir : Text)
    (a : RecordCall × WriteOutcome) (disk : Disk) : Prop :=
  (∀ len, a.2 ≠ .cut len) ∧
    ∀ create t before, a.1 = .insert create → a.1.target lib zoneCfg = .ok t →
      zoneOnDisk lib zoneCfg zonesDir t.origin disk = some before → ¬ SecondSoa t before

/-- What the call writes is read back. -/
def WritesReadable (lib : ZoneLib) (zoneCfg : ZoneConfig) (zonesDir : Text)
    (a : RecordCall × WriteOutcome) (disk : Disk) : Prop :=
  ∀ origin records, a.1.edit lib zoneCfg zonesDir disk = .ok (some (origin, records)) →
    lib.ReadsBack origin records

/-- The zone the call reads has data that is what its text is read as. -/
def ReadsStable (lib : ZoneLib) (zoneCfg : ZoneConfig) (zonesDir : Text)
    (_ : RecordCall × WriteOutcome) (disk : Disk) : Prop :=
  ∀ origin before, zoneOnDisk lib zoneCfg zonesDir origin disk = some before →
    lib.Stable origin before

/-- The call is about the record set. -/
def IsAbout (lib : ZoneLib) (zoneCfg : ZoneConfig) (k : RrKey) (call : RecordCall) : Prop :=
  ∃ t, call.target lib zoneCfg = .ok t ∧ t.rrset = k

/-- The data of the SOA record at the apex of the zone in the file. -/
def soaOnDisk (lib : ZoneLib) (zoneCfg : ZoneConfig) (zonesDir : Text) (origin : Name)
    (disk : Disk) : Option SOA :=
  (zoneOnDisk lib zoneCfg zonesDir origin disk).bind fun records => oldSoa records origin

/-! ## One call -/

/-- A call leaves the file as it was, or it has written what it computed, and that is read back. -/
inductive Stepped (lib : ZoneLib) (zoneCfg : ZoneConfig) (zonesDir : Text) (origin : Name)
    (a : RecordCall × WriteOutcome) (disk disk' : Disk) : Prop
  | same (h : disk' = disk)
  | wrote (t : Target) (rname : Name) (before records after : Records)
      (complete : a.2 = .ok) (target : a.1.target lib zoneCfg = .ok t) (horigin : t.origin = origin)
      (loaded : Loaded lib zoneCfg zonesDir disk origin rname before)
      (edit : a.1.edit lib zoneCfg zonesDir disk = .ok (some (origin, records)))
      (writes : Writes lib t rname before a.1 records) (back : lib.ReadsBack origin records)
      (parse : lib.parse origin (zoneText lib origin records) = some after)
      (read : zoneOnDisk lib zoneCfg zonesDir origin disk' = some after)

theorem callStep_cases (hlaws : lib.Laws origin) (horigin : lib.fromAscii zoneCfg.name = some origin)
    (htidy : Tidy lib zoneCfg zonesDir a disk) (hback : WritesReadable lib zoneCfg zonesDir a disk)
    (hstep : callStep lib zoneCfg zonesDir a disk = some disk') :
    Stepped lib zoneCfg zonesDir origin a disk disk' := by
  obtain ⟨call, w⟩ := a
  obtain rfl := Option.some.inj hstep
  rw [RecordCall.run_eq]
  cases hedit : call.edit lib zoneCfg zonesDir disk with
  | error e => exact .same rfl
  | ok e =>
    obtain ⟨t, rname, before, result, htarget, hload, hedited, rfl⟩ := edit_eq_ok hedit
    obtain rfl := Option.some.inj (hload.zoneName.symm.trans horigin)
    cases result with
    | none => exact .same rfl
    | some records =>
      have h : Writes lib t rname before call records := hload.writes hlaws hedited
      have htwice : ¬ SoaTwice t.origin records := by
        cases call with
        | insert create =>
          exact mt h.soaTwice_insert.mp (htidy.2 create t before rfl htarget hload.read)
        | delete request => exact h.not_soaTwice_delete
      cases w with
      | ok =>
        have hreads := hback _ _ hedit
        obtain ⟨after, hafter⟩ := hreads.exists_parse htwice
        exact .wrote t rname before records after rfl htarget rfl hload hedit h hreads hafter
          ((zoneOnDisk_update _ _).trans hafter)
      | noDir => exact .same rfl
      | refused => exact .same rfl
      | cut len => exact absurd rfl (htidy.1 len)

namespace Stepped

variable (h : Stepped lib zoneCfg zonesDir origin a disk disk')

include h

/-- A zone that could be read still can be. -/
theorem readable {before : Records}
    (hbefore : zoneOnDisk lib zoneCfg zonesDir origin disk = some before) :
    ∃ after, zoneOnDisk lib zoneCfg zonesDir origin disk' = some after := by
  cases h with
  | same h => exact ⟨before, h ▸ hbefore⟩
  | wrote _ _ _ _ after _ _ _ _ _ _ _ _ read => exact ⟨after, read⟩

/-- The record sets the call is not about stay as they are. -/
theorem lookup_eq (hstable : ReadsStable lib zoneCfg zonesDir a disk) {k : RrKey}
    (hsoa : k ≠ soaKey origin) (hgen : generated k.recordType = false)
    (habout : ¬ IsAbout lib zoneCfg k a.1) :
    (zoneOnDisk lib zoneCfg zonesDir origin disk').map (·.lookup k) =
      (zoneOnDisk lib zoneCfg zonesDir origin disk).map (·.lookup k) := by
  cases h with
  | same h => rw [h]
  | wrote t rname before records after complete target horigin loaded edit writes back parse read =>
    subst horigin
    have hk : k ≠ t.rrset := fun heq => habout ⟨t, target, heq.symm⟩
    rw [read, loaded.read]
    exact congrArg some (writes.lookup_after back parse (hstable _ _ loaded.read) hk hsoa hgen)

/-- **The SOA record**, in a call that is not about it: at most the RNAME is another. -/
theorem soa_eq {soa : SOA} {rname : Name} (hrname : lib.nameOf defaultSoaRname = some rname)
    (habout : ¬ IsAbout lib zoneCfg (soaKey origin) a.1)
    (hsoa : soaOnDisk lib zoneCfg zonesDir origin disk = some soa) :
    soaOnDisk lib zoneCfg zonesDir origin disk' = some soa ∨
      soaOnDisk lib zoneCfg zonesDir origin disk' =
        some { soa with rname := rname.within origin } := by
  cases h with
  | same h => exact .inl (h ▸ hsoa)
  | wrote t rname' before records after complete target horigin loaded edit writes back parse read =>
    subst horigin
    obtain rfl := Option.some.inj (loaded.newRname.symm.trans hrname)
    unfold soaOnDisk at hsoa ⊢
    rw [loaded.read, Option.bind_some] at hsoa
    have hmem : soaKey t.origin ∈ before := by
      by_contra hnot
      rw [oldSoa_eq_none hnot] at hsoa
      cases hsoa
    obtain ⟨soa', hsoa', hmname⟩ := writes.parsed.oldSoa_eq hmem
    obtain rfl := Option.some.inj (hsoa'.symm.trans hsoa)
    have htarget : soaKey t.origin ≠ t.rrset := fun heq => habout ⟨t, target, heq.symm⟩
    right
    rw [read, Option.bind_some]
    unfold oldSoa
    rw [writes.lookup_after_soa back parse htarget hsoa' hmname hmem]

end Stepped

/-! ## Runs -/

section Run

variable (hlaws : lib.Laws origin) (horigin : lib.fromAscii zoneCfg.name = some origin)
  (htidy : Along (callStep lib zoneCfg zonesDir) (Tidy lib zoneCfg zonesDir) calls disk)
  (hback : Along (callStep lib zoneCfg zonesDir) (WritesReadable lib zoneCfg zonesDir) calls disk)
  (hrun : runAll (callStep lib zoneCfg zonesDir) calls disk = some disk')

include hlaws horigin htidy hback hrun

/-- A zone that could be read still can be after a tidy run. -/
theorem run_readable {before : Records}
    (hbefore : zoneOnDisk lib zoneCfg zonesDir origin disk = some before) :
    ∃ after, zoneOnDisk lib zoneCfg zonesDir origin disk' = some after := by
  refine runAll_invariant
    (I := fun disk => ∃ records, zoneOnDisk lib zoneCfg zonesDir origin disk = some records) ?_
    ⟨before, hbefore⟩ (htidy.and hback) hrun
  rintro a s s' ⟨records, hrecords⟩ ⟨htidy, hback⟩ hstep
  exact (callStep_cases hlaws horigin htidy hback hstep).readable hrecords

/-- **What has changed, a call has asked for.** The file stays readable, and a record set other than
the zone's SOA record that is not what it was before the run was the target of a call whose writing
went through. -/
theorem changed_by_target
    (hstable : Along (callStep lib zoneCfg zonesDir) (ReadsStable lib zoneCfg zonesDir) calls disk)
    {before : Records}
    (hbefore : zoneOnDisk lib zoneCfg zonesDir origin disk = some before) :
    ∃ after, zoneOnDisk lib zoneCfg zonesDir origin disk' = some after ∧
      ∀ k, k ≠ soaKey origin → generated k.recordType = false → after.lookup k ≠ before.lookup k →
        ∃ earlier call later between records, calls = earlier ++ (call, .ok) :: later ∧
          runAll (callStep lib zoneCfg zonesDir) earlier disk = some between ∧
          IsAbout lib zoneCfg k call ∧
          call.edit lib zoneCfg zonesDir between = .ok (some (origin, records)) := by
  obtain ⟨after, hafter⟩ := run_readable hlaws horigin htidy hback hrun hbefore
  refine ⟨after, hafter, fun k hsoa hgen hne => ?_⟩
  have hview : (zoneOnDisk lib zoneCfg zonesDir origin disk').map (·.lookup k) ≠
      (zoneOnDisk lib zoneCfg zonesDir origin disk).map (·.lookup k) := by
    rw [hafter, hbefore]
    exact fun heq => hne (Option.some.inj heq)
  obtain ⟨earlier, ⟨call, w⟩, later, between, next, rfl, hearlier, hstep, hchanged⟩ :=
    runAll_changed (fun disk => (zoneOnDisk lib zoneCfg zonesDir origin disk).map (·.lookup k)) hrun
      hview
  have hstepped := callStep_cases hlaws horigin (htidy.at_step hearlier)
    (hback.at_step hearlier) hstep
  have habout : IsAbout lib zoneCfg k call := by
    by_contra habout
    exact hchanged (hstepped.lookup_eq (hstable.at_step hearlier) hsoa hgen habout)
  cases hstepped with
  | same h => exact absurd (by rw [h]) hchanged
  | wrote _ _ _ records _ complete _ _ _ edit _ _ _ _ =>
    obtain rfl : w = .ok := complete
    exact ⟨earlier, call, later, between, records, rfl, hearlier, habout, edit⟩

/-- **The serial never moves.** In a run of edits none of which is about the SOA record of the zone,
the record keeps everything but its RNAME, which is the one it had or that of a default
configuration. -/
theorem serial_never_moves {soa : SOA} {rname : Name}
    (hrname : lib.nameOf defaultSoaRname = some rname)
    (hsoa : soaOnDisk lib zoneCfg zonesDir origin disk = some soa)
    (hothers : ∀ a ∈ calls, ¬ IsAbout lib zoneCfg (soaKey origin) a.1) :
    soaOnDisk lib zoneCfg zonesDir origin disk' = some soa ∨
      soaOnDisk lib zoneCfg zonesDir origin disk' =
        some { soa with rname := rname.within origin } := by
  induction calls generalizing disk soa with
  | nil =>
    obtain rfl := Option.some.inj hrun
    exact .inl hsoa
  | cons a calls ih =>
    obtain ⟨between, hstep, hrest⟩ := runAll_cons hrun
    have hstepped := callStep_cases hlaws horigin htidy.1 hback.1 hstep
    have hothers' : ∀ b ∈ calls, ¬ IsAbout lib zoneCfg (soaKey origin) b.1 := fun b hb =>
      hothers b (List.mem_cons_of_mem _ hb)
    rcases hstepped.soa_eq hrname (hothers a List.mem_cons_self) hsoa with hnext | hnext
    · exact ih (htidy.2 _ hstep) (hback.2 _ hstep) hrest hnext hothers'
    · exact .inr (or_self_iff.mp (ih (htidy.2 _ hstep) (hback.2 _ hstep) hrest hnext hothers'))

end Run

/-! ### The example zone -/

/-- A host is added and taken out again. -/
def mailCalls : List (RecordCall × WriteOutcome) := [(insertMail, .ok), (deleteMail, .ok)]

/-- The disk after the two calls. -/
def mailDisk : Disk :=
  (deleteMail.run sampleLib sampleConfig sampleDir
    (insertMail.run sampleLib sampleConfig sampleDir (sampleDisk sampleZone) .ok).2 .ok).2

theorem mail_run : runAll (callStep sampleLib sampleConfig sampleDir) mailCalls
    (sampleDisk sampleZone) = some mailDisk := rfl

theorem mail_target : ∀ a ∈ mailCalls, a.1.target sampleLib sampleConfig = .ok mailTarget := by
  decide

theorem mail_tidy : Along (callStep sampleLib sampleConfig sampleDir)
    (Tidy sampleLib sampleConfig sampleDir) mailCalls (sampleDisk sampleZone) := by
  have htidy : ∀ a ∈ mailCalls, ∀ disk, Tidy sampleLib sampleConfig sampleDir a disk := by
    intro a ha disk
    refine ⟨?_, ?_⟩
    · rcases List.mem_pair.mp ha with rfl | rfl
      · simp
      · simp
    · rintro create t before - htarget - ⟨htype, -⟩
      obtain rfl := Except.ok.inj ((mail_target a ha).symm.trans htarget)
      cases htype
  exact ⟨htidy _ List.mem_cons_self _, fun s _ =>
    ⟨htidy _ (List.mem_cons_of_mem _ List.mem_cons_self) _, fun _ _ => trivial⟩⟩

theorem mail_readable : Along (callStep sampleLib sampleConfig sampleDir)
    (WritesReadable sampleLib sampleConfig sampleDir) mailCalls (sampleDisk sampleZone) := by
  have hinserted := sampleLib_readsBack [sampleWww, sampleMail]
    (List.mem_cons_of_mem _ List.mem_cons_self)
  have hdeleted := sampleLib_readsBack [sampleWww] List.mem_cons_self
  refine ⟨readsBack_of_edit sample_insert hinserted, fun s hs => ⟨?_, fun _ _ => trivial⟩⟩
  obtain rfl := Option.some.inj hs
  exact readsBack_of_edit sample_delete hdeleted

/-- The zones on the way: as it was set up, and with the other host. -/
theorem mail_stable : Along (callStep sampleLib sampleConfig sampleDir)
    (ReadsStable sampleLib sampleConfig sampleDir) mailCalls (sampleDisk sampleZone) := by
  have hread : ∀ disk records, (∀ origin, zoneOnDisk sampleLib sampleConfig sampleDir origin disk =
      some records) → plainRecords records = true →
      ∀ a, ReadsStable sampleLib sampleConfig sampleDir a disk := by
    rintro disk records hdisk hplain a origin before hbefore
    obtain rfl := Option.some.inj ((hdisk origin).symm.trans hbefore)
    exact stable_plain hplain
  refine ⟨hread _ sampleZone (fun origin => ?_) (by decide) _, fun s hs =>
    ⟨hread _ (rereadZone [sampleWww, sampleMail]) (fun origin => ?_) (by decide) _,
      fun _ _ => trivial⟩⟩
  · exact sampleZone_read origin
  · obtain rfl := Option.some.inj hs
    rw [sample_run sample_insert]
    exact sample_reread origin _ (List.mem_cons_of_mem _ List.mem_cons_self)

theorem not_about_mail {k : RrKey} (hk : mailTarget.rrset ≠ k) :
    ∀ a ∈ mailCalls, ¬ IsAbout sampleLib sampleConfig k a.1 := by
  rintro a ha ⟨t, htarget, rfl⟩
  obtain rfl := Except.ok.inj ((mail_target a ha).symm.trans htarget)
  exact hk rfl

/-- The other host is left alone. -/
theorem changed_by_target_mail : ∃ after,
    zoneOnDisk sampleLib sampleConfig sampleDir sampleOrigin mailDisk = some after ∧
      after.lookup sampleWww.key = some [sampleWww] := by
  obtain ⟨after, hafter, hchanged⟩ := changed_by_target sampleLib_laws sample_origin
    mail_tidy mail_readable mail_run mail_stable (sampleZone_read _)
  have hwww : sampleZone.lookup sampleWww.key = some [sampleWww] := by decide
  refine ⟨after, hafter, ?_⟩
  by_contra hne
  obtain ⟨earlier, call, later, -, -, hcalls, -, habout, -⟩ :=
    hchanged sampleWww.key (by decide) rfl (hwww ▸ hne)
  have hmem : (call, WriteOutcome.ok) ∈ mailCalls := by
    rw [hcalls]
    exact List.mem_append_right _ List.mem_cons_self
  exact not_about_mail (by decide) _ hmem habout

/-- Two edits later the serial is the one of the beginning. -/
theorem serial_never_moves_mail :
    ∃ soa, soaOnDisk sampleLib sampleConfig sampleDir sampleOrigin mailDisk = some soa ∧
      soa.serial = 1 := by
  have hsoa : soaOnDisk sampleLib sampleConfig sampleDir sampleOrigin (sampleDisk sampleZone) =
      some (sampleSoaData (sampleHost "admin")) := by
    unfold soaOnDisk
    rw [sampleZone_read]
    decide
  rcases serial_never_moves sampleLib_laws sample_origin mail_tidy mail_readable
    mail_run sample_rname hsoa (not_about_mail (by decide)) with h | h
  · exact ⟨_, h, rfl⟩
  · exact ⟨_, h, rfl⟩

end Runs

end Heimdallr.Zone
