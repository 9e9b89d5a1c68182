import Heimdallr.Lib.ReadModifyWrite
import Heimdallr.Zone.RecordEdits
import Mathlib.Data.List.Permutation

/-!
# Record calls at the same time

Every request to the record API is a task of its own, and nothing is held between the reading of the
zone file and its writing. `zoneCalls` is the instance of `Lib.Calls` for calls on one zone: a call
has two steps, one that reads the file and computes the records, and one that writes them.

* Reading and computing is one step since what is computed depends on what was read and nothing
  else.
* The writing of a file is one step. Two writes that run into each other are not modelled; they
  could only make things worse.

Results:
* `exec_zoneCalls`: a call with nothing in between is the call.
* **`no_lost_update`**: calls that write into the file they have read come to what they come to one
  after the other.
* `update_lost`: two insertions that overlap.
-/

namespace Heimdallr.Zone

open Heimdallr.Lib Heimdallr.Net

variable {ι : Type} (lib : ZoneLib) (zoneCfg : ZoneConfig) (zonesDir : Text)
  (requests : ι → RecordCall)

/-- The calls on one zone: the first step reads the file and computes the new content, the second
writes it. -/
def zoneCalls : Calls ι Disk Text where
  plan i disk :=
    match (requests i).edit lib zoneCfg zonesDir disk with
    | .error _ => none
    | .ok edited => some (edited.map fun e => zoneText lib e.1 e.2)
  write content disk := Function.update disk (zonePath zoneCfg zonesDir) (some (some content))

/-- A call that succeeds, on its own. -/
def runOk (call : RecordCall) (disk : Disk) : Option Disk :=
  match call.run lib zoneCfg zonesDir disk .ok with
  | (.ok (), disk') => some disk'
  | (.error _, _) => none

/-- A call with nothing in between its two steps is the call. -/
theorem exec_zoneCalls (i : ι) (disk : Disk) :
    (zoneCalls lib zoneCfg zonesDir requests).exec i disk =
      runOk lib zoneCfg zonesDir (requests i) disk := by
  unfold runOk Calls.exec zoneCalls
  rw [RecordCall.run_eq]
  dsimp only
  cases (requests i).edit lib zoneCfg zonesDir disk with
  | error e => rfl
  | ok edited =>
    cases edited with
    | none => rfl
    | some e => rfl

variable {lib zoneCfg zonesDir requests}

/-- **No lost update**, as long as every call writes into the file it has read. -/
theorem no_lost_update [DecidableEq ι] {steps : List (CallStep ι)} {disk : Disk}
    {s : Interleaved ι Disk Text}
    (hunchanged : Along (zoneCalls lib zoneCfg zonesDir requests).step Calls.Unchanged steps
      { state := disk })
    (hrun : runAll (zoneCalls lib zoneCfg zonesDir requests).step steps { state := disk } = some s)
    (hdone : s.waiting = []) :
    ∃ order, order.Perm (started steps) ∧
      runAll (fun i => runOk lib zoneCfg zonesDir (requests i)) order disk = some s.state := by
  obtain ⟨order, hperm, hserial⟩ := Calls.serial_of_unchanged hunchanged hrun hdone
  refine ⟨order, hperm, ?_⟩
  rw [← hserial]
  congr 1
  funext i disk
  exact (exec_zoneCalls lib zoneCfg zonesDir requests i disk).symm

/-- The insertion of a third host. -/
def insertFtp : RecordCall := .insert ⟨"ftp.example.com.", "A", none, "192.0.2.3"⟩

/-- Two insertions of different records. -/
def twoInserts : Bool → RecordCall
  | false => insertMail
  | true => insertFtp

/-- The two insertions as concurrent calls. -/
def sampleCalls : Calls Bool Disk Text := zoneCalls sampleLib sampleConfig sampleDir twoInserts

/-- The hosts they insert. -/
def insertedHost : Bool → Record
  | false => sampleMail
  | true => sampleFtp

theorem twoInserts_edit (i : Bool) {disk : Disk} {hosts : List Record}
    (hload : loadHandler sampleLib disk sampleConfig sampleDir = .ok (writtenZone hosts)) :
    (twoInserts i).edit sampleLib sampleConfig sampleDir disk =
      .ok (some (sampleOrigin, writtenZone (hosts ++ [insertedHost i]))) := by
  cases i with
  | false => exact sample_inserted hload insertMail_target insertMail_rdata rfl
  | true =>
    have hftp : insertFtp.target sampleLib sampleConfig = .ok ⟨sampleOrigin, sampleHost "ftp", .A⟩ ∧
        parseRdata sampleLib .A "192.0.2.3".toList = .ok (.A ⟨192, 0, 2, 3⟩) := by
      decide
    exact sample_inserted hload hftp.1 hftp.2 rfl

theorem sampleCalls_plan (i : Bool) {zone : Records} {hosts : List Record}
    (hload : loadHandler sampleLib (sampleDisk zone) sampleConfig sampleDir =
      .ok (writtenZone hosts)) :
    sampleCalls.plan i (sampleDisk zone) =
      some (some (sampleText (writtenZone (hosts ++ [insertedHost i])))) := by
  unfold sampleCalls zoneCalls
  dsimp only
  rw [twoInserts_edit i hload]
  exact congrArg (fun t => some (some t)) (zoneText_sample _)

theorem sampleCalls_write (zone zone' : Records) :
    sampleCalls.write (sampleText zone') (sampleDisk zone) = sampleDisk zone' :=
  sampleDisk_update zone zone'

theorem sample_runOk (i : Bool) {zone : Records} {hosts : List Record}
    (hload : loadHandler sampleLib (sampleDisk zone) sampleConfig sampleDir =
      .ok (writtenZone hosts)) :
    runOk sampleLib sampleConfig sampleDir (twoInserts i) (sampleDisk zone) =
      some (sampleDisk (writtenZone (hosts ++ [insertedHost i]))) := by
  unfold runOk
  rw [sample_run (twoInserts_edit i hload)]

/-- The two insertions one after the other. -/
theorem no_lost_update_oneByOne :
    ∃ s, runAll sampleCalls.step (Calls.oneByOne [false, true]) { state := sampleDisk sampleZone } =
        some s ∧
      ∃ order, order.Perm [false, true] ∧
        runAll (fun i => runOk sampleLib sampleConfig sampleDir (twoInserts i)) order
          (sampleDisk sampleZone) = some s.state := by
  have hfirst := sampleCalls_plan false sample_load
  have hsecond := sampleCalls_plan true
    (sample_reload [sampleWww, sampleMail] (List.mem_cons_of_mem _ List.mem_cons_self))
  have hrun : ∃ s, runAll sampleCalls.step (Calls.oneByOne [false, true])
      { state := sampleDisk sampleZone } = some s ∧ s.waiting = [] := by
    simp [Calls.oneByOne, runAll, Calls.step, hfirst, hsecond, sampleCalls_write, insertedHost]
  obtain ⟨s, hs, hempty⟩ := hrun
  exact ⟨s, hs, no_lost_update (Calls.unchanged_oneByOne _ rfl) hs hempty⟩

/-- One insertion after the other: both hosts are in the zone. -/
theorem sample_serial (i j : Bool) (h : [sampleWww, insertedHost i] ∈ sampleHosts) :
    runAll (fun i => runOk sampleLib sampleConfig sampleDir (twoInserts i)) [i, j]
      (sampleDisk sampleZone) =
        some (sampleDisk (writtenZone [sampleWww, insertedHost i, insertedHost j])) := by
  have hfirst := sample_runOk i sample_load
  have hsecond := sample_runOk j (sample_reload _ h)
  simp [runAll, hfirst, hsecond]

/-- Both insertions read the file before either writes it: the first one is lost, in whatever order
they are taken to have run. -/
theorem update_lost :
    ∃ s, runAll sampleCalls.step [.load false, .load true, .store false, .store true]
        { state := sampleDisk sampleZone } = some s ∧ s.waiting = [] ∧
      ¬ ∃ order, order.Perm [false, true] ∧
        runAll (fun i => runOk sampleLib sampleConfig sampleDir (twoInserts i)) order
          (sampleDisk sampleZone) = some s.state := by
  have hmail := sampleCalls_plan false sample_load
  have hftp := sampleCalls_plan true sample_load
  have hrun : runAll sampleCalls.step [.load false, .load true, .store false, .store true]
      { state := sampleDisk sampleZone } =
        some ⟨sampleDisk (writtenZone [sampleWww, sampleFtp]), [], [false, true]⟩ := by
    simp [runAll, Calls.step, hmail, hftp, sampleCalls_write, insertedHost]
  have htexts : ∀ i j, i ≠ j →
      sampleText (writtenZone [sampleWww, insertedHost i, insertedHost j]) ≠
        sampleText (writtenZone [sampleWww, sampleFtp]) := by
    decide +kernel
  have hhosts : ∀ i, [sampleWww, insertedHost i] ∈ sampleHosts := by
    intro i
    cases i <;> simp [insertedHost, sampleHosts]
  refine ⟨_, hrun, rfl, ?_⟩
  rintro ⟨order, hperm, horder⟩
  obtain ⟨i, j, hne, rfl⟩ : ∃ i j : Bool, i ≠ j ∧ order = [i, j] := by
    rcases List.perm_pair.mp hperm with rfl | rfl
    · exact ⟨false, true, by decide, rfl⟩
    · exact ⟨true, false, by decide, rfl⟩
  have hdisk : sampleDisk (writtenZone [sampleWww, insertedHost i, insertedHost j]) =
      sampleDisk (writtenZone [sampleWww, sampleFtp]) :=
    Option.some.inj ((sample_serial i j (hhosts i)).symm.trans horder)
  have hcontent := congrFun hdisk (zonePath sampleConfig sampleDir)
  rw [sampleDisk_self, sampleDisk_self] at hcontent
  exact htexts i j hne (Option.some.inj (Option.some.inj hcontent))

end Heimdallr.Zone
