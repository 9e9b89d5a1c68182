import Heimdallr.Lib.Footprint
import Heimdallr.Zone.Listing

/-!
# The record API (`api/mod.rs`)

The handlers find the zone a request names among the configured ones, and hand the request on to the
record functions, which read and write the file of that zone. The zones themselves are fixed when
the server starts. The router and the HTTP layer are left out: a request is what the router has made
of it.

* A reply is a status and a body; the bodies are those of the source, by constructor, and the texts
  of inner errors are left out.
* `find_zone` completes the name of a request with a dot at its end and takes the first configured
  zone of exactly this name, whatever its kind.
* The disk is the state. What becomes of a write comes with the request, so that writes may fail or
  be cut short at any point of a sequence.
* Zones with the same file are not told apart: what a request is about is the path of a file
  (`place`).

Results:
* `ApiRequest`, `serve`: the handlers.
* `serve_keepsTo`: a request keeps to the file of the zone it names, in the sense of
  `Lib.Footprint`.
* **`zones_independent`**: what happens to one zone in a sequence of requests.
* **`api_statuses`**: the status of every reply of a sequence, and what it takes to change a file.

Out of scope: the handlers that are not about zones (`server_info`, `filter_stats`, the metrics, and
`rec_options_update`, which writes the configuration back as it is).
-/

namespace Heimdallr.Zone

open Lib Heimdallr.Net

/-! ## Configuration, requests and replies -/

/-- `ZoneConfig`, with what the API shows of it. -/
structure ListedZone extends ZoneConfig where
  kind : String
  primaries : List String
  deriving DecidableEq, Repr

/-- What the handlers read of `Config`. -/
structure ApiSettings where
  zones : List ListedZone
  zonesDir : Text

/-- `ZoneSummary`: what the listing shows of a zone. -/
structure ZoneSummary where
  name : String
  kind : String
  file : Option String
  primaries : List String
  deriving DecidableEq, Repr

/-- The summary of a configured zone. -/
def ZoneSummary.ofZone (z : ListedZone) : ZoneSummary := ⟨z.name, z.kind, z.file, z.primaries⟩

/-- `ApiState`, as `Api::new` makes it. -/
structure ApiState where
  config : ApiSettings
  zones : List ZoneSummary

/-- `Api::new`. -/
def ApiState.new (config : ApiSettings) : ApiState := ⟨config, config.zones.map .ofZone⟩

/-- A request to one of the handlers, its parameters taken from the path and the body. -/
inductive ApiRequest
  | health
  | listZones
  | zoneDetail (name : String)
  | listRecords (zone : String)
  | getRecords (zone name recordType : String)
  | createRecord (zone : String) (create : RecordCreate)
  | deleteRecord (zone : String) (delete : RecordDelete)

/-- The status codes the handlers use. -/
inductive StatusCode
  | OK
  | BAD_REQUEST
  | NOT_FOUND
  | INTERNAL_SERVER_ERROR
  deriving DecidableEq, Repr

/-- The body of an error. -/
inductive ApiError
  /-- `zone '{search}' not found` -/
  | ZoneNotFound (search : String)
  /-- the text of the error of a record function -/
  | Record (e : RecordError)
  deriving DecidableEq, Repr

/-- The JSON bodies of the replies. -/
inductive Body
  | health (status : String)
  | zoneList (zones : List ZoneSummary) (total : Nat)
  | zone (z : ZoneSummary)
  | recordList (records : List RecordSummary) (total : Nat)
  | message (message : String)
  | deleted (deleted : Nat)
  | error (error : ApiError)
  deriving DecidableEq, Repr

/-- A reply: its status and its body. -/
structure Response where
  status : StatusCode
  body : Body
  deriving DecidableEq, Repr

/-! ## Handlers -/

/-- The absolute name a zone is looked up under. -/
def searchName (name : String) : String :=
  if name.toList.getLast? = some '.' then name else name ++ "."

/-- A reply of status 200. -/
def Response.ok (body : Body) : Response := ⟨.OK, body⟩

/-- The reply for a zone that is not configured, under the name it was looked up by. -/
def Response.notFound (name : String) : Response :=
  ⟨.NOT_FOUND, .error (.ZoneNotFound (searchName name))⟩

/-- The reply for the result of a record function, with the status of its errors. -/
def Response.ofResult {α : Type} (onError : StatusCode) (show_ : α → Body) :
    Except RecordError α → Response
  | .ok a => .ok (show_ a)
  | .error e => ⟨onError, .error (.Record e)⟩

/-- The body of a listing, with the number of its rows. -/
def Body.ofRecords (records : List RecordSummary) : Body := .recordList records records.length

section Handlers

variable (lib : ZoneLib) (state : ApiState)

/-- `list_zones`. -/
def listZones : Response := .ok (.zoneList state.zones state.zones.length)

/-- `zone_detail`. -/
def zoneDetail (name : String) : Response :=
  match state.zones.find? fun z => z.name == searchName name with
  | some z => .ok (.zone z)
  | none => .notFound name

/-- `find_zone`, on the configured zones. -/
def zoneNamed (name : String) : Option ListedZone :=
  state.config.zones.find? fun z => z.name == searchName name

/-- A handler of the records of a zone: `find_zone` first. -/
def onZone (name : String) (handler : ZoneConfig → Disk → Response × Disk) (disk : Disk) :
    Response × Disk :=
  match zoneNamed state name with
  | some z => handler z.toZoneConfig disk
  | none => (.notFound name, disk)

/-- `list_records`. -/
def handleList (zone : String) : Disk → Response × Disk :=
  onZone state zone fun z disk =>
    (.ofResult .INTERNAL_SERVER_ERROR .ofRecords (listRecords lib z state.config.zonesDir disk), disk)

/-- `get_records`. -/
def handleGet (zone name recordType : String) : Disk → Response × Disk :=
  onZone state zone fun z disk =>
    (.ofResult .BAD_REQUEST .ofRecords
      (getRecords lib z state.config.zonesDir disk name recordType), disk)

/-- `create_record`. -/
def handleCreate (zone : String) (create : RecordCreate) (w : WriteOutcome) :
    Disk → Response × Disk :=
  onZone state zone fun z disk =>
    let r := insertRecord lib z state.config.zonesDir disk create w
    (.ofResult .BAD_REQUEST (fun _ => .message ("record added to zone " ++ zone)) r.1, r.2)

/-- `delete_record`. -/
def handleDelete (zone : String) (delete : RecordDelete) (w : WriteOutcome) :
    Disk → Response × Disk :=
  onZone state zone fun z disk =>
    let r := deleteRecords lib z state.config.zonesDir disk delete w
    (.ofResult .BAD_REQUEST .deleted r.1, r.2)

/-- The handlers; `w` is what becomes of a write. -/
def serve : ApiRequest × WriteOutcome → Disk → Response × Disk
  | (.health, _), disk => (.ok (.health "ok"), disk)
  | (.listZones, _), disk => (listZones state, disk)
  | (.zoneDetail name, _), disk => (zoneDetail state name, disk)
  | (.listRecords zone, _), disk => handleList lib state zone disk
  | (.getRecords zone name recordType, _), disk => handleGet lib state zone name recordType disk
  | (.createRecord zone create, w), disk => handleCreate lib state zone create w disk
  | (.deleteRecord zone delete, w), disk => handleDelete lib state zone delete w disk

end Handlers

/-! ## The file a request is about -/

/-- The zone whose records the request is about. -/
def ApiRequest.zone : ApiRequest → Option String
  | .listRecords zone => some zone
  | .getRecords zone _ _ => some zone
  | .createRecord zone _ => some zone
  | .deleteRecord zone _ => some zone
  | _ => none

/-- The path of the file of a zone, if there is such a zone. -/
def fileOf (state : ApiState) (zone : String) : Option Text :=
  (zoneNamed state zone).map fun z => zonePath z.toZoneConfig state.config.zonesDir

/-- The path of the file a request is about. -/
def place (state : ApiState) (r : ApiRequest × WriteOutcome) : Option Text :=
  r.1.zone.bind (fileOf state)

section Footprint

variable {lib : ZoneLib} {zoneCfg : ZoneConfig} {zonesDir : Text} {disk disk' : Disk}

/-- Loading reads the zone file only. -/
theorem loadHandler_congr (h : disk (zonePath zoneCfg zonesDir) = disk' (zonePath zoneCfg zonesDir)) :
    loadHandler lib disk zoneCfg zonesDir = loadHandler lib disk' zoneCfg zonesDir := by
  unfold loadHandler
  cases hfile : zoneCfg.file with
  | none => rfl
  | some filePath =>
    have hpath : zonePath zoneCfg zonesDir = resolveZonePath filePath.toList zonesDir := by
      unfold zonePath
      rw [hfile]
      rfl
    rw [hpath] at h
    unfold loadZoneFile
    dsimp only [orErr, bind, Except.bind]
    rw [h]

theorem insertEdit_congr (h : disk (zonePath zoneCfg zonesDir) = disk' (zonePath zoneCfg zonesDir))
    (create : RecordCreate) :
    insertEdit lib zoneCfg zonesDir disk create = insertEdit lib zoneCfg zonesDir disk' create := by
  unfold insertEdit
  rw [loadHandler_congr h]

theorem deleteEdit_congr (h : disk (zonePath zoneCfg zonesDir) = disk' (zonePath zoneCfg zonesDir))
    (delete : RecordDelete) :
    deleteEdit lib zoneCfg zonesDir disk delete = deleteEdit lib zoneCfg zonesDir disk' delete := by
  unfold deleteEdit
  rw [loadHandler_congr h]

theorem listRecords_congr (h : disk (zonePath zoneCfg zonesDir) = disk' (zonePath zoneCfg zonesDir)) :
    listRecords lib zoneCfg zonesDir disk = listRecords lib zoneCfg zonesDir disk' := by
  unfold listRecords
  rw [loadHandler_congr h]

theorem getRecords_congr (h : disk (zonePath zoneCfg zonesDir) = disk' (zonePath zoneCfg zonesDir))
    (name recordType : String) :
    getRecords lib zoneCfg zonesDir disk name recordType =
      getRecords lib zoneCfg zonesDir disk' name recordType := by
  unfold getRecords matchingRecords
  rw [loadHandler_congr h]

/-- Writing a file does not look at the disk. -/
theorem writeFile_result (path content : Text) (w : WriteOutcome) :
    (writeFile disk path content w).1 = (writeFile disk' path content w).1 := by
  cases w <;> rfl

theorem writeFile_content (path content : Text) (w : WriteOutcome) (h : disk path = disk' path) :
    (writeFile disk path content w).2 path = (writeFile disk' path content w).2 path := by
  cases w with
  | ok => simp [writeFile]
  | noDir => exact h
  | refused => exact h
  | cut len => simp [writeFile]

theorem writeFile_others (path content : Text) (w : WriteOutcome) (p : Text) (hp : p ≠ path) :
    (writeFile disk path content w).2 p = disk p := by
  cases w with
  | ok => exact Function.update_of_ne hp _ _
  | noDir => rfl
  | refused => rfl
  | cut len => exact Function.update_of_ne hp _ _

/-- Writing a file keeps to it. -/
theorem keeps_writeFile (path content : Text) (w : WriteOutcome) :
    KeepsAt (fun disk => writeFile disk path content w) (some path) where
  reply _ _ _ := writeFile_result path content w
  content k disk disk' hk h := by
    obtain rfl := Option.some.inj hk
    exact writeFile_content path content w h
  others k _ hk := writeFile_others path content w k fun heq => hk (congrArg some heq.symm)

/-- What becomes of an edit: its error, or its writing. -/
def afterEdit {α β : Type} (write : α → Disk → Except RecordError β × Disk) (disk : Disk) :
    Except RecordError α → Except RecordError β × Disk
  | .error e => (.error e, disk)
  | .ok a => write a disk

/-- An edit that reads the zone file, and the writing of what it came to. -/
theorem keeps_afterEdit {α β : Type} {path : Text} {edit : Disk → Except RecordError α}
    {write : α → Disk → Except RecordError β × Disk}
    (hedit : ∀ disk disk', disk path = disk' path → edit disk = edit disk')
    (hwrite : ∀ a, KeepsAt (write a) (some path)) :
    KeepsAt (fun disk => afterEdit write disk (edit disk)) (some path) := by
  refine ⟨fun disk disk' h => ?_, fun k disk disk' hk h => ?_, fun k disk hk => ?_⟩
  · rw [hedit disk disk' (h path rfl)]
    cases edit disk' with
    | error e => rfl
    | ok a => exact (hwrite a).reply disk disk' h
  · obtain rfl := Option.some.inj hk
    rw [hedit disk disk' h]
    cases edit disk' with
    | error e => exact h
    | ok a => exact (hwrite a).content _ disk disk' rfl h
  · cases edit disk with
    | error e => rfl
    | ok a => exact (hwrite a).others k disk hk

theorem insertRecord_eq (create : RecordCreate) (w : WriteOutcome) (disk : Disk) :
    insertRecord lib zoneCfg zonesDir disk create w =
      afterEdit (fun e disk => persistZone lib disk (zonePath zoneCfg zonesDir) e.1 e.2 w) disk
        (insertEdit lib zoneCfg zonesDir disk create) := by
  unfold insertRecord
  cases insertEdit lib zoneCfg zonesDir disk create <;> rfl

theorem keeps_insertRecord (create : RecordCreate) (w : WriteOutcome) :
    KeepsAt (fun disk => insertRecord lib zoneCfg zonesDir disk create w)
      (some (zonePath zoneCfg zonesDir)) := by
  rw [funext (insertRecord_eq create w)]
  exact keeps_afterEdit (fun _ _ h => insertEdit_congr h create) fun _ => keeps_writeFile _ _ w

/-- The last step of a deletion: something was removed, or nothing is written. -/
def writeRemaining (lib : ZoneLib) (path : Text) (w : WriteOutcome) (edited : Name × Records × Nat)
    (disk : Disk) : Except RecordError Nat × Disk :=
  if 0 < edited.2.2 then
    let r := persistZone lib disk path edited.1 edited.2.1 w
    (r.1.map fun _ => edited.2.2, r.2)
  else (.ok edited.2.2, disk)

theorem deleteRecords_eq (delete : RecordDelete) (w : WriteOutcome) (disk : Disk) :
    deleteRecords lib zoneCfg zonesDir disk delete w =
      afterEdit (writeRemaining lib (zonePath zoneCfg zonesDir) w) disk
        (deleteEdit lib zoneCfg zonesDir disk delete) := by
  unfold deleteRecords
  cases deleteEdit lib zoneCfg zonesDir disk delete with
  | error e => rfl
  | ok edited =>
    unfold afterEdit writeRemaining
    by_cases hpos : 0 < edited.2.2
    · simp only [hpos, if_true]
      cases w <;> rfl
    · simp only [hpos, if_false]

theorem keeps_writeRemaining (path : Text) (w : WriteOutcome) (edited : Name × Records × Nat) :
    KeepsAt (writeRemaining lib path w edited) (some path) := by
  unfold writeRemaining
  by_cases hpos : 0 < edited.2.2
  · simp only [hpos, if_true]
    exact (keeps_writeFile _ _ w).map (Except.map fun _ => edited.2.2)
  · simp only [hpos, if_false]
    exact keepsAt_read fun _ _ _ => rfl

theorem keeps_deleteRecords (delete : RecordDelete) (w : WriteOutcome) :
    KeepsAt (fun disk => deleteRecords lib zoneCfg zonesDir disk delete w)
      (some (zonePath zoneCfg zonesDir)) := by
  rw [funext (deleteRecords_eq delete w)]
  exact keeps_afterEdit (fun _ _ h => deleteEdit_congr h delete) fun _ => keeps_writeRemaining _ w _

end Footprint

/-! ## Sequences of requests -/

section Sequences

variable {lib : ZoneLib} {state : ApiState}

/-- A handler of records keeps to the file of its zone. -/
theorem keeps_onZone {name : String} {f : ZoneConfig → Disk → Response × Disk}
    (h : ∀ z, KeepsAt (f z) (some (zonePath z state.config.zonesDir))) :
    KeepsAt (onZone state name f) (fileOf state name) := by
  unfold onZone fileOf
  cases zoneNamed state name with
  | none => exact keepsAt_read fun _ _ _ => rfl
  | some z => exact h z.toZoneConfig

/-- **A request keeps to the file** of the zone it names. -/
theorem serve_keepsTo : KeepsTo (serve lib state) (place state) := by
  rintro ⟨request, w⟩
  cases request with
  | health => exact keepsAt_read fun _ _ _ => rfl
  | listZones => exact keepsAt_read fun _ _ _ => rfl
  | zoneDetail name => exact keepsAt_read fun _ _ _ => rfl
  | listRecords zone =>
    have hkeeps : KeepsAt (handleList lib state zone) (fileOf state zone) :=
      keeps_onZone fun z => (keepsAt_read fun _ _ h => listRecords_congr (h _ rfl)).map _
    exact hkeeps
  | getRecords zone name recordType =>
    have hkeeps : KeepsAt (handleGet lib state zone name recordType) (fileOf state zone) :=
      keeps_onZone fun z =>
        (keepsAt_read fun _ _ h => getRecords_congr (h _ rfl) name recordType).map _
    exact hkeeps
  | createRecord zone create =>
    have hkeeps : KeepsAt (handleCreate lib state zone create w) (fileOf state zone) :=
      keeps_onZone fun z => (keeps_insertRecord create w).map _
    exact hkeeps
  | deleteRecord zone delete =>
    have hkeeps : KeepsAt (handleDelete lib state zone delete w) (fileOf state zone) :=
      keeps_onZone fun z => (keeps_deleteRecords delete w).map _
    exact hkeeps

/-- **The zones are independent.** In every sequence of requests, those about the zones of one file
are answered, and leave the file, as if no other request had been made, on any disk that has that
file. -/
theorem zones_independent (lib : ZoneLib) (config : ApiSettings) (path : Text)
    (requests : List (ApiRequest × WriteOutcome)) (disk disk' : Disk)
    (hsame : disk path = disk' path) :
    let state := ApiState.new config
    let mine := about (place state) path requests
    answersAbout (place state) path requests (replies (serve lib state) requests disk).1 =
        mine.zip (replies (serve lib state) mine disk').1 ∧
      (replies (serve lib state) requests disk).2 path =
        (replies (serve lib state) mine disk').2 path :=
  serve_keepsTo.alone path hsame

/-- Two zones, each in a file of its own. -/
def twoZones : ApiSettings :=
  ⟨[⟨sampleConfig, "Primary", []⟩, ⟨⟨"example.org.", some "example.org.zone"⟩, "Primary", []⟩],
    sampleDir⟩

/-- Requests about both zones. -/
def mixedRequests : List (ApiRequest × WriteOutcome) :=
  [(.createRecord "example.com" ⟨"mail.example.com.", "A", none, "192.0.2.2"⟩, .ok),
    (.deleteRecord "example.org" ⟨"www.example.org.", "A"⟩, .cut 7),
    (.listRecords "example.com.", .ok)]

theorem zones_independent_mixed :
    let state := ApiState.new twoZones
    let path := zonePath sampleConfig sampleDir
    let mine := about (place state) path mixedRequests
    answersAbout (place state) path mixedRequests
        (replies (serve sampleLib state) mixedRequests (sampleDisk sampleZone)).1 =
      mine.zip (replies (serve sampleLib state) mine fun p =>
        if p = path then sampleDisk sampleZone path else none).1 :=
  (zones_independent sampleLib twoZones (zonePath sampleConfig sampleDir) mixedRequests _ _
    (by rw [if_pos rfl])).1

/-- The zone a request names. -/
def ApiRequest.named : ApiRequest → Option String
  | .zoneDetail name => some name
  | r => r.zone

/-- The request may write. -/
def ApiRequest.isEdit : ApiRequest → Bool
  | .createRecord _ _ => true
  | .deleteRecord _ _ => true
  | _ => false

/-- No configured zone has the name, completed by a dot. -/
def Unconfigured (config : ApiSettings) (name : String) : Prop :=
  ∀ z ∈ config.zones, z.name ≠ searchName name

theorem zoneNamed_eq_none {name : String} :
    zoneNamed state name = none ↔ Unconfigured state.config name := by
  unfold zoneNamed Unconfigured
  rw [List.find?_eq_none]
  refine forall₂_congr fun z _ => ?_
  rw [beq_iff_eq]

/-- The shown zones are the configured ones. -/
theorem zoneDetail_status {config : ApiSettings} {name : String} :
    (zoneDetail (.new config) name).status = .NOT_FOUND ↔ Unconfigured config name := by
  have hfind : ((ApiState.new config).zones.find? fun z => z.name == searchName name) =
      (zoneNamed (.new config) name).map .ofZone := by
    unfold ApiState.new zoneNamed
    rw [List.find?_map]
    rfl
  have hnone : zoneNamed (.new config) name = none ↔ Unconfigured config name := zoneNamed_eq_none
  rw [← hnone]
  unfold zoneDetail
  rw [hfind]
  cases zoneNamed (.new config) name with
  | none => exact iff_of_true rfl rfl
  | some z => exact iff_of_false (by simp [Response.ok]) (by simp)

theorem ofResult_status {α : Type} {onError : StatusCode} (hne : onError ≠ .NOT_FOUND)
    (f : α → Body) (result : Except RecordError α) :
    (Response.ofResult onError f result).status ≠ .NOT_FOUND := by
  cases result with
  | error e => exact hne
  | ok a => simp [Response.ofResult, Response.ok]

/-- A handler of records answers 404 exactly when there is no such zone. -/
theorem onZone_status {name : String} {f : ZoneConfig → Disk → Response × Disk}
    (h : ∀ z disk, (f z disk).1.status ≠ .NOT_FOUND) (disk : Disk) :
    (onZone state name f disk).1.status = .NOT_FOUND ↔ Unconfigured state.config name := by
  rw [← zoneNamed_eq_none]
  unfold onZone
  cases zoneNamed state name with
  | none => exact iff_of_true rfl rfl
  | some z => exact iff_of_false (h _ disk) (by simp)

theorem serve_status {config : ApiSettings} (r : ApiRequest × WriteOutcome) (disk : Disk) :
    (serve lib (.new config) r disk).1.status = .NOT_FOUND ↔
      ∃ name, r.1.named = some name ∧ Unconfigured config name := by
  obtain ⟨request, w⟩ := r
  have hof : ∀ {p : Prop} {name : String}, (p ↔ Unconfigured config name) →
      (p ↔ ∃ name', some name = some name' ∧ Unconfigured config name') := by
    intro p name hp
    simpa using hp
  cases request with
  | health =>
    exact iff_of_false (by simp [serve, Response.ok]) (by simp [ApiRequest.named, ApiRequest.zone])
  | listZones =>
    exact iff_of_false (by simp [serve, listZones, Response.ok])
      (by simp [ApiRequest.named, ApiRequest.zone])
  | zoneDetail name => exact hof zoneDetail_status
  | listRecords zone => exact hof (onZone_status (fun _ _ => ofResult_status (by decide) _ _) disk)
  | getRecords zone name recordType =>
    exact hof (onZone_status (fun _ _ => ofResult_status (by decide) _ _) disk)
  | createRecord zone create =>
    exact hof (onZone_status (fun _ _ => ofResult_status (by decide) _ _) disk)
  | deleteRecord zone delete =>
    exact hof (onZone_status (fun _ _ => ofResult_status (by decide) _ _) disk)

/-- A write that changes a file succeeds, or was cut short. -/
theorem writeFile_changed {disk : Disk} {path content p : Text} {w : WriteOutcome}
    (h : (writeFile disk path content w).2 p ≠ disk p) :
    (writeFile disk path content w).1 = .ok () ∨ ∃ len, w = .cut len := by
  cases w with
  | ok => exact Or.inl rfl
  | noDir => exact absurd rfl h
  | refused => exact absurd rfl h
  | cut len => exact Or.inr ⟨len, rfl⟩

theorem insertRecord_changed {z : ZoneConfig} {dir : Text} {disk : Disk} {create : RecordCreate}
    {w : WriteOutcome} {p : Text} (h : (insertRecord lib z dir disk create w).2 p ≠ disk p) :
    (insertRecord lib z dir disk create w).1 = .ok () ∨ ∃ len, w = .cut len := by
  rw [insertRecord_eq] at h ⊢
  cases hedit : insertEdit lib z dir disk create with
  | error e =>
    rw [hedit] at h
    exact absurd rfl h
  | ok edited =>
    rw [hedit] at h
    exact writeFile_changed h

theorem deleteRecords_changed {z : ZoneConfig} {dir : Text} {disk : Disk} {delete : RecordDelete}
    {w : WriteOutcome} {p : Text} (h : (deleteRecords lib z dir disk delete w).2 p ≠ disk p) :
    (∃ n, (deleteRecords lib z dir disk delete w).1 = .ok n) ∨ ∃ len, w = .cut len := by
  rw [deleteRecords_eq] at h ⊢
  cases hedit : deleteEdit lib z dir disk delete with
  | error e =>
    rw [hedit] at h
    exact absurd rfl h
  | ok edited =>
    rw [hedit] at h
    unfold afterEdit writeRemaining at h ⊢
    by_cases hpos : 0 < edited.2.2
    · simp only [hpos, if_true] at h ⊢
      rcases writeFile_changed h with hok | hcut
      · exact Or.inl ⟨edited.2.2, congrArg (Except.map fun _ => edited.2.2) hok⟩
      · exact Or.inr hcut
    · simp only [hpos, if_false] at h
      exact absurd rfl h

/-- A handler that changes a file has found its zone, and does it there. -/
theorem onZone_changed {name : String} {f : ZoneConfig → Disk → Response × Disk} {disk : Disk}
    {p : Text} (h : (onZone state name f disk).2 p ≠ disk p) :
    ∃ z, (f z disk).2 p ≠ disk p ∧ onZone state name f disk = f z disk := by
  unfold onZone at h ⊢
  cases hz : zoneNamed state name with
  | none =>
    rw [hz] at h
    exact absurd rfl h
  | some z =>
    rw [hz] at h
    exact ⟨z.toZoneConfig, h, rfl⟩

/-- What it takes to change a file: an edit whose reply is 200, or whose writing was cut short. -/
theorem serve_changed {r : ApiRequest × WriteOutcome} {disk : Disk} {p : Text}
    (h : (serve lib state r disk).2 p ≠ disk p) :
    r.1.isEdit = true ∧ ((serve lib state r disk).1.status = .OK ∨ ∃ len, r.2 = .cut len) := by
  obtain ⟨request, w⟩ := r
  cases request with
  | health => exact absurd rfl h
  | listZones => exact absurd rfl h
  | zoneDetail name => exact absurd rfl h
  | listRecords zone =>
    obtain ⟨z, hz, -⟩ := onZone_changed h
    exact absurd rfl hz
  | getRecords zone name recordType =>
    obtain ⟨z, hz, -⟩ := onZone_changed h
    exact absurd rfl hz
  | createRecord zone create =>
    obtain ⟨z, hz, heq⟩ := onZone_changed h
    refine ⟨rfl, (insertRecord_changed hz).imp_left fun hok => ?_⟩
    show (onZone state zone _ disk).1.status = _
    rw [heq]
    dsimp only
    rw [hok]
    rfl
  | deleteRecord zone delete =>
    obtain ⟨z, hz, heq⟩ := onZone_changed h
    refine ⟨rfl, (deleteRecords_changed hz).imp_left fun hok => ?_⟩
    obtain ⟨n, hn⟩ := hok
    show (onZone state zone _ disk).1.status = _
    rw [heq]
    dsimp only
    rw [hn]
    rfl

/-- **What the replies say**, in every sequence of requests: a reply is 404 exactly when the request
names a zone that is not configured, with or without the last dot; and a file that has changed is that
of the zone an edit was about, whose reply was 200 unless its writing was cut short. -/
theorem api_statuses (lib : ZoneLib) (config : ApiSettings)
    (requests : List (ApiRequest × WriteOutcome)) (disk : Disk) :
    let state := ApiState.new config
    (∀ x ∈ requests.zip (replies (serve lib state) requests disk).1,
      x.2.status = .NOT_FOUND ↔ ∃ name, x.1.1.named = some name ∧ Unconfigured config name) ∧
    ∀ path, (replies (serve lib state) requests disk).2 path ≠ disk path →
      ∃ before r after, requests = before ++ r :: after ∧ place state r = some path ∧
        r.1.isEdit = true ∧
        ((serve lib state r (replies (serve lib state) before disk).2).1.status = .OK ∨
          ∃ len, r.2 = .cut len) := by
  refine ⟨fun x hx => ?_, fun path hne => ?_⟩
  · obtain ⟨disk', hreply⟩ := mem_replies hx
    rw [hreply]
    exact serve_status x.1 disk'
  · obtain ⟨before, r, after, hrequests, hchanged⟩ := exists_changed path hne
    refine ⟨before, r, after, hrequests, ?_, serve_changed hchanged⟩
    by_contra hplace
    exact hchanged ((serve_keepsTo r).others path _ hplace)

end Sequences

end Heimdallr.Zone
