import Heimdallr.Zone.Load
import Heimdallr.Zone.Secondary

/-!
# NOTIFY (`core/zone/notify.rs`, `net/handler.rs`)

A primary tells its secondaries that a zone has changed (`send_notify`), and the message names the
zone in the question. `handle_notify` of `notify.rs` takes zone and serial out of a message. The
server does not go through it: `HeimdallrHandler` takes a NOTIFY out of the requests, looks for a
secondary with the zone's name and spawns a task that asks the primaries of that secondary for the
zone. Everything else goes on to hickory's `Catalog`.

* A request is a message with the address it came from. What `handle_request` does with it is the
  response code it sends and the transfers it starts (`Handled`); what hickory makes of other
  requests is left out.
* The message of `send_notify` has one question and no answer, in spite of its comment, so there is
  no SOA record in it to take a serial from.
* `matching` is the first secondary that is called as the question prints, or so with one more dot
  at the end. Case counts. The sender is not compared with the primaries.

Results:
* **`notify_agrees_iff`**: when the receiver gets the zone and the serial the sender was called
  with. The message holds no serial.
* **`notify_triggers_iff`**: when a request starts a transfer for the right secondaries and no
  others. Names are compared as texts, and nobody looks at the sender.
-/

namespace Heimdallr.Zone

open Heimdallr.Lib Heimdallr.Net

/-! ## Sending (`core/zone/notify.rs`) -/

/-- The errors of `notify.rs`, one for each context. -/
inductive NotifyError
  /-- `bad secondary addr '{secondary_addr}'` -/
  | BadSecondaryAddr (secondaryAddr : String)
  /-- `invalid zone name '{zone_name}'` -/
  | InvalidZoneName (zoneName : String)
  /-- `serialize NOTIFY message` -/
  | Serialize
  /-- `bind UDP for NOTIFY` -/
  | Bind
  /-- `send NOTIFY to {sock_addr}` -/
  | Send (sockAddr : SocketAddr)
  /-- `NOTIFY has no query section` -/
  | NoQuery
  deriving DecidableEq, Repr

/-- The message, with the low bits of the clock as its id. -/
def notifyMessage (nanos : Nat) (origin : Name) : Message :=
  { metadata :=
      { id := UInt16.ofNat (nanos &&& 0xFFFF), messageType := .Query, opCode := .Notify,
        authoritative := true, recursionDesired := false }
    queries := [⟨origin, .SOA⟩] }

/-- What UDP does for a sender. -/
structure Udp where
  binds : Bool
  sends : SocketAddr → Bytes → Bool

/-- `send_notify`, with the datagram it sends. The serial goes into a log line and nowhere else. -/
def sendNotify (hk : Hickory) (udp : Udp) (nanos : Nat) (zoneName secondaryAddr : String)
    (_serial : UInt32) : Except NotifyError (SocketAddr × Bytes) := do
  let some sockAddr := parseSocketAddr secondaryAddr.toList | throw (.BadSecondaryAddr secondaryAddr)
  let some origin := hk.fromAscii zoneName | throw (.InvalidZoneName zoneName)
  let some bytes := hk.toVec (notifyMessage nanos origin) | throw .Serialize
  ensure (udp.binds = true) .Bind
  ensure (udp.sends sockAddr bytes = true) (.Send sockAddr)
  return (sockAddr, bytes)

/-- The serial of the first SOA among some answers, `0` without one. -/
def soaSerial (answers : List Record) : UInt32 :=
  ((answers.find? fun r => r.recordType == .SOA).bind fun r =>
    match r.data with
    | .SOA soa => some soa.serial
    | _ => none).getD 0

/-- `handle_notify`. -/
def handleNotify (hk : Hickory) (msg : Message) : Except NotifyError (String × UInt32) :=
  match msg.queries.head? with
  | none => .error .NoQuery
  | some query => .ok (hk.toUtf8 query.name, soaSerial msg.answers)

/-- What has been sent is the wire form of the message for the zone. -/
theorem sendNotify_ok {hk : Hickory} {udp : Udp} {nanos : Nat} {zoneName secondaryAddr : String}
    {serial : UInt32} {addr : SocketAddr} {bytes : Bytes}
    (h : sendNotify hk udp nanos zoneName secondaryAddr serial = .ok (addr, bytes)) :
    ∃ origin, hk.fromAscii zoneName = some origin ∧
      hk.toVec (notifyMessage nanos origin) = some bytes := by
  unfold sendNotify at h
  cases haddr : parseSocketAddr secondaryAddr.toList with
  | none => simp [haddr, throw, throwThe, MonadExceptOf.throw] at h
  | some sockAddr =>
    cases horigin : hk.fromAscii zoneName with
    | none => simp [haddr, horigin, throw, throwThe, MonadExceptOf.throw] at h
    | some origin =>
      cases hbytes : hk.toVec (notifyMessage nanos origin) with
      | none => simp [haddr, horigin, hbytes, throw, throwThe, MonadExceptOf.throw] at h
      | some sent =>
        simp [haddr, horigin, hbytes, pure, Except.pure] at h
        obtain ⟨-, -, -, rfl⟩ := h
        exact ⟨origin, rfl, hbytes⟩

/-- **When sender and receiver agree.** The receiver finds no SOA in what was sent, so the serial is
zero for it; and the name has to print as the sender's text. -/
theorem notify_agrees_iff {hk : Hickory} (hround : hk.RoundTrips) (udp : Udp) (nanos : Nat)
    (zone secondaryAddr : String) (serial : UInt32) {origin : Name} {addr : SocketAddr}
    {bytes : Bytes} (horigin : hk.fromAscii zone = some origin) (habsolute : origin.isFqdn = true)
    (hsent : sendNotify hk udp nanos zone secondaryAddr serial = .ok (addr, bytes)) :
    (hk.fromVec bytes).map (handleNotify hk) = some (.ok (zone, serial)) ↔
      serial = 0 ∧ hk.toUtf8 origin = zone := by
  obtain ⟨origin', horigin', hbytes⟩ := sendNotify_ok hsent
  obtain rfl : origin = origin' := by rw [horigin] at horigin'; exact Option.some.inj horigin'
  have hname : origin.qualified = origin := by
    obtain ⟨ls, fqdn⟩ := origin
    cases habsolute
    rfl
  have hdecoded : hk.fromVec bytes = some (notifyMessage nanos origin) := by
    rw [hround _ _ hbytes]
    simp [Message.qualified, notifyMessage, hname]
  have hread : handleNotify hk (notifyMessage nanos origin) = .ok (hk.toUtf8 origin, 0) := rfl
  rw [hdecoded, Option.map_some, hread, Option.some.injEq, Except.ok.injEq, Prod.mk.injEq, and_comm,
    eq_comm (a := (0 : UInt32))]

/-- A codec that knows the message for `example.test.`. -/
def notifyCodec : Hickory := .knowing [(notifyMessage 42 exampleOrigin, [0, 42, 0x24])]

/-- A network that takes every datagram. -/
def openUdp : Udp := ⟨true, fun _ _ => true⟩

theorem notifyCodec_roundTrips : notifyCodec.RoundTrips := Hickory.roundTrips_knowing (by decide)

/-- Serial zero arrives. -/
theorem notify_agrees_zero :
    (notifyCodec.RoundTrips ∧ notifyCodec.fromAscii "example.test." = some exampleOrigin ∧
        exampleOrigin.isFqdn = true ∧
        sendNotify notifyCodec openUdp 42 "example.test." "192.0.2.7:53" 0 =
          .ok (.V4 ⟨192, 0, 2, 7⟩ 53, [0, 42, 0x24])) ∧
      (notifyCodec.fromVec [0, 42, 0x24]).map (handleNotify notifyCodec) =
        some (.ok ("example.test.", 0)) := by
  have horigin : notifyCodec.fromAscii "example.test." = some exampleOrigin := by decide
  have hsent : sendNotify notifyCodec openUdp 42 "example.test." "192.0.2.7:53" 0 =
      .ok (.V4 ⟨192, 0, 2, 7⟩ 53, [0, 42, 0x24]) := by
    decide
  exact ⟨⟨notifyCodec_roundTrips, horigin, rfl, hsent⟩,
    (notify_agrees_iff notifyCodec_roundTrips openUdp 42 _ _ 0 horigin rfl hsent).mpr
      ⟨rfl, by decide⟩⟩

/-- **The serial is lost.** -/
theorem serial_lost :
    sendNotify notifyCodec openUdp 42 "example.test." "192.0.2.7:53" 2024010101 =
        .ok (.V4 ⟨192, 0, 2, 7⟩ 53, [0, 42, 0x24]) ∧
      (notifyCodec.fromVec [0, 42, 0x24]).map (handleNotify notifyCodec) =
        some (.ok ("example.test.", 0)) := by
  decide

/-! ## Receiving (`net/handler.rs`) -/

/-- `LowerQuery`. -/
structure LowerQuery where
  name : LowerName
  queryType : RecordType

/-- hickory-server's `Request`, as far as the handler reads it. -/
structure ServerRequest where
  src : SocketAddr
  opCode : OpCode
  queries : List LowerQuery

/-- The query of `request_info`, which fails unless there is exactly one. -/
def ServerRequest.requestInfo (request : ServerRequest) : Option LowerQuery :=
  match request.queries with
  | [query] => some query
  | _ => none

/-- What becomes of a request: answered here, with the AXFR queries of the spawned task (zone name and
primary), or handed on to the catalog. -/
inductive Handled
  | notify (code : ResponseCode) (transfers : List (String × String))
  | catalog

/-- The AXFR queries a request leads to. -/
def Handled.transfers : Handled → List (String × String)
  | notify _ transfers => transfers
  | catalog => []

/-- `axfr_from_primary`, without the zone it builds of the records. -/
def axfrFromPrimary (hk : Hickory) (connect : SocketAddr → Option Connection) (nanos : Nat)
    (zoneName primaryAddr : String) : Outcome AxfrError (List Record) := do
  let _origin ← .ofOption (.InvalidZoneName zoneName) (hk.fromAscii zoneName)
  axfrRecordsFromPrimary hk connect nanos zoneName primaryAddr

/-- The network and the clock when a task makes its `i`-th connection. -/
structure World where
  connect : Nat → SocketAddr → Option Connection
  nanos : Nat → Nat

/-- The spawned task: the primaries are asked in turn, up to the first that gives the zone. -/
def resync (hk : Hickory) (world : World) (name : String) : Nat → List String → List (String × String)
  | _, [] => []
  | i, primary :: primaries =>
    (name, primary) ::
      match axfrFromPrimary hk (world.connect i) (world.nanos i) name primary with
      | .ok _ => []
      | .err _ => resync hk world name (i + 1) primaries
      | .pending => []

/-- The secondary a NOTIFY for `zoneName` is taken to be about. -/
def matching (secondaries : List SecondaryZoneInfo) (zoneName : String) : Option SecondaryZoneInfo :=
  secondaries.find? fun s => s.name == zoneName || s.name == zoneName ++ "."

/-- `HeimdallrHandler`, less the catalog. -/
structure HeimdallrHandler where
  secondaries : List SecondaryZoneInfo

/-- `HeimdallrHandler::handle_notify`. The serial it reads is only logged. -/
def HeimdallrHandler.handleNotify (hk : Hickory) (world : World) (self : HeimdallrHandler)
    (request : ServerRequest) : Handled :=
  match request.requestInfo with
  | none => .notify .FormErr []
  | some query =>
    let zoneName := hk.toUtf8 query.name.name
    match matching self.secondaries zoneName with
    | some sec => .notify .NoError (resync hk world sec.name 0 sec.primaries)
    | none => .notify .NoError []

/-- `SharedHandler::handle_request`. -/
def HeimdallrHandler.handleRequest (hk : Hickory) (world : World) (self : HeimdallrHandler)
    (request : ServerRequest) : Handled :=
  if request.opCode = .Notify then self.handleNotify hk world request else .catalog

/-! ### What a request starts -/

/-- A task asks every primary of a secondary but those behind the first that answers. -/
theorem mem_resync {hk : Hickory} {world : World} {name : String} {primaries : List String} {i : Nat}
    {transfer : String × String} (h : transfer ∈ resync hk world name i primaries) :
    transfer.1 = name ∧ transfer.2 ∈ primaries := by
  induction primaries generalizing i with
  | nil => cases h
  | cons primary primaries ih =>
    rw [resync] at h
    rcases List.mem_cons.mp h with rfl | h
    · exact ⟨rfl, List.mem_cons_self⟩
    · split at h
      · cases h
      · obtain ⟨hname, hmem⟩ := ih h
        exact ⟨hname, List.mem_cons_of_mem _ hmem⟩
      · cases h

/-- It starts with the first. -/
theorem resync_ne_nil {hk : Hickory} {world : World} {name : String} {primaries : List String}
    {i : Nat} (h : primaries ≠ []) :
    ∃ primary, (name, primary) ∈ resync hk world name i primaries := by
  obtain ⟨primary, rest, rfl⟩ := List.exists_cons_of_ne_nil h
  exact ⟨primary, by rw [resync]; exact List.mem_cons_self⟩

/-- A transfer of the secondary's zone is started. -/
def Starts (handled : Handled) (s : SecondaryZoneInfo) : Prop :=
  ∃ primary, (s.name, primary) ∈ handled.transfers

section Handler

variable {hk : Hickory} {world : World} {self : HeimdallrHandler} {request : ServerRequest}

/-- A NOTIFY with one question. -/
def NotifyFor (request : ServerRequest) (query : LowerQuery) : Prop :=
  request.opCode = .Notify ∧ request.requestInfo = some query

theorem transfers_notify {query : LowerQuery} (h : NotifyFor request query) :
    (self.handleRequest hk world request).transfers =
      match matching self.secondaries (hk.toUtf8 query.name.name) with
      | some sec => resync hk world sec.name 0 sec.primaries
      | none => [] := by
  unfold HeimdallrHandler.handleRequest HeimdallrHandler.handleNotify
  rw [if_pos h.1, h.2]
  dsimp only
  cases matching self.secondaries (hk.toUtf8 query.name.name) <;> rfl

/-- Other requests start nothing. -/
theorem transfers_other (h : ∀ query, ¬ NotifyFor request query) :
    (self.handleRequest hk world request).transfers = [] := by
  unfold HeimdallrHandler.handleRequest HeimdallrHandler.handleNotify
  split
  · rename_i hop
    cases hinfo : request.requestInfo with
    | none => rfl
    | some query => exact absurd ⟨hop, hinfo⟩ (h query)
  · rfl

/-- The secondary picked is one of the configured, and has one of the two names. -/
theorem matching_some {secondaries : List SecondaryZoneInfo} {zoneName : String}
    {s : SecondaryZoneInfo} (h : matching secondaries zoneName = some s) :
    s ∈ secondaries ∧ (s.name = zoneName ∨ s.name = zoneName ++ ".") := by
  refine ⟨List.mem_of_find?_eq_some h, ?_⟩
  simpa using List.find?_some h

/-- **What a NOTIFY starts**: the transfer of the secondary picked, if that has primaries. -/
theorem starts_iff (hnames : (self.secondaries.map SecondaryZoneInfo.name).Nodup)
    {query : LowerQuery} (h : NotifyFor request query) {s : SecondaryZoneInfo}
    (hs : s ∈ self.secondaries) :
    Starts (self.handleRequest hk world request) s ↔
      matching self.secondaries (hk.toUtf8 query.name.name) = some s ∧ s.primaries ≠ [] := by
  unfold Starts
  rw [transfers_notify h]
  constructor
  · rintro ⟨primary, hmem⟩
    cases hpick : matching self.secondaries (hk.toUtf8 query.name.name) with
    | none =>
      rw [hpick] at hmem
      cases hmem
    | some sec =>
      rw [hpick] at hmem
      obtain ⟨hname, hprimary⟩ := mem_resync hmem
      have hsame : s = sec :=
        List.inj_on_of_nodup_map hnames hs (matching_some hpick).1 hname
      subst hsame
      exact ⟨rfl, List.ne_nil_of_mem hprimary⟩
  · rintro ⟨hpick, hprimaries⟩
    rw [hpick]
    exact resync_ne_nil hprimaries

/-- A transfer is one of a configured secondary, from a primary of it. -/
theorem transfers_configured {transfer : String × String}
    (h : transfer ∈ (self.handleRequest hk world request).transfers) :
    ∃ s ∈ self.secondaries, transfer.1 = s.name ∧ transfer.2 ∈ s.primaries := by
  by_cases hquery : ∃ query, NotifyFor request query
  · obtain ⟨query, hquery⟩ := hquery
    rw [transfers_notify hquery] at h
    cases hpick : matching self.secondaries (hk.toUtf8 query.name.name) with
    | none =>
      rw [hpick] at h
      cases h
    | some s =>
      rw [hpick] at h
      exact ⟨s, (matching_some hpick).1, mem_resync h⟩
  · rw [transfers_other (fun query hq => hquery ⟨query, hq⟩)] at h
    cases h

/-! ### The right transfers -/

/-- The configured name denotes the zone: the same labels, case aside. -/
def SameDomain (hk : Hickory) (s : SecondaryZoneInfo) (zone : LowerName) : Prop :=
  ∃ n, hk.fromAscii s.name = some n ∧ n.toLowercase.labels = zone.name.labels

/-- The address is that of a configured primary, with a port or without. -/
def HasPrimary (s : SecondaryZoneInfo) (ip : IpAddr) : Prop :=
  ∃ primary ∈ s.primaries, (parseSocketAddr primary.toList).map SocketAddr.ip = some ip ∨
    parseIpAddr primary.toList = some ip

/-- A request starts the transfers of the secondaries that a primary of theirs has notified of their
zone, and no others. -/
structure TriggersRightly (hk : Hickory) (world : World) (handler : HeimdallrHandler)
    (request : ServerRequest) : Prop where
  starts_iff : ∀ s ∈ handler.secondaries, Starts (handler.handleRequest hk world request) s ↔
    ∃ query, NotifyFor request query ∧ SameDomain hk s query.name ∧ HasPrimary s request.src.ip
  no_other : ∀ transfer ∈ (handler.handleRequest hk world request).transfers,
    ∃ s ∈ handler.secondaries, transfer.1 = s.name ∧ transfer.2 ∈ s.primaries

/-- What is known of the text of a zone's name: it is read back as that name or not at all, and with
one more dot it is no name. -/
structure PrintsZone (hk : Hickory) (zone : LowerName) : Prop where
  reread : ∀ n, hk.fromAscii (hk.toUtf8 zone.name) = some n → n.toLowercase.labels = zone.name.labels
  doubled : hk.fromAscii (hk.toUtf8 zone.name ++ ".") = none

/-- The configuration and the sender fit a NOTIFY for `zone`. -/
structure Fits (hk : Hickory) (secondaries : List SecondaryZoneInfo) (ip : IpAddr)
    (zone : LowerName) : Prop where
  /-- a secondary named with one dot more than the zone prints with has no primaries, or stands behind
  the one without that dot -/
  dotted : ∀ before s after, secondaries = before ++ s :: after →
    s.name = hk.toUtf8 zone.name ++ "." → s.primaries ≠ [] → ∃ t ∈ before, t.name = hk.toUtf8 zone.name
  /-- one named as the zone prints is readable and has the sender among its primaries, unless it has
  no primaries or stands behind the one with the dot -/
  printed : ∀ before s after, secondaries = before ++ s :: after → s.name = hk.toUtf8 zone.name →
    s.primaries ≠ [] →
    (hk.fromAscii s.name ≠ none ∧ HasPrimary s ip) ∨ ∃ t ∈ before, t.name = hk.toUtf8 zone.name ++ "."
  /-- one of the zone, with the sender among its primaries, is named as the zone prints and does not
  stand behind the one with the dot -/
  spelled : ∀ before s after, secondaries = before ++ s :: after → SameDomain hk s zone →
    HasPrimary s ip →
    s.name = hk.toUtf8 zone.name ∧ ∀ t ∈ before, t.name ≠ hk.toUtf8 zone.name ++ "."

theorem HasPrimary.ne_nil {s : SecondaryZoneInfo} {ip : IpAddr} (h : HasPrimary s ip) :
    s.primaries ≠ [] := by
  obtain ⟨primary, hmem, -⟩ := h
  exact List.ne_nil_of_mem hmem

/-- Names are distinct, also from those before. -/
theorem name_ne_before {before after : List SecondaryZoneInfo} {s t : SecondaryZoneInfo}
    (hnames : ((before ++ s :: after).map SecondaryZoneInfo.name).Nodup) (ht : t ∈ before) :
    t.name ≠ s.name := by
  rw [List.map_append, List.nodup_append] at hnames
  exact hnames.2.2 t.name (List.mem_map_of_mem ht) s.name (by simp)

/-- A secondary with one of the two names is picked unless another such stands before it. -/
theorem matching_append {before after : List SecondaryZoneInfo} {s : SecondaryZoneInfo}
    {zoneName : String}
    (hnames : ((before ++ s :: after).map SecondaryZoneInfo.name).Nodup)
    (hname : s.name = zoneName ∨ s.name = zoneName ++ ".") :
    matching (before ++ s :: after) zoneName = some s ↔
      ∀ t ∈ before, t.name ≠ zoneName ∧ t.name ≠ zoneName ++ "." := by
  unfold matching
  rw [List.find?_append]
  cases hbefore : before.find? fun s => s.name == zoneName || s.name == zoneName ++ "." with
  | none =>
    have hnone := List.find?_eq_none.mp hbefore
    refine iff_of_true ?_ fun t ht => ?_
    · rw [Option.none_or, List.find?_cons_of_pos (by simpa using hname)]
    · simpa using hnone t ht
  | some t =>
    have ht : t ∈ before := List.mem_of_find?_eq_some hbefore
    refine iff_of_false ?_ fun hnone => ?_
    · -- another secondary has another name
      intro hsame
      rw [Option.some_or, Option.some.injEq] at hsame
      exact name_ne_before hnames ht (by rw [hsame])
    · have hone := List.find?_some hbefore
      obtain ⟨hplain, hdot⟩ := hnone t ht
      simp [hplain, hdot] at hone

/-- One NOTIFY: the secondary picked is the right one exactly when everything fits. -/
theorem fits_iff {secondaries : List SecondaryZoneInfo}
    (hnames : (secondaries.map SecondaryZoneInfo.name).Nodup) {ip : IpAddr} {zone : LowerName}
    (hprints : PrintsZone hk zone) :
    (∀ s ∈ secondaries, (matching secondaries (hk.toUtf8 zone.name) = some s ∧ s.primaries ≠ [] ↔
        SameDomain hk s zone ∧ HasPrimary s ip)) ↔
      Fits hk secondaries ip zone := by
  -- a name with one more dot denotes nothing
  have hdoubled : ∀ s, SameDomain hk s zone → s.name ≠ hk.toUtf8 zone.name ++ "." := by
    rintro s ⟨n, hread, -⟩ hname
    rw [hname, hprints.doubled] at hread
    cases hread
  constructor
  · intro h
    refine ⟨?_, ?_, ?_⟩
    · rintro before s after rfl hname hprimaries
      by_contra hfirst
      have hpick := (matching_append hnames (Or.inr hname)).mpr fun t ht =>
        ⟨fun hplain => hfirst ⟨t, ht, hplain⟩,
          fun hdot => name_ne_before hnames ht (hdot.trans hname.symm)⟩
      obtain ⟨hsame, -⟩ := (h s (by simp)).mp ⟨hpick, hprimaries⟩
      exact hdoubled s hsame hname
    · rintro before s after rfl hname hprimaries
      rw [or_iff_not_imp_right]
      intro hfirst
      have hpick := (matching_append hnames (Or.inl hname)).mpr fun t ht =>
        ⟨fun hplain => name_ne_before hnames ht (hplain.trans hname.symm),
          fun hdot => hfirst ⟨t, ht, hdot⟩⟩
      obtain ⟨⟨n, hread, -⟩, hsender⟩ := (h s (by simp)).mp ⟨hpick, hprimaries⟩
      exact ⟨by simp [hread], hsender⟩
    · rintro before s after rfl hsame hsender
      obtain ⟨hpick, -⟩ := (h s (by simp)).mpr ⟨hsame, hsender⟩
      have hname : s.name = hk.toUtf8 zone.name :=
        (matching_some hpick).2.resolve_right (hdoubled s hsame)
      exact ⟨hname, fun t ht => ((matching_append hnames (Or.inl hname)).mp hpick t ht).2⟩
  · intro h s hs
    obtain ⟨before, after, rfl⟩ := List.append_of_mem hs
    constructor
    · rintro ⟨hpick, hprimaries⟩
      have hname := (matching_some hpick).2
      have hfirst := (matching_append hnames hname).mp hpick
      rcases hname with hname | hname
      · rcases h.printed before s after rfl hname hprimaries with ⟨hread, hsender⟩ | ⟨t, ht, hdot⟩
        · obtain ⟨n, hn⟩ := Option.ne_none_iff_exists'.mp hread
          exact ⟨⟨n, hn, hprints.reread n (by rw [← hname]; exact hn)⟩, hsender⟩
        · exact absurd hdot (hfirst t ht).2
      · obtain ⟨t, ht, hplain⟩ := h.dotted before s after rfl hname hprimaries
        exact absurd hplain (hfirst t ht).1
    · rintro ⟨hsame, hsender⟩
      obtain ⟨hname, hfirst⟩ := h.spelled before s after rfl hsame hsender
      refine ⟨(matching_append hnames (Or.inl hname)).mpr fun t ht => ⟨?_, hfirst t ht⟩,
        hsender.ne_nil⟩
      exact fun hplain => name_ne_before hnames ht (hplain.trans hname.symm)

/-- **When a request triggers the right transfers.** A request that is not a NOTIFY with one question
always does; a NOTIFY does when configuration and sender fit it. -/
theorem notify_triggers_iff (hk : Hickory) (world : World) (self : HeimdallrHandler)
    (request : ServerRequest) (hnames : (self.secondaries.map SecondaryZoneInfo.name).Nodup)
    (hprints : ∀ query, NotifyFor request query → PrintsZone hk query.name) :
    TriggersRightly hk world self request ↔
      ∀ query, NotifyFor request query → Fits hk self.secondaries request.src.ip query.name := by
  by_cases hquery : ∃ query, NotifyFor request query
  · obtain ⟨query, hquery⟩ := hquery
    have hone : ∀ other, NotifyFor request other → other = query := fun other hother =>
      Option.some.inj (hother.2.symm.trans hquery.2)
    have hfits := @fits_iff hk self.secondaries hnames request.src.ip query.name
      (hprints query hquery)
    constructor
    · intro h other hother
      rw [hone other hother]
      refine hfits.mp fun s hs => ?_
      rw [← starts_iff hnames hquery hs, h.starts_iff s hs]
      constructor
      · rintro ⟨other', hother', hright⟩
        rwa [hone other' hother'] at hright
      · exact fun hright => ⟨query, hquery, hright⟩
    · intro h
      refine ⟨fun s hs => ?_, fun _ => transfers_configured⟩
      rw [starts_iff hnames hquery hs, hfits.mpr (h query hquery) s hs]
      constructor
      · exact fun hright => ⟨query, hquery, hright⟩
      · rintro ⟨other, hother, hright⟩
        rwa [hone other hother] at hright
  · -- nothing is started
    have hnot : ∀ query, ¬ NotifyFor request query := fun query hq => hquery ⟨query, hq⟩
    refine iff_of_true ⟨fun s _ => ?_, fun _ => transfers_configured⟩
      fun query hq => absurd hq (hnot query)
    unfold Starts
    rw [transfers_other hnot]
    refine iff_of_false ?_ ?_
    · rintro ⟨primary, hmem⟩
      cases hmem
    · rintro ⟨query, hq, -⟩
      exact hnot query hq

end Handler

/-! ### Senders -/

/-- A secondary of the example, with one primary. -/
def exampleSecondary : SecondaryZoneInfo := ⟨"example.test.", ["192.0.2.53:53"]⟩

/-- A NOTIFY for `example.test.` from port 4242 of this address. -/
def exampleNotify (ip : Ipv4Addr) : ServerRequest :=
  ⟨.V4 ip 4242, .Notify, [⟨⟨exampleOrigin, by decide⟩, .SOA⟩]⟩

/-- Nobody answers. -/
def deafWorld : World := ⟨fun _ _ => none, fun _ => 42⟩

theorem printsZone_example : PrintsZone notifyCodec ⟨exampleOrigin, by decide⟩ where
  reread n hn := by
    have hread : notifyCodec.fromAscii (notifyCodec.toUtf8 exampleOrigin) = some exampleOrigin := by
      decide
    rw [Option.some.inj (hn.symm.trans hread)]
    decide
  doubled := by decide

theorem notifyFor_example {ip : Ipv4Addr} {query : LowerQuery}
    (h : NotifyFor (exampleNotify ip) query) :
    query = ⟨⟨exampleOrigin, by decide⟩, .SOA⟩ := (Option.some.inj h.2).symm

theorem singleton_split {s t : SecondaryZoneInfo} {before after : List SecondaryZoneInfo}
    (h : [t] = before ++ s :: after) : before = [] ∧ t = s := by
  cases before with
  | nil => exact ⟨rfl, (List.cons.inj h).1⟩
  | cons _ before => simp at h

/-- The primary's own NOTIFY. -/
theorem notify_triggers_primary :
    ((([exampleSecondary] : List SecondaryZoneInfo).map SecondaryZoneInfo.name).Nodup ∧
        ∀ query, NotifyFor (exampleNotify ⟨192, 0, 2, 53⟩) query →
          PrintsZone notifyCodec query.name) ∧
      TriggersRightly notifyCodec deafWorld ⟨[exampleSecondary]⟩ (exampleNotify ⟨192, 0, 2, 53⟩) := by
  have hnames : (([exampleSecondary] : List SecondaryZoneInfo).map SecondaryZoneInfo.name).Nodup := by
    simp
  have hprints : ∀ query, NotifyFor (exampleNotify ⟨192, 0, 2, 53⟩) query →
      PrintsZone notifyCodec query.name := by
    intro query hquery
    rw [notifyFor_example hquery]
    exact printsZone_example
  refine ⟨⟨hnames, hprints⟩, (notify_triggers_iff notifyCodec deafWorld ⟨[exampleSecondary]⟩ _ hnames
    hprints).mpr ?_⟩
  intro query hquery
  rw [notifyFor_example hquery]
  have hname : exampleSecondary.name = notifyCodec.toUtf8 exampleOrigin := by decide
  have hsender : HasPrimary exampleSecondary (.V4 ⟨192, 0, 2, 53⟩) :=
    ⟨"192.0.2.53:53", List.mem_singleton_self _, Or.inl (by decide)⟩
  refine ⟨?_, ?_, ?_⟩
  · intro before s after hsplit hdot _
    obtain ⟨rfl, rfl⟩ := singleton_split hsplit
    rw [hname] at hdot
    exact absurd hdot (by decide)
  · intro before s after hsplit _ _
    obtain ⟨rfl, rfl⟩ := singleton_split hsplit
    exact Or.inl ⟨by decide, hsender⟩
  · intro before s after hsplit _ _
    obtain ⟨rfl, rfl⟩ := singleton_split hsplit
    exact ⟨hname, fun t ht => by cases ht⟩

/-- **Any host triggers a transfer, and a primary may not.** The secondary is asked to transfer by an
address that is none of its primaries; configured without the final dot it is never found. -/
theorem stranger_triggers :
    ((HeimdallrHandler.mk [exampleSecondary]).handleRequest notifyCodec deafWorld
          (exampleNotify ⟨198, 51, 100, 9⟩)).transfers = [("example.test.", "192.0.2.53:53")] ∧
      ¬ HasPrimary exampleSecondary (.V4 ⟨198, 51, 100, 9⟩) ∧
      ¬ TriggersRightly notifyCodec deafWorld ⟨[exampleSecondary]⟩ (exampleNotify ⟨198, 51, 100, 9⟩) ∧
      ((HeimdallrHandler.mk [⟨"example.test", ["192.0.2.53:53"]⟩]).handleRequest notifyCodec deafWorld
          (exampleNotify ⟨192, 0, 2, 53⟩)).transfers = [] ∧
      SameDomain notifyCodec ⟨"example.test", ["192.0.2.53:53"]⟩
        ⟨exampleOrigin, by decide⟩ := by
  have hstarted : ((HeimdallrHandler.mk [exampleSecondary]).handleRequest notifyCodec deafWorld
      (exampleNotify ⟨198, 51, 100, 9⟩)).transfers = [("example.test.", "192.0.2.53:53")] := by
    decide
  have hstranger : ¬ HasPrimary exampleSecondary (.V4 ⟨198, 51, 100, 9⟩) := by
    rintro ⟨primary, hmem, hip⟩
    obtain rfl := List.mem_singleton.mp hmem
    exact absurd hip (by decide)
  refine ⟨hstarted, hstranger, ?_, by decide,
    ⟨⟨exampleOrigin.labels, false⟩, by decide, by decide⟩⟩
  intro h
  have hstarts : Starts ((HeimdallrHandler.mk [exampleSecondary]).handleRequest notifyCodec deafWorld
      (exampleNotify ⟨198, 51, 100, 9⟩)) exampleSecondary :=
    ⟨"192.0.2.53:53", by rw [hstarted]; exact List.mem_singleton_self _⟩
  obtain ⟨query, -, -, hsender⟩ := (h.starts_iff _ (List.mem_singleton_self _)).mp hstarts
  exact hstranger hsender

end Heimdallr.Zone
