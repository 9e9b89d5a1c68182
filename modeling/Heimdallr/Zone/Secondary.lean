import Heimdallr.Lib.While
import Heimdallr.Net.Addr
import Heimdallr.Net.Stream

/-!
# Fetching a zone from its primary (`core/zone/secondary.rs`)

`axfr_records_from_primary` asks the primary for the whole zone and collects the records of the
response messages. A transfer is the zone's SOA record, the other records, and the SOA record once
more, cut into messages wherever the primary likes.

The receive loop ends after a message when an SOA record is *among the records collected*. The
opening SOA is one of them, so the loop ends after the message that brought the opening SOA.

* The loop reads a stream of bytes (`Net.Stream`), with a length before each message. A response
  code other than `NoError` is an error; neither the id nor the question of a response is looked at.
* All records are kept but the SOA records after the first, those before the first included. The
  serials of two SOA records are compared for the log only, which is left out.
* After a truncated message the loop goes on. An empty frame, and the end of the stream where a
  length should stand, end it with what has been collected.
* A read waits for as long as the stream is silent. The whole transfer then has no outcome
  (`pending`), as the source sets no limit.
* The loop is `Lib.loop`, with the bytes that are left as its measure.

Results:
* `axfrRound_lowers`, `receive_returns`: every round takes bytes off the stream, so the loop ends
  unless a read waits for ever.
* `takeAll_opening`: what the records of a message become when the first of them is an SOA.
* `receive_opening`: the result once a message with the opening SOA is on the stream.
* **`transfer_complete_iff`**: the zone arrives whole exactly when every record before the closing
  SOA is in the first message.
-/

namespace Heimdallr.Zone

open Heimdallr.Lib Heimdallr.Net

/-- The errors of `axfr_records_from_primary`, one for each context it attaches. -/
inductive AxfrError
  /-- `bad primary addr '{primary_addr}'` -/
  | BadPrimaryAddr (primaryAddr : String)
  /-- `invalid zone name '{zone_name}'` -/
  | InvalidZoneName (zoneName : String)
  /-- `tcp connect to {primary_addr}` -/
  | Connect (primaryAddr : String)
  /-- `serialize AXFR query` -/
  | SerializeQuery
  /-- `write AXFR query length` -/
  | WriteLength
  /-- `write AXFR query body` -/
  | WriteBody
  /-- `read AXFR response length` -/
  | ReadLength
  /-- `read AXFR response body ({msg_len} bytes)` -/
  | ReadBody (msgLen : Nat)
  /-- `parse AXFR response` -/
  | ParseResponse
  /-- `AXFR failed: {rcode:?}` -/
  | Failed (rcode : ResponseCode)
  deriving DecidableEq, Repr

/-- What the receive loop carries from message to message. -/
structure Transfer where
  records : List Record := []
  sawSoaStart : Bool := false
  soaSerial : Option UInt32 := none
  deriving DecidableEq, Repr

namespace Transfer

/-- One record of the answer section. The opening SOA is kept and every later SOA dropped, whatever
its serial (a mismatch is only logged). -/
def take (t : Transfer) (rr : Record) : Transfer :=
  match rr.data with
  | .SOA soa =>
    if !t.sawSoaStart then
      { records := t.records ++ [rr], sawSoaStart := true, soaSerial := some soa.serial }
    else t
  | _ => { t with records := t.records ++ [rr] }

/-- The records of one message. -/
def takeAll (t : Transfer) (answers : List Record) : Transfer := answers.foldl take t

/-- The test that ends the loop after a message that is not truncated. -/
def complete (t : Transfer) : Bool :=
  t.sawSoaStart && t.records.any fun r => r.recordType == .SOA

end Transfer

/-- One round of the receive loop: read a message, collect its records, go on or leave. -/
def axfrRound (hk : Hickory) :
    Transfer × Inbound → (Transfer × Inbound) ⊕ Outcome AxfrError (List Record)
  | (t, s) =>
    match s.readExact 2 with
    | .err .UnexpectedEof => .inr (.ok t.records)
    | .err .Other => .inr (.err .ReadLength)
    | .pending => .inr .pending
    | .ok (lenBuf, s) =>
      let msgLen := fromBeBytes lenBuf
      if msgLen = 0 then .inr (.ok t.records)
      else
        match s.readExact msgLen with
        | .err _ => .inr (.err (.ReadBody msgLen))
        | .pending => .inr .pending
        | .ok (msgBuf, s) =>
          match hk.fromVec msgBuf with
          | none => .inr (.err .ParseResponse)
          | some response =>
            if response.metadata.responseCode ≠ .NoError then
              .inr (.err (.Failed response.metadata.responseCode))
            else
              let t := t.takeAll response.answers
              if !response.metadata.truncation && t.complete then .inr (.ok t.records)
              else .inl (t, s)

/-- The receive loop. -/
def receive (hk : Hickory) (t : Transfer) (s : Inbound) : Outcome AxfrError (List Record) :=
  (loop (fun ts => ts.2.bytes.length) (axfrRound hk) (t, s)).getD .pending

/-- A connection to a primary: whether the two writes of the query go through, and what the primary
sends once it has read the query. -/
structure Connection where
  writesLength : Bool
  writesBody : Bool
  sends : Bytes → Inbound

/-- The query of a transfer, with the low bits of the clock as its id. -/
def axfrQuery (nanos : Nat) (origin : Name) : Message :=
  { metadata :=
      { id := UInt16.ofNat (nanos &&& 0xFFFF), messageType := .Query, opCode := .Query,
        recursionDesired := false }
    queries := [⟨origin, .AXFR⟩] }

/-- `axfr_records_from_primary`. -/
def axfrRecordsFromPrimary (hk : Hickory) (connect : SocketAddr → Option Connection) (nanos : Nat)
    (zoneName primaryAddr : String) : Outcome AxfrError (List Record) := do
  let sockAddr ← .ofOption (.BadPrimaryAddr primaryAddr) (parseSocketAddr primaryAddr.toList)
  let origin ← .ofOption (.InvalidZoneName zoneName) (hk.fromAscii zoneName)
  let stream ← .ofOption (.Connect primaryAddr) (connect sockAddr)
  let queryBytes ← .ofOption .SerializeQuery (hk.toVec (axfrQuery nanos origin))
  if !stream.writesLength then .err .WriteLength
  else if !stream.writesBody then .err .WriteBody
  else receive hk {} (stream.sends (frame queryBytes))

/-! ## The receive loop -/

section Loop

variable {hk : Hickory}

/-- A round that goes on has read a length and a message. -/
theorem axfrRound_inl {t t' : Transfer} {s s' : Inbound}
    (h : axfrRound hk (t, s) = .inl (t', s')) :
    s'.bytes.length < s.bytes.length ∧ s'.ending = s.ending := by
  simp only [axfrRound] at h
  split at h
  · cases h
  · cases h
  · cases h
  · rename_i lenBuf s₁ hlen
    obtain ⟨hs, hl, he⟩ := Inbound.readExact_ok hlen
    split at h
    · cases h
    · split at h
      · cases h
      · cases h
      · rename_i msgBuf s₂ hmsg
        obtain ⟨hs₁, -, he₁⟩ := Inbound.readExact_ok hmsg
        have hlong : s.bytes.length = 2 + (msgBuf.length + s₂.bytes.length) := by
          rw [hs, hs₁, List.length_append, List.length_append, hl]
        split at h
        · cases h
        · split at h
          · cases h
          · split at h
            · cases h
            · obtain ⟨-, rfl⟩ := Prod.mk.inj (Sum.inl.inj h)
              exact ⟨by omega, he₁.trans he⟩

/-- A round waits only in one of its two reads. -/
theorem axfrRound_pending {t : Transfer} {s : Inbound}
    (h : axfrRound hk (t, s) = .inr .pending) : s.ending = .silent := by
  simp only [axfrRound] at h
  split at h
  · cases h
  · cases h
  · rename_i hlen
    exact Inbound.readExact_pending hlen
  · rename_i lenBuf s₁ hlen
    obtain ⟨-, -, he⟩ := Inbound.readExact_ok hlen
    split at h
    · cases h
    · split at h
      · cases h
      · rename_i hmsg
        exact he.symm.trans (Inbound.readExact_pending hmsg)
      · split at h
        · cases h
        · split at h
          · cases h
          · split at h <;> cases h

theorem axfrRound_lowers : Lowers (fun ts => ts.2.bytes.length) (axfrRound hk) := by
  rintro ⟨t, s⟩ ⟨t', s'⟩ h
  exact (axfrRound_inl h).1

/-- The loop returns whenever the stream ends. -/
theorem receive_returns (t : Transfer) {s : Inbound} (h : s.ending ≠ .silent) :
    receive hk t s ≠ .pending := by
  have hlowers : Lowers (fun ts => ts.2.bytes.length) (axfrRound hk) := axfrRound_lowers
  obtain ⟨r, hr, hne⟩ := loop_spec hlowers (I := fun ts => ts.2.ending ≠ .silent)
    (Q := fun r => r ≠ .pending)
    (fun ts ts' hI hround => by
      rw [(axfrRound_inl hround).2]
      exact hI)
    (fun ts r hI hround hp => by
      subst hp
      exact hI (axfrRound_pending hround))
    (s := (t, s)) h
  rw [receive, hr]
  exact hne

theorem receive_eq (t : Transfer) (s : Inbound) :
    receive hk t s =
      match axfrRound hk (t, s) with
      | .inl (t', s') => receive hk t' s'
      | .inr r => r := by
  rw [receive, loop_eq axfrRound_lowers]
  cases axfrRound hk (t, s) with
  | inl ts => rfl
  | inr r => rfl

/-- A round on a stream that starts with the frame of a message without an error code. -/
theorem axfrRound_frame {m : Message} {bytes rest : Bytes} {e : Ending} (t : Transfer)
    (hdec : hk.fromVec bytes = some m) (hpos : 0 < bytes.length) (hlen : bytes.length < 65536)
    (hrcode : m.metadata.responseCode = .NoError) :
    axfrRound hk (t, ⟨frame bytes ++ rest, e⟩) =
      if !m.metadata.truncation && (t.takeAll m.answers).complete then
        .inr (.ok (t.takeAll m.answers).records)
      else .inl (t.takeAll m.answers, ⟨rest, e⟩) := by
  have hne : bytes.length ≠ 0 := by omega
  simp only [axfrRound, readExact_frame, fromBeBytes_toBeBytes hlen, if_neg hne,
    Inbound.readExact_append, hdec, hrcode, ne_eq, not_true_eq_false, if_false]

end Loop

/-! ## Collecting records -/

/-- The record data is an SOA. -/
def isSoa (r : Record) : Bool :=
  match r.data with
  | .SOA _ => true
  | _ => false

theorem isSoa_iff {r : Record} : isSoa r = true ↔ ∃ soa, r.data = .SOA soa := by
  unfold isSoa
  cases r.data <;> simp

theorem recordType_of_isSoa {r : Record} (h : isSoa r = true) : r.recordType = .SOA := by
  obtain ⟨soa, hdata⟩ := isSoa_iff.mp h
  simp [Record.recordType, hdata]

theorem take_soa {t : Transfer} {r : Record} (h : t.sawSoaStart = true) (hr : isSoa r = true) :
    t.take r = t := by
  obtain ⟨soa, hdata⟩ := isSoa_iff.mp hr
  simp [Transfer.take, hdata, h]

theorem take_other {t : Transfer} {r : Record} (hr : isSoa r = false) :
    t.take r = { t with records := t.records ++ [r] } := by
  unfold isSoa at hr
  unfold Transfer.take
  cases hdata : r.data with
  | SOA soa => simp [hdata] at hr
  | _ => rfl

/-- Once the opening SOA is in, every record but the SOAs is kept. -/
theorem takeAll_started {t : Transfer} (h : t.sawSoaStart = true) (rs : List Record) :
    t.takeAll rs = { t with records := t.records ++ rs.filter fun r => !isSoa r } := by
  induction rs generalizing t with
  | nil => simp [Transfer.takeAll]
  | cons r rs ih =>
    show (t.take r).takeAll rs = _
    by_cases hr : isSoa r = true
    · rw [take_soa h hr, ih h]
      simp [hr]
    · have hr : isSoa r = false := by simpa using hr
      have hstart : (t.take r).sawSoaStart = true := by rw [take_other hr]; exact h
      rw [ih hstart, take_other hr]
      simp [hr]

/-- A first message that begins with an SOA: it is kept, and after it everything but SOAs. -/
theorem takeAll_opening {opening : Record} {soa : SOA} (h : opening.data = .SOA soa)
    (rs : List Record) :
    ({} : Transfer).takeAll (opening :: rs) =
      { records := opening :: rs.filter fun r => !isSoa r
        sawSoaStart := true
        soaSerial := some soa.serial } := by
  have htake : ({} : Transfer).take opening =
      { records := [opening], sawSoaStart := true, soaSerial := some soa.serial } := by
    simp [Transfer.take, h]
  show (({} : Transfer).take opening).takeAll rs = _
  rw [htake, takeAll_started rfl]
  rfl

/-- **The loop does not go beyond the message with the opening SOA.** -/
theorem receive_opening {hk : Hickory} {m : Message} {bytes rest : Bytes} {e : Ending}
    {opening : Record} {soa : SOA} {rs : List Record} (hdec : hk.fromVec bytes = some m)
    (hpos : 0 < bytes.length) (hlen : bytes.length < 65536)
    (hrcode : m.metadata.responseCode = .NoError) (htc : m.metadata.truncation = false)
    (hanswers : m.answers = opening :: rs) (hsoa : opening.data = .SOA soa) :
    receive hk {} ⟨frame bytes ++ rest, e⟩ = .ok (opening :: rs.filter fun r => !isSoa r) := by
  have htype : opening.recordType = .SOA := recordType_of_isSoa (by simp [isSoa, hsoa])
  rw [receive_eq, axfrRound_frame {} hdec hpos hlen hrcode, hanswers, takeAll_opening hsoa]
  simp [Transfer.complete, htc, htype]

/-! ## Whole transfers -/

/-- A zone as a primary sends it: the records between two SOA records of one serial. -/
structure ZoneContent where
  opening : Record
  records : List Record
  closing : Record
  start : SOA
  stop : SOA
  opening_soa : opening.data = .SOA start
  closing_soa : closing.data = .SOA stop
  same_serial : start.serial = stop.serial
  no_other_soa : ∀ r ∈ records, r.recordType ≠ .SOA

namespace ZoneContent

/-- The zone's records in the order of the transfer. -/
def sequence (z : ZoneContent) : List Record := z.opening :: z.records ++ [z.closing]

/-- The transfer, cut into consecutive messages that are not empty. -/
structure CutInto (z : ZoneContent) (msgs : List Message) : Prop where
  covers : msgs.flatMap Message.answers = z.sequence
  nonempty : ∀ m ∈ msgs, m.answers ≠ []
  noError : ∀ m ∈ msgs, m.metadata.responseCode = .NoError
  notTruncated : ∀ m ∈ msgs, m.metadata.truncation = false

/-- What the records after the opening SOA become when the transfer breaks off after `k` of
them. -/
theorem filter_take (z : ZoneContent) (k : Nat) :
    ((z.records ++ [z.closing]).take k).filter (fun r => !isSoa r) = z.records.take k := by
  have hkeep : ∀ r ∈ z.records, (!isSoa r) = true := by
    intro r hr
    have hne := z.no_other_soa r hr
    cases hsoa : isSoa r with
    | false => rfl
    | true => exact absurd (recordType_of_isSoa hsoa) hne
  have hclosing : isSoa z.closing = true := isSoa_iff.mpr ⟨z.stop, z.closing_soa⟩
  rw [List.take_append, List.filter_append,
    List.filter_eq_self.mpr fun r hr => hkeep r (List.mem_of_mem_take hr)]
  have hdrop : ([z.closing].take (k - z.records.length)).filter (fun r => !isSoa r) = [] := by
    rw [List.filter_eq_nil_iff]
    intro r hr
    rw [List.mem_singleton.mp (List.mem_of_mem_take hr)]
    simp [hclosing]
  rw [hdrop, List.append_nil]

/-- The first message of a cut begins with the opening SOA and has a part of the rest. -/
theorem CutInto.first {z : ZoneContent} {m : Message} {more : List Message}
    (h : z.CutInto (m :: more)) :
    m.answers = z.opening :: (z.records ++ [z.closing]).take (m.answers.length - 1) := by
  have hseq : m.answers ++ more.flatMap Message.answers = z.sequence := by
    simpa using h.covers
  obtain ⟨r, rs, hans⟩ := List.exists_cons_of_ne_nil (h.nonempty m (by simp))
  rw [hans] at hseq
  have hr : r = z.opening := (List.cons.inj hseq).1
  have hrest : rs ++ more.flatMap Message.answers = z.records ++ [z.closing] :=
    (List.cons.inj hseq).2
  rw [hans, hr, ← hrest]
  simp

end ZoneContent

/-- The primary at `primaryAddr` answers the transfer with these messages, in the encoding `wire`,
and may send anything after them. -/
structure Answers (hk : Hickory) (connect : SocketAddr → Option Connection) (nanos : Nat)
    (zoneName primaryAddr : String) (wire : Message → Bytes) (msgs : List Message) : Prop where
  /-- the query reaches the primary, and what it sends begins with the frames of the messages -/
  sends : ∃ sockAddr origin stream query rest e,
    parseSocketAddr primaryAddr.toList = some sockAddr ∧ hk.fromAscii zoneName = some origin ∧
    connect sockAddr = some stream ∧ hk.toVec (axfrQuery nanos origin) = some query ∧
    stream.writesLength = true ∧ stream.writesBody = true ∧
    stream.sends (frame query) = ⟨msgs.flatMap (fun m => frame (wire m)) ++ rest, e⟩
  decodes : ∀ m ∈ msgs, hk.fromVec (wire m) = some m
  fits : ∀ m ∈ msgs, 0 < (wire m).length ∧ (wire m).length < 65536

/-- **The zone arrives whole exactly when everything before the closing SOA is in the first
message.** -/
theorem transfer_complete_iff {hk : Hickory} {connect : SocketAddr → Option Connection}
    {nanos : Nat} {zoneName primaryAddr : String} {wire : Message → Bytes} (z : ZoneContent)
    {first : Message} {more : List Message} (hcut : z.CutInto (first :: more))
    (hans : Answers hk connect nanos zoneName primaryAddr wire (first :: more)) :
    axfrRecordsFromPrimary hk connect nanos zoneName primaryAddr =
        .ok (z.opening :: z.records) ↔
      z.records.length < first.answers.length := by
  have hmem : first ∈ first :: more := List.mem_cons_self
  obtain ⟨sockAddr, origin, stream, query, rest, e, haddr, horigin, hconn, hquery, hlen, hbody,
    hsends⟩ := hans.sends
  obtain ⟨hpos, hlt⟩ := hans.fits first hmem
  have hrun : axfrRecordsFromPrimary hk connect nanos zoneName primaryAddr =
      .ok (z.opening :: z.records.take (first.answers.length - 1)) := by
    simp only [axfrRecordsFromPrimary, haddr, horigin, hconn, hquery, hlen, hbody,
      Outcome.ofOption, Outcome.ok_bind, Bool.not_true, Bool.false_eq_true, if_false, hsends,
      List.flatMap_cons, List.append_assoc]
    rw [receive_opening (hans.decodes first hmem) hpos hlt (hcut.noError first hmem)
      (hcut.notTruncated first hmem) hcut.first z.opening_soa, z.filter_take]
  have hne : first.answers.length ≠ 0 := by
    simpa using hcut.nonempty first hmem
  rw [hrun]
  constructor
  · intro h
    obtain ⟨-, htake⟩ := List.cons.inj (Outcome.ok.inj h)
    have hle := List.length_take_le (first.answers.length - 1) z.records
    rw [htake] at hle
    omega
  · intro h
    rw [List.take_of_length_le (by omega)]

/-- `example.test.` -/
def exampleOrigin : Name := .ofLabels ["example", "test"] true

/-- The zone's SOA record. -/
def apex : Record :=
  ⟨exampleOrigin, 300, .SOA
    ⟨.ofLabels ["ns", "example", "test"] true, .ofLabels ["admin", "example", "test"] true,
      7, 3600, 600, 86400, 60⟩⟩

/-- The host of the zone. -/
def host1 : Record := ⟨.ofLabels ["host1", "example", "test"] true, 300, .A ⟨192, 0, 2, 1⟩⟩

/-- A zone with one host. -/
def exampleZone : ZoneContent where
  opening := apex
  records := [host1]
  closing := apex
  start := _
  stop := _
  opening_soa := rfl
  closing_soa := rfl
  same_serial := rfl
  no_other_soa := by decide

/-- A response of the primary with these records. -/
def axfrResponse (answers : List Record) : Message :=
  { metadata := { id := 42, messageType := .Response, authoritative := true }
    queries := [⟨exampleOrigin, .AXFR⟩]
    answers }

/-- Header and question on the wire. -/
def questionWire (flags ancount : UInt8) : Bytes :=
  [0, 42, flags, 0, 0, 1, 0, ancount, 0, 0, 0, 0] ++
    ([7] ++ ascii "example" ++ [4] ++ ascii "test" ++ [0]) ++ [0, 252, 0, 1]

/-- The SOA record on the wire. -/
def apexWire : Bytes :=
  [192, 12, 0, 6, 0, 1, 0, 0, 1, 44, 0, 33] ++ ([2] ++ ascii "ns" ++ [192, 12]) ++
    ([5] ++ ascii "admin" ++ [192, 12]) ++
    [0, 0, 0, 7, 0, 0, 14, 16, 0, 0, 2, 88, 0, 1, 81, 128, 0, 0, 0, 60]

/-- The host on the wire. -/
def host1Wire : Bytes :=
  ([5] ++ ascii "host1" ++ [192, 12]) ++ [0, 1, 0, 1, 0, 0, 1, 44, 0, 4, 192, 0, 2, 1]

/-- The query, and the responses a primary may cut the zone into. -/
def axfrCodec : Hickory :=
  .knowing
    [(axfrQuery 42 exampleOrigin, questionWire 0 0),
     (axfrResponse [apex, host1, apex], questionWire 132 3 ++ apexWire ++ host1Wire ++ apexWire),
     (axfrResponse [apex], questionWire 132 1 ++ apexWire),
     (axfrResponse [host1, apex], questionWire 132 2 ++ host1Wire ++ apexWire)]

/-- The wire form of one of these messages. -/
def axfrWire (m : Message) : Bytes := (axfrCodec.toVec m).getD []

/-- A primary that sends these responses and closes the connection. -/
def primarySending (msgs : List Message) (_ : SocketAddr) : Option Connection :=
  some
    { writesLength := true
      writesBody := true
      sends := fun _ => ⟨msgs.flatMap fun m => frame (axfrWire m), .closed⟩ }

theorem answers_primarySending {msgs : List Message}
    (h : ∀ m ∈ msgs, axfrCodec.fromVec (axfrWire m) = some m ∧ 0 < (axfrWire m).length ∧
      (axfrWire m).length < 65536) :
    Answers axfrCodec (primarySending msgs) 42 "example.test." "192.0.2.53:53" axfrWire msgs where
  sends := ⟨.V4 ⟨192, 0, 2, 53⟩ 53, exampleOrigin, _, questionWire 0 0, [], .closed, by decide,
    by decide, rfl, by decide, rfl, rfl, by simp⟩
  decodes m hm := (h m hm).1
  fits m hm := (h m hm).2

/-- The zone in one message. -/
theorem transfer_complete_one_message :
    axfrRecordsFromPrimary axfrCodec (primarySending [axfrResponse [apex, host1, apex]]) 42
      "example.test." "192.0.2.53:53" = .ok [apex, host1] := by
  have hcut : exampleZone.CutInto [axfrResponse [apex, host1, apex]] :=
    ⟨by decide, by decide, by decide, by decide⟩
  refine (transfer_complete_iff exampleZone hcut (answers_primarySending ?_)).mpr (by decide)
  decide +kernel

/-- The zone in two messages, cut after the opening SOA: the host is lost. -/
theorem transfer_loses_second_message :
    let msgs := [axfrResponse [apex], axfrResponse [host1, apex]]
    exampleZone.CutInto msgs ∧
      Answers axfrCodec (primarySending msgs) 42 "example.test." "192.0.2.53:53" axfrWire msgs ∧
      axfrRecordsFromPrimary axfrCodec (primarySending msgs) 42 "example.test." "192.0.2.53:53" =
        .ok [apex] ∧
      ([apex] : List Record) ≠ exampleZone.opening :: exampleZone.records := by
  refine ⟨⟨by decide, by decide, by decide, by decide⟩, answers_primarySending ?_, ?_, by decide⟩
  · decide
  · decide +kernel

end Heimdallr.Zone
