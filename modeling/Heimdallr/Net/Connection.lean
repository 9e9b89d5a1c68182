import Heimdallr.Lib.While
import Heimdallr.Net.Tcp

/-!
# Serving a TCP connection (`net/tcp.rs`)

`handle_connection` finds out who the client is and then reads messages until it cannot: a length
of two bytes, that many bytes, and a call of `handle_dns_query`, whose errors are only logged. The
responses of a call are written back with the same framing.

* The handler is a parameter with a state of its own (`Server`): whether a message parses, and which
  responses it hands over, any number of them.
* Both ways of a connection may fail. The peer's may end, break or fall silent between any two
  bytes; `read_exact_timeout` gives up on a silent one, so no read of the loop waits for ever. The
  way back takes as many bytes as it likes (`Outbound.room`), and the first failed write ends the
  responses of its call, but not the loop.
* `MAX_DNS_MESSAGE` is what two bytes can say, so the test against it never fails; the loop also
  ends at a length of zero.
* The loop is `Lib.loop`, with the number of unread bytes as its measure (`connectionRound_lowers`).

Results:
* `readLoop_frame`, `readLoop_cut`, `readLoop_empty`: one step of the loop on a stream that starts
  with a whole frame, with a part of one, or with an empty one.
* **`framing_round_trip`**: what is written is read back message by message, from any prefix of the
  stream as far as it goes, and no further than an empty frame.
* **`connection_served`**: what a connection does with any stream at all, the header (`Net.Tcp`) and
  the frames behind it taken together: its messages are dispatched in order for one client.
  `connection_plain` and `connection_refused` say when it comes to that and when it does not.

Out of scope: the accept loop (each connection is handled by itself) and the lengths of the
time-outs.
-/

namespace Heimdallr.Net

open Lib

/-- `MAX_DNS_MESSAGE`: what a length of two bytes can say. -/
def maxDnsMessage : Nat := 65535

/-- What the server does with a message. The state `σ` is the handler's. -/
structure Server (σ : Type) where
  /-- `Request::from_bytes` accepts the message. -/
  parses : Bytes → Bool
  /-- `handle_request`: the responses it hands to the stream, in order, and its state after it. -/
  handleRequest : σ → Bytes → SocketAddr → List Bytes × σ

/-- The writing side of a connection: what was written, and how many bytes more it takes before it
fails (`none` for a connection that does not fail). -/
structure Outbound where
  written : Bytes
  room : Option Nat
  deriving DecidableEq, Repr

/-- `write_all`; `false` for an error. -/
def Outbound.writeAll (o : Outbound) (data : Bytes) : Outbound × Bool :=
  match o.room with
  | none => ({ o with written := o.written ++ data }, true)
  | some n =>
    if data.length ≤ n then (⟨o.written ++ data, some (n - data.length)⟩, true)
    else (⟨o.written ++ data.take n, some 0⟩, false)

/-- The loop of `handle_dns_query` over the responses: the length as `u16`, then the bytes. An
error ends it. -/
def Outbound.writeResponses : Outbound → List Bytes → Outbound
  | o, [] => o
  | o, data :: rest =>
    match o.writeAll (toBeBytes data.length) with
    | (o, false) => o
    | (o, true) =>
      match o.writeAll data with
      | (o, false) => o
      | (o, true) => o.writeResponses rest

/-- What a connection has done: the messages it dispatched, what it wrote and the handler's
state. -/
structure Session (σ : Type) where
  dispatched : List Bytes
  out : Outbound
  handler : σ

variable {σ : Type}

/-- `handle_dns_query`. Its errors (a message that does not parse, a failed write) are logged by the
caller, so what is left of a call is the session after it. -/
def handleDnsQuery (srv : Server σ) (srcAddr : SocketAddr) (msgBytes : Bytes) (t : Session σ) :
    Session σ :=
  let t := { t with dispatched := t.dispatched ++ [msgBytes] }
  if !srv.parses msgBytes then t
  else
    let (responses, handler) := srv.handleRequest t.handler msgBytes srcAddr
    { t with out := t.out.writeResponses responses, handler }

/-- `read_exact_timeout`: nothing when the stream ends, breaks, or stays silent for the time it
waits. -/
def readExactTimeout (s : Inbound) (n : Nat) : Option (Bytes × Inbound) :=
  match s.readExact n with
  | .ok r => some r
  | _ => none

/-- One round of the loop of `handle_connection`. -/
def connectionRound (srv : Server σ) (srcAddr : SocketAddr) :
    Session σ × Inbound → (Session σ × Inbound) ⊕ Session σ
  | (t, s) =>
    match readExactTimeout s 2 with
    | none => .inr t
    | some (lenBytes, s) =>
      let msgLen := fromBeBytes lenBytes
      if msgLen = 0 ∨ maxDnsMessage < msgLen then .inr t
      else
        match readExactTimeout s msgLen with
        | none => .inr t
        | some (msgBytes, s) => .inl (handleDnsQuery srv srcAddr msgBytes t, s)

/-- The loop of `handle_connection`. -/
def readLoop (srv : Server σ) (srcAddr : SocketAddr) (t : Session σ) (s : Inbound) :
    Option (Session σ) :=
  loop (fun ts => ts.2.bytes.length) (connectionRound srv srcAddr) (t, s)

/-- `handle_connection`, when `visible` bytes have arrived at the moment of the peek. -/
def handleConnection (srv : Server σ) (t : Session σ) (stream : Inbound) (visible : Nat)
    (peer : SocketAddr) (proxyEnabled : Bool) (proxyAllow : List String) :
    Outcome ResolveError (Option (Session σ)) := do
  let (srcAddr, stream) ← resolveSrcAddr stream visible peer proxyEnabled proxyAllow
  .ok (readLoop srv srcAddr t stream)

/-! ## Writing -/

/-- On a connection that does not fail, the responses are written as frames. -/
theorem writeResponses_open (responses : List Bytes) (written : Bytes) :
    (Outbound.mk written none).writeResponses responses =
      ⟨written ++ responses.flatMap frame, none⟩ := by
  induction responses generalizing written with
  | nil => simp [Outbound.writeResponses]
  | cons data rest ih =>
    show (Outbound.mk (written ++ toBeBytes data.length ++ data) none).writeResponses rest = _
    rw [ih, List.flatMap_cons, frame]
    simp only [List.append_assoc]

/-! ## Reading -/

theorem readExactTimeout_append (a b : Bytes) (e : Ending) :
    readExactTimeout ⟨a ++ b, e⟩ a.length = some (a, ⟨b, e⟩) := by
  unfold readExactTimeout
  rw [Inbound.readExact_append]

theorem readExactTimeout_short {s : Inbound} {n : Nat} (h : s.bytes.length < n) :
    readExactTimeout s n = none := by
  unfold readExactTimeout
  rw [Inbound.readExact_of_lt h]
  cases s.ending <;> rfl

theorem readExactTimeout_some {s s' : Inbound} {n : Nat} {buf : Bytes}
    (h : readExactTimeout s n = some (buf, s')) : s.bytes = buf ++ s'.bytes ∧ buf.length = n := by
  unfold readExactTimeout at h
  split at h
  · rename_i r hread
    obtain rfl := Option.some.inj h
    obtain ⟨hbytes, hlen, -⟩ := Inbound.readExact_ok hread
    exact ⟨hbytes, hlen⟩
  · exact absurd h (by simp)

/-- A round that goes on has taken a whole frame off the stream and dispatched its message. -/
theorem connectionRound_inl {srv : Server σ} {srcAddr : SocketAddr} {t t' : Session σ}
    {s s' : Inbound} (h : connectionRound srv srcAddr (t, s) = .inl (t', s')) :
    ∃ m, (1 ≤ m.length ∧ m.length ≤ 65535) ∧ s.bytes = frame m ++ s'.bytes ∧
      t' = handleDnsQuery srv srcAddr m t := by
  simp only [connectionRound] at h
  split at h
  · cases h
  · rename_i lenBytes s₁ hlen
    split at h
    · cases h
    · rename_i hok
      split at h
      · cases h
      · rename_i msgBytes s₂ hmsg
        obtain ⟨rfl, rfl⟩ := Prod.mk.inj (Sum.inl.inj h)
        obtain ⟨hbytes, htwo⟩ := readExactTimeout_some hlen
        obtain ⟨hrest, hlength⟩ := readExactTimeout_some hmsg
        unfold maxDnsMessage at hok
        refine ⟨msgBytes, by omega, ?_, rfl⟩
        rw [hbytes, hrest, frame, hlength, toBeBytes_fromBeBytes htwo, List.append_assoc]

/-- A round that leaves the loop dispatches nothing. -/
theorem connectionRound_inr {srv : Server σ} {srcAddr : SocketAddr} {t r : Session σ} {s : Inbound}
    (h : connectionRound srv srcAddr (t, s) = .inr r) : r = t := by
  simp only [connectionRound] at h
  split at h
  · exact (Sum.inr.inj h).symm
  · split at h
    · exact (Sum.inr.inj h).symm
    · split at h
      · exact (Sum.inr.inj h).symm
      · cases h

theorem connectionRound_lowers (srv : Server σ) (srcAddr : SocketAddr) :
    Lowers (fun ts => ts.2.bytes.length) (connectionRound srv srcAddr) := by
  rintro ⟨t, s⟩ ⟨t', s'⟩ h
  obtain ⟨m, -, hbytes, -⟩ := connectionRound_inl h
  show s'.bytes.length < s.bytes.length
  rw [hbytes, List.length_append, frame, List.length_append]
  show s'.bytes.length < 2 + m.length + s'.bytes.length
  omega

section Steps

variable (srv : Server σ) (srcAddr : SocketAddr) (t : Session σ) (e : Ending)

/-- What a whole frame starts with: its length is read, and then the message is there. -/
theorem readExactTimeout_frame (data rest : Bytes) :
    readExactTimeout ⟨frame data ++ rest, e⟩ 2 = some (toBeBytes data.length, ⟨data ++ rest, e⟩) := by
  unfold readExactTimeout
  rw [readExact_frame]

/-- A round on a whole frame. -/
theorem connectionRound_frame {data : Bytes} (hlen : 1 ≤ data.length ∧ data.length ≤ 65535)
    (rest : Bytes) :
    connectionRound srv srcAddr (t, ⟨frame data ++ rest, e⟩) =
      .inl (handleDnsQuery srv srcAddr data t, ⟨rest, e⟩) := by
  have hread : fromBeBytes (toBeBytes data.length) = data.length :=
    fromBeBytes_toBeBytes (by omega)
  have hok : ¬ (data.length = 0 ∨ maxDnsMessage < data.length) := by
    unfold maxDnsMessage
    omega
  simp only [connectionRound, readExactTimeout_frame, hread, if_neg hok, readExactTimeout_append]

/-- A whole frame: its message is dispatched, and the loop goes on behind it. -/
theorem readLoop_frame {data : Bytes} (hlen : 1 ≤ data.length ∧ data.length ≤ 65535)
    (rest : Bytes) :
    readLoop srv srcAddr t ⟨frame data ++ rest, e⟩ =
      readLoop srv srcAddr (handleDnsQuery srv srcAddr data t) ⟨rest, e⟩ := by
  unfold readLoop
  rw [loop_eq (connectionRound_lowers srv srcAddr), connectionRound_frame srv srcAddr t e hlen]

/-- A part of a frame: nothing is dispatched, and the loop ends. -/
theorem readLoop_cut {data : Bytes} (hlen : 1 ≤ data.length ∧ data.length ≤ 65535) {n : Nat}
    (hn : n < (frame data).length) :
    readLoop srv srcAddr t ⟨(frame data).take n, e⟩ = some t := by
  have hround : connectionRound srv srcAddr (t, ⟨(frame data).take n, e⟩) = .inr t := by
    by_cases hhead : n < 2
    · have hshort : (Inbound.mk ((frame data).take n) e).bytes.length < 2 := by
        show ((frame data).take n).length < 2
        rw [List.length_take]
        omega
      simp only [connectionRound, readExactTimeout_short hshort]
    · -- the length is there, a byte of the message is missing
      have htake : (frame data).take n = toBeBytes data.length ++ data.take (n - 2) := by
        have htwo : (toBeBytes data.length).length = 2 := rfl
        rw [frame, List.take_append, List.take_of_length_le (by omega), htwo]
      have hframe : (frame data).length = 2 + data.length := by
        rw [frame, List.length_append]
        rfl
      have hread : fromBeBytes (toBeBytes data.length) = data.length :=
        fromBeBytes_toBeBytes (by omega)
      have hhdr : readExactTimeout ⟨toBeBytes data.length ++ data.take (n - 2), e⟩ 2 =
          some (toBeBytes data.length, ⟨data.take (n - 2), e⟩) :=
        readExactTimeout_append (toBeBytes data.length) _ e
      have hshort : (Inbound.mk (data.take (n - 2)) e).bytes.length < data.length := by
        show (data.take (n - 2)).length < data.length
        rw [List.length_take]
        omega
      simp only [connectionRound, htake, hhdr, hread, readExactTimeout_short hshort, ite_self]
  unfold readLoop
  rw [loop_eq (connectionRound_lowers srv srcAddr), hround]

/-- An empty frame ends the loop, whatever follows it. -/
theorem readLoop_empty (rest : Bytes) :
    readLoop srv srcAddr t ⟨frame [] ++ rest, e⟩ = some t := by
  have hround : connectionRound srv srcAddr (t, ⟨frame [] ++ rest, e⟩) = .inr t := by
    have hzero : fromBeBytes (toBeBytes ([] : Bytes).length) = 0 := rfl
    simp only [connectionRound, readExactTimeout_frame, hzero, true_or, if_true]
  unfold readLoop
  rw [loop_eq (connectionRound_lowers srv srcAddr), hround]

/-- The end of the stream ends the loop. -/
theorem readLoop_nil : readLoop srv srcAddr t ⟨[], e⟩ = some t := by
  have hround : connectionRound srv srcAddr (t, ⟨[], e⟩) = .inr t := by
    have hshort : (Inbound.mk [] e).bytes.length < 2 := Nat.zero_lt_two
    simp only [connectionRound, readExactTimeout_short hshort]
  unfold readLoop
  rw [loop_eq (connectionRound_lowers srv srcAddr), hround]

end Steps

/-! ## Whole streams -/

/-- The session after a list of messages. -/
def dispatchAll (srv : Server σ) (srcAddr : SocketAddr) (msgs : List Bytes) (t : Session σ) :
    Session σ :=
  msgs.foldl (fun t m => handleDnsQuery srv srcAddr m t) t

theorem handleDnsQuery_dispatched (srv : Server σ) (srcAddr : SocketAddr) (m : Bytes)
    (t : Session σ) : (handleDnsQuery srv srcAddr m t).dispatched = t.dispatched ++ [m] := by
  unfold handleDnsQuery
  dsimp only
  split <;> rfl

theorem dispatchAll_dispatched (srv : Server σ) (srcAddr : SocketAddr) (msgs : List Bytes)
    (t : Session σ) : (dispatchAll srv srcAddr msgs t).dispatched = t.dispatched ++ msgs := by
  induction msgs generalizing t with
  | nil => exact (List.append_nil _).symm
  | cons m msgs ih =>
    show (dispatchAll srv srcAddr msgs (handleDnsQuery srv srcAddr m t)).dispatched = _
    rw [ih, handleDnsQuery_dispatched, List.append_assoc]
    rfl

section Streams

variable (srv : Server σ) (srcAddr : SocketAddr) (e : Ending) {msgs : List Bytes}
  (hmsgs : ∀ m ∈ msgs, 1 ≤ m.length ∧ m.length ≤ 65535)

include hmsgs

/-- The frames at the front of a stream are dispatched one after the other. -/
theorem readLoop_frames (t : Session σ) (rest : Bytes) :
    readLoop srv srcAddr t ⟨msgs.flatMap frame ++ rest, e⟩ =
      readLoop srv srcAddr (dispatchAll srv srcAddr msgs t) ⟨rest, e⟩ := by
  induction msgs generalizing t with
  | nil => rfl
  | cons m msgs ih =>
    rw [List.forall_mem_cons] at hmsgs
    rw [List.flatMap_cons, List.append_assoc, readLoop_frame srv srcAddr t e hmsgs.1, ih hmsgs.2]
    rfl

/-- The first `n` bytes of a stream of frames: the messages whose frames are whole. -/
theorem readLoop_take (t : Session σ) (n : Nat) :
    ∃ k, k ≤ msgs.length ∧ ((msgs.take k).flatMap frame).length ≤ n ∧
      (∀ j, j ≤ msgs.length → ((msgs.take j).flatMap frame).length ≤ n → j ≤ k) ∧
      readLoop srv srcAddr t ⟨(msgs.flatMap frame).take n, e⟩ =
        some (dispatchAll srv srcAddr (msgs.take k) t) := by
  induction msgs generalizing t n with
  | nil =>
    refine ⟨0, Nat.le_refl _, Nat.zero_le _, fun j hj _ => hj, ?_⟩
    rw [List.flatMap_nil, List.take_nil]
    exact readLoop_nil srv srcAddr t e
  | cons m msgs ih =>
    rw [List.forall_mem_cons] at hmsgs
    by_cases hfits : (frame m).length ≤ n
    · -- the first frame is whole; the rest of the bytes is a prefix of the other frames
      obtain ⟨k, hk, hlen, hmax, hrun⟩ :=
        ih hmsgs.2 (handleDnsQuery srv srcAddr m t) (n - (frame m).length)
      refine ⟨k + 1, Nat.succ_le_succ hk, ?_, ?_, ?_⟩
      · rw [List.take_succ_cons, List.flatMap_cons, List.length_append]
        omega
      · intro j hj hjlen
        cases j with
        | zero => exact Nat.zero_le _
        | succ j =>
          rw [List.take_succ_cons, List.flatMap_cons, List.length_append] at hjlen
          exact Nat.succ_le_succ (hmax j (Nat.le_of_succ_le_succ hj) (by omega))
      · rw [List.flatMap_cons, List.take_append, List.take_of_length_le hfits,
          readLoop_frame srv srcAddr t e hmsgs.1, hrun]
        rfl
    · refine ⟨0, Nat.zero_le _, Nat.zero_le _, ?_, ?_⟩
      · intro j hj hjlen
        cases j with
        | zero => exact Nat.le_refl _
        | succ j =>
          rw [List.take_succ_cons, List.flatMap_cons, List.length_append] at hjlen
          omega
      · have hlt : n < (frame m).length := Nat.lt_of_not_le hfits
        rw [List.flatMap_cons, List.take_append_of_le_length (Nat.le_of_lt hlt),
          readLoop_cut srv srcAddr t e hmsgs.1 hlt]
        rfl

end Streams

/-- **The framing round-trips.** Messages of 1 to 65535 bytes are written as frames; the loop reads
these frames, dispatches the messages in order and returns at the end of the stream, however it
ends. Of the first `n` bytes it dispatches as many messages as have their whole frame there, and
behind an empty frame it dispatches nothing. -/
theorem framing_round_trip (srv : Server σ) (srcAddr : SocketAddr) (t : Session σ) (e : Ending)
    (msgs : List Bytes) (hmsgs : ∀ m ∈ msgs, 1 ≤ m.length ∧ m.length ≤ 65535) :
    (∀ written, (Outbound.mk written none).writeResponses msgs =
        ⟨written ++ msgs.flatMap frame, none⟩) ∧
      (readLoop srv srcAddr t ⟨msgs.flatMap frame, e⟩).map Session.dispatched =
        some (t.dispatched ++ msgs) ∧
      (∀ n, ∃ k, k ≤ msgs.length ∧ ((msgs.take k).flatMap frame).length ≤ n ∧
        (∀ j, j ≤ msgs.length → ((msgs.take j).flatMap frame).length ≤ n → j ≤ k) ∧
        (readLoop srv srcAddr t ⟨(msgs.flatMap frame).take n, e⟩).map Session.dispatched =
          some (t.dispatched ++ msgs.take k)) ∧
      ∀ rest, (readLoop srv srcAddr t ⟨msgs.flatMap frame ++ (frame [] ++ rest), e⟩).map
        Session.dispatched = some (t.dispatched ++ msgs) := by
  refine ⟨writeResponses_open msgs, ?_, ?_, ?_⟩
  · have hall := readLoop_frames srv srcAddr e hmsgs t []
    rw [List.append_nil, readLoop_nil] at hall
    rw [hall, Option.map_some, dispatchAll_dispatched]
  · intro n
    obtain ⟨k, hk, hlen, hmax, hrun⟩ := readLoop_take srv srcAddr e hmsgs t n
    refine ⟨k, hk, hlen, hmax, ?_⟩
    rw [hrun, Option.map_some, dispatchAll_dispatched]
  · intro rest
    rw [readLoop_frames srv srcAddr e hmsgs t, readLoop_empty, Option.map_some,
      dispatchAll_dispatched]

/-- A server that echoes every message. -/
def echoServer : Server Unit := ⟨fun _ => true, fun _ m _ => ([m], ())⟩

/-- Two messages, read to the end of the stream and behind an empty frame. -/
theorem framing_round_trip_two :
    (∀ m ∈ [[1, 2], [(3 : UInt8)]], 1 ≤ m.length ∧ m.length ≤ 65535) ∧
      (readLoop echoServer (.V4 ⟨192, 0, 2, 1⟩ 4000) ⟨[], ⟨[], none⟩, ()⟩
        ⟨[0, 2, 1, 2, 0, 1, 3], .closed⟩).map Session.dispatched = some [[1, 2], [3]] ∧
      (readLoop echoServer (.V4 ⟨192, 0, 2, 1⟩ 4000) ⟨[], ⟨[], none⟩, ()⟩
        ⟨[0, 2, 1, 2, 0, 1, 3, 0, 0, 0, 1, 9], .closed⟩).map Session.dispatched =
          some [[1, 2], [3]] := by
  have hmsgs : ∀ m ∈ [[1, 2], [(3 : UInt8)]], 1 ≤ m.length ∧ m.length ≤ 65535 := by decide
  obtain ⟨-, hall, -, hempty⟩ := framing_round_trip echoServer (.V4 ⟨192, 0, 2, 1⟩ 4000)
    ⟨[], ⟨[], none⟩, ()⟩ .closed [[1, 2], [3]] hmsgs
  exact ⟨hmsgs, hall, hempty [0, 1, 9]⟩

/-! ## A connection -/

/-- No message comes next: the stream is over, a frame is cut or empty. -/
def NoFrame (rest : Bytes) : Prop :=
  ∀ m more, 1 ≤ m.length ∧ m.length ≤ 65535 → rest ≠ frame m ++ more

/-- The frames at the front of a stream were dispatched in order, for one client, and what comes
behind them is no frame. -/
def Served (srv : Server σ) (srcAddr : SocketAddr) (t : Session σ) (bytes : Bytes)
    (r : Option (Session σ)) : Prop :=
  ∃ msgs rest, bytes = msgs.flatMap frame ++ rest ∧
    (∀ m ∈ msgs, 1 ≤ m.length ∧ m.length ≤ 65535) ∧ NoFrame rest ∧
    r = some (dispatchAll srv srcAddr msgs t)

/-- The loop serves any stream, and ends. -/
theorem readLoop_served (srv : Server σ) (srcAddr : SocketAddr) (t : Session σ) (s : Inbound) :
    Served srv srcAddr t s.bytes (readLoop srv srcAddr t s) := by
  -- the invariant: what was read so far are frames, and their messages were dispatched
  let I := fun ts : Session σ × Inbound => ∃ msgs, s.bytes = msgs.flatMap frame ++ ts.2.bytes ∧
    (∀ m ∈ msgs, 1 ≤ m.length ∧ m.length ≤ 65535) ∧ ts.1 = dispatchAll srv srcAddr msgs t
  have hgo : ∀ ts ts', I ts → connectionRound srv srcAddr ts = .inl ts' → I ts' := by
    rintro ⟨t₁, s₁⟩ ⟨t₂, s₂⟩ ⟨msgs, hbytes, hmsgs, ht⟩ hround
    obtain ⟨m, hm, hframe, ht₂⟩ := connectionRound_inl hround
    refine ⟨msgs ++ [m], ?_, List.forall_mem_append.mpr ⟨hmsgs, by simpa using hm⟩, ?_⟩
    · rw [hbytes, hframe, List.flatMap_append, List.flatMap_singleton, List.append_assoc]
    · show t₂ = _
      rw [ht₂, dispatchAll, List.foldl_append, show t₁ = _ from ht]
      rfl
  have hleave : ∀ ts r, I ts → connectionRound srv srcAddr ts = .inr r →
      Served srv srcAddr t s.bytes (some r) := by
    rintro ⟨t₁, s₁⟩ r ⟨msgs, hbytes, hmsgs, ht⟩ hround
    have hr : r = t₁ := connectionRound_inr hround
    refine ⟨msgs, s₁.bytes, hbytes, hmsgs, ?_, by rw [hr, show t₁ = _ from ht]⟩
    intro m more hm hframe
    rw [show s₁ = ⟨frame m ++ more, s₁.ending⟩ from by rw [← hframe],
      connectionRound_frame srv srcAddr t₁ s₁.ending hm] at hround
    cases hround
  obtain ⟨r, hrun, hserved⟩ := loop_spec (connectionRound_lowers srv srcAddr) hgo hleave
    (s := (t, s)) ⟨[], rfl, by simp, rfl⟩
  unfold readLoop
  rw [hrun]
  exact hserved

section Connection

variable (srv : Server σ) (t : Session σ) {stream : Inbound} {visible : Nat} {peer : SocketAddr}
  {proxyEnabled : Bool} {proxyAllow : List String}

/-- **A connection, whatever comes in on it**, that is not refused: its messages are dispatched in
order for one client, who is the peer, or `0.0.0.0:0` behind a bare header where that is allowed. -/
theorem connection_served {r : Option (Session σ)}
    (h : handleConnection srv t stream visible peer proxyEnabled proxyAllow = .ok r) :
    Served srv peer t stream.bytes r ∨
      (proxyEnabled = true ∧ BareHeader stream visible ∧
        allowed proxyAllow (.V4 .unspecified 0) = true ∧
        Served srv (.V4 .unspecified 0) t (stream.bytes.drop 16) r) := by
  obtain ⟨⟨src, rest⟩, hsrc, hloop⟩ := Outcome.bind_eq_ok h
  obtain rfl := Outcome.ok.inj hloop
  cases proxyEnabled with
  | false =>
    obtain ⟨rfl, rfl⟩ := Prod.mk.inj (Outcome.ok.inj hsrc)
    exact .inl (readLoop_served srv _ t _)
  | true =>
    rcases resolveSrcAddr_ok hsrc with ⟨rfl, rfl⟩ | ⟨hbare, hallowed, rfl, rfl⟩
    · exact .inl (readLoop_served srv _ t _)
    · exact .inr ⟨rfl, hbare, hallowed,
        readLoop_served srv _ t { stream with bytes := stream.bytes.drop 16 }⟩

/-- A client that speaks first, and without a header, is served as the peer it is. -/
theorem connection_plain (hne : stream.bytes ≠ []) (hv1 : ¬ v1Prefix <+: stream.bytes)
    (hv2 : ¬ v2Signature <+: stream.bytes) :
    ∃ r, handleConnection srv t stream visible peer proxyEnabled proxyAllow = .ok r ∧
      Served srv peer t stream.bytes r := by
  have hsrc : resolveSrcAddr stream visible peer proxyEnabled proxyAllow = .ok (peer, stream) := by
    cases proxyEnabled with
    | false => rfl
    | true => exact resolveSrcAddr_none hne (parse_peeked_none hv1 hv2)
  refine ⟨readLoop srv peer t stream, ?_, readLoop_served srv peer t stream⟩
  unfold handleConnection
  rw [hsrc]
  rfl

/-- Behind a header of more than 16 bytes nothing is dispatched. -/
theorem connection_refused {h p : Bytes} {announcement : Option ProxyInfo} {e : Ending}
    (hr : Recognised h announcement) (hvis : (h ++ p).length ≤ visible) (hlong : 16 < h.length) :
    ∃ err, handleConnection srv t ⟨h ++ p, e⟩ visible peer true proxyAllow =
      .err (.BadHeader peer err) := by
  obtain ⟨err, herr⟩ := resolveSrcAddr_long (e := e) hr hvis hlong peer proxyAllow
  refine ⟨err, ?_⟩
  unfold handleConnection
  rw [herr]
  rfl

end Connection

end Heimdallr.Net
