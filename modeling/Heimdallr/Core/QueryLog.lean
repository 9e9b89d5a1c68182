import Heimdallr.Lib.Run
import Mathlib.Data.List.Basic

/-!
# The query log writer (`core/log/query_log.rs`)

`QueryLogWriter::log` puts events into a bounded channel with `try_send`. The writer task takes
them out one by one into a buffer, and hands a copy of the buffer to `flush` when it is long enough
and at every tick of a timer; the buffer is cleared when the call of `flush` has come back. While
the writer waits for `flush`, events go on arriving in the channel.

`QueryLog` is the state of the channel and of the writer task between two things that can happen to
them (`LogAct`): an event is sent, the writer takes one, the timer ticks, `flush` comes back. Two
parts of it are not data of the program: the batches handed to `flush` and the events that
`try_send` accepted.

* The writer is modelled from its loop on. `tokio::time::interval` refuses a period of zero;
  `main` passes 100 ms.
* When every sender is gone and the channel is empty, `recv` gives `None`, and the branch of
  `select!` that waits for `Some` is off until the next tick. The branch of the timer takes any
  value, so the `else` branch is never reached and the loop never left: what is in the buffer then
  is flushed by the next tick, not by the code behind the loop.
* An event that does not fit into the channel is dropped by `try_send`, and counted nowhere. The
  results are about those that were accepted.

`query_log_conserves`: nothing is lost, repeated or reordered, in any interleaving.

Out of scope: what `flush` does with a batch (PostgreSQL), and whether it succeeds.
-/

namespace Heimdallr

open Lib

/-- `QueryEvent`. -/
structure QueryEvent where
  ts : Nat
  qname : String
  qtype : UInt16
  client : String
  rcode : UInt8
  answers : Nat
  latencyMs : Nat
  fromCache : Bool
  blocked : Bool
  deriving DecidableEq, Repr

/-- The capacity of the channel: `mpsc::channel(1024)`. -/
def channelCapacity : Nat := 1024

/-- The channel and the writer task. -/
structure QueryLog where
  bufferSize : Nat
  /-- the events in the channel, the oldest first -/
  queue : List QueryEvent
  /-- the `QueryLogWriter` has not been dropped -/
  senderAlive : Bool
  buffer : List QueryEvent
  /-- the writer waits for a call of `flush` to come back -/
  flushing : Bool
  /-- what `flush` was called with so far -/
  batches : List (List QueryEvent)
  /-- the events `try_send` took so far -/
  accepted : List QueryEvent

/-- What can happen next. -/
inductive LogAct
  /-- `log`: one `try_send` -/
  | log (event : QueryEvent)
  /-- the writer receives an event -/
  | recv
  /-- the timer ticks -/
  | tick
  /-- the call of `flush` comes back -/
  | flushed
  /-- the `QueryLogWriter` is dropped -/
  | dropSender

namespace QueryLog

/-- `QueryLogWriter::spawn`. -/
def spawn (bufferSize : Nat) : QueryLog :=
  { bufferSize, queue := [], senderAlive := true, buffer := [], flushing := false, batches := [],
    accepted := [] }

/-- `flush(url, table, buffer.clone())`, up to its return. -/
def startFlush (s : QueryLog) : QueryLog :=
  { s with flushing := true, batches := s.batches ++ [s.buffer] }

/-- The branch of `select!` that got an event. -/
def receive (s : QueryLog) (event : QueryEvent) (rest : List QueryEvent) : QueryLog :=
  let s := { s with queue := rest, buffer := s.buffer ++ [event] }
  if s.bufferSize ≤ s.buffer.length then s.startFlush else s

/-- One step; `none` when it is not possible. -/
def act : LogAct → QueryLog → Option QueryLog
  | .log event, s =>
    if !s.senderAlive then none
    else if s.queue.length < channelCapacity then
      some { s with queue := s.queue ++ [event], accepted := s.accepted ++ [event] }
    else some s
  | .recv, s =>
    if s.flushing then none
    else
      match s.queue with
      | [] => none
      | event :: rest => some (s.receive event rest)
  | .tick, s =>
    if s.flushing then none
    else if !s.buffer.isEmpty then some s.startFlush
    else some s
  | .flushed, s => if s.flushing then some { s with buffer := [], flushing := false } else none
  | .dropSender, s => some { s with senderAlive := false }

/-! ## Conservation -/

/-- The events in the buffer that were not handed to `flush`. -/
def unflushed (s : QueryLog) : List QueryEvent := if s.flushing then [] else s.buffer

/-- What a batch looks like. -/
def GoodBatch (bufferSize : Nat) (batch : List QueryEvent) : Prop :=
  batch ≠ [] ∧ batch.length ≤ max bufferSize 1

/-- The batches, the rest of the buffer and the channel are the accepted events; a batch that is
being flushed is still in the buffer, and a buffer that is not is shorter than a batch may be. -/
structure Inv (s : QueryLog) : Prop where
  conserved : s.batches.flatten ++ s.unflushed ++ s.queue = s.accepted
  batches : ∀ b ∈ s.batches, GoodBatch s.bufferSize b
  inFlush : s.flushing = true → s.batches.getLast? = some s.buffer
  short : s.flushing = false → s.buffer.length < max s.bufferSize 1
  capacity : s.queue.length ≤ channelCapacity

theorem inv_spawn (bufferSize : Nat) : (spawn bufferSize).Inv where
  conserved := rfl
  batches b hb := absurd hb List.not_mem_nil
  inFlush h := absurd h (by simp [spawn])
  short _ := Nat.lt_of_lt_of_le Nat.zero_lt_one (Nat.le_max_right _ _)
  capacity := Nat.zero_le _

/-- Handing a good batch to `flush` keeps the invariant. -/
theorem inv_startFlush {s : QueryLog} (hcons : s.batches.flatten ++ s.buffer ++ s.queue = s.accepted)
    (hbatches : ∀ b ∈ s.batches, GoodBatch s.bufferSize b) (hgood : GoodBatch s.bufferSize s.buffer)
    (hcap : s.queue.length ≤ channelCapacity) : s.startFlush.Inv where
  conserved := by
    show (s.batches ++ [s.buffer]).flatten ++ [] ++ s.queue = s.accepted
    rw [List.flatten_append, List.append_nil, List.flatten_singleton]
    exact hcons
  batches := by
    show ∀ b ∈ s.batches ++ [s.buffer], _
    rw [List.forall_mem_append, List.forall_mem_singleton]
    exact ⟨hbatches, hgood⟩
  inFlush _ := List.getLast?_concat
  short h := absurd h (by simp [startFlush])
  capacity := hcap

/-- What a step can do. -/
theorem act_cases {a : LogAct} {s s' : QueryLog} (h : act a s = some s') :
    s' = s ∨
      (∃ event, s.queue.length < channelCapacity ∧
        s' = { s with queue := s.queue ++ [event], accepted := s.accepted ++ [event] }) ∨
      (∃ event rest, s.flushing = false ∧ s.queue = event :: rest ∧ s' = s.receive event rest) ∨
      (s.flushing = false ∧ s.buffer ≠ [] ∧ s' = s.startFlush) ∨
      (s.flushing = true ∧ s' = { s with buffer := [], flushing := false }) ∨
      s' = { s with senderAlive := false } := by
  cases a with
  | log event =>
    simp only [act] at h
    split at h
    · cases h
    · split at h
      · rename_i hroom
        exact .inr (.inl ⟨event, hroom, (Option.some.inj h).symm⟩)
      · exact .inl (Option.some.inj h).symm
  | recv =>
    simp only [act] at h
    split at h
    · cases h
    · rename_i hidle
      split at h
      · cases h
      · rename_i event rest hqueue
        exact .inr (.inr (.inl ⟨event, rest, Bool.not_eq_true _ ▸ hidle, hqueue,
          (Option.some.inj h).symm⟩))
  | tick =>
    simp only [act] at h
    split at h
    · cases h
    · rename_i hidle
      split at h
      · rename_i hne
        refine .inr (.inr (.inr (.inl ⟨Bool.not_eq_true _ ▸ hidle, ?_, (Option.some.inj h).symm⟩)))
        simpa using hne
      · exact .inl (Option.some.inj h).symm
  | flushed =>
    simp only [act] at h
    split at h
    · rename_i hfl
      exact .inr (.inr (.inr (.inr (.inl ⟨hfl, (Option.some.inj h).symm⟩))))
    · cases h
  | dropSender => exact .inr (.inr (.inr (.inr (.inr (Option.some.inj h).symm))))

/-- Receiving an event keeps the invariant: it moves from the front of the channel to the end of the
buffer, and a buffer that is long enough goes to `flush`. -/
theorem inv_receive {s : QueryLog} {event : QueryEvent} {rest : List QueryEvent} (hinv : s.Inv)
    (hidle : s.flushing = false) (hqueue : s.queue = event :: rest) :
    (s.receive event rest).Inv := by
  have hcap := hinv.capacity
  rw [hqueue, List.length_cons] at hcap
  have hmoved : s.batches.flatten ++ (s.buffer ++ [event]) ++ rest = s.accepted := by
    have hcons := hinv.conserved
    rw [unflushed, hidle, hqueue] at hcons
    simpa using hcons
  unfold receive
  dsimp only
  split
  · refine inv_startFlush hmoved hinv.batches ⟨by simp, ?_⟩ (Nat.le_of_succ_le hcap)
    show (s.buffer ++ [event]).length ≤ max s.bufferSize 1
    rw [List.length_append, List.length_singleton]
    exact hinv.short hidle
  · rename_i hlong
    refine ⟨?_, hinv.batches, ?_, ?_, Nat.le_of_succ_le hcap⟩
    · rw [unflushed]
      simp only [hidle, Bool.false_eq_true, if_false]
      exact hmoved
    · intro hfl
      exact absurd (hidle.symm.trans hfl) (by simp)
    · intro _
      exact Nat.lt_of_lt_of_le (Nat.lt_of_not_le hlong) (Nat.le_max_left _ _)

/-- One step keeps the invariant. -/
theorem act_inv {a : LogAct} {s s' : QueryLog} (hinv : s.Inv) (h : act a s = some s') :
    s'.Inv := by
  have hcons := hinv.conserved
  rcases act_cases h with rfl | ⟨event, hroom, rfl⟩ | ⟨event, rest, hidle, hqueue, rfl⟩ |
    ⟨hidle, hne, rfl⟩ | ⟨hfl, rfl⟩ | rfl
  · exact hinv
  · refine ⟨?_, hinv.batches, hinv.inFlush, hinv.short, ?_⟩
    · show s.batches.flatten ++ s.unflushed ++ (s.queue ++ [event]) = s.accepted ++ [event]
      rw [← List.append_assoc, hcons]
    · show (s.queue ++ [event]).length ≤ channelCapacity
      rw [List.length_append, List.length_singleton]
      exact hroom
  · exact inv_receive hinv hidle hqueue
  · rw [unflushed, hidle] at hcons
    exact inv_startFlush hcons hinv.batches ⟨hne, Nat.le_of_lt (hinv.short hidle)⟩ hinv.capacity
  · refine ⟨?_, hinv.batches, fun h => absurd h (by simp), ?_, hinv.capacity⟩
    · rw [unflushed, hfl] at hcons
      exact hcons
    · intro _
      exact Nat.lt_of_lt_of_le Nat.zero_lt_one (Nat.le_max_right _ _)
  · exact ⟨hcons, hinv.batches, hinv.inFlush, hinv.short, hinv.capacity⟩

theorem act_bufferSize {a : LogAct} {s s' : QueryLog} (h : act a s = some s') :
    s'.bufferSize = s.bufferSize := by
  rcases act_cases h with rfl | ⟨event, -, rfl⟩ | ⟨event, rest, -, -, rfl⟩ | ⟨-, -, rfl⟩ |
    ⟨-, rfl⟩ | rfl
  · rfl
  · rfl
  · unfold receive
    dsimp only
    split <;> rfl
  · rfl
  · rfl
  · rfl

end QueryLog

/-- **The query log loses, repeats and reorders nothing**: after any sequence of steps, the batches
handed to `flush`, then the buffer, then the channel are the accepted events in order. While `flush`
is running the buffer is the batch it was called with. No batch is empty, and none is longer than
the buffer size (or one, for a size of zero). -/
theorem query_log_conserves (bufferSize : Nat) (acts : List LogAct) (s : QueryLog)
    (hrun : runAll QueryLog.act acts (QueryLog.spawn bufferSize) = some s) :
    (s.flushing = false → s.batches.flatten ++ s.buffer ++ s.queue = s.accepted) ∧
      (s.flushing = true →
        s.batches.flatten ++ s.queue = s.accepted ∧ s.batches.getLast? = some s.buffer) ∧
      (∀ b ∈ s.batches, b ≠ [] ∧ b.length ≤ max bufferSize 1) ∧
      s.queue.length ≤ channelCapacity := by
  have hall : s.Inv ∧ s.bufferSize = bufferSize := by
    refine runAll_invariant (I := fun s : QueryLog => s.Inv ∧ s.bufferSize = bufferSize)
      (fun a s s' hs _ h => ⟨QueryLog.act_inv hs.1 h, (QueryLog.act_bufferSize h).trans hs.2⟩)
      ⟨QueryLog.inv_spawn bufferSize, rfl⟩ (Along.of_forall (fun _ _ => trivial) acts _) hrun
  obtain ⟨hinv, rfl⟩ := hall
  have hcons := hinv.conserved
  refine ⟨?_, ?_, hinv.batches, hinv.capacity⟩
  · intro hidle
    rw [QueryLog.unflushed, hidle] at hcons
    exact hcons
  · intro hfl
    rw [QueryLog.unflushed, hfl] at hcons
    simp only [if_true, List.append_nil] at hcons
    exact ⟨hcons, hinv.inFlush hfl⟩

/-- An event of the examples, told apart by its name. -/
def eventNamed (qname : String) : QueryEvent := ⟨0, qname, 1, "192.0.2.1", 0, 1, 5, false, false⟩

/-- Three events through a buffer of two; the third comes while the first two are flushed. -/
def threeEvents : List LogAct :=
  [.log (eventNamed "a"), .log (eventNamed "b"), .recv, .recv, .log (eventNamed "c"), .flushed,
    .dropSender, .recv, .tick]

/-- They are flushed as a batch of two and, at the next tick, a batch of one. -/
theorem query_log_conserves_three :
    ∃ s, runAll QueryLog.act threeEvents (QueryLog.spawn 2) = some s ∧
      s.batches = [[eventNamed "a", eventNamed "b"], [eventNamed "c"]] ∧
      s.batches.flatten ++ s.queue = s.accepted := by
  obtain ⟨s, hs⟩ : ∃ s, runAll QueryLog.act threeEvents (QueryLog.spawn 2) = some s := ⟨_, rfl⟩
  have hconserved := query_log_conserves 2 threeEvents s hs
  obtain rfl := Option.some.inj hs
  exact ⟨_, rfl, rfl, (hconserved.2.1 rfl).1⟩

end Heimdallr
