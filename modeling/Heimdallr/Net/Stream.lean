import Heimdallr.Basic

/-!
# Byte streams

What a task reads from a TCP connection: the bytes the peer sends and what comes after them
(`Ending`: the peer closes, the connection breaks, or nothing more ever comes).

* `peek` and `readExact` follow tokio. How the bytes are cut into segments is seen by `peek` only,
  so it gets the number of bytes that have arrived at that moment as an argument (`visible`); it
  waits for the first byte, and gives what has arrived up to the size of the buffer. `read_exact`
  waits for as many bytes as it was asked for, however they arrive.
* Reading is modelled to its end, so a read that waits for ever is the outcome `pending` of the
  whole computation. Time is not modelled: where the source waits for a limited time, the definition
  that does so says what becomes of a silent stream.
* What was read and what is left always make up the stream (`readExact_ok`), so nothing is read
  twice.

DNS over TCP puts a big-endian 16-bit length before every message (`frame`). A message of 65536
bytes or more has no such frame: `toBeBytes` takes the remainder, as the cast `as u16` does.

* `readExact_append`, `readExact_ok`: bytes that are there are read, and what follows them is left.
* `readExact_pending`: a read waits only on a connection that stays open.
* `readExact_frame`, `fromBeBytes_toBeBytes`: the length read before a message is its length.
-/

namespace Heimdallr.Net

/-- How an operation on a connection comes out. -/
inductive Outcome (ε α : Type)
  | ok (a : α)
  | err (e : ε)
  /-- It waits for bytes that never come. -/
  | pending
  deriving DecidableEq, Repr

namespace Outcome

variable {ε α β : Type}

/-- What comes first, and then what comes of its result. -/
def bind : Outcome ε α → (α → Outcome ε β) → Outcome ε β
  | .ok a, f => f a
  | .err e, _ => .err e
  | .pending, _ => .pending

instance : Monad (Outcome ε) where
  pure := .ok
  bind := Outcome.bind

@[simp] theorem ok_bind (a : α) (f : α → Outcome ε β) : (ok a >>= f) = f a := rfl

theorem bind_eq_ok {x : Outcome ε α} {f : α → Outcome ε β} {b : β} (h : (x >>= f) = .ok b) :
    ∃ a, x = .ok a ∧ f a = .ok b := by
  cases x with
  | ok a => exact ⟨a, rfl, h⟩
  | err e => cases h
  | pending => cases h

/-- `?` on a fallible value. -/
def ofOption (e : ε) : Option α → Outcome ε α
  | some a => .ok a
  | none => .err e

/-- `map_err`, `context`. -/
def mapErr {ε' : Type} (f : ε → ε') : Outcome ε α → Outcome ε' α
  | .ok a => .ok a
  | .err e => .err (f e)
  | .pending => .pending

end Outcome

/-- `std::io::ErrorKind`, as far as the source tells kinds apart. -/
inductive ErrorKind
  | UnexpectedEof
  | Other
  deriving DecidableEq, Repr

/-- What comes after the last byte. -/
inductive Ending
  /-- The peer closes its side. -/
  | closed
  /-- The connection breaks. -/
  | broken
  /-- Nothing: the connection stays open. -/
  | silent
  deriving DecidableEq, Repr

/-- The unread part of what a peer sends. -/
structure Inbound where
  bytes : Bytes
  ending : Ending
  deriving DecidableEq, Repr

namespace Inbound

/-- `TcpStream::peek` into a buffer of `size` bytes when `visible` bytes have arrived: it waits for
the first byte and takes none off the stream. -/
def peek (s : Inbound) (visible size : Nat) : Outcome ErrorKind Bytes :=
  match s.bytes, s.ending with
  | _ :: _, _ => .ok ((s.bytes.take visible).take size)
  | [], .closed => .ok []
  | [], .broken => .err .Other
  | [], .silent => .pending

/-- `AsyncReadExt::read_exact` into a buffer of `n` bytes. -/
def readExact (s : Inbound) (n : Nat) : Outcome ErrorKind (Bytes × Inbound) :=
  if n ≤ s.bytes.length then .ok (s.bytes.take n, { s with bytes := s.bytes.drop n })
  else
    match s.ending with
    | .closed => .err .UnexpectedEof
    | .broken => .err .Other
    | .silent => .pending

theorem readExact_append (a b : Bytes) (e : Ending) :
    (Inbound.mk (a ++ b) e).readExact a.length = .ok (a, ⟨b, e⟩) := by
  simp [readExact]

theorem readExact_of_le {s : Inbound} {n : Nat} (h : n ≤ s.bytes.length) :
    s.readExact n = .ok (s.bytes.take n, ⟨s.bytes.drop n, s.ending⟩) := if_pos h

theorem readExact_of_lt {s : Inbound} {n : Nat} (h : s.bytes.length < n) :
    s.readExact n =
      match s.ending with
      | .closed => .err .UnexpectedEof
      | .broken => .err .Other
      | .silent => .pending := if_neg (Nat.not_le.mpr h)

/-- What was read and what is left make up the stream. -/
theorem readExact_ok {s s' : Inbound} {n : Nat} {buf : Bytes}
    (h : s.readExact n = .ok (buf, s')) :
    s.bytes = buf ++ s'.bytes ∧ buf.length = n ∧ s'.ending = s.ending := by
  unfold readExact at h
  split at h
  · rename_i hn
    obtain ⟨rfl, rfl⟩ := Prod.mk.inj (Outcome.ok.inj h)
    exact ⟨(List.take_append_drop n _).symm, List.length_take_of_le hn, rfl⟩
  · cases he : s.ending <;> rw [he] at h <;> cases h

/-- Only a connection that stays open keeps a reader waiting. -/
theorem readExact_pending {s : Inbound} {n : Nat} (h : s.readExact n = .pending) :
    s.ending = .silent := by
  unfold readExact at h
  split at h
  · cases h
  · cases he : s.ending with
    | silent => rfl
    | closed => rw [he] at h; cases h
    | broken => rw [he] at h; cases h

end Inbound

/-! ## Length-prefixed messages -/

/-- `u16::from_be_bytes`, as `usize`. -/
def fromBeBytes (buf : Bytes) : Nat := buf.foldl (fun n b => n * 256 + b.toNat) 0

/-- `(n as u16).to_be_bytes()`. -/
def toBeBytes (n : Nat) : Bytes := [UInt8.ofNat (n % 65536 / 256), UInt8.ofNat (n % 256)]

theorem fromBeBytes_toBeBytes {n : Nat} (h : n < 65536) : fromBeBytes (toBeBytes n) = n := by
  simp only [fromBeBytes, toBeBytes, List.foldl_cons, List.foldl_nil, UInt8.toNat_ofNat']
  omega

theorem toBeBytes_fromBeBytes {buf : Bytes} (h : buf.length = 2) :
    toBeBytes (fromBeBytes buf) = buf := by
  obtain ⟨a, b, rfl⟩ := List.length_eq_two.mp h
  have ha := a.toNat_lt
  have hb := b.toNat_lt
  have hn : fromBeBytes [a, b] = a.toNat * 256 + b.toNat := by simp [fromBeBytes]
  have hhi : (a.toNat * 256 + b.toNat) % 65536 / 256 = a.toNat := by omega
  have hlo : (a.toNat * 256 + b.toNat) % 256 = b.toNat := by omega
  rw [toBeBytes, hn, hhi, hlo, UInt8.ofNat_toNat, UInt8.ofNat_toNat]

/-- A message as it is written to the connection: `len as u16`, big-endian, then the bytes. -/
def frame (data : Bytes) : Bytes := toBeBytes data.length ++ data

theorem readExact_frame (data rest : Bytes) (e : Ending) :
    (Inbound.mk (frame data ++ rest) e).readExact 2 =
      .ok (toBeBytes data.length, ⟨data ++ rest, e⟩) := by
  rw [frame, List.append_assoc]
  exact Inbound.readExact_append (toBeBytes data.length) (data ++ rest) e

end Heimdallr.Net
