import Heimdallr.Zone.Secondary
import Mathlib.Data.List.TakeWhile

/-!
# Which transfers are accepted

`axfr_records_from_primary` on any stream of bytes: cut anywhere, with empty frames, with records
in any order and with any serials. The stream is read as the responses framed on it
(`responses`), and the transfer on it as the records from the first SOA to the next one
(`transferIn`).

* `responses` takes whole frames off the stream for as long as they are not empty, decode and have
  no error code. How the loop ends behind them is `EndsQuietly`, `Waits`, or an error.
* A transfer is complete when there is a closing SOA with the serial of the opening one. The
  comparison is the one the source makes for its log.
* The loop and `responses` are brought together by induction on the responses, with the records that
  have been collected as what is carried along.

Results:
* `axfrRound_some`, `axfrRound_none`, `received`: the receive loop in terms of the responses on the
  stream.
* `acceptedPart`: the responses after which the loop stops by itself.
* `transferIn_eq_collected_iff`: when what was collected is the transfer.
* **`only_complete_iff`**: when nothing but a complete transfer is accepted.
-/

namespace Heimdallr.Zone

open Heimdallr.Lib Heimdallr.Net

/-! ## What a stream contains -/

/-- The response at the front of the bytes, when it is whole, not empty, decodable and without an
error code, and the bytes after it. -/
def nextResponse (hk : Hickory) (bytes : Bytes) : Option (Message × Bytes) :=
  let msgLen := fromBeBytes (bytes.take 2)
  if 2 ≤ bytes.length ∧ msgLen ≠ 0 ∧ 2 + msgLen ≤ bytes.length then
    match hk.fromVec ((bytes.drop 2).take msgLen) with
    | some response =>
      if response.metadata.responseCode = .NoError then some (response, bytes.drop (2 + msgLen))
      else none
    | none => none
  else none

/-- The responses at the front of the bytes, `n` at most, and the bytes after them. -/
def takeResponses (hk : Hickory) : Nat → Bytes → List Message × Bytes
  | 0, bytes => ([], bytes)
  | n + 1, bytes =>
    match nextResponse hk bytes with
    | some (m, rest) => (m :: (takeResponses hk n rest).1, (takeResponses hk n rest).2)
    | none => ([], bytes)

/-- All responses on the stream, up to the first frame that is none. -/
def responses (hk : Hickory) (bytes : Bytes) : List Message × Bytes :=
  takeResponses hk bytes.length bytes

/-- The records on the stream. -/
def recordsOn (hk : Hickory) (s : Inbound) : List Record :=
  (responses hk s.bytes).1.flatMap Message.answers

/-- The serial of an SOA record. -/
def serialOf (r : Record) : Option UInt32 :=
  match r.data with
  | .SOA soa => some soa.serial
  | _ => none

/-- The complete transfer among the records: the first SOA and what comes before the next one, when
the two have the same serial. -/
def transferIn (rs : List Record) : Option (List Record) :=
  match rs.dropWhile fun r => !isSoa r with
  | [] => none
  | opening :: later =>
    match later.dropWhile fun r => !isSoa r with
    | [] => none
    | closing :: _ =>
      if serialOf opening = serialOf closing then
        some (opening :: later.takeWhile fun r => !isSoa r)
      else none

/-! ## The loop over the responses -/

/-- Where the responses end, the loop stops without an error: at the end of the stream, or at an
empty frame. -/
def EndsQuietly (tail : Inbound) : Prop :=
  (tail.bytes.length < 2 ∧ tail.ending = .closed) ∨
    (2 ≤ tail.bytes.length ∧ fromBeBytes (tail.bytes.take 2) = 0)

instance (tail : Inbound) : Decidable (EndsQuietly tail) := by
  unfold EndsQuietly
  infer_instance

/-- Where the responses end, the loop waits for the rest of a frame. -/
def Waits (tail : Inbound) : Prop :=
  tail.ending = .silent ∧
    (tail.bytes.length < 2 ∨
      fromBeBytes (tail.bytes.take 2) ≠ 0 ∧
        tail.bytes.length < 2 + fromBeBytes (tail.bytes.take 2))

theorem EndsQuietly.not_waits {tail : Inbound} (h : EndsQuietly tail) : ¬ Waits tail := by
  rintro ⟨hsilent, hw⟩
  rcases h with ⟨-, hclosed⟩ | ⟨h2, hzero⟩
  · exact absurd (hclosed.symm.trans hsilent) (by simp)
  · rcases hw with hshort | ⟨hne, -⟩
    · omega
    · exact hne hzero

section Loop

variable {hk : Hickory}

/-- The length of the next frame is read. -/
theorem readExact_length {s : Inbound} (h2 : 2 ≤ s.bytes.length) :
    s.readExact 2 = .ok (s.bytes.take 2, ⟨s.bytes.drop 2, s.ending⟩) :=
  Inbound.readExact_of_le h2

/-- The body of a frame that is there is read. -/
theorem readExact_body {s : Inbound} {n : Nat} (hwhole : 2 + n ≤ s.bytes.length) :
    (Inbound.mk (s.bytes.drop 2) s.ending).readExact n =
      .ok ((s.bytes.drop 2).take n, ⟨s.bytes.drop (2 + n), s.ending⟩) := by
  have hle : n ≤ (s.bytes.drop 2).length := by
    rw [List.length_drop]
    omega
  rw [Inbound.readExact_of_le (s := ⟨s.bytes.drop 2, s.ending⟩) hle, List.drop_drop]

/-- A round that finds a response. -/
theorem axfrRound_some {t : Transfer} {s : Inbound} {m : Message} {rest : Bytes}
    (h : nextResponse hk s.bytes = some (m, rest)) :
    axfrRound hk (t, s) =
      if !m.metadata.truncation && (t.takeAll m.answers).complete then
        .inr (.ok (t.takeAll m.answers).records)
      else .inl (t.takeAll m.answers, { s with bytes := rest }) := by
  unfold nextResponse at h
  dsimp only at h
  split at h
  · rename_i hlen
    obtain ⟨h2, hne, hwhole⟩ := hlen
    split at h
    · rename_i response hdec
      split at h
      · rename_i hrcode
        obtain ⟨rfl, rfl⟩ := Prod.mk.inj (Option.some.inj h)
        simp only [axfrRound, readExact_length h2, if_neg hne, readExact_body hwhole, hdec, hrcode,
          ne_eq, not_true_eq_false, if_false]
      · cases h
    · cases h
  · cases h

/-- No length is left to read. -/
theorem axfrRound_short (hk : Hickory) (t : Transfer) {s : Inbound} (h : s.bytes.length < 2) :
    axfrRound hk (t, s) =
      match s.ending with
      | .closed => .inr (.ok t.records)
      | .broken => .inr (.err .ReadLength)
      | .silent => .inr .pending := by
  simp only [axfrRound, Inbound.readExact_of_lt h]
  cases s.ending <;> rfl

/-- An empty frame. -/
theorem axfrRound_empty {t : Transfer} {s : Inbound} (h2 : 2 ≤ s.bytes.length)
    (hzero : fromBeBytes (s.bytes.take 2) = 0) :
    axfrRound hk (t, s) = .inr (.ok t.records) := by
  simp only [axfrRound, readExact_length h2, if_pos hzero]

/-- A frame that is cut. -/
theorem axfrRound_cut (hk : Hickory) (t : Transfer) {s : Inbound} (h2 : 2 ≤ s.bytes.length)
    (hne : fromBeBytes (s.bytes.take 2) ≠ 0)
    (hcut : s.bytes.length < 2 + fromBeBytes (s.bytes.take 2)) :
    axfrRound hk (t, s) =
      match s.ending with
      | .silent => .inr .pending
      | _ => .inr (.err (.ReadBody (fromBeBytes (s.bytes.take 2)))) := by
  have hlt : (Inbound.mk (s.bytes.drop 2) s.ending).bytes.length <
      fromBeBytes (s.bytes.take 2) := by
    rw [List.length_drop]
    omega
  simp only [axfrRound, readExact_length h2, if_neg hne, Inbound.readExact_of_lt hlt]
  cases s.ending <;> rfl

/-- A frame that is whole and still no response. -/
theorem axfrRound_refused {t : Transfer} {s : Inbound} (h : nextResponse hk s.bytes = none)
    (h2 : 2 ≤ s.bytes.length) (hne : fromBeBytes (s.bytes.take 2) ≠ 0)
    (hwhole : 2 + fromBeBytes (s.bytes.take 2) ≤ s.bytes.length) :
    ∃ e, axfrRound hk (t, s) = .inr (.err e) := by
  unfold nextResponse at h
  dsimp only at h
  rw [if_pos ⟨h2, hne, hwhole⟩] at h
  split at h
  · rename_i response hdec
    split at h
    · cases h
    · rename_i hrcode
      refine ⟨.Failed response.metadata.responseCode, ?_⟩
      simp only [axfrRound, readExact_length h2, if_neg hne, readExact_body hwhole, hdec, ne_eq,
        hrcode, not_false_eq_true, if_true]
  · rename_i hdec
    refine ⟨.ParseResponse, ?_⟩
    simp only [axfrRound, readExact_length h2, if_neg hne, readExact_body hwhole, hdec]

theorem not_waits {s : Inbound} (h : s.ending ≠ .silent) : ¬ Waits s := by
  rintro ⟨hsilent, -⟩
  exact h hsilent

/-- A round that finds no response ends the loop. -/
theorem axfrRound_none {s : Inbound} (h : nextResponse hk s.bytes = none) (t : Transfer) :
    (EndsQuietly s ∧ axfrRound hk (t, s) = .inr (.ok t.records)) ∨
      (Waits s ∧ axfrRound hk (t, s) = .inr .pending) ∨
      (¬ EndsQuietly s ∧ ¬ Waits s ∧ ∃ e, axfrRound hk (t, s) = .inr (.err e)) := by
  by_cases h2 : 2 ≤ s.bytes.length
  · by_cases hzero : fromBeBytes (s.bytes.take 2) = 0
    · exact Or.inl ⟨Or.inr ⟨h2, hzero⟩, axfrRound_empty h2 hzero⟩
    · have hquiet : ¬ EndsQuietly s := by
        rintro (⟨hshort, -⟩ | ⟨-, hz⟩)
        · omega
        · exact hzero hz
      by_cases hwhole : 2 + fromBeBytes (s.bytes.take 2) ≤ s.bytes.length
      · refine Or.inr (Or.inr ⟨hquiet, ?_, axfrRound_refused h h2 hzero hwhole⟩)
        rintro ⟨-, hshort | ⟨-, hcut⟩⟩ <;> omega
      · have hcut : s.bytes.length < 2 + fromBeBytes (s.bytes.take 2) := by omega
        have hround := axfrRound_cut hk t h2 hzero hcut
        cases hend : s.ending with
        | silent =>
          rw [hend] at hround
          exact Or.inr (Or.inl ⟨⟨hend, Or.inr ⟨hzero, hcut⟩⟩, hround⟩)
        | closed =>
          rw [hend] at hround
          exact Or.inr (Or.inr ⟨hquiet, not_waits (by simp [hend]), _, hround⟩)
        | broken =>
          rw [hend] at hround
          exact Or.inr (Or.inr ⟨hquiet, not_waits (by simp [hend]), _, hround⟩)
  · have hshort : s.bytes.length < 2 := by omega
    have hround := axfrRound_short hk t hshort
    cases hend : s.ending with
    | closed =>
      rw [hend] at hround
      exact Or.inl ⟨Or.inl ⟨hshort, hend⟩, hround⟩
    | silent =>
      rw [hend] at hround
      exact Or.inr (Or.inl ⟨⟨hend, Or.inl hshort⟩, hround⟩)
    | broken =>
      rw [hend] at hround
      refine Or.inr (Or.inr ⟨?_, not_waits (by simp [hend]), _, hround⟩)
      rintro (⟨-, hclosed⟩ | ⟨hlong, -⟩)
      · exact absurd (hend.symm.trans hclosed) (by simp)
      · omega

/-- A response takes bytes off the stream. -/
theorem nextResponse_length {bytes rest : Bytes} {m : Message}
    (h : nextResponse hk bytes = some (m, rest)) : rest.length < bytes.length := by
  unfold nextResponse at h
  dsimp only at h
  split at h
  · rename_i hlen
    split at h
    · split at h
      · obtain ⟨-, rfl⟩ := Prod.mk.inj (Option.some.inj h)
        rw [List.length_drop]
        omega
      · cases h
    · cases h
  · cases h

/-- More rounds than bytes change nothing. -/
theorem takeResponses_rounds {n : Nat} {bytes : Bytes} (h : bytes.length ≤ n) :
    takeResponses hk n bytes = responses hk bytes := by
  unfold responses
  induction n using Nat.strong_induction_on generalizing bytes with
  | _ n ih =>
    cases n with
    | zero => rw [Nat.le_zero.mp h]
    | succ n =>
      cases hlen : bytes.length with
      | zero =>
        have hnil : bytes = [] := List.length_eq_zero_iff.mp hlen
        subst hnil
        rfl
      | succ k =>
        rw [takeResponses, takeResponses]
        cases hnext : nextResponse hk bytes with
        | none => rfl
        | some p =>
          obtain ⟨m, rest⟩ := p
          have hlt := nextResponse_length hnext
          dsimp only
          rw [ih n (by omega) (by omega), ih k (by omega) (by omega)]

theorem responses_some {bytes rest : Bytes} {m : Message}
    (h : nextResponse hk bytes = some (m, rest)) :
    responses hk bytes = (m :: (responses hk rest).1, (responses hk rest).2) := by
  have hlt := nextResponse_length h
  obtain ⟨n, hn⟩ : ∃ n, bytes.length = n + 1 := ⟨bytes.length - 1, by omega⟩
  have hrest : takeResponses hk n rest = responses hk rest := takeResponses_rounds (by omega)
  rw [responses, hn, takeResponses, h]
  dsimp only
  rw [hrest]

theorem responses_none {bytes : Bytes} (h : nextResponse hk bytes = none) :
    responses hk bytes = ([], bytes) := by
  unfold responses
  cases bytes.length with
  | zero => rfl
  | succ n => rw [takeResponses, h]

end Loop

/-! ## Where the loop stops -/

/-- The responses after which the loop stops by itself: up to the first that is not truncated and
by which an SOA has come. -/
def acceptedPart : Bool → List Message → Option (List Message)
  | _, [] => none
  | seen, m :: ms =>
    if !m.metadata.truncation && (seen || m.answers.any isSoa) then some [m]
    else (acceptedPart (seen || m.answers.any isSoa) ms).map (m :: ·)

/-- An SOA that was seen has been kept. -/
def Kept (t : Transfer) : Prop :=
  t.sawSoaStart = true → t.records.any (fun r => r.recordType == .SOA) = true

theorem Kept.complete {t : Transfer} (h : Kept t) : t.complete = t.sawSoaStart := by
  unfold Transfer.complete
  cases hsaw : t.sawSoaStart with
  | false => rfl
  | true => rw [h hsaw, Bool.true_and]

theorem take_sawSoaStart (t : Transfer) (r : Record) :
    (t.take r).sawSoaStart = (t.sawSoaStart || isSoa r) := by
  cases hr : isSoa r with
  | false => rw [take_other hr, Bool.or_false]
  | true =>
    cases hsaw : t.sawSoaStart with
    | true => rw [take_soa hsaw hr, hsaw, Bool.true_or]
    | false =>
      obtain ⟨soa, hdata⟩ := isSoa_iff.mp hr
      simp [Transfer.take, hdata, hsaw]

theorem kept_take {t : Transfer} (h : Kept t) (r : Record) : Kept (t.take r) := by
  cases hr : isSoa r with
  | false =>
    rw [take_other hr]
    intro hsaw
    rw [List.any_append, h hsaw, Bool.true_or]
  | true =>
    cases hsaw : t.sawSoaStart with
    | true =>
      rw [take_soa hsaw hr]
      exact h
    | false =>
      obtain ⟨soa, hdata⟩ := isSoa_iff.mp hr
      intro _
      simp [Transfer.take, hdata, hsaw, recordType_of_isSoa hr]

theorem takeAll_append (t : Transfer) (rs rs' : List Record) :
    t.takeAll (rs ++ rs') = (t.takeAll rs).takeAll rs' := List.foldl_append

/-- What the loop carries after the records of some responses. -/
theorem takeAll_seen {t : Transfer} (h : Kept t) (rs : List Record) :
    Kept (t.takeAll rs) ∧ (t.takeAll rs).sawSoaStart = (t.sawSoaStart || rs.any isSoa) := by
  induction rs generalizing t with
  | nil => exact ⟨h, by simp [Transfer.takeAll]⟩
  | cons r rs ih =>
    obtain ⟨hkept, hsaw⟩ := ih (kept_take h r)
    refine ⟨hkept, ?_⟩
    show ((t.take r).takeAll rs).sawSoaStart = _
    rw [hsaw, take_sawSoaStart, List.any_cons, Bool.or_assoc]

/-- How the loop comes out, by the responses on the stream and the bytes after them. -/
structure Received (hk : Hickory) (t : Transfer) (s : Inbound) : Prop where
  stops : ∀ part, acceptedPart t.sawSoaStart (responses hk s.bytes).1 = some part →
    receive hk t s = .ok (t.takeAll (part.flatMap Message.answers)).records
  ends : acceptedPart t.sawSoaStart (responses hk s.bytes).1 = none →
    EndsQuietly ⟨(responses hk s.bytes).2, s.ending⟩ →
    receive hk t s = .ok (t.takeAll (recordsOn hk s)).records
  waits : acceptedPart t.sawSoaStart (responses hk s.bytes).1 = none →
    Waits ⟨(responses hk s.bytes).2, s.ending⟩ → receive hk t s = .pending
  fails : acceptedPart t.sawSoaStart (responses hk s.bytes).1 = none →
    ¬ EndsQuietly ⟨(responses hk s.bytes).2, s.ending⟩ →
    ¬ Waits ⟨(responses hk s.bytes).2, s.ending⟩ → ∃ e, receive hk t s = .err e

/-- A stream without a response. -/
theorem received_none {hk : Hickory} (t : Transfer) {s : Inbound}
    (h : nextResponse hk s.bytes = none) : Received hk t s := by
  have hresp := responses_none h
  have htail : Inbound.mk (responses hk s.bytes).2 s.ending = s := by rw [hresp]
  have hrecords : recordsOn hk s = [] := by rw [recordsOn, hresp]; rfl
  have hpart : acceptedPart t.sawSoaStart (responses hk s.bytes).1 = none := by rw [hresp]; rfl
  rcases axfrRound_none h t with ⟨hquiet, hround⟩ | ⟨hwaits, hround⟩ | ⟨hquiet, hwaits, e, hround⟩
  · refine ⟨by simp [hpart], fun _ _ => ?_, fun _ hw => absurd (htail ▸ hw) hquiet.not_waits,
      fun _ hq => absurd (htail.symm ▸ hquiet) hq⟩
    rw [receive_eq, hround, hrecords]
    rfl
  · have hquiet : ¬ EndsQuietly s := fun hq => hq.not_waits hwaits
    refine ⟨by simp [hpart], fun _ hq => absurd (htail ▸ hq) hquiet, fun _ _ => ?_,
      fun _ _ hw => absurd (htail.symm ▸ hwaits) hw⟩
    rw [receive_eq, hround]
  · refine ⟨by simp [hpart], fun _ hq => absurd (htail ▸ hq) hquiet,
      fun _ hw => absurd (htail ▸ hw) hwaits, fun _ _ _ => ⟨e, ?_⟩⟩
    rw [receive_eq, hround]

theorem received (hk : Hickory) {t : Transfer} (h : Kept t) (s : Inbound) : Received hk t s := by
  induction hn : s.bytes.length using Nat.strong_induction_on generalizing t s with
  | _ n ih =>
    subst hn
    cases hnext : nextResponse hk s.bytes with
    | none => exact received_none t hnext
    | some p =>
      obtain ⟨m, rest⟩ := p
      obtain ⟨hkept, hsaw⟩ := takeAll_seen h m.answers
      have hresp := responses_some hnext
      have hround := axfrRound_some (t := t) hnext
      rw [hkept.complete, hsaw] at hround
      cases hstop : !m.metadata.truncation && (t.sawSoaStart || m.answers.any isSoa) with
      | true =>
        have hpart : acceptedPart t.sawSoaStart (responses hk s.bytes).1 = some [m] := by
          rw [hresp, acceptedPart, if_pos hstop]
        rw [hstop, if_pos rfl] at hround
        refine ⟨fun part hp => ?_, by simp [hpart], by simp [hpart], by simp [hpart]⟩
        obtain rfl := Option.some.inj (hpart.symm.trans hp)
        rw [receive_eq, hround, List.flatMap_singleton]
      | false =>
        have hpart : acceptedPart t.sawSoaStart (responses hk s.bytes).1 =
            (acceptedPart (t.takeAll m.answers).sawSoaStart (responses hk rest).1).map
              (m :: ·) := by
          rw [hresp, acceptedPart, if_neg (by simp [hstop]), hsaw]
        have hrecords : recordsOn hk s = m.answers ++ recordsOn hk ⟨rest, s.ending⟩ := by
          rw [recordsOn, hresp]
          rfl
        have htail : (responses hk s.bytes).2 = (responses hk rest).2 := by rw [hresp]
        have hrecv : receive hk t s = receive hk (t.takeAll m.answers) ⟨rest, s.ending⟩ := by
          rw [receive_eq, hround, hstop]
          rfl
        have hnone : acceptedPart t.sawSoaStart (responses hk s.bytes).1 = none →
            acceptedPart (t.takeAll m.answers).sawSoaStart (responses hk rest).1 = none := by
          intro hp
          rw [hpart] at hp
          exact Option.map_eq_none_iff.mp hp
        obtain ⟨hstops, hends, hwaits, hfails⟩ :=
          ih rest.length (nextResponse_length hnext) hkept ⟨rest, s.ending⟩ rfl
        rw [← hrecv] at hstops hends hwaits hfails
        refine ⟨fun part hp => ?_, fun hp hq => ?_, fun hp hw => ?_, fun hp hq hw => ?_⟩
        · rw [hpart] at hp
          obtain ⟨part', hp', rfl⟩ := Option.map_eq_some_iff.mp hp
          rw [hstops part' hp', List.flatMap_cons, takeAll_append]
        · rw [htail] at hq
          rw [hends (hnone hp) hq, hrecords, takeAll_append]
        · rw [htail] at hw
          exact hwaits (hnone hp) hw
        · rw [htail] at hq hw
          exact hfails (hnone hp) hq hw

/-! ## Complete transfers -/

/-- The records `read` are a transfer and no other record: `all` goes on with the closing SOA, and
where that was read too, nothing but SOAs was read after it. -/
def WholeIn (read all : List Record) : Prop :=
  ∃ opening between closing later, all = opening :: between ++ closing :: later ∧
    isSoa opening = true ∧ isSoa closing = true ∧ serialOf opening = serialOf closing ∧
    (∀ r ∈ between, isSoa r = false) ∧
    (read = opening :: between ∨
      ∃ soas, (∀ r ∈ soas, isSoa r = true) ∧ read = opening :: between ++ closing :: soas)

/-- The transfer among records in which the opening and the closing SOA are marked. -/
theorem transferIn_append {before between later : List Record} {opening closing : Record}
    (hbefore : ∀ r ∈ before, isSoa r = false) (hopening : isSoa opening = true)
    (hbetween : ∀ r ∈ between, isSoa r = false) (hclosing : isSoa closing = true) :
    transferIn (before ++ opening :: (between ++ closing :: later)) =
      if serialOf opening = serialOf closing then some (opening :: between) else none := by
  have hb : ∀ r ∈ before, (!isSoa r) = true := fun r hr => by simp [hbefore r hr]
  have hm : ∀ r ∈ between, (!isSoa r) = true := fun r hr => by simp [hbetween r hr]
  unfold transferIn
  rw [List.dropWhile_append_of_pos hb, List.dropWhile_cons_of_neg (by simp [hopening])]
  dsimp only
  rw [List.dropWhile_append_of_pos hm, List.dropWhile_cons_of_neg (by simp [hclosing]),
    List.takeWhile_append_of_pos hm, List.takeWhile_cons_of_neg (by simp [hclosing]),
    List.append_nil]

/-- The first record that is an SOA, if there is one. -/
theorem split_at_soa (rs : List Record) :
    (∀ r ∈ rs, isSoa r = false) ∨
      ∃ before soa later, rs = before ++ soa :: later ∧ isSoa soa = true ∧
        ∀ r ∈ before, isSoa r = false := by
  induction rs with
  | nil => exact Or.inl (by simp)
  | cons r rs ih =>
    cases hr : isSoa r with
    | true => exact Or.inr ⟨[], r, rs, rfl, hr, by simp⟩
    | false =>
      rcases ih with hnone | ⟨before, soa, later, rfl, hsoa, hbefore⟩
      · left
        rintro x (_ | ⟨_, hx⟩)
        · exact hr
        · exact hnone x hx
      · refine Or.inr ⟨r :: before, soa, later, rfl, hsoa, ?_⟩
        rintro x (_ | ⟨_, hx⟩)
        · exact hr
        · exact hbefore x hx

theorem transferIn_none {rs : List Record} (h : ∀ r ∈ rs, isSoa r = false) :
    transferIn rs = none := by
  unfold transferIn
  rw [List.dropWhile_eq_nil_iff.mpr fun r hr => by simp [h r hr]]

/-- An opening SOA that is never followed by another. -/
theorem transferIn_unclosed {before rs : List Record} {opening : Record}
    (hbefore : ∀ r ∈ before, isSoa r = false) (hopening : isSoa opening = true)
    (hrs : ∀ r ∈ rs, isSoa r = false) : transferIn (before ++ opening :: rs) = none := by
  unfold transferIn
  rw [List.dropWhile_append_of_pos fun r hr => by simp [hbefore r hr],
    List.dropWhile_cons_of_neg (by simp [hopening])]
  dsimp only
  rw [List.dropWhile_eq_nil_iff.mpr fun r hr => by simp [hrs r hr]]

/-- Where a transfer is among the records. -/
theorem transferIn_some {rs transfer : List Record} (h : transferIn rs = some transfer) :
    ∃ before opening between closing later,
      rs = before ++ opening :: (between ++ closing :: later) ∧ transfer = opening :: between ∧
      isSoa opening = true ∧ isSoa closing = true ∧ serialOf opening = serialOf closing ∧
      (∀ r ∈ before, isSoa r = false) ∧ ∀ r ∈ between, isSoa r = false := by
  rcases split_at_soa rs with hnone | ⟨before, opening, rest, rfl, hopening, hbefore⟩
  · rw [transferIn_none hnone] at h
    cases h
  · rcases split_at_soa rest with hnone | ⟨between, closing, later, rfl, hclosing, hbetween⟩
    · rw [transferIn_unclosed hbefore hopening hnone] at h
      cases h
    · rw [transferIn_append hbefore hopening hbetween hclosing] at h
      split at h
      · rename_i hserial
        exact ⟨before, opening, between, closing, later, rfl, (Option.some.inj h).symm, hopening,
          hclosing, hserial, hbefore, hbetween⟩
      · cases h

/-- What is collected of records that begin with an SOA. -/
theorem collected_opening {opening : Record} (h : isSoa opening = true) (rs : List Record) :
    (({} : Transfer).takeAll (opening :: rs)).records =
      opening :: rs.filter fun r => !isSoa r := by
  obtain ⟨soa, hdata⟩ := isSoa_iff.mp h
  rw [takeAll_opening hdata]

/-- What is collected of records that begin with no SOA begins with no SOA. -/
theorem collected_other {r : Record} (h : isSoa r = false) (rs : List Record) :
    ∃ more, (({} : Transfer).takeAll (r :: rs)).records = r :: more := by
  have hgrows : ∀ (rs : List Record) (t : Transfer), ∃ more,
      (t.takeAll rs).records = t.records ++ more := by
    intro rs
    induction rs with
    | nil => intro t; exact ⟨[], by simp [Transfer.takeAll]⟩
    | cons x xs ih =>
      intro t
      obtain ⟨more, hmore⟩ := ih (t.take x)
      obtain ⟨one, hone⟩ : ∃ one, (t.take x).records = t.records ++ one := by
        unfold Transfer.take
        split
        · split
          · exact ⟨[x], rfl⟩
          · exact ⟨[], by simp⟩
        · exact ⟨[x], rfl⟩
      exact ⟨one ++ more, by
        show ((t.take x).takeAll xs).records = _
        rw [hmore, hone, List.append_assoc]⟩
  obtain ⟨more, hmore⟩ := hgrows rs (({} : Transfer).take r)
  refine ⟨more, ?_⟩
  show ((({} : Transfer).take r).takeAll rs).records = _
  rw [hmore, take_other h]
  rfl

/-- What is collected begins with an SOA record only when nothing was read before it. -/
theorem nil_of_collected_soa {read before rest : List Record} {opening : Record}
    {collected : List Record} (hread : read <+: before ++ rest)
    (hbefore : ∀ r ∈ before, isSoa r = false) (hopening : isSoa opening = true)
    (hcollected : (({} : Transfer).takeAll read).records = opening :: collected) : before = [] := by
  cases before with
  | nil => rfl
  | cons b before =>
    have hb : isSoa b = false := hbefore b List.mem_cons_self
    cases read with
    | nil => cases hcollected
    | cons r read =>
      obtain rfl : r = b := (List.cons_prefix_cons.mp hread).1
      obtain ⟨more, hmore⟩ := collected_other hb read
      rw [hmore] at hcollected
      rw [(List.cons.inj hcollected).1, hopening] at hb
      cases hb

/-- A stretch of the stream whose records other than SOA records are those before the closing SOA
ends before it, or has SOA records only from there on. -/
theorem read_of_filter {read between later : List Record} {closing : Record}
    (hread : read <+: between ++ closing :: later) (hbetween : ∀ r ∈ between, isSoa r = false)
    (hfilter : read.filter (fun r => !isSoa r) = between) :
    read = between ∨ ∃ soas, (∀ r ∈ soas, isSoa r = true) ∧ read = between ++ closing :: soas := by
  have hkept : ∀ r ∈ between, (!isSoa r) = true := fun r hr => by simp [hbetween r hr]
  obtain ⟨t, ht⟩ := hread
  rcases List.append_eq_append_iff.mp ht with ⟨rest, rfl, -⟩ | ⟨rest, rfl, hrest⟩
  · -- the reading ended before the closing SOA
    left
    rw [← hfilter, List.filter_eq_self.mpr fun r hr => hkept r (List.mem_append_left _ hr)]
  · rw [List.filter_append, List.filter_eq_self.mpr hkept, List.append_right_eq_self] at hfilter
    cases rest with
    | nil => exact .inl (List.append_nil _)
    | cons c soas =>
      obtain rfl : closing = c := (List.cons.inj hrest).1
      refine .inr ⟨soas, fun x hx => ?_, rfl⟩
      simpa using List.filter_eq_nil_iff.mp hfilter x (List.mem_cons_of_mem _ hx)

/-- **When what was collected is the transfer.** -/
theorem transferIn_eq_collected_iff {read all : List Record} (h : read <+: all) :
    transferIn all = some (({} : Transfer).takeAll read).records ↔ WholeIn read all := by
  constructor
  · intro htr
    obtain ⟨before, opening, between, closing, later, rfl, hcollected, hopening, hclosing, hserial,
      hbefore, hbetween⟩ := transferIn_some htr
    obtain rfl := nil_of_collected_soa h hbefore hopening hcollected
    rcases read with _ | ⟨r, read⟩
    · cases hcollected
    obtain ⟨rfl, hprefix⟩ := List.cons_prefix_cons.mp h
    rw [collected_opening hopening] at hcollected
    refine ⟨r, between, closing, later, rfl, hopening, hclosing, hserial, hbetween, ?_⟩
    rcases read_of_filter hprefix hbetween (List.cons.inj hcollected).2 with rfl | ⟨soas, hsoas, rfl⟩
    · exact .inl rfl
    · exact .inr ⟨soas, hsoas, rfl⟩
  · rintro ⟨opening, between, closing, later, rfl, hopening, hclosing, hserial, hbetween, hread⟩
    have hkeep : between.filter (fun r => !isSoa r) = between :=
      List.filter_eq_self.mpr fun r hr => by simp [hbetween r hr]
    have htr : transferIn (opening :: between ++ closing :: later) = some (opening :: between) := by
      have happ : transferIn ([] ++ opening :: (between ++ closing :: later)) = _ :=
        transferIn_append (List.forall_mem_nil _) hopening hbetween hclosing
      rw [if_pos hserial] at happ
      exact happ
    rw [htr]
    rcases hread with rfl | ⟨soas, hsoas, rfl⟩
    · rw [collected_opening hopening, hkeep]
    · have hdrop : (closing :: soas).filter (fun r => !isSoa r) = [] := by
        rw [List.filter_eq_nil_iff]
        rintro r (_ | ⟨_, hr⟩)
        · simp [hclosing]
        · simp [hsoas r hr]
      rw [List.cons_append, collected_opening hopening, List.filter_append, hkeep, hdrop,
        List.append_nil]

/-! ## Any primary -/

/-- What the primary sends once it has the query; `none` when the query does not get there. -/
def sentBy (hk : Hickory) (connect : SocketAddr → Option Connection) (nanos : Nat)
    (zoneName primaryAddr : String) : Option Inbound := do
  let sockAddr ← parseSocketAddr primaryAddr.toList
  let origin ← hk.fromAscii zoneName
  let stream ← connect sockAddr
  let query ← hk.toVec (axfrQuery nanos origin)
  if stream.writesLength && stream.writesBody then some (stream.sends (frame query)) else none

/-- Once the query is out, the rest is the receive loop. -/
theorem axfrRecordsFromPrimary_eq (hk : Hickory) (connect : SocketAddr → Option Connection)
    (nanos : Nat) (zoneName primaryAddr : String) :
    match sentBy hk connect nanos zoneName primaryAddr with
    | some s => axfrRecordsFromPrimary hk connect nanos zoneName primaryAddr = receive hk {} s
    | none => ∃ e, axfrRecordsFromPrimary hk connect nanos zoneName primaryAddr = .err e := by
  unfold sentBy axfrRecordsFromPrimary
  cases parseSocketAddr primaryAddr.toList with
  | none => exact ⟨_, rfl⟩
  | some sockAddr =>
    cases hk.fromAscii zoneName with
    | none => exact ⟨_, rfl⟩
    | some origin =>
      simp only [Option.bind_eq_bind, Option.bind_some, Outcome.ofOption, Outcome.ok_bind]
      cases connect sockAddr with
      | none => exact ⟨_, rfl⟩
      | some stream =>
        simp only [Option.bind_some, Outcome.ok_bind]
        cases hk.toVec (axfrQuery nanos origin) with
        | none => exact ⟨_, rfl⟩
        | some query =>
          simp only [Option.bind_some, Outcome.ok_bind]
          cases stream.writesLength with
          | false => exact ⟨_, rfl⟩
          | true =>
            cases stream.writesBody with
            | false => exact ⟨_, rfl⟩
            | true => rfl

/-- The records sent by the time the reading ends without an error: with the first response that is
not truncated and by which an SOA has come, or else with the end of the stream or an empty
frame. -/
def readRecords (hk : Hickory) (s : Inbound) : Option (List Record) :=
  match acceptedPart false (responses hk s.bytes).1 with
  | some part => some (part.flatMap Message.answers)
  | none =>
    if EndsQuietly ⟨(responses hk s.bytes).2, s.ending⟩ then some (recordsOn hk s) else none

/-- The reading comes to an end, and if it ends without an error, with a whole transfer. -/
structure ReadsWhole (hk : Hickory) (s : Inbound) : Prop where
  returns : acceptedPart false (responses hk s.bytes).1 = none →
    ¬ Waits ⟨(responses hk s.bytes).2, s.ending⟩
  whole : ∀ read, readRecords hk s = some read → WholeIn read (recordsOn hk s)

/-- A complete transfer is accepted as it is, or there is an error. -/
def OnlyComplete (hk : Hickory) (connect : SocketAddr → Option Connection) (nanos : Nat)
    (zoneName primaryAddr : String) : Prop :=
  (∃ s records, sentBy hk connect nanos zoneName primaryAddr = some s ∧
      axfrRecordsFromPrimary hk connect nanos zoneName primaryAddr = .ok records ∧
      transferIn (recordsOn hk s) = some records) ∨
    ∃ e, axfrRecordsFromPrimary hk connect nanos zoneName primaryAddr = .err e

theorem acceptedPart_isPrefix {seen : Bool} {ms part : List Message}
    (h : acceptedPart seen ms = some part) : part <+: ms := by
  induction ms generalizing seen part with
  | nil => cases h
  | cons m ms ih =>
    rw [acceptedPart] at h
    split at h
    · obtain rfl := Option.some.inj h
      exact List.cons_prefix_cons.mpr ⟨rfl, List.nil_prefix⟩
    · obtain ⟨part', hpart', rfl⟩ := Option.map_eq_some_iff.mp h
      exact List.cons_prefix_cons.mpr ⟨rfl, ih hpart'⟩

theorem readRecords_isPrefix {hk : Hickory} {s : Inbound} {read : List Record}
    (h : readRecords hk s = some read) : read <+: recordsOn hk s := by
  unfold readRecords at h
  split at h
  · rename_i part hpart
    obtain ⟨more, hmore⟩ := acceptedPart_isPrefix hpart
    obtain rfl := Option.some.inj h
    rw [recordsOn, ← hmore, List.flatMap_append]
    exact List.prefix_append _ _
  · split at h
    · obtain rfl := Option.some.inj h
      exact List.prefix_refl _
    · cases h

/-- The loop from its start: what was read is collected, or there is an error, or no end. -/
theorem receive_cases (hk : Hickory) (s : Inbound) :
    (∃ read, readRecords hk s = some read ∧
        (acceptedPart false (responses hk s.bytes).1 = none →
          ¬ Waits ⟨(responses hk s.bytes).2, s.ending⟩) ∧
        receive hk {} s = .ok (({} : Transfer).takeAll read).records) ∨
      (readRecords hk s = none ∧ acceptedPart false (responses hk s.bytes).1 = none ∧
        Waits ⟨(responses hk s.bytes).2, s.ending⟩ ∧ receive hk {} s = .pending) ∨
      readRecords hk s = none ∧ ¬ Waits ⟨(responses hk s.bytes).2, s.ending⟩ ∧
        ∃ e, receive hk {} s = .err e := by
  have hkept : Kept {} := fun h => by cases h
  obtain ⟨hstops, hends, hwaits, hfails⟩ := received hk hkept s
  cases hpart : acceptedPart false (responses hk s.bytes).1 with
  | some part =>
    refine Or.inl ⟨part.flatMap Message.answers, ?_, by simp, hstops part hpart⟩
    rw [readRecords, hpart]
  | none =>
    by_cases hquiet : EndsQuietly ⟨(responses hk s.bytes).2, s.ending⟩
    · refine Or.inl ⟨recordsOn hk s, ?_, fun _ => hquiet.not_waits, hends hpart hquiet⟩
      rw [readRecords, hpart]
      exact if_pos hquiet
    · have hnone : readRecords hk s = none := by
        rw [readRecords, hpart]
        exact if_neg hquiet
      by_cases hw : Waits ⟨(responses hk s.bytes).2, s.ending⟩
      · exact Or.inr (Or.inl ⟨hnone, rfl, hw, hwaits hpart hw⟩)
      · exact Or.inr (Or.inr ⟨hnone, hw, hfails hpart hquiet hw⟩)

/-- **When nothing but a complete transfer is accepted**, for any stream of any primary. -/
theorem only_complete_iff (hk : Hickory) (connect : SocketAddr → Option Connection) (nanos : Nat)
    (zoneName primaryAddr : String) :
    OnlyComplete hk connect nanos zoneName primaryAddr ↔
      ∀ s, sentBy hk connect nanos zoneName primaryAddr = some s → ReadsWhole hk s := by
  have heq := axfrRecordsFromPrimary_eq hk connect nanos zoneName primaryAddr
  unfold OnlyComplete
  cases hsent : sentBy hk connect nanos zoneName primaryAddr with
  | none =>
    rw [hsent] at heq
    exact iff_of_true (Or.inr heq) (by simp)
  | some s =>
    rw [hsent] at heq
    dsimp only at heq
    rw [heq]
    simp only [Option.some.injEq, forall_eq']
    rcases receive_cases hk s with ⟨read, hread, hreturns, hok⟩ |
      ⟨-, hnone, hw, hpending⟩ | ⟨hread, hw, e, herr⟩
    · have hiff := transferIn_eq_collected_iff (readRecords_isPrefix hread)
      rw [hok]
      constructor
      · rintro (⟨s', records, rfl, hrec, htr⟩ | ⟨e, herr⟩)
        · rw [← Outcome.ok.inj hrec] at htr
          refine ⟨hreturns, fun read' hread' => ?_⟩
          obtain rfl := Option.some.inj (hread.symm.trans hread')
          exact hiff.mp htr
        · cases herr
      · intro hwhole
        exact Or.inl ⟨s, _, rfl, rfl, hiff.mpr (hwhole.whole read hread)⟩
    · rw [hpending]
      constructor
      · rintro (⟨s', records, -, hrec, -⟩ | ⟨e, herr⟩)
        · cases hrec
        · cases herr
      · intro hwhole
        exact absurd hw (hwhole.returns hnone)
    · rw [herr]
      refine iff_of_true (Or.inr ⟨e, rfl⟩) ⟨fun _ => hw, ?_⟩
      intro read hread'
      rw [hread] at hread'
      cases hread'

/-- A primary that closes the connection at once: an empty zone is accepted. -/
theorem nothing_sent_accepted :
    axfrRecordsFromPrimary axfrCodec (primarySending []) 42 "example.test." "192.0.2.53:53" =
        .ok [] ∧
      ¬ OnlyComplete axfrCodec (primarySending []) 42 "example.test." "192.0.2.53:53" := by
  have hok : axfrRecordsFromPrimary axfrCodec (primarySending []) 42 "example.test."
      "192.0.2.53:53" = .ok [] := by decide
  refine ⟨hok, ?_⟩
  rintro (⟨s, records, hs, hrec, htr⟩ | ⟨e, herr⟩)
  · rw [hok] at hrec
    obtain rfl := Outcome.ok.inj hrec
    obtain ⟨before, opening, between, closing, later, -, hnil, -⟩ := transferIn_some htr
    cases hnil
  · rw [hok] at herr
    cases herr

end Heimdallr.Zone
