import Heimdallr.Core.Persist
import Heimdallr.Resolver.System

/-!
# The TTLs of answers from the cache

An answer is stored as a message, with the smallest TTL of its records beside it; `ttl_remaining`
counts the latter down. The hit path decodes the message and returns its records. It does not
combine the two, so a client gets the TTLs upstream gave, however old the entry is.

* The TTLs a client should get are the stored ones less the whole seconds since the insertion.
* The statement is about runs: the task that answers found the entry itself, whichever task stored
  it, and the time in between is that of the clock of the system.

Results:
* `run_servesHits`: in every run, a task that finds an entry it can answer from returns the records
  of the stored message.
* `ttls_count_down_iff`: these records' TTLs have counted down exactly when the entry is less than
  a second old, or has no records.
-/

namespace Heimdallr.Resolver

open Lib CacheForwardAuthority

/-! ## What a hit returns -/

/-- The task returns `a`; all it may still do is to spawn a prefetch. -/
inductive Returns {α : Type} (a : α) : Task α → Prop
  | now : Returns a (.ret a)
  | spawning (name : LowerName) (rtype : RecordType) :
      Returns a (.call (.spawnPrefetch name rtype) fun _ => .ret a)

/-- After a lookup that finds a message it can answer from, the task returns what `result` makes of
the answers of the message. -/
def ServesHits {α : Type} (hk : Hickory) (request : Request) (result : Answer → α) :
    (op : Op) → (op.Ans → Task α) → Prop
  | .lookup _, k => ∀ hit due msg, hk.fromVec hit.bytes = some msg →
      (∀ name, request = .query name .ANY → msg.answers ≠ []) →
      Returns (result (.ok msg.answers)) (k (some (hit, due)))
  | _, _ => True

section Stages

variable {α β : Type} {C : (op : Op) → (op.Ans → Task α) → Prop}

/-- A stage that only asks upstream. -/
theorem everywhere_lift (hC : ∀ o k, C (.net o) k) (p : Net β) {f : β → Task α}
    (hf : ∀ a, (f a).Everywhere C) : (p.lift >>= f).Everywhere C := by
  refine Prog.everywhere_bind ?_ hf
  unfold Net.lift
  refine Prog.everywhere_embed ?_ _
  exact fun o k => hC o _

theorem everywhere_storeAnswer {D : (op : Op) → (op.Ans → Task Unit) → Prop}
    (hD : ∀ key bytes ttl k, D (.insert key bytes ttl) k) (hk : Hickory) (key : CacheKey)
    (records : List Record) : (storeAnswer hk key records).Everywhere D := by
  unfold storeAnswer
  cases hk.toVec (cacheMessage records) with
  | none => exact trivial
  | some bytes => exact ⟨hD key bytes _ _, fun _ => trivial⟩

theorem everywhere_store (hC : ∀ key bytes ttl k, C (.insert key bytes ttl) k) {hk : Hickory}
    {key : CacheKey} {records : List Record} {f : Unit → Task α}
    (hf : ∀ a, (f a).Everywhere C) : (storeAnswer hk key records >>= f).Everywhere C := by
  refine Prog.everywhere_bind ?_ hf
  exact everywhere_storeAnswer (fun key bytes ttl k => hC key bytes ttl _) hk key records

end Stages

section Tasks

variable {hk : Hickory} {request : Request}

theorem servesHits_missPath (self : CacheForwardAuthority) (key : CacheKey) (name : LowerName)
    (rtype : RecordType) :
    (self.missPath hk key name rtype).Everywhere (ServesHits hk request id) := by
  refine everywhere_lift (fun _ _ => trivial) _ fun asm => ?_
  cases asm with
  | error e => exact trivial
  | ok a =>
    refine everywhere_store (fun _ _ _ _ => trivial) fun _ => ?_
    exact everywhere_lift (fun _ _ => trivial) _ fun _ => trivial

theorem servesHits_anyLoop (name : LowerName) (types : List RecordType) :
    (anyLoop hk name types).Everywhere (ServesHits hk (.query name .ANY) id) := by
  induction types with
  | nil => exact trivial
  | cons rtype rest ih =>
    rw [anyLoop]
    refine Prog.everywhere_perform ?_ fun found => ?_
    · intro hit due msg hdec hany
      have hne := hany name rfl
      dsimp only
      have hcached : cachedAnswers hk (some (hit, due)) = some msg.answers := by
        simp [cachedAnswers, hdec]
      rw [hcached]
      cases hans : msg.answers with
      | nil => exact absurd hans hne
      | cons r records => exact .now
    · split
      · exact trivial
      · refine everywhere_lift (fun _ _ => trivial) _ fun reply => ?_
        split
        · exact everywhere_store (fun _ _ _ _ => trivial) fun _ => trivial
        · exact ih

/-- What a lookup of a query does with the bytes it found. -/
theorem servesHits_decoded (self : CacheForwardAuthority) (key : CacheKey) (name : LowerName)
    (rtype : RecordType) (bytes : Bytes) :
    Prog.Everywhere (ServesHits hk (.query name rtype) id)
      (match hk.fromVec bytes with
      | some msg => return .ok msg.answers
      | none => self.missPath hk key name rtype) := by
  cases hk.fromVec bytes with
  | none => exact servesHits_missPath self _ name rtype
  | some msg => exact trivial

/-- Every lookup of a query ends with the answers it finds. -/
theorem servesHits_lookup (self : CacheForwardAuthority) (name : LowerName) (rtype : RecordType)
    (info : Option RequestInfo) :
    (self.lookup hk name rtype info).Everywhere (ServesHits hk (.query name rtype) id) := by
  unfold lookup
  by_cases hany : rtype = .ANY
  · subst hany
    rw [if_pos rfl]
    exact servesHits_anyLoop name _
  · rw [if_neg hany]
    refine Prog.everywhere_perform ?_ fun found => ?_
    · intro hit due msg hdec _
      cases due with
      | false =>
        dsimp only
        rw [if_neg Bool.false_ne_true, hdec]
        exact .now
      | true =>
        dsimp only
        rw [if_pos rfl, hdec]
        exact .spawning name rtype
    · cases found with
      | none => exact servesHits_missPath self _ name rtype
      | some found =>
        obtain ⟨hit, due⟩ := found
        cases due with
        | false => exact servesHits_decoded self _ name rtype hit.bytes
        | true => exact ⟨trivial, fun _ => servesHits_decoded self _ name rtype hit.bytes⟩

end Tasks

/-! ## Runs -/

/-- Every task of the pool answers with what it finds. -/
def System.ServesAll (hk : Hickory) (P : System) : Prop :=
  ∀ t ∈ P.tasks, t.2.Everywhere (ServesHits hk t.1.request some)

theorem handle_request (o : Op) (l : Local) (s : Shared) :
    (handle o l s).2.1.request = l.request := by
  cases o with
  | net o => cases o <;> rfl
  | lookup key =>
    cases hres : s.cache.entryAt key with
    | none => rw [handle_lookup_none hres]
    | some e => rw [handle_lookup_some hres]
  | insert key bytes ttl => rfl
  | spawnPrefetch name rtype => rfl

/-- The answer of a hit, as the outcome of a query. -/
theorem Returns.outcome {answer : Answer} {t : Task Answer} (h : Returns answer t) :
    Returns (some answer) (t >>= fun a => (return some a : Task Outcome)) := by
  cases h with
  | now => exact .now
  | spawning name rtype => exact .spawning name rtype

theorem servesHits_queryTask (self : CacheForwardAuthority) (hk : Hickory) (name : LowerName)
    (rtype : RecordType) (info : Option RequestInfo) (u : Upstream) :
    (queryTask self hk name rtype info u).2.Everywhere
      (ServesHits hk (queryTask self hk name rtype info u).1.request some) := by
  refine Prog.everywhere_bind ?_ fun _ => trivial
  refine (servesHits_lookup self name rtype info).mono ?_
  intro op k hop
  cases op with
  | lookup key =>
    intro hit due msg hdec hany
    exact (hop hit due msg hdec hany).outcome
  | net o => exact trivial
  | insert key bytes ttl => exact trivial
  | spawnPrefetch name rtype => exact trivial

/-- A prefetch looks nothing up. -/
theorem servesHits_prefetchTask (hk : Hickory) (name : LowerName) (rtype : RecordType)
    (u : Upstream) :
    (prefetchTask hk name rtype u).2.Everywhere
      (ServesHits hk (prefetchTask hk name rtype u).1.request some) := by
  refine Prog.everywhere_bind ?_ fun _ => trivial
  refine everywhere_lift (fun _ _ => trivial) _ fun reply => ?_
  cases reply with
  | error e => exact trivial
  | ok records => exact everywhere_storeAnswer (fun _ _ _ _ => trivial) hk _ records

theorem servesAll_act {self : CacheForwardAuthority} {hk : Hickory} (a : Act) (P P' : System)
    (hP : P.ServesAll hk) (h : act self hk a P = some P') : P'.ServesAll hk := by
  have hstart : ∀ {t : Local × Task Outcome}, t.2.Everywhere (ServesHits hk t.1.request some) →
      ∀ {Q : System}, Q.ServesAll hk → System.ServesAll hk (Q.start t) := by
    intro t ht Q hQ u hu
    rcases List.mem_append.mp hu with hu | hu
    · exact hQ u hu
    · rw [List.mem_singleton.mp hu]
      exact ht
  cases a with
  | query name rtype info u =>
    obtain rfl := Option.some.inj h
    exact hstart (servesHits_queryTask self hk name rtype info u) hP
  | prefetch j u =>
    obtain ⟨name, rtype, -, rfl⟩ := act_prefetch h
    exact hstart (servesHits_prefetchTask hk name rtype u) hP
  | task i =>
    obtain ⟨l, o, k, ht, rfl⟩ := Pool.step_eq h
    have hold := hP _ (List.mem_of_getElem? ht)
    intro u hu
    rcases List.mem_or_eq_of_mem_set hu with hu | rfl
    · exact hP u hu
    · show Prog.Everywhere (ServesHits hk (handle o l P.shared).2.1.request some) _
      rw [handle_request]
      exact hold.2 _
  | tick d =>
    obtain rfl := Option.some.inj h
    exact hP
  | insert key bytes ttl =>
    obtain rfl := Option.some.inj h
    exact hP

/-- **Every run**: a task about to look a key up returns the records it finds. -/
theorem run_servesHits {self : CacheForwardAuthority} {hk : Hickory} {c : CacheSection}
    {hsize : 1 ≤ c.size} {acts : List Act} {P : System}
    (hrun : runAll (act self hk) acts (System.initial c hsize) = some P) : P.ServesAll hk := by
  have hstart : (System.initial c hsize).ServesAll hk := fun t ht => absurd ht List.not_mem_nil
  exact runAll_invariant (fun a P P' hP _ h => servesAll_act a P P' hP h) hstart
    (Along.of_forall (fun _ _ => trivial) acts _) hrun

/-! ## Counting down -/

/-- The entry holds these records, as `lookup`, a prefetch or `lookup_any` stores an answer. -/
def StoredFrom (hk : Hickory) (e : CacheEntry) (records : List Record) : Prop :=
  hk.toVec (cacheMessage records) = some e.responseBytes ∧ e.originalTtl = minTtl records

/-- Record by record, the TTL served is at most the TTL stored less the seconds gone by. -/
def CountedDown (stored served : List Record) (secs : Nat) : Prop :=
  List.Forall₂ (fun r s => s.ttl.toNat + secs ≤ r.ttl.toNat) stored served

theorem countedDown_qualified_iff (records : List Record) (secs : Nat) :
    CountedDown records (records.map Record.qualified) secs ↔ records = [] ∨ secs = 0 := by
  unfold CountedDown
  rw [List.forall₂_map_right_iff]
  cases records with
  | nil => simp
  | cons r records =>
    constructor
    · intro h
      obtain ⟨hr, -⟩ := List.forall₂_cons.mp h
      have hkeep : (Record.qualified r).ttl = r.ttl := rfl
      rw [hkeep] at hr
      exact Or.inr (by omega)
    · rintro (h | rfl)
      · exact absurd h (by simp)
      · exact List.forall₂_same.mpr fun x _ => Nat.le_refl _

/-- **The TTLs of a hit**: in every run, a task that looks up a key under which an answer was
stored, and answers from it, returns records whose TTLs have counted down exactly when there are
none or the entry is less than a second old. -/
theorem ttls_count_down_iff (self : CacheForwardAuthority) (hk : Hickory) (hrt : hk.RoundTrips)
    (c : CacheSection) (hsize : 1 ≤ c.size) (acts : List Act) (P : System)
    (hrun : runAll (act self hk) acts (System.initial c hsize) = some P)
    (i : Nat) (l : Local) (key : CacheKey) (k : Option (Hit × Bool) → Task Outcome)
    (ht : P.tasks[i]? = some (l, .call (.lookup key) k)) (e : CacheEntry)
    (he : P.shared.cache.entryAt key = some e) (records : List Record)
    (hstored : StoredFrom hk e records) (hserved : AnswersFrom hk l.request e) :
    ∃ served, Returns (some (.ok served)) (k (handle (.lookup key) l P.shared).1) ∧
      (CountedDown records served (e.elapsed P.shared.now).asSecs ↔
        records = [] ∨ e.elapsed P.shared.now < Duration.fromSecs 1) := by
  obtain ⟨msg, hdec, hany⟩ := hserved
  have hmsg : msg.answers = records.map Record.qualified := by
    rw [hrt _ _ hstored.1] at hdec
    rw [← Option.some.inj hdec]
    rfl
  have hserves := (run_servesHits hrun _ (List.mem_of_getElem? ht)).1
  refine ⟨msg.answers, ?_, ?_⟩
  · rw [handle_lookup_some he]
    exact hserves _ _ msg hdec hany
  · rw [hmsg, countedDown_qualified_iff]
    refine or_congr_right ?_
    unfold Duration.asSecs Duration.fromSecs
    exact Nat.div_eq_zero_iff_lt (by decide)

/-- A query, and the same query some time later, about to look its key up. -/
def askedAgain (d : Duration) : List Act :=
  [.query wwwExample .A none (fixed apexAlsoAnswers), .task 0, .task 0, .task 0, .tick d,
    .query wwwExample .A none (fixed apexAlsoAnswers)]

/-- The entry the first query leaves. -/
def wwwEntry : CacheEntry := ⟨wwwWire, 0, Duration.fromSecs 300, 0, 0⟩

theorem wwwEntry_stored : StoredFrom wwwCodec wwwEntry [wwwRecord] := ⟨rfl, rfl⟩

theorem wwwEntry_answers (request : Request) : AnswersFrom wwwCodec request wwwEntry :=
  ⟨cacheMessage [wwwRecord], rfl, fun _ _ => by simp [cacheMessage]⟩

/-- Half a second later the TTLs are still right. -/
theorem ttls_right_at_once :
    ∃ P l k served, runAll (act CacheForwardAuthority.default wwwCodec) (askedAgain 500000000)
        (System.initial CacheSection.default (by decide)) = some P ∧
      P.tasks[1]? = some (l, .call (.lookup wwwKey) k) ∧
      Returns (some (.ok served)) (k (handle (.lookup wwwKey) l P.shared).1) ∧
      CountedDown [wwwRecord] served (wwwEntry.elapsed P.shared.now).asSecs := by
  obtain ⟨P, hP⟩ : ∃ P, runAll (act CacheForwardAuthority.default wwwCodec)
      (askedAgain 500000000) (System.initial CacheSection.default (by decide)) = some P := ⟨_, rfl⟩
  have hrt : wwwCodec.RoundTrips := Hickory.roundTrips_knowing (by decide)
  obtain ⟨l, k, ht⟩ : ∃ l k, P.tasks[1]? = some (l, .call (.lookup wwwKey) k) := by
    obtain rfl := Option.some.inj hP
    exact ⟨_, _, rfl⟩
  have he : P.shared.cache.entryAt wwwKey = some wwwEntry := by
    obtain rfl := Option.some.inj hP
    rfl
  have hnow : wwwEntry.elapsed P.shared.now < Duration.fromSecs 1 := by
    obtain rfl := Option.some.inj hP
    decide
  obtain ⟨served, hret, hiff⟩ := ttls_count_down_iff _ _ hrt _ _ _ P hP 1 l wwwKey k ht wwwEntry he
    [wwwRecord] wwwEntry_stored (wwwEntry_answers _)
  exact ⟨P, l, k, served, hP, ht, hret, hiff.mpr (Or.inr hnow)⟩

/-- Ten seconds later, with the entry not expired, the record is served with all of its 300 s. -/
theorem ttls_not_counted_down :
    ∃ P l k, runAll (act CacheForwardAuthority.default wwwCodec)
        (askedAgain (Duration.fromSecs 10)) (System.initial CacheSection.default (by decide)) =
          some P ∧
      P.tasks[1]? = some (l, .call (.lookup wwwKey) k) ∧
      P.shared.cache.entryAt wwwKey = some wwwEntry ∧ StoredFrom wwwCodec wwwEntry [wwwRecord] ∧
      wwwEntry.isExpired P.shared.now = false ∧
      Returns (some (.ok [wwwRecord])) (k (handle (.lookup wwwKey) l P.shared).1) ∧
      ¬ CountedDown [wwwRecord] [wwwRecord] (wwwEntry.elapsed P.shared.now).asSecs := by
  refine ⟨_, _, _, rfl, rfl, rfl, wwwEntry_stored, rfl, .now, ?_⟩
  intro h
  exact absurd (List.forall₂_cons.mp h).1 (by decide)

end Heimdallr.Resolver
