import Heimdallr.Net.Startup
import Heimdallr.Resolver.Provenance

/-!
# Answers across restarts

The server runs, is restarted from the snapshot of its cache, perhaps with another configuration,
and runs again. `Lived` are the systems it can come to; it keeps a list of the tasks of the earlier
processes, which is what an answer can be traced to.

* A process is a `System` of `Resolver.System` that begins with the loaded cache, or with an empty
  one when nothing is loaded. A restart is the one of `Net.Startup`, at any moment: tasks that were
  running are gone, and what they have stored by then is in the snapshot.
* The upstream of a task may give other replies to the same question later on. `cache_transparent`
  is for one that does not; it then asks for a configuration under which the replies are handed on
  as they are (`Plain`), since a cached answer cannot be told from a fresh one otherwise.
* The wire codec round-trips, as everywhere; the snapshot is read back by serde_json.

Results:
* **`answer_provenance`**: an answer is the task's own, or what a task of this or an earlier process
  stored under a key of the question.
* **`cache_transparent`**: with an upstream that always gives the same replies, no interleaving and
  no restart makes the cache answer anything else.
-/

namespace Heimdallr.Net

open Lib Heimdallr.Resolver CacheForwardAuthority

/-! ## Processes -/

/-- A task that was started: the forwarder of its process, its request and the replies to it. -/
structure Deed where
  self : CacheForwardAuthority
  request : Request
  upstream : Upstream

/-- The task may have stored these records under the key. -/
def Deed.Stores (hk : Hickory) (d : Deed) (key : CacheKey) (records : List Record) : Prop :=
  (key, records) ∈ d.self.stores hk d.request d.upstream

/-- The tasks of a process. -/
def deeds (self : CacheForwardAuthority) (P : System) : List Deed :=
  P.started.map fun x => ⟨self, x.1, x.2⟩

/-- A process that begins with this cache. -/
def System.begun (cache : LiveCache) (now : Instant) : System :=
  ⟨[], ⟨cache, now, fun _ => 0, [], []⟩⟩

/-- The server has come to this system, with this forwarder, after the tasks of earlier processes.
Nothing is inserted into the cache from outside, other than by loading it. -/
inductive Lived (json : Json) (hk : Hickory) : List Deed → CacheForwardAuthority → System → Prop
  /-- nothing was loaded -/
  | boot (self : CacheForwardAuthority) (c : CacheSection) (h : 1 ≤ c.size) :
      Lived json hk [] self (System.initial c h)
  | act {past : List Deed} {self : CacheForwardAuthority} {P P' : System} {a : Act}
      (hlived : Lived json hk past self P)
      (hinside : ∀ key bytes ttl, a ≠ .insert key bytes ttl)
      (hact : Resolver.act self hk a P = some P') : Lived json hk past self P'
  /-- the cache is saved, and another process loads it -/
  | restart {past : List Deed} {self self' : CacheForwardAuthority} {P : System} {c : LiveCache}
      {now : Instant} (hlived : Lived json hk past self P)
      (hload : Restart json P.shared.cache c) :
      Lived json hk (past ++ deeds self P) self' (System.begun c now)

variable {json : Json} {hk : Hickory}

/-- A run of one process. -/
theorem lived_run {past : List Deed} {self : CacheForwardAuthority} {P P' : System} {acts : List Act}
    (hlived : Lived json hk past self P)
    (hinside : ∀ a ∈ acts, ∀ key bytes ttl, a ≠ .insert key bytes ttl)
    (hrun : runAll (act self hk) acts P = some P') : Lived json hk past self P' := by
  induction acts generalizing P with
  | nil =>
    obtain rfl := Option.some.inj hrun
    exact hlived
  | cons a acts ih =>
    obtain ⟨P₁, hP₁, hrest⟩ := runAll_cons hrun
    rw [List.forall_mem_cons] at hinside
    exact ih (hlived.act hinside.1 hP₁) hinside.2 hrest

/-! ## What the cache may hold -/

/-- One of the tasks has stored these bytes under the key. -/
def HeldBy (hk : Hickory) (ds : List Deed) (key : CacheKey) (bytes : Bytes) : Prop :=
  ∃ d ∈ ds, ∃ records, d.Stores hk key records ∧ hk.toVec (cacheMessage records) = some bytes

theorem mayStore_of_mem {ds : List Deed} {d : Deed} (hd : d ∈ ds) :
    MayStore (HeldBy hk ds) hk d.self d.request d.upstream :=
  fun x hx _ henc => ⟨d, hd, x.2, hx, henc⟩

theorem mem_deeds {self : CacheForwardAuthority} {P : System} {x : Request × Upstream}
    (hx : x ∈ P.started) : ⟨self, x.1, x.2⟩ ∈ deeds self P :=
  List.mem_map_of_mem hx

/-- The tasks only become more. -/
theorem deeds_act {self : CacheForwardAuthority} {a : Act} {P P' : System}
    (h : act self hk a P = some P') {d : Deed} (hd : d ∈ deeds self P) : d ∈ deeds self P' := by
  unfold deeds
  rw [started_act h, List.map_append]
  exact List.mem_append_left _ hd

/-- A loaded cache holds what the saved one held. -/
theorem traced_restart (hjson : json.RoundTrips) {Held : CacheKey → Bytes → Prop} {s : Shared}
    {c : LiveCache} (h : Restart json s.cache c) (hs : HoldsOnly Held s) (now : Instant) :
    HoldsOnly Held (System.begun c now).shared := by
  intro key e he
  obtain ⟨loaded, hloaded⟩ := h.entryAt hjson key
  have he' : c.entryAt key = some e := he
  rw [hloaded] at he'
  obtain ⟨e', hsaved, rfl⟩ := Option.map_eq_some_iff.mp he'
  exact hs key e' hsaved

/-- **Everything in the cache was stored by a task**, and every task ends with its own answer or with
one of these. The tasks `ds` are all so far, or more. -/
theorem lived_good (hjson : json.RoundTrips) {past : List Deed} {self : CacheForwardAuthority}
    {P : System} (hlived : Lived json hk past self P) {ds : List Deed}
    (hds : ∀ d ∈ past ++ deeds self P, d ∈ ds) :
    P.Good handle (HoldsOnly (HeldBy hk ds)) (Explained (HeldBy hk ds) hk self) := by
  induction hlived generalizing ds with
  | boot self c h => exact ⟨fun key e he => absurd he (by simp [System.initial, Shared.initial,
      LiveCache.new, LiveCache.entryAt, Cache.new]), fun t ht => absurd ht List.not_mem_nil⟩
  | act hlived hinside hact ih =>
    have hmore := List.forall_mem_append.mp hds
    refine traced_act (ih fun d hd => ?_) (fun x hx => ?_) hinside hact
    · rcases List.mem_append.mp hd with hd | hd
      · exact hmore.1 d hd
      · exact hmore.2 d (deeds_act hact hd)
    · exact mayStore_of_mem (hmore.2 _ (mem_deeds hx))
  | restart hlived hload ih =>
    have hall := ih fun d hd => hds d (List.mem_append_left _ hd)
    exact ⟨traced_restart hjson hload hall.1 _, fun t ht => absurd ht List.not_mem_nil⟩

/-- An answer from the cache, as the records that were stored. -/
theorem cachedAnswer_stored (hrt : hk.RoundTrips) {ds : List Deed} {keys : List CacheKey}
    {answer : Answer} (h : CachedAnswer (HeldBy hk ds) hk keys answer) :
    ∃ key ∈ keys, ∃ d ∈ ds, ∃ records, d.Stores hk key records ∧
      answer = .ok (records.map Record.qualified) := by
  obtain ⟨key, hkey, bytes, msg, ⟨d, hd, records, hstores, henc⟩, hdec, rfl⟩ := h
  rw [hrt _ _ henc] at hdec
  obtain rfl := Option.some.inj hdec
  exact ⟨key, hkey, d, hd, records, hstores, rfl⟩

/-- **Provenance.** Whatever queries and prefetches did in between each other, in this process and
in those before it: what the cache holds under a key was stored there by a task, and every answer is
the one its task gets by itself, or what a task stored under a key of the question. -/
theorem answer_provenance (hjson : json.RoundTrips) (hrt : hk.RoundTrips) {past : List Deed}
    {self : CacheForwardAuthority} {P : System} (hlived : Lived json hk past self P) :
    (∀ key e, P.shared.cache.entryAt key = some e →
      ∃ d ∈ past ++ deeds self P, ∃ records, d.Stores hk key records ∧
        hk.toVec (cacheMessage records) = some e.responseBytes) ∧
    ∀ l answer name rtype, (l, .ret (some answer)) ∈ P.tasks → l.request = .query name rtype →
      answer = self.ownAnswer hk name rtype l.upstream ∨
        ∃ key ∈ keysOf hk name rtype, ∃ d ∈ past ++ deeds self P, ∃ records,
          d.Stores hk key records ∧ answer = .ok (records.map Record.qualified) := by
  have hgood := lived_good hjson hlived fun d hd => hd
  refine ⟨fun key e he => hgood.1 key e he, fun l answer name rtype ht hreq => ?_⟩
  exact (Pool.good_ret hgood ht answer name rtype rfl hreq).imp_right (cachedAnswer_stored hrt)

/-- Two queries a day apart: the second is answered from what the first has stored. -/
theorem answer_provenance_dayLater :
    ∃ P, runAll (act CacheForwardAuthority.default wwwCodec) dayLater
        (System.initial CacheSection.default (by decide)) = some P ∧
      ∀ l answer name rtype, (l, .ret (some answer)) ∈ P.tasks → l.request = .query name rtype →
        answer = CacheForwardAuthority.default.ownAnswer wwwCodec name rtype l.upstream ∨
          ∃ key ∈ keysOf wwwCodec name rtype,
            ∃ d ∈ [] ++ deeds CacheForwardAuthority.default P, ∃ records,
              d.Stores wwwCodec key records ∧ answer = .ok (records.map Record.qualified) := by
  have hpossible : (runAll (act CacheForwardAuthority.default wwwCodec) dayLater
      (System.initial CacheSection.default (by decide))).isSome = true := rfl
  obtain ⟨P, hP⟩ := Option.isSome_iff_exists.mp hpossible
  have hlived : Lived exampleJson wwwCodec [] CacheForwardAuthority.default P :=
    lived_run (.boot _ CacheSection.default (by decide)) (by simp [dayLater]) hP
  exact ⟨P, hP, (answer_provenance (Json.roundTrips_knowing _ _)
    (Hickory.roundTrips_knowing (by decide)) hlived).2⟩

/-! ## An upstream that never changes its mind -/

section Transparent

variable {f : Name → RecordType → Reply}

/-- The upstream cannot tell two questions of one key apart. -/
def KeyedReplies (hk : Hickory) (f : Name → RecordType → Reply) : Prop :=
  ∀ name name' rtype rtype', keyOf hk name rtype = keyOf hk name' rtype' →
    f (fwdName name) rtype = f (fwdName name') rtype'

/-- The forwarder hands the replies of `f` on as they are: minimization gets what the plain question
gets, DNS64 has nothing to add, no chain is too long and no DNAME is to be substituted. -/
structure Plain (f : Name → RecordType → Reply) (auth : CacheForwardAuthority) : Prop where
  forwards : ∀ fwd rtype, auth.resolved (fixed f) fwd rtype 0 = f fwd rtype
  no64 : ∀ fwd rtype records, f fwd rtype = .ok records → auth.dns64Wanted rtype records = none
  short : ∀ fwd rtype records, f fwd rtype = .ok records → auth.filter.chainTooLong records = false
  noDname : ∀ fwd rtype records, f fwd rtype = .ok records → ∀ r ∈ records, ∀ dname,
    r.data ≠ .ANAME dname

/-- The answer says what the reply says: its error, or its records up to their TTLs. -/
def AnswerMatches : Reply → Answer → Prop
  | .error e, answer => answer = .error (.Net e)
  | .ok records, answer => ∃ records', answer = .ok records' ∧ SameRecords records records'

/-- What a plain forwarder gathers for a reply. -/
theorem assembled_of_plain {self : CacheForwardAuthority} (h : Plain f self) (fwd : Name)
    (rtype : RecordType) (request : Request) :
    self.assembled fwd rtype ⟨request, fixed f, 0⟩ =
      match f fwd rtype with
      | .error e => .error (.Net e)
      | .ok records => .ok ⟨records, [], records⟩ := by
  unfold assembled assembledOf
  rw [h.forwards]
  cases hf : f fwd rtype with
  | error e => rfl
  | ok records =>
    have hnone : self.dns64Of fwd rtype records
        (self.chainedA fwd rtype ⟨request, fixed f, 0⟩) = [] := by
      unfold dns64Of
      rw [h.no64 fwd rtype records hf]
    have hdname : synthesizeDnameCnames records fwd = [] := by
      rw [synthesizeDnameCnames_eq_nil_iff]
      exact fun r hr dname hd => absurd hd (h.noDname fwd rtype records hf r hr dname)
    have hrewritten : rewritten fwd records [] = records := by
      rw [rewritten_eq, List.append_nil, hdname, List.append_nil]
    dsimp only
    rw [hnone, hrewritten, h.short fwd rtype records hf]
    rfl

theorem ownAnswer_plain {self : CacheForwardAuthority} (h : Plain f self) (name : LowerName)
    {rtype : RecordType} (hany : rtype ≠ .ANY) :
    AnswerMatches (f (fwdName name) rtype) (self.ownAnswer hk name rtype (fixed f)) := by
  unfold ownAnswer missAnswer
  rw [if_neg hany, assembled_of_plain h]
  cases f (fwdName name) rtype with
  | error e => exact rfl
  | ok records => exact ⟨records, rfl, rfl⟩

theorem firstReply_fixed {fwd : Name} {types : List RecordType} {i : Nat}
    {x : RecordType × List Record} (h : firstReply (fixed f) fwd types i = some x) :
    f fwd x.1 = .ok x.2 := by
  induction types generalizing i with
  | nil => exact absurd h (by simp [firstReply])
  | cons t rest ih =>
    unfold firstReply at h
    rcases hr : fixed f i fwd t with e | (_ | ⟨r, records⟩)
    · rw [hr] at h
      exact ih h
    · rw [hr] at h
      exact ih h
    · rw [hr] at h
      obtain rfl := Option.some.inj h
      exact hr

/-- What is stored is a reply to a question of the key. -/
theorem stores_plain {d : Deed} (h : Plain f d.self) (hup : d.upstream = fixed f) {key : CacheKey}
    {records : List Record} (hstores : d.Stores hk key records) :
    ∃ name rtype, key = keyOf hk name rtype ∧ f (fwdName name) rtype = .ok records := by
  unfold Deed.Stores at hstores
  rw [hup] at hstores
  obtain ⟨name, rtype, rfl, hfrom⟩ := of_mem_stores hstores
  refine ⟨name, rtype, rfl, ?_⟩
  rcases hfrom with ⟨-, a, -, hasm, rfl⟩ | ⟨types, x, hfirst, rfl⟩ | hreply
  · rw [assembled_of_plain h] at hasm
    cases hf : f (fwdName name) rtype with
    | error e =>
      rw [hf] at hasm
      exact absurd hasm (by simp)
    | ok records =>
      rw [hf] at hasm
      obtain rfl := Except.ok.inj hasm
      rfl
  · exact firstReply_fixed hfirst
  · exact hreply

/-- **The cache is transparent.** When upstream always gives the same replies and every forwarder
hands them on as they are, then in whatever order queries, prefetches and restarts come, every
answer says what upstream says. -/
theorem cache_transparent (hjson : json.RoundTrips) (hrt : hk.RoundTrips) (hkeyed : KeyedReplies hk f)
    {past : List Deed} {self : CacheForwardAuthority} {P : System}
    (hlived : Lived json hk past self P)
    (hplain : ∀ d ∈ past ++ deeds self P, Plain f d.self ∧ d.upstream = fixed f) (l : Local)
    (answer : Answer) (name : LowerName) (rtype : RecordType) (hany : rtype ≠ .ANY)
    (ht : (l, .ret (some answer)) ∈ P.tasks) (hreq : l.request = .query name rtype) :
    AnswerMatches (f (fwdName name) rtype) answer := by
  have hgood := lived_good hjson hlived fun d hd => hd
  have hself : (⟨self, l.request, l.upstream⟩ : Deed) ∈ past ++ deeds self P :=
    List.mem_append_right _ (mem_deeds (x := (l.request, l.upstream)) (List.mem_map_of_mem ht))
  obtain ⟨hown, hup⟩ := hplain _ hself
  rcases Pool.good_ret hgood ht answer name rtype rfl hreq with rfl | hcached
  · dsimp only at hup
    rw [hup]
    exact ownAnswer_plain hown name hany
  · obtain ⟨key, hkey, d, hd, records, hstores, rfl⟩ := cachedAnswer_stored hrt hcached
    unfold keysOf at hkey
    rw [if_neg hany, List.mem_singleton] at hkey
    obtain ⟨hdplain, hdup⟩ := hplain d hd
    obtain ⟨name', rtype', rfl, hreply⟩ := stores_plain hdplain hdup hstores
    rw [← hkeyed name' name rtype' rtype hkey, hreply]
    exact ⟨_, rfl, (sameRecords_qualified_iff _ _).mpr rfl⟩

/-- An upstream that gives every question the same address. -/
def oneAddress (_ : Name) (_ : RecordType) : Reply := .ok [wwwRecord]

theorem plain_oneAddress : Plain oneAddress CacheForwardAuthority.default where
  forwards _ _ := rfl
  no64 _ rtype _ _ := by
    unfold dns64Wanted CacheForwardAuthority.default
    simp
  short _ _ records h := by
    obtain rfl := Except.ok.inj h
    decide
  noDname _ _ records h r hr dname := by
    obtain rfl := Except.ok.inj h
    rw [List.mem_singleton.mp hr]
    simp [wwwRecord]

/-- Two queries with that upstream. -/
def oneAddressTwice : List Act :=
  [.query wwwExample .A none (fixed oneAddress), .task 0, .task 0, .task 0,
    .query wwwExample .A none (fixed oneAddress), .task 1]

theorem cache_transparent_twice :
    ∃ P, runAll (act CacheForwardAuthority.default wwwCodec) oneAddressTwice
        (System.initial CacheSection.default (by decide)) = some P ∧
      ∀ l answer, (l, .ret (some answer)) ∈ P.tasks → l.request = .query wwwExample .A →
        AnswerMatches (oneAddress (fwdName wwwExample) .A) answer := by
  have hpossible : (runAll (act CacheForwardAuthority.default wwwCodec) oneAddressTwice
      (System.initial CacheSection.default (by decide))).isSome = true := rfl
  obtain ⟨P, hP⟩ := Option.isSome_iff_exists.mp hpossible
  have hlived : Lived exampleJson wwwCodec [] CacheForwardAuthority.default P :=
    lived_run (.boot _ CacheSection.default (by decide)) (by simp [oneAddressTwice]) hP
  have hstarted : P.started = [(.query wwwExample .A, fixed oneAddress),
      (.query wwwExample .A, fixed oneAddress)] := by
    obtain rfl := Option.some.inj hP
    rfl
  refine ⟨P, hP, fun l answer ht hreq => ?_⟩
  refine cache_transparent (Json.roundTrips_knowing _ _) (Hickory.roundTrips_knowing (by decide))
    (fun _ _ _ _ _ => rfl) hlived ?_ l answer wwwExample .A (by decide) ht hreq
  intro d hd
  unfold deeds at hd
  rw [hstarted] at hd
  simp only [List.nil_append, List.map_cons, List.map_nil, List.mem_cons, List.not_mem_nil, or_false,
    or_self] at hd
  rw [hd]
  exact ⟨plain_oneAddress, rfl⟩

end Transparent

end Heimdallr.Net
