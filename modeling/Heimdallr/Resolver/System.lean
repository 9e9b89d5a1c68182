import Heimdallr.Lib.Run
import Heimdallr.Resolver.Paths

/-!
# The running forwarder

Queries and prefetches are tasks over one cache, and between two operations of one of them any
other may act and time may pass. `System` is the pool of all tasks that were ever started, with the
state they share; an `Act` is what happens next: a query comes in, a pending prefetch begins, a task
performs its next operation, time passes, other code inserts an entry.

* An operation on the cache is one step, as the source holds the lock for it. Two acquisitions of
  one task are two steps, between which the cache may change.
* `Net::run` creates the cache, empty, with a serve-stale window that does not depend on the
  configuration (`CacheConfig.runtime`).
* A task that is never scheduled again is a task that was dropped, so cancellation needs no act of
  its own.

Results:
* `act_shared`: what one act does to the shared state.
* `dead_entry_served_iff`: in a run, no answer comes from an entry past its TTL and the window
  exactly when no task looks such an entry up. Nothing on the hit path looks at the age of an entry.
-/

namespace Heimdallr.Resolver

open Lib

/-! ## Acts -/

/-- What a task ends with: the answer to a query, nothing for a prefetch. -/
abbrev Outcome := Option Answer

/-- The tasks of the server and the state they share. -/
abbrev System := Pool Op Op.Ans Local Shared Outcome

/-- What can happen next. -/
inductive Act
  /-- a query arrives; `u` is what upstream will reply to its questions -/
  | query (name : LowerName) (rtype : RecordType) (info : Option RequestInfo) (u : Upstream)
  /-- the `j`-th spawned prefetch begins -/
  | prefetch (j : Nat) (u : Upstream)
  /-- task `i` performs its next operation -/
  | task (i : Nat)
  /-- time passes -/
  | tick (d : Duration)
  /-- an insertion by code outside the forwarder -/
  | insert (key : CacheKey) (bytes : Bytes) (ttl : Duration)

/-- The task of a query. -/
def queryTask (self : CacheForwardAuthority) (hk : Hickory) (name : LowerName)
    (rtype : RecordType) (info : Option RequestInfo) (u : Upstream) : Local × Task Outcome :=
  (⟨.query name rtype, u, 0⟩, do return some (← self.lookup hk name rtype info))

/-- The task of a prefetch. -/
def prefetchTask (hk : Hickory) (name : LowerName) (rtype : RecordType) (u : Upstream) :
    Local × Task Outcome :=
  (⟨.prefetch name rtype, u, 0⟩, do
    prefetch hk name rtype
    return none)

/-- One act; `none` when it is not possible. -/
def act (self : CacheForwardAuthority) (hk : Hickory) : Act → System → Option System
  | .query name rtype info u, P => some (P.start (queryTask self hk name rtype info u))
  | .prefetch j u, P =>
    match P.shared.pending[j]? with
    | some (name, rtype) =>
      let shared := { P.shared with pending := P.shared.pending.eraseIdx j }
      some (Pool.start (prefetchTask hk name rtype u) { P with shared })
    | none => none
  | .task i, P => Pool.step handle i P
  | .tick d, P => some { P with shared := { P.shared with now := P.shared.now + d } }
  | .insert key bytes ttl, P =>
    some { P with
      shared := { P.shared with cache := P.shared.cache.insert key bytes ttl P.shared.now } }

/-- `[cache]` of the configuration, as far as the forwarder's cache depends on it. -/
structure CacheSection where
  size : Nat
  serveStale : Bool
  prefetch : Nat

/-- The cache configuration `Net::run` makes: `serve_stale` of the configuration is not read. -/
def CacheSection.runtime (c : CacheSection) : CacheConfig :=
  ⟨c.size, Duration.fromSecs 30, c.prefetch⟩

/-- The window the configuration asks for: that of the cache, or none. -/
def CacheSection.window (c : CacheSection) : Duration :=
  if c.serveStale then c.runtime.serveStale else 0

/-- No task, and an empty cache. -/
def System.initial (c : CacheSection) (h : 1 ≤ c.size) : System :=
  ⟨[], Shared.initial c.runtime h⟩

/-! ## One act -/

/-- The next operation of a task. -/
def nextOp {α : Type} : Task α → Option Op
  | .ret _ => none
  | .call o _ => some o

/-- A prefetch that begins was pending, and is not afterwards. -/
theorem act_prefetch {self : CacheForwardAuthority} {hk : Hickory} {j : Nat} {u : Upstream}
    {P P' : System} (h : act self hk (.prefetch j u) P = some P') :
    ∃ name rtype, P.shared.pending[j]? = some (name, rtype) ∧
      P' = Pool.start (prefetchTask hk name rtype u)
        { P with shared := { P.shared with pending := P.shared.pending.eraseIdx j } } := by
  simp only [act] at h
  split at h
  · rename_i name rtype hj
    exact ⟨name, rtype, hj, (Option.some.inj h).symm⟩
  · cases h

/-- What an act does to the cache configuration and to the log: the configuration stays, and only
an operation of a task logs. -/
theorem act_shared {self : CacheForwardAuthority} {hk : Hickory} {a : Act} {P P' : System}
    (h : act self hk a P = some P') :
    (P'.shared.cache.cache.config = P.shared.cache.cache.config ∧ P'.shared.log = P.shared.log ∧
        ∀ i, a ≠ .task i) ∨
      ∃ i l o t, a = .task i ∧ P.tasks[i]? = some (l, t) ∧ nextOp t = some o ∧
        P'.shared = (handle o l P.shared).2.2 := by
  cases a with
  | query name rtype info u =>
    obtain rfl := Option.some.inj h
    exact Or.inl ⟨rfl, rfl, by simp⟩
  | prefetch j u =>
    obtain ⟨name, rtype, -, rfl⟩ := act_prefetch h
    exact Or.inl ⟨rfl, rfl, by simp⟩
  | task i =>
    obtain ⟨l, o, k, ht, rfl⟩ := Pool.step_eq h
    exact Or.inr ⟨i, l, o, .call o k, rfl, ht, rfl, rfl⟩
  | tick d =>
    obtain rfl := Option.some.inj h
    exact Or.inl ⟨rfl, rfl, by simp⟩
  | insert key bytes ttl =>
    obtain rfl := Option.some.inj h
    exact Or.inl ⟨LiveCache.config_insert _ _ _ _ _, rfl, by simp⟩

/-- An operation keeps the cache configuration. -/
theorem handle_config (o : Op) (l : Local) (s : Shared) :
    (handle o l s).2.2.cache.cache.config = s.cache.cache.config := by
  cases o with
  | net o => rw [(Shared.NetMove.step o l s).cache_eq]
  | lookup key =>
    cases hres : s.cache.entryAt key with
    | none =>
      rw [handle_lookup_none hres]
      exact LiveCache.config_lookupWithMetrics _ _ _ _
    | some e =>
      rw [handle_lookup_some hres]
      exact LiveCache.config_lookupWithMetrics _ _ _ _
  | insert key bytes ttl => exact LiveCache.config_insert _ _ _ _ _
  | spawnPrefetch name rtype => rfl

/-! ## Dead entries -/

/-- A task with this request answers from this entry: it decodes, and for ANY it has records. -/
def AnswersFrom (hk : Hickory) (request : Request) (e : CacheEntry) : Prop :=
  ∃ msg, hk.fromVec e.responseBytes = some msg ∧
    ∀ name, request = .query name .ANY → msg.answers ≠ []

/-- An answer from the cache comes from an entry that is not past its TTL and the window, and the
stale flag says whether its TTL has passed. -/
def ServedAlive (hk : Hickory) (window : Duration) (x : Request × Event) : Prop :=
  ∀ key e now stale, x.2 = .hit key e now stale → AnswersFrom hk x.1 e →
    e.elapsed now ≤ e.originalTtl + window ∧ (stale = true ↔ e.originalTtl ≤ e.elapsed now)

/-- The act does not look up, to answer from it, an entry past its TTL and the window. -/
def Undead (hk : Hickory) (window : Duration) (a : Act) (P : System) : Prop :=
  ∀ i l t key e, a = .task i → P.tasks[i]? = some (l, t) → nextOp t = some (.lookup key) →
    P.shared.cache.entryAt key = some e → AnswersFrom hk l.request e →
    e.elapsed P.shared.now ≤ e.originalTtl + window

/-- One lookup: what it logs is alive exactly when the entry is. -/
theorem servedAlive_hit_iff {hk : Hickory} {window serveStale : Duration} {request : Request}
    {key : CacheKey} {e : CacheEntry} {now : Instant} (hw : window ≤ serveStale) :
    ServedAlive hk window (request, .hit key e now (e.isStale serveStale now)) ↔
      (AnswersFrom hk request e → e.elapsed now ≤ e.originalTtl + window) := by
  constructor
  · intro h hans
    exact (h key e now _ rfl hans).1
  · intro h key' e' now' stale' heq hans
    obtain ⟨rfl, rfl, rfl, rfl⟩ := Event.hit.inj heq
    have hage := h hans
    refine ⟨hage, ?_⟩
    rw [CacheEntry.isStale_iff]
    exact and_iff_left (Nat.le_trans hage (Nat.add_le_add_left hw _))

theorem CacheSection.window_le (c : CacheSection) : c.window ≤ c.runtime.serveStale := by
  unfold window
  split
  · exact Nat.le_refl _
  · exact Nat.zero_le _

/-- An operation of a task logs nothing dead exactly when it does not look a dead entry up. -/
theorem handle_served_iff {hk : Hickory} {c : CacheSection} {o : Op} {l : Local} {s : Shared}
    (hcfg : s.cache.cache.config = c.runtime) :
    (∀ x ∈ (handle o l s).2.2.log, ServedAlive hk c.window x) ↔
      (∀ x ∈ s.log, ServedAlive hk c.window x) ∧
        ∀ key e, o = .lookup key → s.cache.entryAt key = some e → AnswersFrom hk l.request e →
          e.elapsed s.now ≤ e.originalTtl + c.window := by
  -- anything but a hit is alive
  have hother : ∀ {request : Request} {ev : Event}, (∀ key e now stale, ev ≠ .hit key e now stale) →
      ServedAlive hk c.window (request, ev) :=
    fun hne key e now stale heq => absurd heq (hne key e now stale)
  cases o with
  | net o =>
    obtain ⟨es, hlog, hes⟩ := (Shared.NetMove.step o l s).log_grows
    rw [hlog, List.forall_mem_append]
    refine and_congr_right fun _ => iff_of_true ?_ (by simp)
    intro x hx
    obtain ⟨n, t, reply, hup⟩ := hes x hx
    exact hother (by simp [hup])
  | lookup key =>
    cases hres : s.cache.entryAt key with
    | none =>
      rw [handle_lookup_none hres, List.forall_mem_append, List.forall_mem_singleton]
      refine and_congr_right fun _ => iff_of_true (hother (by simp)) ?_
      intro k e hk' he
      obtain rfl := Op.lookup.inj hk'
      rw [hres] at he
      exact absurd he (by simp)
    | some e =>
      rw [handle_lookup_some hres, List.forall_mem_append, List.forall_mem_singleton, hcfg,
        servedAlive_hit_iff c.window_le]
      refine and_congr_right fun _ => ⟨fun h k e' hk' he' => ?_, fun h => h key e rfl hres⟩
      obtain rfl := Op.lookup.inj hk'
      obtain rfl : e = e' := Option.some.inj (hres.symm.trans he')
      exact h
  | insert key bytes ttl =>
    show (∀ x ∈ s.log ++ [_], _) ↔ _
    rw [List.forall_mem_append, List.forall_mem_singleton]
    exact and_congr_right fun _ => iff_of_true (hother (by simp)) (by simp)
  | spawnPrefetch name rtype =>
    show (∀ x ∈ s.log ++ [_], _) ↔ _
    rw [List.forall_mem_append, List.forall_mem_singleton]
    exact and_congr_right fun _ => iff_of_true (hother (by simp)) (by simp)

theorem act_config {self : CacheForwardAuthority} {hk : Hickory} {c : CacheSection} (a : Act)
    (P P' : System) (hcfg : P.shared.cache.cache.config = c.runtime)
    (h : act self hk a P = some P') : P'.shared.cache.cache.config = c.runtime := by
  rcases act_shared h with ⟨hc, -, -⟩ | ⟨i, l, o, t, -, -, -, hs⟩
  · exact hc.trans hcfg
  · rw [hs, handle_config, hcfg]

/-- One act: what it logs is alive exactly when it is `Undead`. -/
theorem act_served_iff {self : CacheForwardAuthority} {hk : Hickory} {c : CacheSection} (a : Act)
    (P P' : System) (hcfg : P.shared.cache.cache.config = c.runtime)
    (h : act self hk a P = some P') :
    (∀ x ∈ P'.shared.log, ServedAlive hk c.window x) ↔
      (∀ x ∈ P.shared.log, ServedAlive hk c.window x) ∧ Undead hk c.window a P := by
  rcases act_shared h with ⟨-, hlog, hne⟩ | ⟨i, l, o, t, rfl, ht, ho, hs⟩
  · rw [hlog]
    exact (and_iff_left fun i l t key e ha => absurd ha (hne i)).symm
  · rw [hs, handle_served_iff hcfg]
    refine and_congr_right fun _ => ⟨fun hop i' l' t' key e ha ht' hnext => ?_, fun hop => ?_⟩
    · obtain rfl := Act.task.inj ha
      obtain ⟨rfl, rfl⟩ := Prod.mk.inj (Option.some.inj (ht.symm.trans ht'))
      exact hop key e (Option.some.inj (ho.symm.trans hnext))
    · intro key e hlookup
      exact hop i l t key e rfl ht (ho.trans (congrArg some hlookup))

/-- **Dead entries**: in a run from the empty cache, every answer from the cache comes from a live
entry, with the right stale flag, exactly when no task looks a dead entry up to answer from it. -/
theorem dead_entry_served_iff (self : CacheForwardAuthority) (hk : Hickory) (c : CacheSection)
    (hsize : 1 ≤ c.size) (acts : List Act) (P : System)
    (hrun : runAll (act self hk) acts (System.initial c hsize) = some P) :
    (∀ x ∈ P.shared.log, ServedAlive hk c.window x) ↔
      Along (act self hk) (Undead hk c.window) acts (System.initial c hsize) := by
  have hstart : ∀ x ∈ (System.initial c hsize).shared.log, ServedAlive hk c.window x := by
    intro x hx
    exact absurd hx List.not_mem_nil
  have hexact := runAll_exact (J := fun P : System => P.shared.cache.cache.config = c.runtime)
    act_config act_served_iff rfl hrun
  rw [hexact]
  exact and_iff_right hstart

/-- The default `[cache]` section. -/
def CacheSection.default : CacheSection := ⟨50000, true, 2⟩

/-- The codec of the answer for `www.example.com`. -/
def wwwCodec : Hickory := .knowing [(cacheMessage [wwwRecord], wwwWire)]

/-- The key of the example. -/
def wwwKey : CacheKey := ⟨"www.example.com.", 1, none⟩

/-- An insertion, ten seconds, and a query for the key. -/
def tenSeconds : List Act :=
  [.insert wwwKey wwwWire (Duration.fromSecs 300), .tick (Duration.fromSecs 10),
    .query wwwExample .A none (fixed apexAlsoAnswers), .task 0]

/-- An entry that is ten seconds old is served. -/
theorem fresh_entry_served :
    ∃ P, runAll (act CacheForwardAuthority.default wwwCodec) tenSeconds
        (System.initial CacheSection.default (by decide)) = some P ∧
      ∀ x ∈ P.shared.log, ServedAlive wwwCodec CacheSection.default.window x := by
  obtain ⟨P, hP⟩ : ∃ P, runAll (act CacheForwardAuthority.default wwwCodec) tenSeconds
      (System.initial CacheSection.default (by decide)) = some P := ⟨_, rfl⟩
  refine ⟨P, hP, (dead_entry_served_iff _ _ _ _ _ _ hP).mpr ?_⟩
  have hne : ∀ {a : Act} {P : System}, (∀ i, a ≠ .task i) →
      Undead wwwCodec CacheSection.default.window a P :=
    fun h i l t key e ha => absurd ha (h i)
  refine ⟨hne (by simp), fun P₁ h₁ => ⟨hne (by simp), fun P₂ h₂ => ⟨hne (by simp), fun P₃ h₃ =>
    ⟨?_, fun _ _ => trivial⟩⟩⟩⟩
  obtain rfl := Option.some.inj h₁
  obtain rfl := Option.some.inj h₂
  obtain rfl := Option.some.inj h₃
  intro i l t key e ha ht hnext hres _
  obtain rfl := Act.task.inj ha
  obtain ⟨rfl, rfl⟩ := Prod.mk.inj (Option.some.inj ht)
  obtain rfl := Op.lookup.inj (Option.some.inj hnext)
  obtain rfl := Option.some.inj hres
  decide

/-- A query, and the same query a day later. -/
def dayLater : List Act :=
  [.query wwwExample .A none (fixed apexAlsoAnswers), .task 0, .task 0, .task 0,
    .tick (Duration.fromSecs 86400),
    .query wwwExample .A none (fixed apexAlsoAnswers), .task 1, .task 1]

/-- The answer, with a TTL of 300 s, is served again after a day, and not even marked stale. -/
theorem dead_entry_served :
    ∃ P, runAll (act CacheForwardAuthority.default wwwCodec) dayLater
        (System.initial CacheSection.default (by decide)) = some P ∧
      P.tasks[1]? = some (⟨.query wwwExample .A, fixed apexAlsoAnswers, 0⟩,
        .ret (some (.ok [wwwRecord]))) ∧
      ¬ ∀ x ∈ P.shared.log, ServedAlive wwwCodec CacheSection.default.window x := by
  refine ⟨_, rfl, rfl, ?_⟩
  intro h
  have hhit := h (.query wwwExample .A, .hit wwwKey
    ⟨wwwWire, 0, Duration.fromSecs 300, 0, 0⟩ (Duration.fromSecs 86400) false)
    (List.mem_of_getElem? (i := 3) rfl)
  have hage := (hhit _ _ _ _ rfl ⟨cacheMessage [wwwRecord], rfl, by simp⟩).1
  exact absurd hage (by decide)

end Heimdallr.Resolver
