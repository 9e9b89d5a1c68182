import Heimdallr.Core.CacheSpec

/-!
# Hits and misses, counted (`core/cache/mod.rs`)

A hit is counted in three places: in the cache (`hits`), in the entry (`hit_count`, which also
decides whether an answer is fetched ahead) and in the global registry (`cache_hits_total`). A miss
is counted in the cache and in the registry.

* `Logged` runs the public operations and writes down what each of them did (`CacheEvent`). The log
  is not data of the program: it is what the operations returned, and the counters are compared with
  it.
* An insertion starts an entry's own count anew, also when it refreshes a key; `hitsSince` therefore
  counts the lookups that found a key after its latest insertion. `clear` resets the two counters of
  the cache and leaves the registry alone.
* The registry is incremented from other places too. What is proved of it here is about an operation
  of the cache and a run of them; that nothing else spoils the totals is `Resolver.Totals`.

Results:
* `step_accounted`: one operation keeps the counters and the log together.
* `hit_accounting`: they agree after every run from an empty cache.
-/

namespace Heimdallr

open Lib

/-! ## The log -/

/-- The operations that count. -/
inductive CountedOp
  | insert (key : CacheKey) (responseBytes : Bytes) (originalTtl : Duration) (now : Instant)
  | lookupWithMetrics (key : CacheKey) (now : Instant)
  | reapExpired (now : Instant)

/-- What an operation did; a lookup is written down with what it returned. -/
inductive CacheEvent
  | inserted (key : CacheKey)
  | looked (key : CacheKey) (result : Option Hit)
  | reaped
  deriving DecidableEq, Repr

namespace CacheEvent

/-- A lookup that returned `Some`. -/
def isHit : CacheEvent → Bool
  | .looked _ (some _) => true
  | _ => false

/-- A lookup that returned `None`. -/
def isMiss : CacheEvent → Bool
  | .looked _ none => true
  | _ => false

/-- A lookup of the key that returned `Some`. -/
def isHitOf (k : CacheKey) : CacheEvent → Bool
  | .looked key (some _) => key = k
  | _ => false

end CacheEvent

/-- The lookups that found the key since its latest insertion. -/
def hitsSince (k : CacheKey) (events : List CacheEvent) : Nat :=
  (events.reverse.takeWhile fun ev => ev ≠ .inserted k).countP (CacheEvent.isHitOf k)

/-- A cache, the registry, and what was done so far. -/
structure Logged where
  cache : Cache
  metrics : Metrics
  events : List CacheEvent

/-- The start: an empty cache and an empty log. -/
def Logged.new (config : CacheConfig) (m : Metrics) : Logged := ⟨Cache.new config, m, []⟩

/-- One operation, logged; `none` when it does not return. -/
def Logged.step : CountedOp → Logged → Option Logged
  | .insert key bytes ttl now, s =>
    (s.cache.insert key bytes ttl now).map fun c => ⟨c, s.metrics, s.events ++ [.inserted key]⟩
  | .lookupWithMetrics key now, s =>
    let r := s.cache.lookupWithMetrics s.metrics key now
    some ⟨r.2.1, r.2.2, s.events ++ [.looked key r.1]⟩
  | .reapExpired now, s => some ⟨s.cache.reapExpired now, s.metrics, s.events ++ [.reaped]⟩

/-! ## What one more event adds -/

theorem hitsSince_concat (k : CacheKey) (events : List CacheEvent) (ev : CacheEvent) :
    hitsSince k (events ++ [ev]) =
      if ev = .inserted k then 0 else hitsSince k events + if ev.isHitOf k then 1 else 0 := by
  unfold hitsSince
  rw [List.reverse_append, List.reverse_singleton, List.singleton_append, List.takeWhile_cons]
  by_cases hev : ev = .inserted k
  · simp [hev]
  · simp [hev, List.countP_cons]

theorem hitsSince_looked (k key : CacheKey) (result : Option Hit) (events : List CacheEvent) :
    hitsSince k (events ++ [.looked key result]) =
      hitsSince k events + if (CacheEvent.looked key result).isHitOf k then 1 else 0 := by
  rw [hitsSince_concat, if_neg (by simp)]

/-- The counters after the events, when `m₀` was in the registry before them. -/
structure Accounted (m₀ : Metrics) (s : Logged) : Prop where
  hits : s.cache.hits = s.events.countP CacheEvent.isHit
  misses : s.cache.misses = s.events.countP CacheEvent.isMiss
  hitsTotal : s.metrics .CacheHitsTotal =
    m₀ .CacheHitsTotal + s.events.countP CacheEvent.isHit
  missesTotal : s.metrics .CacheMissesTotal =
    m₀ .CacheMissesTotal + s.events.countP CacheEvent.isMiss
  /-- the hit count of every resident entry -/
  entry : ∀ k e, s.cache.entries.lookup k = some e → e.hitCount = hitsSince k s.events
  /-- the third component of every tuple that was returned -/
  returned : ∀ before k hit after, s.events = before ++ .looked k (some hit) :: after →
    hit.hits = hitsSince k (before ++ [.looked k (some hit)])

theorem accounted_new (config : CacheConfig) (m : Metrics) : Accounted m (Logged.new config m) where
  hits := rfl
  misses := rfl
  hitsTotal := rfl
  missesTotal := rfl
  entry := by
    intro k e he
    simp [Logged.new, Cache.new] at he
  returned := by
    intro before k hit after h
    simp [Logged.new] at h

/-- An event at the end of the log keeps what is said of the earlier ones. -/
theorem returned_concat {events : List CacheEvent} {ev : CacheEvent}
    (h : ∀ before k hit after, events = before ++ .looked k (some hit) :: after →
      hit.hits = hitsSince k (before ++ [.looked k (some hit)]))
    (hev : ∀ k hit, ev = .looked k (some hit) → hit.hits = hitsSince k (events ++ [ev])) :
    ∀ before k hit after, events ++ [ev] = before ++ .looked k (some hit) :: after →
      hit.hits = hitsSince k (before ++ [.looked k (some hit)]) := by
  intro before k hit after heq
  rcases List.eq_nil_or_concat after with rfl | ⟨after', last, rfl⟩
  · obtain ⟨rfl, hlast⟩ := List.append_inj' heq rfl
    obtain rfl := List.singleton_inj.mp hlast
    exact hev k hit rfl
  · rw [List.concat_eq_append, ← List.cons_append, ← List.append_assoc] at heq
    exact h before k hit after' (List.append_inj' heq rfl).1

/-- An operation that is no lookup leaves the counters. -/
theorem Accounted.quiet {m₀ : Metrics} {s : Logged} (h : Accounted m₀ s) {ev : CacheEvent}
    (hev : ∀ k result, ev ≠ .looked k result) {c : Cache} (hhits : c.hits = s.cache.hits)
    (hmisses : c.misses = s.cache.misses)
    (hentry : ∀ k e, c.entries.lookup k = some e → e.hitCount = hitsSince k (s.events ++ [ev])) :
    Accounted m₀ ⟨c, s.metrics, s.events ++ [ev]⟩ := by
  have hhit : ev.isHit = false := by
    cases ev with
    | looked k result => exact absurd rfl (hev k result)
    | inserted k => rfl
    | reaped => rfl
  have hmiss : ev.isMiss = false := by
    cases ev with
    | looked k result => exact absurd rfl (hev k result)
    | inserted k => rfl
    | reaped => rfl
  refine ⟨?_, ?_, ?_, ?_, hentry, returned_concat h.returned fun k hit heq => absurd heq (hev k _)⟩
  · simpa [hhit] using hhits.trans h.hits
  · simpa [hmiss] using hmisses.trans h.misses
  · simpa [hhit] using h.hitsTotal
  · simpa [hmiss] using h.missesTotal

/-! ## One operation -/

/-- The eviction loop leaves the counters, and brings no entry in. -/
theorem Cache.makeRoom_counts {c d : Cache} (h : c.makeRoom = some d) :
    d.hits = c.hits ∧ d.misses = c.misses ∧
      ∀ k e, d.entries.lookup k = some e → c.entries.lookup k = some e := by
  refine whileLoop_invariant
    (I := fun d => d.hits = c.hits ∧ d.misses = c.misses ∧
      ∀ k e, d.entries.lookup k = some e → c.entries.lookup k = some e)
    ?_ ⟨rfl, rfl, fun _ _ he => he⟩ h
  rintro d ⟨hhits, hmisses, hsub⟩ -
  refine ⟨?_, ?_, fun k e he => hsub k e (evictLru_lookup he)⟩
  · rw [← hhits]
    unfold evictLru
    split <;> rfl
  · rw [← hmisses]
    unfold evictLru
    split <;> rfl

/-- A lookup advances the counters by what it returned. -/
theorem Cache.lookupWithMetrics_counts (c : Cache) (m : Metrics) (key : CacheKey)
    (now : Instant) :
    let r := c.lookupWithMetrics m key now
    let ev := CacheEvent.looked key r.1
    r.2.1.hits = c.hits + (if ev.isHit then 1 else 0) ∧
      r.2.1.misses = c.misses + (if ev.isMiss then 1 else 0) ∧
      r.2.2 .CacheHitsTotal = m .CacheHitsTotal + (if ev.isHit then 1 else 0) ∧
      r.2.2 .CacheMissesTotal = m .CacheMissesTotal + (if ev.isMiss then 1 else 0) := by
  unfold Cache.lookupWithMetrics Cache.lookup
  cases c.entries.lookup key with
  | none => simp [recordMiss, Metrics.increment, CacheEvent.isHit, CacheEvent.isMiss]
  | some e => simp [Metrics.increment, CacheEvent.isHit, CacheEvent.isMiss]

namespace Logged

theorem accounted_insert {m₀ : Metrics} {s : Logged} (h : Accounted m₀ s) {key : CacheKey}
    {bytes : Bytes} {ttl : Duration} {now : Instant} {c : Cache}
    (hc : s.cache.insert key bytes ttl now = some c) :
    Accounted m₀ ⟨c, s.metrics, s.events ++ [.inserted key]⟩ := by
  obtain ⟨d, hroom, rfl⟩ := Option.map_eq_some_iff.mp hc
  obtain ⟨hhits, hmisses, hsub⟩ := Cache.makeRoom_counts hroom
  refine h.quiet (by simp) hhits hmisses ?_
  intro k e he
  rw [hitsSince_concat]
  by_cases hk : k = key
  · subst hk
    have hput : some (⟨bytes, now, ttl, 0, now⟩ : CacheEntry) = some e :=
      (AList.lookup_insert _).symm.trans he
    obtain rfl := Option.some.inj hput
    rw [if_pos rfl]
  · have hold : s.cache.entries.lookup k = some e :=
      hsub k e ((Cache.put_lookup_ne hk bytes ttl now).symm.trans he)
    rw [if_neg (by simpa using Ne.symm hk)]
    exact h.entry k e hold

theorem accounted_lookup {m₀ : Metrics} {s : Logged} (h : Accounted m₀ s) (key : CacheKey)
    (now : Instant) :
    let r := s.cache.lookupWithMetrics s.metrics key now
    Accounted m₀ ⟨r.2.1, r.2.2, s.events ++ [.looked key r.1]⟩ := by
  intro r
  obtain ⟨hhits, hmisses, hht, hmt⟩ := s.cache.lookupWithMetrics_counts s.metrics key now
  have hfst : r.1 = _ := s.cache.lookupWithMetrics_fst s.metrics key now
  refine ⟨?_, ?_, ?_, ?_, ?_, returned_concat h.returned ?_⟩
  · rw [List.countP_append, List.countP_singleton, ← h.hits]
    exact hhits
  · rw [List.countP_append, List.countP_singleton, ← h.misses]
    exact hmisses
  · rw [List.countP_append, List.countP_singleton, ← Nat.add_assoc, ← h.hitsTotal]
    exact hht
  · rw [List.countP_append, List.countP_singleton, ← Nat.add_assoc, ← h.missesTotal]
    exact hmt
  · intro k e he
    -- the entry was there, and its count went up when it was the one looked up
    replace he := (s.cache.lookup_lookupWithMetrics s.metrics key now k).symm.trans he
    obtain ⟨e₀, he₀, rfl⟩ := Option.map_eq_some_iff.mp he
    rw [hitsSince_looked, ← h.entry k e₀ he₀]
    by_cases hk : k = key
    · subst hk
      have hhit : (CacheEvent.looked k r.1).isHitOf k = true := by
        rw [hfst, he₀]
        simp [CacheEvent.isHitOf]
      rw [if_pos rfl, if_pos hhit]
    · have hother : ∀ result, (CacheEvent.looked key result).isHitOf k = false := by
        intro result
        cases result with
        | none => rfl
        | some hit => simp [CacheEvent.isHitOf, Ne.symm hk]
      rw [if_neg hk, hother]
      rfl
  · intro k hit heq
    obtain ⟨rfl, hhit⟩ := CacheEvent.looked.inj heq
    rw [hitsSince_looked, hhit]
    rw [hfst] at hhit
    obtain ⟨e₀, he₀, rfl⟩ := Option.map_eq_some_iff.mp hhit
    rw [← h.entry key e₀ he₀]
    simp [CacheEvent.isHitOf]

theorem accounted_reap {m₀ : Metrics} {s : Logged} (h : Accounted m₀ s) (now : Instant) :
    Accounted m₀ ⟨s.cache.reapExpired now, s.metrics, s.events ++ [.reaped]⟩ := by
  obtain ⟨-, -, -, hhits, hmisses⟩ := Cache.foldl_removeKey (s.cache.expiredKeys now) s.cache
  refine h.quiet (by simp) hhits hmisses ?_
  intro k e he
  rw [hitsSince_concat, if_neg (by simp)]
  exact h.entry k e (Cache.lookup_of_foldl_removeKey _ he)

/-- One operation keeps the counters and the log together. -/
theorem step_accounted {m₀ : Metrics} {op : CountedOp} {s s' : Logged} (h : Accounted m₀ s)
    (hs : step op s = some s') : Accounted m₀ s' := by
  cases op with
  | insert key bytes ttl now =>
    obtain ⟨c, hc, rfl⟩ := Option.map_eq_some_iff.mp hs
    exact accounted_insert h hc
  | lookupWithMetrics key now =>
    obtain rfl := Option.some.inj hs
    exact accounted_lookup h key now
  | reapExpired now =>
    obtain rfl := Option.some.inj hs
    exact accounted_reap h now

/-- On a cache with the invariant every operation returns, and the invariant stays. -/
theorem step_returns {s : Logged} (h : s.cache.Inv) (op : CountedOp) :
    ∃ s', step op s = some s' ∧ s'.cache.Inv := by
  cases op with
  | insert key bytes ttl now =>
    obtain ⟨c, hc, hinv, -⟩ := Cache.insert_spec h key bytes ttl now
    exact ⟨⟨c, s.metrics, s.events ++ [.inserted key]⟩, by simp [step, hc], hinv⟩
  | lookupWithMetrics key now =>
    exact ⟨_, rfl, Cache.inv_lookupWithMetrics h s.metrics key now⟩
  | reapExpired now => exact ⟨_, rfl, Cache.inv_reapExpired h now⟩

theorem run_returns {s : Logged} (h : s.cache.Inv) (ops : List CountedOp) :
    ∃ s', runAll step ops s = some s' := by
  induction ops generalizing s with
  | nil => exact ⟨s, rfl⟩
  | cons op ops ih =>
    obtain ⟨s₁, hs₁, hinv⟩ := step_returns h op
    obtain ⟨s', hs'⟩ := ih hinv
    exact ⟨s', by rw [runAll, hs₁, Option.bind_some, hs']⟩

end Logged

/-- **Hit accounting**: with a capacity every run of `insert`, `lookup_with_metrics` and
`reap_expired` from an empty cache returns, and after every run that returns the counters of the
cache, of the registry and of the entries, and the counts that were handed out, are those of the
log. -/
theorem hit_accounting (config : CacheConfig) (m : Metrics) (ops : List CountedOp) :
    (1 ≤ config.size → ∃ s, runAll Logged.step ops (Logged.new config m) = some s) ∧
      ∀ s, runAll Logged.step ops (Logged.new config m) = some s →
        s.cache.hits = s.events.countP CacheEvent.isHit ∧
        s.cache.misses = s.events.countP CacheEvent.isMiss ∧
        s.metrics .CacheHitsTotal = m .CacheHitsTotal + s.events.countP CacheEvent.isHit ∧
        s.metrics .CacheMissesTotal = m .CacheMissesTotal + s.events.countP CacheEvent.isMiss ∧
        (∀ k e, s.cache.entries.lookup k = some e → e.hitCount = hitsSince k s.events) ∧
        ∀ before k hit after, s.events = before ++ .looked k (some hit) :: after →
          hit.hits = hitsSince k (before ++ [.looked k (some hit)]) := by
  refine ⟨fun hsize => Logged.run_returns (Cache.inv_new hsize) ops, ?_⟩
  intro s hrun
  have h : Accounted m s := runAll_invariant (C := fun _ _ => True)
    (fun _ _ _ h _ hs => Logged.step_accounted h hs) (accounted_new config m)
    (Along.of_forall (fun _ _ => trivial) ops _) hrun
  exact ⟨h.hits, h.misses, h.hitsTotal, h.missesTotal, h.entry, h.returned⟩

/-- A key found twice, stored again and found once more; another key is not there. -/
def refreshedRun : List CountedOp :=
  [.insert keyA [1] 60 0, .lookupWithMetrics keyA 1, .lookupWithMetrics keyA 2,
    .insert keyA [2] 60 3, .lookupWithMetrics keyB 4, .lookupWithMetrics keyA 5]

theorem hit_accounting_refreshed :
    1 ≤ (⟨2, 0, 2⟩ : CacheConfig).size ∧
      ∃ s, runAll Logged.step refreshedRun (Logged.new ⟨2, 0, 2⟩ fun _ => 0) = some s ∧
        s.cache.hits = 3 ∧ s.cache.misses = 1 ∧ s.metrics .CacheHitsTotal = 3 ∧
        s.metrics .CacheMissesTotal = 1 ∧
        ∀ e, s.cache.entries.lookup keyA = some e → e.hitCount = 1 := by
  refine ⟨by decide, _, rfl, ?_⟩
  obtain ⟨hhits, hmisses, hht, hmt, hentry, -⟩ :=
    (hit_accounting ⟨2, 0, 2⟩ (fun _ => 0) refreshedRun).2 _ rfl
  exact ⟨hhits.trans (by decide), hmisses.trans (by decide), hht.trans (by decide),
    hmt.trans (by decide), fun e he => (hentry keyA e he).trans (by decide)⟩

end Heimdallr
