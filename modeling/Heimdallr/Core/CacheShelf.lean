import Heimdallr.Core.Recency
import Heimdallr.Lib.Shelf
import Heimdallr.Lib.Simulation

/-!
# The cache is a shelf

What a client of the cache can see is what a shelf of entries in the order of their insertion shows:
one list, instead of a hash map and an access order that are kept in step, and an `insert` that
takes at most the oldest entry off, instead of a loop.

The shelf (`Lib.Shelf`) is the abstract cache: it has no invariant to keep, since a list without
repeated keys is all there is to it. `OnShelf` relates the two: the entries are the same, key by
key, and the access order is that of the shelf, from the oldest on.

* `CacheCall`, `cacheStep`: the public methods of `Cache`, with what they return. A method that may
  not return is a partial step.
* `ShelfCache`, `shelfStep`: the same on a shelf, on which every method returns.

Results:
* `cacheStep_alike`: one method, by cases.
* **`cache_refines_shelf`**: every sequence of them, by the simulation rule of `Lib.Simulation`. So
  the methods always return, the eviction loop included, for every capacity of at least one.

The capacity is at least one because `Config::validate` rejects zero. With zero the loop of `insert`
would empty the cache and then not end.
-/

namespace Heimdallr

open Lib

/-! ## The methods and what they return -/

/-- A call of a public method, with the clock reading it takes. -/
inductive CacheCall
  | insert (key : CacheKey) (responseBytes : Bytes) (originalTtl : Duration) (now : Instant)
  | lookup (key : CacheKey) (now : Instant)
  | lookupWithMetrics (key : CacheKey) (now : Instant)
  | isExpired (key : CacheKey) (now : Instant)
  | shouldPrefetch (key : CacheKey) (now : Instant)
  | recordMiss
  | reapExpired (now : Instant)
  | clear
  | len
  | isEmpty
  | hits
  | misses
  /-- `MetricsRegistry::read_global` -/
  | readGlobal (name : MetricName)

/-- What a call returns. -/
inductive CacheReply
  | done
  | found (hit : Option Hit)
  | flag (b : Bool)
  | count (n : Nat)
  deriving DecidableEq, Repr

/-- One call; `none` when it does not return. -/
def cacheStep : Machine CacheCall CacheReply (Cache × Metrics)
  | .insert key bytes ttl now, (c, m) => (c.insert key bytes ttl now).map fun c => (.done, c, m)
  | .lookup key now, (c, m) => some (.found (c.lookup key now).1, (c.lookup key now).2, m)
  | .lookupWithMetrics key now, (c, m) =>
    some (.found (c.lookupWithMetrics m key now).1, (c.lookupWithMetrics m key now).2)
  | .isExpired key now, (c, m) => some (.flag (c.isExpired key now), c, m)
  | .shouldPrefetch key now, (c, m) => some (.flag (c.shouldPrefetch key now), c, m)
  | .recordMiss, (c, m) => some (.done, c.recordMiss m)
  | .reapExpired now, (c, m) => some (.done, c.reapExpired now, m)
  | .clear, (c, m) => some (.done, c.clear, m)
  | .len, (c, m) => some (.count c.len, c, m)
  | .isEmpty, (c, m) => some (.flag c.isEmpty, c, m)
  | .hits, (c, m) => some (.count c.hits, c, m)
  | .misses, (c, m) => some (.count c.misses, c, m)
  | .readGlobal name, (c, m) => some (.count (m name), c, m)

/-! ## The same on a shelf -/

/-- Entries on a shelf, and two counts. -/
structure ShelfCache where
  config : CacheConfig
  shelf : Shelf CacheKey CacheEntry
  hits : Nat
  misses : Nat

namespace ShelfCache

/-- A shelf with room for the configured number of entries. -/
def new (config : CacheConfig) (h : 1 ≤ config.size) : ShelfCache :=
  ⟨config, .empty config.size h, 0, 0⟩

/-- A new entry goes on the shelf. -/
def insert (s : ShelfCache) (key : CacheKey) (bytes : Bytes) (ttl : Duration) (now : Instant) :
    ShelfCache :=
  { s with shelf := s.shelf.push key ⟨bytes, now, ttl, 0, now⟩ }

/-- An entry that is found stays where it is and counts the hit. -/
def lookup (s : ShelfCache) (key : CacheKey) (now : Instant) : Option Hit × ShelfCache :=
  match s.shelf.find key with
  | none => (none, s)
  | some e =>
    (some ⟨e.responseBytes, e.isStale s.config.serveStale now, e.hitCount + 1⟩,
      { s with
        shelf := s.shelf.touch key fun e => { e with hitCount := e.hitCount + 1, lastAccess := now }
        hits := s.hits + 1 })

/-- An entry is there and due. -/
def due (s : ShelfCache) (key : CacheKey) (now : Instant) : Bool :=
  (s.shelf.find key).any fun e =>
    decide (s.config.prefetch ≠ 0 ∧
      e.ttlRemaining now < Duration.fromSecs (s.config.prefetch * e.hitCount))

/-- The entries that are not past their TTL and the serve-stale window. -/
def reaped (s : ShelfCache) (now : Instant) : ShelfCache :=
  { s with
    shelf := s.shelf.keep fun _ e => decide (e.elapsed now ≤ e.originalTtl + s.config.serveStale) }

/-- Nothing on the shelf, and both counts at zero. -/
def cleared (s : ShelfCache) : ShelfCache :=
  { s with shelf := s.shelf.keep fun _ _ => false, hits := 0, misses := 0 }

end ShelfCache

/-- One call, which always returns. -/
def shelfStep : Machine CacheCall CacheReply (ShelfCache × Metrics)
  | .insert key bytes ttl now, (s, m) => some (.done, s.insert key bytes ttl now, m)
  | .lookup key now, (s, m) => some (.found (s.lookup key now).1, (s.lookup key now).2, m)
  | .lookupWithMetrics key now, (s, m) =>
    match s.lookup key now with
    | (some hit, s) => some (.found (some hit), s, m.increment .CacheHitsTotal 1)
    | (none, s) =>
      some (.found none, { s with misses := s.misses + 1 }, m.increment .CacheMissesTotal 1)
  | .isExpired key now, (s, m) => some (.flag ((s.shelf.find key).all (·.isExpired now)), s, m)
  | .shouldPrefetch key now, (s, m) => some (.flag (s.due key now), s, m)
  | .recordMiss, (s, m) =>
    some (.done, { s with misses := s.misses + 1 }, m.increment .CacheMissesTotal 1)
  | .reapExpired now, (s, m) => some (.done, s.reaped now, m)
  | .clear, (s, m) => some (.done, s.cleared, m)
  | .len, (s, m) => some (.count s.shelf.keys.length, s, m)
  | .isEmpty, (s, m) => some (.flag s.shelf.keys.isEmpty, s, m)
  | .hits, (s, m) => some (.count s.hits, s, m)
  | .misses, (s, m) => some (.count s.misses, s, m)
  | .readGlobal name, (s, m) => some (.count (m name), s, m)

/-! ## One call -/

theorem Cache.room_hits (c : Cache) : c.room.hits = c.hits ∧ c.room.misses = c.misses := by
  unfold room evictLru
  split
  · split <;> exact ⟨rfl, rfl⟩
  · exact ⟨rfl, rfl⟩

/-- The cache holds what is on the shelf, and its access order is that of the shelf, the oldest
first. -/
structure OnShelf (c : Cache) (s : ShelfCache) : Prop where
  inv : c.Inv
  config : s.config = c.config
  capacity : s.shelf.capacity = c.config.size
  order : c.accessOrder = s.shelf.keys.reverse
  find : ∀ k, c.entries.lookup k = s.shelf.find k
  hits : c.hits = s.hits
  misses : c.misses = s.misses

/-- The same of the global counters, which are those of the cache. -/
def OnShelfWith (x : Cache × Metrics) (y : ShelfCache × Metrics) : Prop :=
  OnShelf x.1 y.1 ∧ x.2 = y.2

namespace OnShelf

variable {c : Cache} {s : ShelfCache} (h : OnShelf c s)

include h

theorem len_eq : c.len = s.shelf.keys.length := by
  rw [Cache.len_eq h.inv.order, h.order, List.length_reverse]

theorem isEmpty_eq : c.isEmpty = s.shelf.keys.isEmpty := by
  have hlen := h.len_eq
  unfold Cache.len at hlen
  unfold Cache.isEmpty
  rw [Bool.eq_iff_iff, List.isEmpty_iff_length_eq_zero, List.isEmpty_iff_length_eq_zero, hlen]

theorem isFull_eq : c.isFull = s.shelf.isFull := by
  unfold Cache.isFull Shelf.isFull
  rw [h.len_eq, h.capacity]

/-- The eviction loop leaves what stays on the shelf. -/
theorem room_find (k : CacheKey) : c.room.entries.lookup k = s.shelf.room.lookup k := by
  rw [Shelf.find_room, ← h.isFull_eq]
  cases hfull : c.isFull with
  | false =>
    rw [Cache.room_of_not_full hfull]
    simpa using h.find k
  | true =>
    obtain ⟨oldest, rest, hao, hroom⟩ := Cache.room_of_full h.inv hfull
    have hlast : s.shelf.keys.getLast? = some oldest := by
      rw [← List.head?_reverse, ← h.order, hao]
      rfl
    rw [hroom, hlast]
    show (c.entries.erase oldest).lookup k = _
    by_cases hk : k = oldest
    · subst hk
      simp
    · rw [AList.lookup_erase_ne hk, if_neg (by simpa using Ne.symm hk)]
      exact h.find k

theorem room_order : c.room.accessOrder = s.shelf.room.keys.reverse := by
  rw [Cache.room_accessOrder, Shelf.keys_room, ← h.isFull_eq, h.order]
  split
  · exact List.tail_reverse
  · rfl

/-- `insert`. -/
theorem insert (key : CacheKey) (bytes : Bytes) (ttl : Duration) (now : Instant) :
    OnShelf (c.room.put key bytes ttl now) (s.insert key bytes ttl now) where
  inv := by
    obtain ⟨c', hins, hinv, -⟩ := Cache.insert_spec h.inv key bytes ttl now
    rw [Cache.insert_eq h.inv] at hins
    obtain rfl := Option.some.inj hins
    exact hinv
  config := h.config.trans c.room_config.symm
  capacity := by
    show s.shelf.capacity = c.room.config.size
    rw [c.room_config]
    exact h.capacity
  order := by
    have hnd : s.shelf.room.keys.Nodup := s.shelf.room.keys_nodup
    show _ = (s.shelf.push key _).keys.reverse
    rw [Cache.put_order (Cache.room_order h.inv), h.room_order, Shelf.keys_push,
      List.reverse_cons, hnd.erase_eq_filter, List.filter_reverse]
    congr 3
    funext k
    by_cases hk : k = key <;> simp [hk]
  find k := by
    show (c.room.entries.insert key _).lookup k = (s.shelf.push key _).find k
    rw [Shelf.find_push]
    by_cases hk : k = key
    · subst hk
      rw [AList.lookup_insert, if_pos rfl]
    · rw [AList.lookup_insert_ne hk, if_neg hk]
      exact h.room_find k
  hits := (c.room_hits).1.trans h.hits
  misses := (c.room_hits).2.trans h.misses

/-- `lookup` returns the same, and counts the hit in the same entry. -/
theorem lookup (key : CacheKey) (now : Instant) :
    (c.lookup key now).1 = (s.lookup key now).1 ∧
      OnShelf (c.lookup key now).2 (s.lookup key now).2 := by
  have hinv := Cache.inv_lookup h.inv key now
  unfold Cache.lookup ShelfCache.lookup at *
  rw [← h.find, h.config]
  cases he : c.entries.lookup key with
  | none => exact ⟨rfl, h⟩
  | some e =>
    rw [he] at hinv
    refine ⟨rfl, hinv, rfl, h.capacity, ?_, ?_, congrArg (· + 1) h.hits, h.misses⟩
    · rw [Shelf.keys_touch]
      exact h.order
    · intro k
      rw [Shelf.find_touch, ← h.find]
      by_cases hk : k = key
      · subst hk
        rw [AList.lookup_insert, he]
        simp
      · rw [AList.lookup_insert_ne hk]
        simp [hk]

theorem miss : OnShelf { c with misses := c.misses + 1 } { s with misses := s.misses + 1 } :=
  ⟨⟨h.inv.size_pos, h.inv.order, h.inv.bound⟩, h.config, h.capacity, h.order, h.find, h.hits,
    congrArg (· + 1) h.misses⟩

/-- What `reap_expired` leaves of an entry is what the shelf keeps. -/
theorem reaped_find (now : Instant) (k : CacheKey) :
    (c.reapExpired now).entries.lookup k = (s.reaped now).shelf.find k := by
  show _ = (s.shelf.keep _).find k
  rw [Cache.reapExpired_lookup, Shelf.find_keep, h.find, h.config]
  congr 1
  funext e
  rw [decide_eq_decide]
  unfold Cache.Dead
  exact Nat.not_lt

theorem reap (now : Instant) : OnShelf (c.reapExpired now) (s.reaped now) where
  inv := Cache.inv_reapExpired h.inv now
  config := h.config.trans (c.reapExpired_config now).symm
  capacity := by
    rw [c.reapExpired_config now]
    exact h.capacity
  order := by
    have hmem : ∀ k, k ∈ c.accessOrder → k ∈ c.entries := fun k hk => h.inv.mem_iff.mp hk
    have hkeys : (s.reaped now).shelf.keys =
        s.shelf.keys.filter fun k => decide (k ∈ (c.reapExpired now).entries) := by
      show (s.shelf.keep _).keys = _
      rw [Shelf.keys_keep]
      refine List.filter_congr fun k _ => ?_
      have hkept := h.reaped_find now k
      rw [ShelfCache.reaped, Shelf.find_keep] at hkept
      rw [← hkept, Bool.eq_iff_iff, decide_eq_true_eq, ← AList.lookup_isSome]
    rw [Cache.reapExpired_order hmem, h.order, hkeys, List.filter_reverse]
  find := h.reaped_find now
  hits := (Cache.foldl_removeKey _ c).2.2.2.1.trans h.hits
  misses := (Cache.foldl_removeKey _ c).2.2.2.2.trans h.misses

theorem clear : OnShelf c.clear s.cleared where
  inv := Cache.inv_clear h.inv
  config := h.config
  capacity := h.capacity
  order := by
    have hkeys : s.cleared.shelf.keys = [] := by
      show (s.shelf.keep _).keys = []
      rw [Shelf.keys_keep]
      simp
    rw [hkeys]
    rfl
  find k := by
    show _ = (s.shelf.keep _).find k
    rw [Shelf.find_keep]
    simp [Cache.clear]
  hits := rfl
  misses := rfl

theorem isExpired_eq (key : CacheKey) (now : Instant) :
    c.isExpired key now = (s.shelf.find key).all (·.isExpired now) := by
  unfold Cache.isExpired
  rw [h.find]
  cases s.shelf.find key <;> rfl

theorem due_eq (key : CacheKey) (now : Instant) : c.shouldPrefetch key now = s.due key now := by
  unfold Cache.shouldPrefetch ShelfCache.due
  rw [h.find, h.config]
  by_cases hoff : c.config.prefetch = 0
  · rw [if_pos hoff]
    cases s.shelf.find key with
    | none => rfl
    | some e => exact (decide_eq_false fun hdue => hdue.1 hoff).symm
  · rw [if_neg hoff]
    cases s.shelf.find key with
    | none => rfl
    | some e => exact decide_eq_decide.mpr (and_iff_right hoff).symm

end OnShelf

/-- **One call** of either returns the same, and they stay alike. -/
theorem cacheStep_alike : Simulates cacheStep shelfStep OnShelfWith := by
  rintro call ⟨c, m⟩ ⟨s, m'⟩ ⟨h, hm⟩
  obtain rfl : m = m' := hm
  replace h : OnShelf c s := h
  cases call with
  | insert key bytes ttl now =>
    rw [cacheStep, Cache.insert_eq h.inv]
    exact ⟨rfl, h.insert key bytes ttl now, rfl⟩
  | lookup key now =>
    obtain ⟨hsame, hnext⟩ := h.lookup key now
    exact ⟨congrArg _ hsame, hnext, rfl⟩
  | lookupWithMetrics key now =>
    obtain ⟨hsame, hnext⟩ := h.lookup key now
    rw [cacheStep, shelfStep, Cache.lookupWithMetrics]
    rcases hc : c.lookup key now with ⟨hit, c'⟩
    rcases hs : s.lookup key now with ⟨hit', s'⟩
    rw [hc, hs] at hsame hnext
    obtain rfl : hit = hit' := hsame
    cases hit with
    | none => exact ⟨rfl, hnext.miss, rfl⟩
    | some hit => exact ⟨rfl, hnext, rfl⟩
  | isExpired key now => exact ⟨congrArg _ (h.isExpired_eq key now), h, rfl⟩
  | shouldPrefetch key now => exact ⟨congrArg _ (h.due_eq key now), h, rfl⟩
  | recordMiss => exact ⟨rfl, h.miss, rfl⟩
  | reapExpired now => exact ⟨rfl, h.reap now, rfl⟩
  | clear => exact ⟨rfl, h.clear, rfl⟩
  | len => exact ⟨congrArg _ h.len_eq, h, rfl⟩
  | isEmpty => exact ⟨congrArg _ h.isEmpty_eq, h, rfl⟩
  | hits => exact ⟨congrArg _ h.hits, h, rfl⟩
  | misses => exact ⟨congrArg _ h.misses, h, rfl⟩
  | readGlobal name => exact ⟨rfl, h, rfl⟩

/-! ## Every sequence of calls -/

theorem onShelf_new {config : CacheConfig} (h : 1 ≤ config.size) :
    OnShelf (Cache.new config) (ShelfCache.new config h) :=
  ⟨Cache.inv_new h, rfl, rfl, rfl, fun _ => rfl, rfl, rfl⟩

theorem shelfStep_returns (call : CacheCall) (x : ShelfCache × Metrics) :
    (shelfStep call x).isSome = true := by
  obtain ⟨s, m⟩ := x
  cases call with
  | lookupWithMetrics key now =>
    unfold shelfStep
    dsimp only
    split <;> rfl
  | _ => rfl

theorem answers_shelfStep (calls : List CacheCall) (x : ShelfCache × Metrics) :
    (answers shelfStep calls x).isSome = true := by
  induction calls generalizing x with
  | nil => rfl
  | cons call calls ih =>
    obtain ⟨r, hr⟩ := Option.isSome_iff_exists.mp (shelfStep_returns call x)
    unfold answers
    rw [hr, Option.bind_some, Option.isSome_map]
    exact ih r.2

/-- **The cache refines the shelf.** On a cache created with a capacity of at least one, every
sequence of calls returns, with the answers a shelf of that capacity gives, and leaves the entries
that are on the shelf, in their order. -/
theorem cache_refines_shelf (config : CacheConfig) (hsize : 1 ≤ config.size) (m : Metrics)
    (calls : List CacheCall) :
    ∃ replies c s m', answers cacheStep calls (Cache.new config, m) = some (replies, c, m') ∧
      answers shelfStep calls (ShelfCache.new config hsize, m) = some (replies, s, m') ∧
      c.accessOrder = s.shelf.keys.reverse ∧ ∀ k, c.entries.lookup k = s.shelf.find k := by
  have hstart : OnShelfWith (Cache.new config, m) (ShelfCache.new config hsize, m) :=
    ⟨onShelf_new hsize, rfl⟩
  have halike : Alike OnShelfWith (answers cacheStep calls (Cache.new config, m))
      (answers shelfStep calls (ShelfCache.new config hsize, m)) :=
    cacheStep_alike.answers_alike hstart
  obtain ⟨⟨replies, s, m'⟩, hshelf⟩ :=
    Option.isSome_iff_exists.mp (answers_shelfStep calls (ShelfCache.new config hsize, m))
  rw [hshelf] at halike
  cases hcache : answers cacheStep calls (Cache.new config, m) with
  | none =>
    rw [hcache] at halike
    exact absurd halike id
  | some r =>
    obtain ⟨replies', c, m''⟩ := r
    rw [hcache] at halike
    obtain ⟨hreplies, h, hm⟩ := halike
    obtain rfl : replies' = replies := hreplies
    obtain rfl : m'' = m' := hm
    exact ⟨replies', c, s, m'', rfl, hshelf, h.order, h.find⟩

/-- A full cache: a hit does not save the oldest entry, and renewing the newest takes it off. -/
def fullCalls : List CacheCall :=
  [.insert keyA [1] 60 0, .insert keyB [2] 60 1, .lookup keyA 2, .insert keyB [3] 60 3, .len,
    .lookupWithMetrics keyA 4, .reapExpired 100, .isEmpty]

theorem cache_refines_shelf_full :
    1 ≤ (⟨2, 0, 2⟩ : CacheConfig).size ∧
      ∃ replies c s m', answers cacheStep fullCalls (Cache.new ⟨2, 0, 2⟩, fun _ => 0) =
          some (replies, c, m') ∧
        answers shelfStep fullCalls (ShelfCache.new ⟨2, 0, 2⟩ (by decide), fun _ => 0) =
          some (replies, s, m') ∧
        c.accessOrder = s.shelf.keys.reverse ∧ ∀ k, c.entries.lookup k = s.shelf.find k :=
  ⟨by decide, cache_refines_shelf ⟨2, 0, 2⟩ (by decide) (fun _ => 0) fullCalls⟩

end Heimdallr
