import Heimdallr.Basic
import Heimdallr.Lib.While
import Mathlib.Data.List.AList

/-!
# The response cache (`core/cache/mod.rs`)

`Cache` holds the entries by key and, beside them, `accessOrder`, the list eviction takes its
victim from. The two containers are updated separately by `insert`, `evict_lru`, `reap_expired` and
`clear`; `Cache.Inv` is what keeps them together.

* The `HashMap` is an association list without repeated keys (`AList`). Its order stands for the
  order in which the map is iterated and is nowhere relied on.
* `access_order` is a `Vec` in the source. `lookup` does not touch it, in spite of its name; only
  `insert` appends to it.
* `insert` evicts in a `while` loop that asks for the number of entries. On an empty access order a
  round does nothing at all, so the loop could run for ever: `insert` gives `none` when it does not
  end (`makeRoom_none`).
* `retain` takes every occurrence of a key out of `access_order`, `remove(0)` the first element
  only.
* The clock is an argument of every operation that reads it. Two readings within one operation are
  taken to be one.
* `hit_count`, `hits` and `misses` are natural numbers; what becomes of a `u64` at its bound is left
  out.

Results:
* `insert_spec`: from a cache with the invariant, the eviction loop of `insert` ends and the new
  cache has the invariant, the new entry, and otherwise only entries that were there before.
* `representation_invariant`: the invariant holds after every sequence of operations on a cache
  created with a capacity of at least one.

`LiveCache` is a cache together with its invariant; on it `insert` is total. The modules over this
one work on it, so that no later proof goes back to the loop.
-/

namespace Heimdallr

open Lib

/-- `CacheKey`: the query name, the query type and the client subnet. -/
structure CacheKey where
  qname : String
  qtype : UInt16
  clientSubnet : Option (IpAddr × UInt8)
  deriving DecidableEq, Repr

/-- `CacheEntry`. `hit_count` is a `u64` in the source and unbounded here: that a snapshot may set it
near its bound, and a hit then overflows it, is left out. -/
structure CacheEntry where
  responseBytes : Bytes
  insertedAt : Instant
  originalTtl : Duration
  hitCount : Nat
  lastAccess : Instant
  deriving DecidableEq, Repr

namespace CacheEntry

/-- `inserted_at.elapsed()` at the clock reading `now`. -/
def elapsed (e : CacheEntry) (now : Instant) : Duration := now - e.insertedAt

/-- `ttl_remaining`. -/
def ttlRemaining (e : CacheEntry) (now : Instant) : Duration :=
  if e.originalTtl ≤ e.elapsed now then 0 else e.originalTtl - e.elapsed now

/-- `is_expired`. -/
def isExpired (e : CacheEntry) (now : Instant) : Bool := e.ttlRemaining now == 0

/-- `is_stale`: expired, and still inside the serve-stale window. -/
def isStale (e : CacheEntry) (staleWindow : Duration) (now : Instant) : Bool :=
  e.isExpired now && decide (e.elapsed now ≤ e.originalTtl + staleWindow)

theorem isExpired_iff {e : CacheEntry} {now : Instant} :
    e.isExpired now = true ↔ e.originalTtl ≤ e.elapsed now := by
  unfold isExpired ttlRemaining
  rw [beq_iff_eq]
  split
  · simp [*]
  · rename_i hlt
    exact ⟨fun h => Nat.sub_eq_zero_iff_le.mp h, fun h => absurd h hlt⟩

theorem isStale_iff {e : CacheEntry} {w : Duration} {now : Instant} :
    e.isStale w now = true ↔
      e.originalTtl ≤ e.elapsed now ∧ e.elapsed now ≤ e.originalTtl + w := by
  unfold isStale
  rw [Bool.and_eq_true, isExpired_iff, decide_eq_true_eq]

/-- Nothing an entry has left is more than its TTL. -/
theorem ttlRemaining_le (e : CacheEntry) (now : Instant) : e.ttlRemaining now ≤ e.originalTtl := by
  unfold ttlRemaining
  split
  · exact Nat.zero_le _
  · exact Nat.sub_le _ _

/-- At its insertion an entry has all of its TTL. -/
theorem ttlRemaining_insertedAt (e : CacheEntry) : e.ttlRemaining e.insertedAt = e.originalTtl := by
  have helapsed : e.elapsed e.insertedAt = 0 := Nat.sub_self _
  unfold ttlRemaining
  rw [helapsed]
  split
  · rename_i hle
    exact (Nat.le_zero.mp hle).symm
  · exact Nat.sub_zero _

end CacheEntry

/-- `CacheConfig` of the running cache. -/
structure CacheConfig where
  size : Nat
  serveStale : Duration
  prefetch : Nat
  deriving DecidableEq, Repr

/-- `CacheConfig::default`. -/
def CacheConfig.default : CacheConfig := ⟨50000, Duration.fromSecs 30, 2⟩

theorem CacheConfig.one_le_default_size : 1 ≤ CacheConfig.default.size := by decide

/-- What `lookup` returns on a hit: the bytes, the stale flag and the hit count. -/
structure Hit where
  bytes : Bytes
  stale : Bool
  hits : Nat
  deriving DecidableEq, Repr

/-- `Cache`. The hash map is a list of entries with distinct keys. -/
structure Cache where
  config : CacheConfig
  entries : AList (fun _ : CacheKey => CacheEntry)
  accessOrder : List CacheKey
  hits : Nat
  misses : Nat

namespace Cache

/-- `Cache::new`. -/
def new (config : CacheConfig) : Cache :=
  { config, entries := ∅, accessOrder := [], hits := 0, misses := 0 }

/-- `len`. -/
def len (c : Cache) : Nat := c.entries.keys.length

/-- `is_empty`. -/
def isEmpty (c : Cache) : Bool := c.entries.keys.isEmpty

/-- `is_expired`; a key that is not there counts as expired. -/
def isExpired (c : Cache) (key : CacheKey) (now : Instant) : Bool :=
  match c.entries.lookup key with
  | some entry => entry.isExpired now
  | none => true

/-- `lookup`: counts the hit in the cache and in the entry. Expiry is not looked at. -/
def lookup (c : Cache) (key : CacheKey) (now : Instant) : Option Hit × Cache :=
  match c.entries.lookup key with
  | none => (none, c)
  | some entry =>
    let stale := entry.isStale c.config.serveStale now
    let entry' := { entry with hitCount := entry.hitCount + 1, lastAccess := now }
    (some ⟨entry.responseBytes, stale, entry'.hitCount⟩,
      { c with entries := c.entries.insert key entry', hits := c.hits + 1 })

/-- `record_miss`. -/
def recordMiss (c : Cache) (m : Metrics) : Cache × Metrics :=
  ({ c with misses := c.misses + 1 }, m.increment .CacheMissesTotal 1)

/-- `lookup_with_metrics`. -/
def lookupWithMetrics (c : Cache) (m : Metrics) (key : CacheKey) (now : Instant) :
    Option Hit × Cache × Metrics :=
  match c.lookup key now with
  | (some hit, c') => (some hit, c', m.increment .CacheHitsTotal 1)
  | (none, c') => (none, c'.recordMiss m)

/-- `evict_lru`: drop the first key of the access order; nothing when there is none. -/
def evictLru (c : Cache) : Cache :=
  match c.accessOrder with
  | [] => c
  | oldest :: rest => { c with entries := c.entries.erase oldest, accessOrder := rest }

/-- The condition of the eviction loop: `entries.len() >= config.size`. -/
def isFull (c : Cache) : Bool := decide (c.config.size ≤ c.len)

/-- `while entries.len() >= config.size { evict_lru() }`. A round that evicts shortens the access
order and any other changes nothing, so this many rounds decide whether the loop ends. -/
def makeRoom (c : Cache) : Option Cache := whileLoop isFull evictLru c.accessOrder.length c

/-- The part of `insert` after the loop: an old entry of the key leaves the access order, the new
one goes to its end. -/
def put (c : Cache) (key : CacheKey) (responseBytes : Bytes) (originalTtl : Duration)
    (now : Instant) : Cache :=
  let entry : CacheEntry :=
    { responseBytes, insertedAt := now, originalTtl, hitCount := 0, lastAccess := now }
  let order :=
    if (c.entries.lookup key).isSome then c.accessOrder.filter (· ≠ key) else c.accessOrder
  { c with entries := c.entries.insert key entry, accessOrder := order ++ [key] }

/-- `insert`; `none` when the eviction loop never ends. -/
def insert (c : Cache) (key : CacheKey) (responseBytes : Bytes) (originalTtl : Duration)
    (now : Instant) : Option Cache :=
  c.makeRoom.map fun c => c.put key responseBytes originalTtl now

/-- One removal of `reap_expired`. -/
def removeKey (c : Cache) (key : CacheKey) : Cache :=
  { c with entries := c.entries.erase key, accessOrder := c.accessOrder.filter (· ≠ key) }

/-- The keys `reap_expired` collects: expired and not even stale. -/
def expiredKeys (c : Cache) (now : Instant) : List CacheKey :=
  (c.entries.entries.filter fun e =>
    e.2.isExpired now && !e.2.isStale c.config.serveStale now).map Sigma.fst

/-- `reap_expired`. -/
def reapExpired (c : Cache) (now : Instant) : Cache := (c.expiredKeys now).foldl removeKey c

/-- `should_prefetch`. -/
def shouldPrefetch (c : Cache) (key : CacheKey) (now : Instant) : Bool :=
  if c.config.prefetch = 0 then false
  else
    match c.entries.lookup key with
    | some entry =>
      decide (entry.ttlRemaining now < Duration.fromSecs (c.config.prefetch * entry.hitCount))
    | none => false

/-- `clear`. -/
def clear (c : Cache) : Cache := { c with entries := ∅, accessOrder := [], hits := 0, misses := 0 }

/-! ## The representation invariant -/

/-- The access order lists the keys of the entries, each once, and there is room for at least one
entry and never more than the capacity. -/
structure Inv (c : Cache) : Prop where
  size_pos : 1 ≤ c.config.size
  order : c.accessOrder.Perm c.entries.keys
  bound : c.len ≤ c.config.size

theorem Inv.nodup {c : Cache} (h : c.Inv) : c.accessOrder.Nodup :=
  h.order.nodup_iff.mpr c.entries.keys_nodup

theorem Inv.mem_iff {c : Cache} (h : c.Inv) {k : CacheKey} :
    k ∈ c.accessOrder ↔ k ∈ c.entries := by
  rw [h.order.mem_iff, AList.mem_keys]

/-- Every key of the entries stands in the access order exactly once, and no other key does. -/
theorem Inv.count_eq {c : Cache} (h : c.Inv) (k : CacheKey) :
    c.accessOrder.count k = if k ∈ c.entries then 1 else 0 := by
  rw [h.nodup.count, if_congr h.mem_iff rfl rfl]

theorem inv_new {config : CacheConfig} (h : 1 ≤ config.size) : (new config).Inv where
  size_pos := h
  order := List.Perm.refl _
  bound := Nat.zero_le _

/-- Erasing a key from the entries and from a list of the keys leaves a list of the keys. -/
theorem perm_filter_ne {c : Cache} {l : List CacheKey} (h : l.Perm c.entries.keys)
    (k : CacheKey) : (l.filter (· ≠ k)).Perm (c.entries.erase k).keys := by
  have hnd : l.Nodup := h.nodup_iff.mpr c.entries.keys_nodup
  have hfe : l.filter (· ≠ k) = l.erase k := by
    rw [hnd.erase_eq_filter]
    exact List.filter_congr fun x _ => by by_cases hx : x = k <;> simp [hx]
  rw [hfe, AList.keys_erase]
  exact h.erase k

/-- The keys after an insertion: the old ones without `k`, and `k`. -/
theorem perm_insert_keys {m : AList (fun _ : CacheKey => CacheEntry)} {l : List CacheKey}
    {k : CacheKey} {e : CacheEntry} (h : l.Perm (m.keys.erase k)) :
    (l ++ [k]).Perm (m.insert k e).keys := by
  rw [AList.keys_insert]
  exact List.perm_append_comm.trans (h.cons k)

theorem keys_insert_of_mem {m : AList (fun _ : CacheKey => CacheEntry)} {k : CacheKey}
    {e : CacheEntry} (h : k ∈ m) : m.keys.Perm (m.insert k e).keys := by
  rw [AList.keys_insert]
  exact List.perm_cons_erase (AList.mem_keys.mp h)

theorem inv_lookup {c : Cache} (h : c.Inv) (k : CacheKey) (now : Instant) :
    (c.lookup k now).2.Inv := by
  unfold lookup
  cases hk : c.entries.lookup k with
  | none => exact h
  | some e =>
    have hmem : k ∈ c.entries := AList.lookup_isSome.mp (by rw [hk]; rfl)
    have hperm := keys_insert_of_mem (e := { e with hitCount := e.hitCount + 1, lastAccess := now })
      hmem
    exact ⟨h.size_pos, h.order.trans hperm, by
      show List.length _ ≤ _
      rw [← hperm.length_eq]
      exact h.bound⟩

theorem inv_lookupWithMetrics {c : Cache} (h : c.Inv) (m : Metrics) (k : CacheKey)
    (now : Instant) : (c.lookupWithMetrics m k now).2.1.Inv := by
  have hl := inv_lookup h k now
  unfold lookupWithMetrics
  rcases hk : c.lookup k now with ⟨hit, c'⟩
  rw [hk] at hl
  cases hit with
  | none => exact ⟨hl.size_pos, hl.order, hl.bound⟩
  | some hit => exact hl

/-- What `lookup_with_metrics` returns. -/
theorem lookupWithMetrics_fst (c : Cache) (m : Metrics) (key : CacheKey) (now : Instant) :
    (c.lookupWithMetrics m key now).1 = (c.entries.lookup key).map fun e =>
      ⟨e.responseBytes, e.isStale c.config.serveStale now, e.hitCount + 1⟩ := by
  unfold lookupWithMetrics lookup
  cases c.entries.lookup key <;> rfl

/-- What `lookup_with_metrics` leaves under every key. -/
theorem lookup_lookupWithMetrics (c : Cache) (m : Metrics) (key : CacheKey) (now : Instant)
    (k : CacheKey) :
    (c.lookupWithMetrics m key now).2.1.entries.lookup k = (c.entries.lookup k).map fun e =>
      if k = key then { e with hitCount := e.hitCount + 1, lastAccess := now } else e := by
  unfold lookupWithMetrics lookup
  by_cases hk : k = key
  · subst hk
    cases h : c.entries.lookup k with
    | none => simp [recordMiss, h]
    | some e => simp
  · cases h : c.entries.lookup key with
    | none => simp [recordMiss, hk]
    | some e => simp [hk, AList.lookup_insert_ne]

theorem entries_lookup (c : Cache) (m : Metrics) (key : CacheKey) (now : Instant) :
    (c.lookup key now).2.entries = (c.lookupWithMetrics m key now).2.1.entries := by
  unfold lookupWithMetrics lookup
  cases c.entries.lookup key <;> rfl

/-! ## The eviction loop -/

/-- One round of the loop on a cache whose access order lists its keys: the list stays one, and
gets shorter. -/
theorem evictLru_round {c : Cache} (hs : 1 ≤ c.config.size)
    (ho : c.accessOrder.Perm c.entries.keys) (hfull : c.isFull = true) :
    (c.evictLru.config = c.config ∧ c.evictLru.accessOrder.Perm c.evictLru.entries.keys) ∧
      c.evictLru.accessOrder.length < c.accessOrder.length := by
  unfold isFull at hfull
  rw [decide_eq_true_eq] at hfull
  unfold evictLru
  cases hao : c.accessOrder with
  | nil =>
    -- an empty access order means no entries, which is less than a capacity of one
    rw [hao] at ho
    have hlen : c.len = 0 := by
      unfold len
      rw [List.nil_perm.mp ho, List.length_nil]
    omega
  | cons k rest =>
    rw [hao] at ho
    refine ⟨⟨rfl, ?_⟩, by simp⟩
    show rest.Perm (c.entries.erase k).keys
    rw [AList.keys_erase]
    simpa using ho.erase k

/-- Eviction never brings an entry in. -/
theorem evictLru_lookup {c : Cache} {k : CacheKey} {e : CacheEntry}
    (h : c.evictLru.entries.lookup k = some e) : c.entries.lookup k = some e := by
  unfold evictLru at h
  split at h
  · exact h
  · rename_i oldest rest _
    by_cases hk : k = oldest
    · subst hk
      simp at h
    · rwa [AList.lookup_erase_ne hk] at h

/-- **The eviction loop ends with room for one more entry**, and only removes entries. -/
theorem makeRoom_spec {c : Cache} (h : c.Inv) :
    ∃ c', c.makeRoom = some c' ∧ c'.config = c.config ∧ c'.len < c'.config.size ∧
      c'.accessOrder.Perm c'.entries.keys ∧
      ∀ k e, c'.entries.lookup k = some e → c.entries.lookup k = some e := by
  obtain ⟨c', hrun, ⟨hcfg, hord, hsub⟩, hroom⟩ :=
    whileLoop_terminates (b := isFull) (f := evictLru)
      (μ := fun c => c.accessOrder.length)
      (I := fun d => d.config = c.config ∧ d.accessOrder.Perm d.entries.keys ∧
        ∀ k e, d.entries.lookup k = some e → c.entries.lookup k = some e)
      (fun d hd hfull => by
        obtain ⟨hcfg, hord, hsub⟩ := hd
        obtain ⟨⟨hcfg', hord'⟩, hlt⟩ := evictLru_round (by rw [hcfg]; exact h.size_pos) hord hfull
        exact ⟨⟨hcfg'.trans hcfg, hord', fun k e he => hsub k e (evictLru_lookup he)⟩, hlt⟩)
      (s := c) ⟨rfl, h.order, fun _ _ he => he⟩ (Nat.le_refl _)
  refine ⟨c', hrun, hcfg, ?_, hord, hsub⟩
  unfold isFull at hroom
  simpa using hroom

/-- With room the loop does nothing. -/
theorem makeRoom_of_room {c : Cache} (h : c.len < c.config.size) : c.makeRoom = some c := by
  have hfull : c.isFull = false := by
    unfold isFull
    rw [decide_eq_false_iff_not]
    omega
  unfold makeRoom
  cases c.accessOrder.length <;> simp [whileLoop, hfull]

/-- When `makeRoom` gives `none`, the loop runs for ever. -/
theorem makeRoom_none {c : Cache} (h : c.makeRoom = none) :
    ∀ n, whileLoop isFull evictLru n c = none := by
  unfold makeRoom at h
  exact whileLoop_diverges (μ := fun c => c.accessOrder.length)
    (fun c _ => by
      unfold evictLru
      cases hao : c.accessOrder with
      | nil => exact Or.inr rfl
      | cons k rest => exact Or.inl (by simp))
    (Nat.le_refl c.accessOrder.length) h

/-- `put` on a cache with room keeps the invariant. -/
theorem inv_put {c : Cache} (hs : 1 ≤ c.config.size) (ho : c.accessOrder.Perm c.entries.keys)
    (hroom : c.len < c.config.size) (k : CacheKey) (bytes : Bytes) (ttl : Duration)
    (now : Instant) : (c.put k bytes ttl now).Inv := by
  have herase : ∀ {l : List CacheKey}, l.Perm (c.entries.keys.erase k) →
      ((l ++ [k]).Perm (c.entries.insert k ⟨bytes, now, ttl, 0, now⟩).keys) :=
    fun hl => perm_insert_keys hl
  have horder : (c.put k bytes ttl now).accessOrder.Perm (c.put k bytes ttl now).entries.keys := by
    unfold put
    cases hk : c.entries.lookup k with
    | none =>
      have hnot : k ∉ c.entries.keys := fun hm => by
        have := AList.lookup_isSome.mpr (AList.mem_keys.mpr hm)
        rw [hk] at this
        exact absurd this (by simp)
      refine herase ?_
      rw [List.erase_of_not_mem hnot]
      simpa using ho
    | some e =>
      refine herase ?_
      rw [← AList.keys_erase]
      simpa using perm_filter_ne ho k
  refine ⟨hs, horder, ?_⟩
  show (c.entries.insert k _).keys.length ≤ c.config.size
  rw [AList.keys_insert, List.length_cons]
  have hle := List.length_erase_le (a := k) (l := c.entries.keys)
  unfold len at hroom
  omega

/-- **What `insert` does** to a cache with the invariant. -/
theorem insert_spec {c : Cache} (h : c.Inv) (k : CacheKey) (bytes : Bytes) (ttl : Duration)
    (now : Instant) :
    ∃ c', c.insert k bytes ttl now = some c' ∧ c'.Inv ∧ c'.config = c.config ∧
      c'.entries.lookup k = some ⟨bytes, now, ttl, 0, now⟩ ∧
      ∀ k' e, k' ≠ k → c'.entries.lookup k' = some e → c.entries.lookup k' = some e := by
  obtain ⟨d, hrun, hcfg, hroom, hord, hsub⟩ := makeRoom_spec h
  refine ⟨d.put k bytes ttl now, by rw [insert, hrun]; rfl,
    inv_put (by rw [hcfg]; exact h.size_pos) hord hroom k bytes ttl now, hcfg, ?_, ?_⟩
  · show (d.entries.insert k _).lookup k = _
    rw [AList.lookup_insert]
  · intro k' e hne he
    refine hsub k' e ?_
    rw [← he]
    show _ = (d.entries.insert k _).lookup k'
    rw [AList.lookup_insert_ne hne]

/-! ## Reaping and clearing -/

theorem inv_removeKey {c : Cache} (h : c.Inv) (k : CacheKey) : (c.removeKey k).Inv where
  size_pos := h.size_pos
  order := perm_filter_ne h.order k
  bound := by
    have hle := List.length_erase_le (a := k) (l := c.entries.keys)
    have hb := h.bound
    unfold len removeKey at *
    rw [AList.keys_erase]
    exact Nat.le_trans hle hb

theorem inv_foldl_removeKey (ks : List CacheKey) :
    ∀ {c : Cache}, c.Inv → (ks.foldl removeKey c).Inv := by
  induction ks with
  | nil => exact fun h => h
  | cons k ks ih => exact fun h => ih (inv_removeKey h k)

/-- Reaping brings no entry in. -/
theorem lookup_of_foldl_removeKey (keys : List CacheKey) {c : Cache} {k : CacheKey}
    {e : CacheEntry} (h : (keys.foldl removeKey c).entries.lookup k = some e) :
    c.entries.lookup k = some e := by
  induction keys generalizing c with
  | nil => exact h
  | cons key keys ih =>
    have hone : (c.entries.erase key).lookup k = some e := ih h
    by_cases hk : k = key
    · subst hk
      rw [AList.lookup_erase] at hone
      cases hone
    · rwa [AList.lookup_erase_ne hk] at hone

theorem inv_reapExpired {c : Cache} (h : c.Inv) (now : Instant) : (c.reapExpired now).Inv :=
  inv_foldl_removeKey _ h

theorem inv_clear {c : Cache} (h : c.Inv) : c.clear.Inv where
  size_pos := h.size_pos
  order := List.Perm.refl _
  bound := Nat.zero_le _

end Cache

/-! ## Every sequence of operations -/

/-- The public operations of the cache, with the clock reading each one takes. -/
inductive CacheOp
  | insert (key : CacheKey) (responseBytes : Bytes) (originalTtl : Duration) (now : Instant)
  | lookup (key : CacheKey) (now : Instant)
  | lookupWithMetrics (key : CacheKey) (now : Instant)
  | recordMiss
  | reapExpired (now : Instant)
  | clear

/-- One operation; `none` when `insert` does not return. -/
def CacheOp.apply : CacheOp → Cache × Metrics → Option (Cache × Metrics)
  | .insert key bytes ttl now, (c, m) => (c.insert key bytes ttl now).map (·, m)
  | .lookup key now, (c, m) => some ((c.lookup key now).2, m)
  | .lookupWithMetrics key now, (c, m) => some (c.lookupWithMetrics m key now).2
  | .recordMiss, (c, m) => some (c.recordMiss m)
  | .reapExpired now, (c, m) => some (c.reapExpired now, m)
  | .clear, (c, m) => some (c.clear, m)

/-- A sequence of operations. -/
def CacheOp.runAll : List CacheOp → Cache × Metrics → Option (Cache × Metrics)
  | [], s => some s
  | op :: ops, s => (op.apply s).bind (CacheOp.runAll ops)

/-- One operation returns, with the invariant and the configuration kept. -/
theorem CacheOp.apply_inv {s : Cache × Metrics} (h : s.1.Inv) (op : CacheOp) :
    ∃ s', op.apply s = some s' ∧ s'.1.Inv ∧ s'.1.config = s.1.config := by
  obtain ⟨c, m⟩ := s
  cases op with
  | insert key bytes ttl now =>
    obtain ⟨c', hrun, hinv, hcfg, -, -⟩ := Cache.insert_spec h key bytes ttl now
    exact ⟨(c', m), by simp [apply, hrun], hinv, hcfg⟩
  | lookup key now =>
    refine ⟨_, rfl, Cache.inv_lookup h key now, ?_⟩
    show (c.lookup key now).2.config = c.config
    unfold Cache.lookup
    split <;> rfl
  | lookupWithMetrics key now =>
    refine ⟨_, rfl, Cache.inv_lookupWithMetrics h m key now, ?_⟩
    show (c.lookupWithMetrics m key now).2.1.config = c.config
    unfold Cache.lookupWithMetrics Cache.lookup
    cases c.entries.lookup key <;> rfl
  | recordMiss => exact ⟨_, rfl, ⟨h.size_pos, h.order, h.bound⟩, rfl⟩
  | reapExpired now =>
    refine ⟨_, rfl, Cache.inv_reapExpired h now, ?_⟩
    show (List.foldl Cache.removeKey c _).config = c.config
    generalize c.expiredKeys now = ks
    clear h
    induction ks generalizing c with
    | nil => rfl
    | cons k ks ih => exact ih (c.removeKey k)
  | clear => exact ⟨_, rfl, Cache.inv_clear h, rfl⟩

theorem CacheOp.runAll_inv (ops : List CacheOp) :
    ∀ {s : Cache × Metrics}, s.1.Inv →
      ∃ s', runAll ops s = some s' ∧ s'.1.Inv ∧ s'.1.config = s.1.config := by
  induction ops with
  | nil => exact fun {s} h => ⟨s, rfl, h, rfl⟩
  | cons op ops ih =>
    intro s h
    obtain ⟨s₁, h₁, hinv₁, hcfg₁⟩ := apply_inv h op
    obtain ⟨s₂, h₂, hinv₂, hcfg₂⟩ := ih hinv₁
    exact ⟨s₂, by simp [runAll, h₁, h₂], hinv₂, hcfg₂.trans hcfg₁⟩

/-- **The representation invariant.** On a cache created with a capacity of at least one, every
sequence of operations returns; afterwards the access order has each key of the entries exactly
once and no other key, the entries are within the capacity, and the eviction loop of a further
`insert` ends with room for its entry. -/
theorem representation_invariant (config : CacheConfig) (hsize : 1 ≤ config.size) (m : Metrics)
    (ops : List CacheOp) :
    ∃ c m', CacheOp.runAll ops (Cache.new config, m) = some (c, m') ∧
      (∀ k, c.accessOrder.count k = if k ∈ c.entries then 1 else 0) ∧
      c.len ≤ config.size ∧
      ∃ room, c.makeRoom = some room ∧ room.len < config.size := by
  obtain ⟨⟨c, m'⟩, hrun, hinv, hcfg⟩ :=
    CacheOp.runAll_inv ops (s := (Cache.new config, m)) (Cache.inv_new hsize)
  replace hcfg : c.config = config := hcfg
  obtain ⟨room, hroom, hrcfg, hlen, -, -⟩ := Cache.makeRoom_spec hinv
  refine ⟨c, m', hrun, hinv.count_eq, ?_, room, hroom, ?_⟩
  · rw [← hcfg]
    exact hinv.bound
  · rw [← hcfg, ← hrcfg]
    exact hlen

/-- Two keys through a cache of one entry: the second `insert` evicts. -/
theorem representation_invariant_evicting :
    1 ≤ (⟨1, 0, 2⟩ : CacheConfig).size ∧
      ∃ c m', CacheOp.runAll [.insert ⟨"a.", 1, none⟩ [1] 60 0, .lookup ⟨"a.", 1, none⟩ 5,
          .insert ⟨"b.", 1, none⟩ [2] 60 7, .reapExpired 200]
          (Cache.new ⟨1, 0, 2⟩, fun _ => 0) = some (c, m') ∧
        (∀ k, c.accessOrder.count k = if k ∈ c.entries then 1 else 0) ∧
        c.len ≤ 1 ∧
        ∃ room, c.makeRoom = some room ∧ room.len < 1 :=
  ⟨by decide, representation_invariant ⟨1, 0, 2⟩ (by decide) (fun _ => 0) _⟩

/-! ## Caches with their invariant -/

/-- A cache that was created with room and changed by its operations only: the fields of `Cache`
are private to its module. -/
structure LiveCache where
  cache : Cache
  inv : cache.Inv

namespace LiveCache

/-- `Cache::new`, for a configuration that passes `Config::validate`. -/
def new (config : CacheConfig) (h : 1 ≤ config.size) : LiveCache :=
  ⟨Cache.new config, Cache.inv_new h⟩

/-- The entry stored under a key. -/
def entryAt (c : LiveCache) (key : CacheKey) : Option CacheEntry := c.cache.entries.lookup key

/-- `Cache::lookup_with_metrics`. -/
def lookupWithMetrics (c : LiveCache) (m : Metrics) (key : CacheKey) (now : Instant) :
    Option Hit × LiveCache × Metrics :=
  let r := c.cache.lookupWithMetrics m key now
  (r.1, ⟨r.2.1, Cache.inv_lookupWithMetrics c.inv m key now⟩, r.2.2)

theorem insert_isSome (c : LiveCache) (key : CacheKey) (bytes : Bytes) (ttl : Duration)
    (now : Instant) : (c.cache.insert key bytes ttl now).isSome := by
  obtain ⟨c', h, -⟩ := Cache.insert_spec c.inv key bytes ttl now
  rw [h]
  rfl

theorem inv_insert_get (c : LiveCache) (key : CacheKey) (bytes : Bytes) (ttl : Duration)
    (now : Instant) :
    ((c.cache.insert key bytes ttl now).get (c.insert_isSome key bytes ttl now)).Inv := by
  obtain ⟨c', h, hinv, -⟩ := Cache.insert_spec c.inv key bytes ttl now
  simp only [h, Option.get_some]
  exact hinv

/-- `insert`, which returns on every live cache. -/
def insert (c : LiveCache) (key : CacheKey) (bytes : Bytes) (ttl : Duration) (now : Instant) :
    LiveCache :=
  ⟨(c.cache.insert key bytes ttl now).get (c.insert_isSome key bytes ttl now),
    c.inv_insert_get key bytes ttl now⟩

theorem entryAt_insert (c : LiveCache) (key : CacheKey) (bytes : Bytes) (ttl : Duration)
    (now : Instant) :
    (c.insert key bytes ttl now).entryAt key = some ⟨bytes, now, ttl, 0, now⟩ := by
  obtain ⟨c', h, -, -, hk, -⟩ := Cache.insert_spec c.inv key bytes ttl now
  unfold entryAt insert
  simp only [h, Option.get_some]
  exact hk

/-- An insertion brings in no entry but its own. -/
theorem entryAt_of_insert {c : LiveCache} {key k : CacheKey} {bytes : Bytes} {ttl : Duration}
    {now : Instant} {e : CacheEntry} (hne : k ≠ key)
    (he : (c.insert key bytes ttl now).entryAt k = some e) : c.entryAt k = some e := by
  obtain ⟨c', h, -, -, -, hsub⟩ := Cache.insert_spec c.inv key bytes ttl now
  unfold entryAt insert at he
  simp only [h, Option.get_some] at he
  exact hsub k e hne he

/-- A lookup returns what is stored under the key. -/
theorem lookupWithMetrics_fst (c : LiveCache) (m : Metrics) (key : CacheKey) (now : Instant) :
    (c.lookupWithMetrics m key now).1 = (c.entryAt key).map fun e =>
      ⟨e.responseBytes, e.isStale c.cache.config.serveStale now, e.hitCount + 1⟩ :=
  c.cache.lookupWithMetrics_fst m key now

/-- A lookup leaves every entry as it was, except that it counts the hit in the entry of its
key. -/
theorem entryAt_lookupWithMetrics (c : LiveCache) (m : Metrics) (key : CacheKey) (now : Instant)
    (k : CacheKey) :
    (c.lookupWithMetrics m key now).2.1.entryAt k = (c.entryAt k).map fun e =>
      if k = key then { e with hitCount := e.hitCount + 1, lastAccess := now } else e :=
  c.cache.lookup_lookupWithMetrics m key now k

@[simp] theorem config_insert (c : LiveCache) (key : CacheKey) (bytes : Bytes) (ttl : Duration)
    (now : Instant) : (c.insert key bytes ttl now).cache.config = c.cache.config := by
  obtain ⟨c', h, -, hcfg, -⟩ := Cache.insert_spec c.inv key bytes ttl now
  unfold insert
  simp only [h, Option.get_some]
  exact hcfg

@[simp] theorem config_lookupWithMetrics (c : LiveCache) (m : Metrics) (key : CacheKey)
    (now : Instant) :
    (c.lookupWithMetrics m key now).2.1.cache.config = c.cache.config := by
  show (c.cache.lookupWithMetrics m key now).2.1.config = c.cache.config
  unfold Cache.lookupWithMetrics Cache.lookup
  cases c.cache.entries.lookup key <;> rfl

end LiveCache

end Heimdallr
