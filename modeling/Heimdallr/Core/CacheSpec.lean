import Heimdallr.Core.Cache
import Heimdallr.Lib.Run
import Mathlib.Data.List.Infix
import Mathlib.Logic.Function.Basic

/-!
# What `insert` and `reap_expired` do to a cache, exactly

`Cache.Inv` bounds the entries by the capacity, so the eviction loop of `insert` makes at most one
round (`makeRoom_eq`), and its victim is the first key of the access order (`evicts_iff`). This is
what turns the statements of this module into statements about one cache rather than about a loop.

`insert` runs the loop before it looks whether its key is there. A key that is refreshed needs no
room, and another one is evicted for it all the same, unless the victim is the key itself.

Results:
* `refresh_evicts_nothing_iff`: refreshing a key leaves the other entries alone exactly when the
  cache has room or the key is itself the victim.
* `reap_exact`: reaping removes the entries past their TTL and the serve-stale window and nothing
  else; it keeps the order of the others and the counters, and reaping again changes nothing.

Durations are unbounded: `original_ttl + stale_window` does not overflow here, as it could in the
source for a TTL near the bound of `Duration`, which no answer has.
-/

namespace Heimdallr

open Lib

namespace Cache

/-! ## The eviction loop, in one step -/

theorem isFull_iff {c : Cache} : c.isFull = true ↔ c.config.size ≤ c.len := by
  unfold isFull
  rw [decide_eq_true_eq]

theorem len_eq {c : Cache} (ho : c.accessOrder.Perm c.entries.keys) :
    c.len = c.accessOrder.length := ho.length_eq.symm

/-- What the loop leaves: the cache without the victim, when it is full. -/
def room (c : Cache) : Cache := if c.isFull then c.evictLru else c

theorem room_config (c : Cache) : c.room.config = c.config := by
  unfold room evictLru
  split
  · split <;> rfl
  · rfl

theorem room_of_not_full {c : Cache} (h : c.isFull = false) : c.room = c := by
  unfold room
  rw [h]
  rfl

/-- A full cache has a first key, and `room` drops it. -/
theorem room_of_full {c : Cache} (h : c.Inv) (hfull : c.isFull = true) :
    ∃ oldest rest, c.accessOrder = oldest :: rest ∧
      c.room = { c with entries := c.entries.erase oldest, accessOrder := rest } := by
  have hlen := isFull_iff.mp hfull
  have hpos := h.size_pos
  rw [len_eq h.order] at hlen
  cases hao : c.accessOrder with
  | nil =>
    rw [hao, List.length_nil] at hlen
    omega
  | cons oldest rest =>
    refine ⟨oldest, rest, rfl, ?_⟩
    unfold room evictLru
    rw [hfull, hao]
    rfl

theorem room_order {c : Cache} (h : c.Inv) : c.room.accessOrder.Perm c.room.entries.keys := by
  cases hfull : c.isFull with
  | false =>
    rw [room_of_not_full hfull]
    exact h.order
  | true =>
    unfold room
    rw [hfull]
    exact (evictLru_round h.size_pos h.order hfull).1.2

/-- One round makes room: the entries were within the capacity. -/
theorem room_not_full {c : Cache} (h : c.Inv) : c.room.isFull = false := by
  cases hfull : c.isFull with
  | false => rw [room_of_not_full hfull, hfull]
  | true =>
    obtain ⟨oldest, rest, hao, hroom⟩ := room_of_full h hfull
    have hbound := h.bound
    rw [len_eq h.order, hao, List.length_cons] at hbound
    have hlen : c.room.len = rest.length := by
      rw [len_eq (room_order h), hroom]
    rw [← Bool.not_eq_true, isFull_iff, hlen, room_config]
    omega

/-- **The eviction loop makes at most one round.** -/
theorem makeRoom_eq {c : Cache} (h : c.Inv) : c.makeRoom = some c.room := by
  cases hfull : c.isFull with
  | false =>
    have hlt : c.len < c.config.size := by
      rw [← Bool.not_eq_true, isFull_iff] at hfull
      omega
    rw [makeRoom_of_room hlt, room_of_not_full hfull]
  | true =>
    obtain ⟨oldest, rest, hao, hroom⟩ := room_of_full h hfull
    have hround : c.evictLru = c.room := by
      unfold room
      rw [hfull]
      rfl
    unfold makeRoom
    rw [hao, List.length_cons, whileLoop, hfull, if_pos rfl, hround]
    cases rest with
    | nil => simp [whileLoop, room_not_full h]
    | cons k ks => simp [whileLoop, room_not_full h]

/-- **What `insert` computes** on a cache with the invariant. -/
theorem insert_eq {c : Cache} (h : c.Inv) (k : CacheKey) (bytes : Bytes) (ttl : Duration)
    (now : Instant) : c.insert k bytes ttl now = some (c.room.put k bytes ttl now) := by
  unfold insert
  rw [makeRoom_eq h]
  rfl

/-- The new key goes to the end of the access order, the others keep their places. -/
theorem put_order {c : Cache} (ho : c.accessOrder.Perm c.entries.keys) (k : CacheKey)
    (bytes : Bytes) (ttl : Duration) (now : Instant) :
    (c.put k bytes ttl now).accessOrder = c.accessOrder.filter (· ≠ k) ++ [k] := by
  unfold put
  cases hk : c.entries.lookup k with
  | some e => rfl
  | none =>
    have hnot : k ∉ c.accessOrder := by
      rw [ho.mem_iff, ← AList.mem_keys, ← AList.lookup_isSome, hk]
      simp
    have hsame : c.accessOrder.filter (· ≠ k) = c.accessOrder := by
      rw [List.filter_eq_self]
      intro x hx
      exact decide_eq_true fun hxk => hnot (hxk ▸ hx)
    rw [hsame]
    rfl

theorem put_lookup_ne {c : Cache} {k k' : CacheKey} (hne : k' ≠ k) (bytes : Bytes)
    (ttl : Duration) (now : Instant) :
    (c.put k bytes ttl now).entries.lookup k' = c.entries.lookup k' :=
  AList.lookup_insert_ne hne

theorem mem_put {c : Cache} {k k' : CacheKey} {bytes : Bytes} {ttl : Duration} {now : Instant} :
    k' ∈ (c.put k bytes ttl now).entries ↔ k' = k ∨ k' ∈ c.entries :=
  AList.mem_insert _

/-! ## The victim -/

/-- An `insert` into this cache evicts the key: it is there, and not when the loop has ended. -/
def Evicts (c : Cache) (k : CacheKey) : Prop :=
  k ∈ c.entries ∧ ∃ room, c.makeRoom = some room ∧ k ∉ room.entries

/-- The victim is the first key of the access order of a full cache. -/
theorem evicts_iff {c : Cache} (h : c.Inv) {k : CacheKey} :
    c.Evicts k ↔ c.isFull = true ∧ c.accessOrder.head? = some k := by
  unfold Evicts
  simp only [makeRoom_eq h, Option.some.injEq, exists_eq_left']
  cases hfull : c.isFull with
  | false =>
    rw [room_of_not_full hfull]
    simp
  | true =>
    obtain ⟨oldest, rest, hao, hroom⟩ := room_of_full h hfull
    have hmem : oldest ∈ c.entries := h.mem_iff.mp (by simp [hao])
    rw [hroom, hao, List.head?_cons, Option.some.injEq]
    show k ∈ c.entries ∧ k ∉ c.entries.erase oldest ↔ _
    rw [AList.mem_erase]
    constructor
    · rintro ⟨hk, hnot⟩
      refine ⟨rfl, ?_⟩
      by_contra hne
      exact hnot ⟨fun hko => hne hko.symm, hk⟩
    · rintro ⟨-, rfl⟩
      exact ⟨hmem, fun h => h.1 rfl⟩

end Cache

/-! ## Reachable caches -/

/-- A cache that operations make of an empty one. -/
def Cache.Reachable (config : CacheConfig) (c : Cache) : Prop :=
  ∃ ops m m', CacheOp.runAll ops (Cache.new config, m) = some (c, m')

/-- Without capacity an operation that returns leaves the cache empty: `insert` does not return. -/
theorem CacheOp.apply_empty {s s' : Cache × Metrics} (hsize : s.1.config.size = 0)
    (hent : s.1.entries = ∅) (hord : s.1.accessOrder = []) {op : CacheOp}
    (h : op.apply s = some s') :
    s'.1.config.size = 0 ∧ s'.1.entries = ∅ ∧ s'.1.accessOrder = [] := by
  obtain ⟨c, m⟩ := s
  have hnone : ∀ key, c.entries.lookup key = none := by
    intro key
    rw [show c.entries = ∅ from hent, AList.lookup_empty]
  cases op with
  | insert key bytes ttl now =>
    have hfull : c.isFull = true := by
      rw [Cache.isFull_iff, show c.config.size = 0 from hsize]
      exact Nat.zero_le _
    have hloop : c.makeRoom = none := by
      unfold Cache.makeRoom
      rw [show c.accessOrder = [] from hord]
      simp [whileLoop, hfull]
    simp only [apply, Cache.insert, hloop, Option.map_none] at h
    exact absurd h (by simp)
  | lookup key now =>
    simp only [apply, Cache.lookup, hnone, Option.some.injEq] at h
    obtain rfl := h
    exact ⟨hsize, hent, hord⟩
  | lookupWithMetrics key now =>
    simp only [apply, Cache.lookupWithMetrics, Cache.lookup, hnone, Option.some.injEq] at h
    obtain rfl := h
    exact ⟨hsize, hent, hord⟩
  | recordMiss =>
    obtain rfl := Option.some.inj h
    exact ⟨hsize, hent, hord⟩
  | reapExpired now =>
    have hnil : c.expiredKeys now = [] := by
      unfold Cache.expiredKeys
      rw [show c.entries = ∅ from hent]
      rfl
    simp only [apply, Cache.reapExpired, hnil, List.foldl_nil, Option.some.injEq] at h
    obtain rfl := h
    exact ⟨hsize, hent, hord⟩
  | clear =>
    obtain rfl := Option.some.inj h
    exact ⟨hsize, rfl, rfl⟩

theorem CacheOp.runAll_empty (ops : List CacheOp) :
    ∀ {s s' : Cache × Metrics}, s.1.config.size = 0 → s.1.entries = ∅ → s.1.accessOrder = [] →
      runAll ops s = some s' → s'.1.entries = ∅ ∧ s'.1.accessOrder = [] := by
  induction ops with
  | nil =>
    intro s s' _ hent hord h
    obtain rfl := Option.some.inj h
    exact ⟨hent, hord⟩
  | cons op ops ih =>
    intro s s' hsize hent hord h
    obtain ⟨s₁, h₁, h₂⟩ := Option.bind_eq_some_iff.mp h
    obtain ⟨hsize₁, hent₁, hord₁⟩ := apply_empty hsize hent hord h₁
    exact ih hsize₁ hent₁ hord₁ h₂

/-- A reachable cache has the invariant, or it has no capacity and nothing in it. -/
theorem Cache.Reachable.inv_or_empty {config : CacheConfig} {c : Cache}
    (h : c.Reachable config) :
    c.Inv ∧ c.config = config ∨ c.entries = ∅ ∧ c.accessOrder = [] := by
  obtain ⟨ops, m, m', hrun⟩ := h
  by_cases hsize : 1 ≤ config.size
  · obtain ⟨s', hrun', hinv, hcfg⟩ :=
      CacheOp.runAll_inv ops (s := (Cache.new config, m)) (Cache.inv_new hsize)
    obtain rfl := Option.some.inj (hrun.symm.trans hrun')
    exact Or.inl ⟨hinv, hcfg⟩
  · exact Or.inr (CacheOp.runAll_empty ops (s := (Cache.new config, m))
      (show config.size = 0 by omega) rfl rfl hrun)

theorem Cache.Reachable.inv_of_mem {config : CacheConfig} {c : Cache} (h : c.Reachable config)
    {k : CacheKey} (hk : k ∈ c.entries) : c.Inv ∧ c.config = config := by
  rcases h.inv_or_empty with hinv | ⟨hent, -⟩
  · exact hinv
  · rw [hent] at hk
    exact absurd hk (AList.notMem_empty _)

/-! ## Refreshing a key -/

/-- `c'` is `c` with the entry of `k` renewed: the same keys, the other entries as they were, and
`k` moved to the end of the access order. -/
structure Cache.Refreshed (c c' : Cache) (k : CacheKey) : Prop where
  keys : ∀ k', k' ∈ c'.entries ↔ k' ∈ c.entries
  others : ∀ k', k' ≠ k → c'.entries.lookup k' = c.entries.lookup k'
  order : c'.accessOrder = c.accessOrder.filter (· ≠ k) ++ [k]

namespace Cache

/-- With room, a refresh touches nothing else. -/
theorem refreshed_put {c : Cache} (h : c.Inv) {k : CacheKey} (hk : k ∈ c.entries) (bytes : Bytes)
    (ttl : Duration) (now : Instant) : c.Refreshed (c.put k bytes ttl now) k where
  keys k' := by
    rw [mem_put]
    constructor
    · rintro (rfl | hk')
      · exact hk
      · exact hk'
    · exact Or.inr
  others k' hne := put_lookup_ne hne bytes ttl now
  order := put_order h.order k bytes ttl now

/-- A refresh of the victim brings back the key it evicted. -/
theorem refreshed_victim {c : Cache} (h : c.Inv) {k : CacheKey} {rest : List CacheKey}
    (hao : c.accessOrder = k :: rest)
    (hroom : c.room = { c with entries := c.entries.erase k, accessOrder := rest })
    (bytes : Bytes) (ttl : Duration) (now : Instant) :
    c.Refreshed (c.room.put k bytes ttl now) k where
  keys k' := by
    have hk : k ∈ c.entries := h.mem_iff.mp (by simp [hao])
    rw [mem_put, hroom]
    show k' = k ∨ k' ∈ c.entries.erase k ↔ _
    rw [AList.mem_erase]
    constructor
    · rintro (rfl | ⟨-, hk'⟩)
      · exact hk
      · exact hk'
    · intro hk'
      by_cases hne : k' = k
      · exact Or.inl hne
      · exact Or.inr ⟨hne, hk'⟩
  others k' hne := by
    rw [put_lookup_ne hne, hroom]
    exact AList.lookup_erase_ne hne
  order := by
    rw [put_order (room_order h), hroom, hao]
    simp

/-- A refresh that evicts another key loses it. -/
theorem not_refreshed_of_evicts {c : Cache} {k victim : CacheKey} (hne : victim ≠ k)
    (hmem : victim ∈ c.entries) (hgone : victim ∉ c.room.entries) (bytes : Bytes) (ttl : Duration)
    (now : Instant) : ¬ c.Refreshed (c.room.put k bytes ttl now) k := by
  intro h
  rcases mem_put.mp ((h.keys victim).mpr hmem) with hk | hroom
  · exact hne hk
  · exact hgone hroom

end Cache

/-- **Refreshing a key**: in a reachable cache, `insert` of a key that is there returns, and it
leaves everything but that key's entry and place alone exactly when there was room or the key was
the first of the access order. -/
theorem refresh_evicts_nothing_iff (config : CacheConfig) (c : Cache) (hc : c.Reachable config)
    (k : CacheKey) (hk : k ∈ c.entries) (bytes : Bytes) (ttl : Duration) (now : Instant) :
    ∃ c', c.insert k bytes ttl now = some c' ∧
      (c.Refreshed c' k ↔ c.len < config.size ∨ c.accessOrder.head? = some k) := by
  obtain ⟨hinv, rfl⟩ := hc.inv_of_mem hk
  refine ⟨_, Cache.insert_eq hinv k bytes ttl now, ?_⟩
  cases hfull : c.isFull with
  | false =>
    have hroom : c.len < c.config.size := by
      rw [← Bool.not_eq_true, Cache.isFull_iff] at hfull
      omega
    rw [Cache.room_of_not_full hfull]
    exact iff_of_true (Cache.refreshed_put hinv hk bytes ttl now) (Or.inl hroom)
  | true =>
    obtain ⟨oldest, rest, hao, hroom⟩ := Cache.room_of_full hinv hfull
    have hlen := Cache.isFull_iff.mp hfull
    rw [hao, List.head?_cons, Option.some.injEq]
    by_cases hold : oldest = k
    · subst hold
      exact iff_of_true (Cache.refreshed_victim hinv hao hroom bytes ttl now) (Or.inr rfl)
    · have hmem : oldest ∈ c.entries := hinv.mem_iff.mp (by simp [hao])
      have hgone : oldest ∉ c.room.entries := by
        rw [hroom]
        exact fun h => (AList.mem_erase.mp h).1 rfl
      refine iff_of_false (Cache.not_refreshed_of_evicts hold hmem hgone bytes ttl now) ?_
      rintro (hlt | hk')
      · omega
      · exact hold hk'

/-- The older of the two keys of the examples. -/
def keyA : CacheKey := ⟨"a.", 1, none⟩

/-- The newer one. -/
def keyB : CacheKey := ⟨"b.", 1, none⟩

/-- A cache of two entries that is full. -/
def fullCache : Cache where
  config := ⟨2, 0, 2⟩
  entries := (AList.insert keyB ⟨[2], 1, 60, 0, 1⟩ (AList.insert keyA ⟨[1], 0, 60, 0, 0⟩ ∅))
  accessOrder := [keyA, keyB]
  hits := 0
  misses := 0

theorem fullCache_reachable : fullCache.Reachable ⟨2, 0, 2⟩ :=
  ⟨[.insert keyA [1] 60 0, .insert keyB [2] 60 1], fun _ => 0, fun _ => 0, rfl⟩

/-- The first key of a full cache is refreshed in place. -/
theorem refresh_of_victim :
    fullCache.Reachable ⟨2, 0, 2⟩ ∧ keyA ∈ fullCache.entries ∧
      ∃ c', fullCache.insert keyA [3] 60 2 = some c' ∧ fullCache.Refreshed c' keyA := by
  have hmem : keyA ∈ fullCache.entries := AList.lookup_isSome.mp rfl
  obtain ⟨c', hins, hiff⟩ :=
    refresh_evicts_nothing_iff ⟨2, 0, 2⟩ fullCache fullCache_reachable keyA hmem [3] 60 2
  exact ⟨fullCache_reachable, hmem, c', hins, hiff.mpr (Or.inr rfl)⟩

/-- Refreshing the second key of a full cache evicts the first. -/
theorem refresh_evicts_another :
    fullCache.Reachable ⟨2, 0, 2⟩ ∧ keyB ∈ fullCache.entries ∧ keyA ∈ fullCache.entries ∧
      ∃ c', fullCache.insert keyB [3] 60 2 = some c' ∧ c'.entries.lookup keyA = none ∧
        ¬ fullCache.Refreshed c' keyB := by
  refine ⟨fullCache_reachable, AList.lookup_isSome.mp rfl, AList.lookup_isSome.mp rfl, _, rfl, rfl,
    ?_⟩
  intro h
  have hmem := (h.keys keyA).mpr (AList.lookup_isSome.mp rfl)
  exact absurd (AList.lookup_isSome.mpr hmem) (by decide)

/-! ## Reaping -/

namespace Cache

/-- The entry is past its TTL and the serve-stale window. -/
def Dead (c : Cache) (e : CacheEntry) (now : Instant) : Prop :=
  e.originalTtl + c.config.serveStale < e.elapsed now

instance (c : Cache) (e : CacheEntry) (now : Instant) : Decidable (c.Dead e now) :=
  inferInstanceAs (Decidable (_ < _))

/-- `is_expired && !is_stale`. -/
theorem expired_not_stale_iff {c : Cache} {e : CacheEntry} {now : Instant} :
    (e.isExpired now && !e.isStale c.config.serveStale now) = true ↔ c.Dead e now := by
  unfold Dead
  rw [Bool.and_eq_true, Bool.not_eq_true', ← Bool.not_eq_true, CacheEntry.isExpired_iff,
    CacheEntry.isStale_iff]
  constructor
  · rintro ⟨hexp, hstale⟩
    by_contra hnot
    exact hstale ⟨hexp, Nat.not_lt.mp hnot⟩
  · intro hdead
    refine ⟨Nat.le_trans (Nat.le_add_right _ _) (Nat.le_of_lt hdead), ?_⟩
    rintro ⟨-, hle⟩
    exact absurd hdead (Nat.not_lt.mpr hle)

theorem mem_expiredKeys {c : Cache} {now : Instant} {k : CacheKey} :
    k ∈ c.expiredKeys now ↔ ∃ e, c.entries.lookup k = some e ∧ c.Dead e now := by
  unfold expiredKeys
  simp only [List.mem_map, List.mem_filter]
  constructor
  · rintro ⟨⟨k', e⟩, ⟨hmem, hdead⟩, rfl⟩
    exact ⟨e, AList.mem_lookup_iff.mpr hmem, expired_not_stale_iff.mp hdead⟩
  · rintro ⟨e, hlook, hdead⟩
    exact ⟨⟨k, e⟩, ⟨AList.mem_lookup_iff.mp hlook, expired_not_stale_iff.mpr hdead⟩, rfl⟩

/-- What the removals of a list of keys leave. -/
theorem foldl_removeKey (ks : List CacheKey) :
    ∀ c : Cache, (ks.foldl removeKey c).accessOrder = c.accessOrder.filter (· ∉ ks) ∧
      (∀ k, (ks.foldl removeKey c).entries.lookup k =
        if k ∈ ks then none else c.entries.lookup k) ∧
      (ks.foldl removeKey c).config = c.config ∧ (ks.foldl removeKey c).hits = c.hits ∧
      (ks.foldl removeKey c).misses = c.misses := by
  induction ks with
  | nil =>
    intro c
    refine ⟨(List.filter_eq_self.mpr fun k _ => by simp).symm, fun k => rfl, rfl, rfl, rfl⟩
  | cons key ks ih =>
    intro c
    obtain ⟨hord, hent, hcfg, hhits, hmisses⟩ := ih (c.removeKey key)
    refine ⟨?_, ?_, hcfg, hhits, hmisses⟩
    · show (ks.foldl removeKey (c.removeKey key)).accessOrder = _
      rw [hord]
      show (c.accessOrder.filter (· ≠ key)).filter _ = _
      rw [List.filter_filter]
      refine List.filter_congr fun k _ => ?_
      simp [Bool.and_comm]
    · intro k
      show (ks.foldl removeKey (c.removeKey key)).entries.lookup k = _
      rw [hent]
      show (if k ∈ ks then none else (c.entries.erase key).lookup k) = _
      by_cases hkey : k = key
      · subst hkey
        rw [AList.lookup_erase, ite_self, if_pos List.mem_cons_self]
      · rw [AList.lookup_erase_ne hkey]
        refine if_congr ?_ rfl rfl
        rw [List.mem_cons, or_iff_right hkey]

/-- Reaping, key by key. -/
theorem reapExpired_lookup (c : Cache) (now : Instant) (k : CacheKey) :
    (c.reapExpired now).entries.lookup k =
      (c.entries.lookup k).filter fun e => ¬ c.Dead e now := by
  unfold reapExpired
  rw [(foldl_removeKey _ c).2.1]
  cases hlook : c.entries.lookup k with
  | none => simp
  | some e =>
    have hiff : k ∈ c.expiredKeys now ↔ c.Dead e now := by
      rw [mem_expiredKeys, hlook]
      simp
    by_cases hdead : c.Dead e now
    · rw [if_pos (hiff.mpr hdead), Option.filter_some_neg (by simpa using hdead)]
    · rw [if_neg (fun hk => hdead (hiff.mp hk)), Option.filter_some_pos (by simpa using hdead)]

theorem reapExpired_config (c : Cache) (now : Instant) :
    (c.reapExpired now).config = c.config := (foldl_removeKey _ c).2.2.1

/-- A second reaping finds nothing. -/
theorem reapExpired_reapExpired (c : Cache) (now : Instant) :
    (c.reapExpired now).reapExpired now = c.reapExpired now := by
  have hnil : (c.reapExpired now).expiredKeys now = [] := by
    rw [List.eq_nil_iff_forall_not_mem]
    intro k hk
    obtain ⟨e, hlook, hdead⟩ := mem_expiredKeys.mp hk
    rw [reapExpired_lookup] at hlook
    have halive := (Option.filter_eq_some_iff.mp hlook).2
    unfold Dead at hdead
    rw [reapExpired_config] at hdead
    exact absurd hdead (of_decide_eq_true halive)
  unfold reapExpired at hnil ⊢
  rw [hnil]
  rfl

/-- The keys that stay in the access order of a cache that lists its keys there. -/
theorem reapExpired_order {c : Cache} (hord : ∀ k, k ∈ c.accessOrder → k ∈ c.entries)
    (now : Instant) :
    (c.reapExpired now).accessOrder =
      c.accessOrder.filter fun k => k ∈ (c.reapExpired now).entries := by
  have horder : (c.reapExpired now).accessOrder =
      c.accessOrder.filter fun k => k ∉ c.expiredKeys now := (foldl_removeKey _ c).1
  rw [horder]
  refine List.filter_congr fun k hk => ?_
  rw [decide_eq_decide, mem_expiredKeys, ← AList.lookup_isSome, reapExpired_lookup]
  obtain ⟨e, he⟩ := Option.isSome_iff_exists.mp (AList.lookup_isSome.mpr (hord k hk))
  rw [he]
  by_cases hdead : c.Dead e now
  · simp [hdead]
  · simp [hdead]

end Cache

/-- **Reaping is exact**: in a reachable cache, `reap_expired` removes the entries whose age
exceeds their TTL and the serve-stale window and leaves all others as they are; the access order
loses the removed keys and keeps the rest in order, the counters stay, and doing it again at the
same time changes nothing. -/
theorem reap_exact (config : CacheConfig) (c : Cache) (hc : c.Reachable config) (now : Instant) :
    (∀ k, (c.reapExpired now).entries.lookup k = (c.entries.lookup k).filter fun e =>
        ¬ e.originalTtl + config.serveStale < e.elapsed now) ∧
      ((c.reapExpired now).accessOrder =
        c.accessOrder.filter fun k => k ∈ (c.reapExpired now).entries) ∧
      (c.reapExpired now).hits = c.hits ∧ (c.reapExpired now).misses = c.misses ∧
      (c.reapExpired now).reapExpired now = c.reapExpired now := by
  have hcounts := (Cache.foldl_removeKey (c.expiredKeys now) c).2.2.2
  refine ⟨?_, ?_, hcounts.1, hcounts.2, c.reapExpired_reapExpired now⟩
  · intro k
    rcases hc.inv_or_empty with ⟨-, rfl⟩ | ⟨hent, -⟩
    · exact c.reapExpired_lookup now k
    · rw [c.reapExpired_lookup now k, hent, AList.lookup_empty]
      rfl
  · refine Cache.reapExpired_order ?_ now
    intro k hk
    rcases hc.inv_or_empty with ⟨hinv, -⟩ | ⟨-, hord⟩
    · exact hinv.mem_iff.mp hk
    · rw [hord] at hk
      exact absurd hk List.not_mem_nil

/-- Both entries of the full cache have a TTL of 60: at 61 the younger one is kept. -/
theorem reap_exact_one_of_two :
    fullCache.Reachable ⟨2, 0, 2⟩ ∧
      (fullCache.reapExpired 61).entries.lookup keyA = none ∧
      (fullCache.reapExpired 61).entries.lookup keyB = some ⟨[2], 1, 60, 0, 1⟩ := by
  obtain ⟨hlook, -⟩ := reap_exact ⟨2, 0, 2⟩ fullCache fullCache_reachable 61
  exact ⟨fullCache_reachable, (hlook keyA).trans rfl, (hlook keyB).trans rfl⟩

end Heimdallr
