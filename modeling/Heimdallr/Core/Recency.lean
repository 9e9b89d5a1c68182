import Heimdallr.Core.CacheSpec
import Mathlib.Data.Fintype.EquivFin
import Mathlib.Data.List.Pairwise

/-!
# Which key the cache evicts

The comments of `core/cache` and the name `evict_lru` promise that the least recently used key goes
first. `Traced` is a cache together with the history that promise is about: which operation was the
latest to insert a key or to find it. The history is not data of the program; `last_access`, which
is, is written by `lookup` and read by nobody.

`insert` appends its key to the access order and `lookup` leaves the order alone, so the order is
that of the insertions. It is also that of the uses exactly as long as every hit is for the key
inserted last:

* `step_sorted`: such operations keep the access order sorted by latest use.
* `exists_bad_eviction`: once a key was used after one that stands behind it, enough insertions
  evict it first.
* `evicts_lru_of_hits_newest`: both, for every run.
-/

namespace Heimdallr

open Lib

/-! ## Histories -/

/-- A cache with the number of operations so far and, for every key, which of them was the latest
to use it; zero for a key that was never used. -/
structure Traced where
  cache : Cache
  metrics : Metrics
  clock : Nat
  lastUse : CacheKey → Nat

/-- The start: an empty cache and no uses. -/
def Traced.new (config : CacheConfig) (m : Metrics) : Traced := ⟨Cache.new config, m, 0, fun _ => 0⟩

/-- The key an operation uses: it inserts the key, or finds it. -/
def CacheOp.used (c : Cache) : CacheOp → Option CacheKey
  | .insert key _ _ _ => some key
  | .lookup key _ => if key ∈ c.entries then some key else none
  | .lookupWithMetrics key _ => if key ∈ c.entries then some key else none
  | _ => none

/-- The history after a use. -/
def Traced.stamped (t : Traced) : Option CacheKey → CacheKey → Nat
  | some k => Function.update t.lastUse k (t.clock + 1)
  | none => t.lastUse

/-- One operation, recorded; `none` when it does not return. -/
def Traced.step (op : CacheOp) (t : Traced) : Option Traced :=
  (op.apply (t.cache, t.metrics)).map fun s =>
    ⟨s.1, s.2, t.clock + 1, t.stamped (op.used t.cache)⟩

/-- When the operation is an `insert` that evicts a key, every other resident key was used later
than that key. -/
def EvictsLru (op : CacheOp) (t : Traced) : Prop :=
  ∀ key bytes ttl now k, op = .insert key bytes ttl now → t.cache.Evicts k →
    ∀ k', k' ∈ t.cache.entries → k' ≠ k → t.lastUse k < t.lastUse k'

/-- When the operation finds a key, it is the last one of the access order. -/
def HitsNewest (op : CacheOp) (t : Traced) : Prop :=
  ∀ k now, op = .lookup k now ∨ op = .lookupWithMetrics k now → k ∈ t.cache.entries →
    t.cache.accessOrder.getLast? = some k

/-- The operation is an `insert`. -/
def CacheOp.IsInsert (op : CacheOp) : Prop := ∃ key bytes ttl now, op = .insert key bytes ttl now

/-! ## The access order and the uses -/

/-- The key at the end stays at the end. -/
theorem filter_ne_concat_of_getLast {l : List CacheKey} (hnd : l.Nodup) {k : CacheKey}
    (h : l.getLast? = some k) : l.filter (· ≠ k) ++ [k] = l := by
  obtain ⟨xs, rfl⟩ := List.getLast?_eq_some_iff.mp h
  have hnot : k ∉ xs := by
    intro hk
    exact (List.nodup_append.mp hnd).2.2 k hk k (by simp) rfl
  have hxs : xs.filter (· ≠ k) = xs := by
    rw [List.filter_eq_self]
    intro x hx
    exact decide_eq_true fun hxk => hnot (hxk ▸ hx)
  rw [List.filter_append, hxs]
  simp

/-- A key used last and moved to the end keeps a list sorted by latest use. -/
theorem pairwise_used {l : List CacheKey} {use : CacheKey → Nat} {n : Nat} (hpast : ∀ k, use k ≤ n)
    (h : l.Pairwise fun a b => use a < use b) (k : CacheKey) :
    (l.filter (· ≠ k) ++ [k]).Pairwise fun a b =>
      Function.update use k (n + 1) a < Function.update use k (n + 1) b := by
  have hother : ∀ x ∈ l.filter (· ≠ k), Function.update use k (n + 1) x = use x := by
    intro x hx
    exact Function.update_of_ne (of_decide_eq_true (List.mem_filter.mp hx).2) _ _
  rw [List.pairwise_append]
  refine ⟨?_, List.pairwise_singleton _ _, ?_⟩
  · refine (h.filter _).imp_of_mem ?_
    intro a b ha hb hab
    rw [hother a ha, hother b hb]
    exact hab
  · intro a ha b hb
    rw [List.mem_singleton.mp hb, hother a ha, Function.update_self]
    exact Nat.lt_succ_of_le (hpast a)

namespace Cache

theorem room_accessOrder (c : Cache) :
    c.room.accessOrder = if c.isFull then c.accessOrder.tail else c.accessOrder := by
  unfold room
  split
  · unfold evictLru
    split
    · rename_i hao
      rw [hao]
      rfl
    · rename_i oldest rest hao
      rw [hao]
      rfl
  · rfl

theorem room_sublist (c : Cache) : List.Sublist c.room.accessOrder c.accessOrder := by
  rw [room_accessOrder]
  split
  · exact List.tail_sublist _
  · exact List.Sublist.refl _

/-- `lookup` leaves the access order alone. -/
theorem lookup_order (c : Cache) (k : CacheKey) (now : Instant) :
    (c.lookup k now).2.accessOrder = c.accessOrder := by
  unfold lookup
  cases c.entries.lookup k <;> rfl

theorem lookupWithMetrics_order (c : Cache) (m : Metrics) (k : CacheKey) (now : Instant) :
    (c.lookupWithMetrics m k now).2.1.accessOrder = c.accessOrder := by
  unfold lookupWithMetrics lookup
  cases c.entries.lookup k <;> rfl

end Cache

/-- Sorted by latest use, with the invariant of the cache; no use is in the future. -/
structure Traced.Sorted (t : Traced) : Prop where
  inv : t.cache.Inv
  past : ∀ k, t.lastUse k ≤ t.clock
  order : t.cache.accessOrder.Pairwise fun a b => t.lastUse a < t.lastUse b

namespace Traced

theorem sorted_new {config : CacheConfig} (h : 1 ≤ config.size) (m : Metrics) :
    (Traced.new config m).Sorted :=
  ⟨Cache.inv_new h, fun _ => Nat.le_refl _, List.Pairwise.nil⟩

theorem stamped_le {t : Traced} (h : ∀ k, t.lastUse k ≤ t.clock) (used : Option CacheKey)
    (k : CacheKey) : t.stamped used k ≤ t.clock + 1 := by
  cases used with
  | none => exact Nat.le_succ_of_le (h k)
  | some key =>
    show Function.update t.lastUse key (t.clock + 1) k ≤ _
    by_cases hk : k = key
    · subst hk
      rw [Function.update_self]
    · rw [Function.update_of_ne hk]
      exact Nat.le_succ_of_le (h k)

/-- What one operation does, by inversion. -/
theorem step_eq {op : CacheOp} {t t' : Traced} (h : step op t = some t') :
    op.apply (t.cache, t.metrics) = some (t'.cache, t'.metrics) ∧ t'.clock = t.clock + 1 ∧
      t'.lastUse = t.stamped (op.used t.cache) := by
  obtain ⟨s, hs, rfl⟩ := Option.map_eq_some_iff.mp h
  exact ⟨hs, rfl, rfl⟩

/-- From a cache with the invariant every operation returns. -/
theorem step_isSome {t : Traced} (h : t.cache.Inv) (op : CacheOp) :
    ∃ t', step op t = some t' ∧ t'.cache.Inv ∧ t'.cache.config = t.cache.config := by
  obtain ⟨s', hs', hinv, hcfg⟩ := CacheOp.apply_inv (s := (t.cache, t.metrics)) h op
  exact ⟨_, by rw [step, hs']; rfl, hinv, hcfg⟩

theorem step_inv {op : CacheOp} {t t' : Traced} (h : t.cache.Inv) (hs : step op t = some t') :
    t'.cache.Inv := by
  obtain ⟨t₁, h₁, hinv, -⟩ := step_isSome h op
  obtain rfl := Option.some.inj (hs.symm.trans h₁)
  exact hinv

/-- An insertion moves its key to the end of what is left of the access order. -/
theorem step_insert {t t' : Traced} (h : t.cache.Inv) {key : CacheKey} {bytes : Bytes}
    {ttl : Duration} {now : Instant} (hs : step (.insert key bytes ttl now) t = some t') :
    t'.cache = t.cache.room.put key bytes ttl now ∧
      t'.cache.accessOrder = t.cache.room.accessOrder.filter (· ≠ key) ++ [key] ∧
      t'.lastUse = Function.update t.lastUse key (t.clock + 1) := by
  obtain ⟨happ, -, huse⟩ := step_eq hs
  simp only [CacheOp.apply, Cache.insert_eq h, Option.map_some, Option.some.injEq,
    Prod.mk.injEq] at happ
  obtain ⟨hcache, -⟩ := happ
  refine ⟨hcache.symm, ?_, huse⟩
  rw [← hcache]
  exact Cache.put_order (Cache.room_order h) key bytes ttl now

/-- A lookup that is not a hit on an older key keeps the order sorted. -/
theorem pairwise_lookup {t : Traced} (h : t.Sorted) {k : CacheKey}
    (hlast : k ∈ t.cache.entries → t.cache.accessOrder.getLast? = some k) :
    t.cache.accessOrder.Pairwise fun a b =>
      t.stamped (if k ∈ t.cache.entries then some k else none) a <
        t.stamped (if k ∈ t.cache.entries then some k else none) b := by
  by_cases hk : k ∈ t.cache.entries
  · rw [if_pos hk]
    have huse := pairwise_used h.past h.order k
    rw [filter_ne_concat_of_getLast h.inv.nodup (hlast hk)] at huse
    exact huse
  · rw [if_neg hk]
    exact h.order

/-- **One operation** that does not hit an older key keeps the access order sorted by latest
use. -/
theorem step_sorted {op : CacheOp} {t t' : Traced} (h : t.Sorted) (hop : HitsNewest op t)
    (hs : step op t = some t') : t'.Sorted := by
  obtain ⟨happ, hclock, huse⟩ := step_eq hs
  refine ⟨step_inv h.inv hs, ?_, ?_⟩
  · intro k
    rw [huse, hclock]
    exact stamped_le h.past _ k
  · cases op with
    | insert key bytes ttl now =>
      obtain ⟨-, hord, huse⟩ := step_insert h.inv hs
      rw [hord, huse]
      exact pairwise_used h.past (h.order.sublist t.cache.room_sublist) key
    | lookup key now =>
      simp only [CacheOp.apply, Option.some.injEq, Prod.mk.injEq] at happ
      rw [huse, ← happ.1, Cache.lookup_order]
      exact pairwise_lookup h (hop key now (Or.inl rfl))
    | lookupWithMetrics key now =>
      simp only [CacheOp.apply, Option.some.injEq] at happ
      rw [huse, show t'.cache = _ from (congrArg Prod.fst happ).symm,
        Cache.lookupWithMetrics_order]
      exact pairwise_lookup h (hop key now (Or.inr rfl))
    | recordMiss =>
      simp only [CacheOp.apply, Option.some.injEq] at happ
      rw [huse, show t'.cache = _ from (congrArg Prod.fst happ).symm]
      exact h.order
    | reapExpired now =>
      simp only [CacheOp.apply, Option.some.injEq, Prod.mk.injEq] at happ
      rw [huse, ← happ.1]
      show ((t.cache.expiredKeys now).foldl Cache.removeKey t.cache).accessOrder.Pairwise _
      rw [(Cache.foldl_removeKey _ _).1]
      exact h.order.filter _
    | clear =>
      simp only [CacheOp.apply, Option.some.injEq, Prod.mk.injEq] at happ
      rw [← happ.1]
      exact List.Pairwise.nil

/-- In a sorted cache the victim is the least recently used key. -/
theorem evictsLru_of_sorted {t : Traced} (h : t.Sorted) (op : CacheOp) : EvictsLru op t := by
  intro key bytes ttl now k _ hev k' hk' hne
  obtain ⟨-, hhead⟩ := (Cache.evicts_iff h.inv).mp hev
  obtain ⟨rest, hao⟩ := List.head?_eq_some_iff.mp hhead
  have hmem := h.inv.mem_iff.mpr hk'
  have hord := h.order
  rw [hao] at hmem hord
  rcases List.mem_cons.mp hmem with heq | hrest
  · exact absurd heq hne
  · exact (List.pairwise_cons.mp hord).1 k' hrest

/-- Along a run whose hits are on the newest key, every eviction is of the least recently used
one. -/
theorem evictsLru_along {ops : List CacheOp} {t : Traced} (h : t.Sorted)
    (hops : Along step HitsNewest ops t) : Along step EvictsLru ops t := by
  induction ops generalizing t with
  | nil => exact trivial
  | cons op ops ih =>
    exact ⟨evictsLru_of_sorted h op, fun t' hs => ih (step_sorted h hops.1 hs) (hops.2 t' hs)⟩

/-! ## After a hit on an older key -/

/-- There is always a key that is not in the cache. -/
theorem exists_fresh (c : Cache) : ∃ k, k ∉ c.entries := by
  have hinj : Function.Injective fun n : Nat =>
      (⟨String.ofList (List.replicate n 'a'), 1, none⟩ : CacheKey) := by
    intro a b hab
    have hlist := String.ofList_injective (CacheKey.mk.inj hab).1
    rw [← List.length_replicate (n := a) (a := 'a'), hlist, List.length_replicate]
  have : Infinite CacheKey := Infinite.of_injective _ hinj
  obtain ⟨k, hk⟩ := Infinite.exists_notMem_finset c.entries.keys.toFinset
  exact ⟨k, fun hmem => hk (List.mem_toFinset.mpr (AList.mem_keys.mp hmem))⟩

/-- How many insertions of new keys a key is away from its eviction, with `before` in front of
it. -/
def slack (t : Traced) (before : List CacheKey) : Nat :=
  t.cache.config.size - t.cache.len + before.length

/-- The insertion of a new key: behind the resident keys, without the first when they are at
capacity. -/
theorem step_insert_fresh {t t' : Traced} (h : t.cache.Inv) {key : CacheKey}
    (hfresh : key ∉ t.cache.entries) {bytes : Bytes} {ttl : Duration} {now : Instant}
    (hs : step (.insert key bytes ttl now) t = some t') :
    t'.cache.accessOrder =
        (if t.cache.isFull then t.cache.accessOrder.tail else t.cache.accessOrder) ++ [key] ∧
      t'.cache.config = t.cache.config ∧
      ∀ k ∈ t.cache.accessOrder, t'.lastUse k = t.lastUse k := by
  obtain ⟨hcache, hord, huse⟩ := step_insert h hs
  have hne : ∀ k ∈ t.cache.accessOrder, k ≠ key := by
    rintro k hk rfl
    exact hfresh (h.mem_iff.mp hk)
  refine ⟨?_, ?_, ?_⟩
  · have hfilter : t.cache.room.accessOrder.filter (· ≠ key) = t.cache.room.accessOrder := by
      rw [List.filter_eq_self]
      intro k hk
      exact decide_eq_true (hne k (t.cache.room_sublist.subset hk))
    rw [hord, hfilter, Cache.room_accessOrder]
  · rw [hcache]
    exact t.cache.room_config
  · intro k hk
    rw [huse, Function.update_of_ne (hne k hk)]

/-- One insertion of a new key later, a resident key is one eviction closer to its own, or the cache
one entry fuller. -/
theorem slack_lowers {t t' : Traced} (hinv : t.cache.Inv) {fresh : CacheKey}
    (hfresh : fresh ∉ t.cache.entries) {bytes : Bytes} {ttl : Duration} {now : Instant}
    (hs : step (.insert fresh bytes ttl now) t = some t') (hinv' : t'.cache.Inv) {k : CacheKey}
    {before after : List CacheKey} (hao : t.cache.accessOrder = before ++ k :: after) {n : Nat}
    (hn : slack t before = n + 1) :
    ∃ before', t'.cache.accessOrder = before' ++ k :: (after ++ [fresh]) ∧
      slack t' before' = n := by
  obtain ⟨hord, hcfg, -⟩ := step_insert_fresh hinv hfresh hs
  have hlen := Cache.len_eq hinv.order
  have hlen' := Cache.len_eq hinv'.order
  have hbound := hinv.bound
  unfold slack at hn ⊢
  cases hfull : t.cache.isFull with
  | false =>
    have hroom : t.cache.len < t.cache.config.size := by
      rw [← Bool.not_eq_true, Cache.isFull_iff] at hfull
      omega
    refine ⟨before, by rw [hord, hfull, hao]; simp, ?_⟩
    rw [hlen', hord, hfull, hcfg]
    simp only [Bool.false_eq_true, if_false, List.length_append, List.length_singleton]
    omega
  | true =>
    have hsize := Cache.isFull_iff.mp hfull
    cases before with
    | nil =>
      rw [List.length_nil] at hn
      omega
    | cons x before =>
      refine ⟨before, by rw [hord, hfull, hao]; simp, ?_⟩
      rw [hlen', hord, hfull, hcfg]
      simp only [if_true, List.length_append, List.length_tail, List.length_singleton]
      rw [List.length_cons] at hn
      omega

/-- The cache is full and `k` the first key: the next insertion evicts it. -/
theorem bad_eviction_of_first {t : Traced} (hinv : t.cache.Inv) (hfull : t.cache.isFull = true)
    {k k' : CacheKey} {after : List CacheKey} (hao : t.cache.accessOrder = k :: after)
    (hk' : k' ∈ after) (huse : t.lastUse k' ≤ t.lastUse k) :
    ¬ EvictsLru (.insert k [] 0 0) t := by
  intro hlru
  have hnd := hinv.nodup
  rw [hao] at hnd
  have hne : k' ≠ k := by
    rintro rfl
    exact (List.nodup_cons.mp hnd).1 hk'
  have hmem : k' ∈ t.cache.entries := hinv.mem_iff.mp (by simp [hao, hk'])
  have hev : t.cache.Evicts k := (Cache.evicts_iff hinv).mpr ⟨hfull, by rw [hao]; rfl⟩
  exact absurd huse (Nat.not_le.mpr (hlru _ _ _ _ _ rfl hev k' hmem hne))

/-- **A key that was used after one behind it** is evicted first, after enough insertions. -/
theorem exists_bad_eviction {k k' : CacheKey} :
    ∀ {n : Nat} {t : Traced} {before after : List CacheKey}, t.cache.Inv →
      t.cache.accessOrder = before ++ k :: after → k' ∈ after → t.lastUse k' ≤ t.lastUse k →
      slack t before = n →
      ∃ inserts, (∀ op ∈ inserts, CacheOp.IsInsert op) ∧ ¬ Along step EvictsLru inserts t := by
  intro n
  induction n with
  | zero =>
    intro t before after hinv hao hk' huse hn
    unfold slack at hn
    obtain rfl : before = [] := List.eq_nil_of_length_eq_zero (by omega)
    have hfull : t.cache.isFull = true := by
      rw [Cache.isFull_iff]
      omega
    refine ⟨[.insert k [] 0 0], ?_, fun h => bad_eviction_of_first hinv hfull hao hk' huse h.1⟩
    rw [List.forall_mem_singleton]
    exact ⟨k, [], 0, 0, rfl⟩
  | succ n ih =>
    intro t before after hinv hao hk' huse hn
    obtain ⟨fresh, hfresh⟩ := exists_fresh t.cache
    obtain ⟨t', hs, hinv', -⟩ := step_isSome hinv (.insert fresh [] 0 0)
    obtain ⟨-, -, hkeep⟩ := step_insert_fresh hinv hfresh hs
    have huse' : t'.lastUse k' ≤ t'.lastUse k := by
      rw [hkeep k (by simp [hao]), hkeep k' (by simp [hao, hk'])]
      exact huse
    obtain ⟨before', hao', hslack⟩ := slack_lowers hinv hfresh hs hinv' hao hn
    obtain ⟨inserts, hall, hbad⟩ :=
      ih hinv' hao' (List.mem_append_left _ hk') huse' hslack
    refine ⟨.insert fresh [] 0 0 :: inserts, ?_, fun h => hbad (h.2 t' hs)⟩
    rw [List.forall_mem_cons]
    exact ⟨⟨fresh, [], 0, 0, rfl⟩, hall⟩

/-- A hit on a key that is not the newest one leaves a key behind it that was used earlier. -/
theorem exists_behind {op : CacheOp} {t t' : Traced} (hinv : t.cache.Inv)
    (hpast : ∀ k, t.lastUse k ≤ t.clock) (hop : ¬ HitsNewest op t) (hs : step op t = some t') :
    ∃ k k' before after, t'.cache.accessOrder = before ++ k :: after ∧ k' ∈ after ∧
      t'.lastUse k' ≤ t'.lastUse k := by
  unfold HitsNewest at hop
  push Not at hop
  obtain ⟨k, now, hlook, hmem, hlast⟩ := hop
  obtain ⟨happ, -, huse⟩ := step_eq hs
  have hord : t'.cache.accessOrder = t.cache.accessOrder ∧
      t'.lastUse = Function.update t.lastUse k (t.clock + 1) := by
    rcases hlook with rfl | rfl
    · simp only [CacheOp.apply, Option.some.injEq, Prod.mk.injEq] at happ
      refine ⟨by rw [← happ.1, Cache.lookup_order], ?_⟩
      rw [huse, CacheOp.used, if_pos hmem]
      rfl
    · simp only [CacheOp.apply, Option.some.injEq] at happ
      refine ⟨?_, ?_⟩
      · rw [show t'.cache = _ from (congrArg Prod.fst happ).symm, Cache.lookupWithMetrics_order]
      · rw [huse, CacheOp.used, if_pos hmem]
        rfl
  obtain ⟨before, after, hao⟩ := List.append_of_mem (hinv.mem_iff.mpr hmem)
  rw [hord.1, hord.2, hao]
  cases after with
  | nil =>
    rw [hao] at hlast
    exact absurd (List.getLast?_concat) hlast
  | cons k' after =>
    refine ⟨k, k', before, k' :: after, rfl, List.mem_cons_self, ?_⟩
    rw [Function.update_self]
    by_cases hk : k' = k
    · rw [hk, Function.update_self]
    · rw [Function.update_of_ne hk]
      exact Nat.le_succ_of_le (hpast k')

/-- A run with a hit on an older key: cut after that hit, insertions bring a wrong eviction. -/
theorem exists_bad_run {ops : List CacheOp} {t : Traced} (hinv : t.cache.Inv)
    (hpast : ∀ k, t.lastUse k ≤ t.clock) (hops : ¬ Along step HitsNewest ops t) :
    ∃ pre inserts, pre <+: ops ∧ (∀ op ∈ inserts, CacheOp.IsInsert op) ∧
      ¬ Along step EvictsLru (pre ++ inserts) t := by
  induction ops generalizing t with
  | nil => exact absurd trivial hops
  | cons op ops ih =>
    obtain ⟨t', hs, hinv', -⟩ := step_isSome hinv op
    by_cases hop : HitsNewest op t
    · have hrest : ¬ Along step HitsNewest ops t' := by
        intro hrest
        refine hops ⟨hop, fun t₁ h₁ => ?_⟩
        obtain rfl := Option.some.inj (hs.symm.trans h₁)
        exact hrest
      have hpast' : ∀ k, t'.lastUse k ≤ t'.clock := by
        obtain ⟨-, hclock, huse⟩ := step_eq hs
        intro k
        rw [hclock, huse]
        exact stamped_le hpast _ k
      obtain ⟨pre, inserts, hpre, hall, hbad⟩ := ih hinv' hpast' hrest
      exact ⟨op :: pre, inserts, List.cons_prefix_cons.mpr ⟨rfl, hpre⟩, hall,
        fun h => hbad (h.2 t' hs)⟩
    · obtain ⟨k, k', before, after, hao, hk', huse⟩ := exists_behind hinv hpast hop hs
      obtain ⟨inserts, hall, hbad⟩ := exists_bad_eviction hinv' hao hk' huse rfl
      exact ⟨[op], inserts, List.prefix_append [op] ops, hall, fun h => hbad (h.2 t' hs)⟩

end Traced

/-- **Eviction and recency**: in every run whose hits are all for the key at the end of the access
order, every eviction is of the least recently used key. A run with any other hit, cut after it,
goes on by insertions to an eviction of a key that was used after one that stays. -/
theorem evicts_lru_of_hits_newest (config : CacheConfig) (hsize : 1 ≤ config.size) (m : Metrics)
    (ops : List CacheOp) :
    (Along Traced.step HitsNewest ops (Traced.new config m) →
        Along Traced.step EvictsLru ops (Traced.new config m)) ∧
      (¬ Along Traced.step HitsNewest ops (Traced.new config m) →
        ∃ pre inserts, pre <+: ops ∧ (∀ op ∈ inserts, CacheOp.IsInsert op) ∧
          ¬ Along Traced.step EvictsLru (pre ++ inserts) (Traced.new config m)) := by
  have hstart := Traced.sorted_new hsize m
  exact ⟨Traced.evictsLru_along hstart, Traced.exists_bad_run hstart.inv hstart.past⟩

/-- A third key, for a cache of two entries. -/
def keyC : CacheKey := ⟨"c.", 1, none⟩

/-- Two keys in a cache of two, a lookup of one of them, and a third key. -/
def lookedUpThenFull (k : CacheKey) : List CacheOp :=
  [.insert keyA [1] 60 0, .insert keyB [2] 60 1, .lookup k 2, .insert keyC [3] 60 3]

/-- After a lookup of the key inserted last, the eviction is of the key used first. -/
theorem evicts_lru_newest_looked_up :
    1 ≤ (⟨2, 0, 2⟩ : CacheConfig).size ∧
      Along Traced.step EvictsLru (lookedUpThenFull keyB) (Traced.new ⟨2, 0, 2⟩ fun _ => 0) := by
  refine ⟨by decide, (evicts_lru_of_hits_newest ⟨2, 0, 2⟩ (by decide) (fun _ => 0) _).1 ?_⟩
  have hinsert : ∀ {key : CacheKey} {bytes : Bytes} {ttl : Duration} {now : Instant} {t : Traced},
      HitsNewest (.insert key bytes ttl now) t := by
    intro key bytes ttl now t k now' h
    rcases h with h | h
    · cases h
    · cases h
  refine ⟨hinsert, fun t₁ h₁ => ⟨hinsert, fun t₂ h₂ => ⟨?_, fun t₃ _ =>
    ⟨hinsert, fun _ _ => trivial⟩⟩⟩⟩
  obtain rfl := Option.some.inj h₁
  obtain rfl := Option.some.inj h₂
  intro k now h _
  rcases h with h | h
  · obtain ⟨rfl, rfl⟩ := CacheOp.lookup.inj h
    rfl
  · cases h

/-- A lookup of the older key does not save it: it is evicted, and the key that was never looked
up stays. -/
theorem looked_up_key_evicted :
    ¬ Along Traced.step EvictsLru (lookedUpThenFull keyA) (Traced.new ⟨2, 0, 2⟩ fun _ => 0) := by
  intro h
  have hlast := (((h.2 _ rfl).2 _ rfl).2 _ rfl).1
  have hless := hlast keyC [3] 60 3 keyA rfl
    ⟨AList.lookup_isSome.mp rfl, _, rfl, fun hm => absurd (AList.lookup_isSome.mpr hm) (by decide)⟩
    keyB (AList.lookup_isSome.mp rfl) (by decide)
  exact absurd hless (by decide)

end Heimdallr
