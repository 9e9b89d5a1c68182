import Heimdallr.Core.Recency
import Heimdallr.Resolver.System

/-!
# Failed queries and corrupt entries

What a query does to the cache when something goes wrong.

* `failed_query_keeps_cache`: every error of `lookup`, and of the ANY path, comes before the first
  `insert` on its way. The cache has the same entries in the same order; only the entries that were
  probed have counted a hit.
* `corrupt_entry_harmless`: a stored response that does not decode is as good as none. Two runs are
  compared, with the entry and without it, through the relation `CorruptAt`, which every locked
  lookup keeps.

A query fails when upstream does, when a CNAME chain is refused, or when its answer does not encode.
The last comes before the storing too, so nothing that cannot be encoded is ever stored; an entry
that does not decode can only come from a snapshot. The two runs of the comparison return the same,
leave the same under every other key, and store the same under the key; the counters of the cache
differ by the lookup that found the corrupt entry.
-/

namespace Heimdallr.Resolver

open Lib CacheForwardAuthority

/-! ## What a lookup in the cache leaves -/

/-- The part of an entry that answers a query and says how long. -/
def entryAnswer (e : CacheEntry) : Bytes × Instant × Duration :=
  (e.responseBytes, e.insertedAt, e.originalTtl)

/-- `c'` is `c` after lookups of some of the keys: only the counters of their entries differ. -/
structure OnlyProbed (keys : List CacheKey) (c c' : LiveCache) : Prop where
  config : c'.cache.config = c.cache.config
  order : c'.cache.accessOrder = c.cache.accessOrder
  answers : ∀ k, (c'.entryAt k).map entryAnswer = (c.entryAt k).map entryAnswer
  others : ∀ k, k ∉ keys → c'.entryAt k = c.entryAt k

namespace OnlyProbed

variable {keys : List CacheKey} {c c₁ c₂ : LiveCache}

theorem refl (keys : List CacheKey) (c : LiveCache) : OnlyProbed keys c c :=
  ⟨rfl, rfl, fun _ => rfl, fun _ _ => rfl⟩

theorem trans (h₁ : OnlyProbed keys c c₁) (h₂ : OnlyProbed keys c₁ c₂) : OnlyProbed keys c c₂ where
  config := h₂.config.trans h₁.config
  order := h₂.order.trans h₁.order
  answers k := (h₂.answers k).trans (h₁.answers k)
  others k hk := (h₂.others k hk).trans (h₁.others k hk)

/-- One lookup, of one of the keys. -/
theorem lookup {key : CacheKey} (hkey : key ∈ keys) (c : LiveCache) (m : Metrics)
    (now : Instant) : OnlyProbed keys c (c.lookupWithMetrics m key now).2.1 where
  config := c.config_lookupWithMetrics m key now
  order := c.cache.lookupWithMetrics_order m key now
  answers k := by
    rw [c.entryAt_lookupWithMetrics, Option.map_map]
    congr 1
    funext e
    by_cases hk : k = key <;> simp [hk, entryAnswer]
  others k hk := by
    have hne : k ≠ key := fun h => hk (h ▸ hkey)
    rw [c.entryAt_lookupWithMetrics]
    simp [hne]

end OnlyProbed

theorem cache_handle_lookup (key : CacheKey) (l : Local) (s : Shared) :
    (handle (.lookup key) l s).2.2.cache = (s.cache.lookupWithMetrics s.metrics key s.now).2.1 := by
  cases h : s.cache.entryAt key with
  | none => rw [handle_lookup_none h]
  | some e => rw [handle_lookup_some h]

theorem now_handle_lookup (key : CacheKey) (l : Local) (s : Shared) :
    (handle (.lookup key) l s).2.2.now = s.now := by
  cases h : s.cache.entryAt key with
  | none => rw [handle_lookup_none h]
  | some e => rw [handle_lookup_some h]

/-- Spawning a prefetch does not touch the cache. -/
theorem cache_probe (s : Shared) (l : Local) (key : CacheKey) (name : LowerName)
    (rtype : RecordType) :
    (s.probe l key name rtype).cache = (s.cache.lookupWithMetrics s.metrics key s.now).2.1 := by
  rw [← cache_handle_lookup key l s]
  unfold Shared.probe
  cases s.cache.entryAt key with
  | none => rfl
  | some e => dsimp only; split <;> rfl

theorem now_probe (s : Shared) (l : Local) (key : CacheKey) (name : LowerName)
    (rtype : RecordType) : (s.probe l key name rtype).now = s.now := by
  rw [← now_handle_lookup key l s]
  unfold Shared.probe
  cases s.cache.entryAt key with
  | none => rfl
  | some e => dsimp only; split <;> rfl

/-! ## Failed queries -/

/-- The keys a query looks up: one for each address type when it is for ANY. -/
def probedKeys (hk : Hickory) (name : LowerName) (rtype : RecordType) : List CacheKey :=
  if rtype = .ANY then [keyOf hk name .A, keyOf hk name .AAAA] else [keyOf hk name rtype]

/-- A round of the ANY path that does not end it has stored nothing. -/
theorem onlyProbed_anyLoop (hk : Hickory) (name : LowerName) {keys : List CacheKey}
    {types : List RecordType} (hkeys : ∀ t ∈ types, keyOf hk name t ∈ keys) {e : LookupError}
    {l l' : Local} {s s' : Shared}
    (h : (anyLoop hk name types).run handle l s = (.error e, l', s')) :
    OnlyProbed keys s.cache s'.cache := by
  induction types generalizing l s with
  | nil =>
    obtain ⟨-, -, rfl⟩ : _ ∧ l = l' ∧ s = s' := by simpa [anyLoop] using h
    exact OnlyProbed.refl _ _
  | cons t rest ih =>
    rw [run_anyLoop_cons] at h
    dsimp only at h
    have hlook : OnlyProbed keys s.cache (handle (.lookup (keyOf hk name t)) l s).2.2.cache := by
      rw [cache_handle_lookup]
      exact .lookup (hkeys t List.mem_cons_self) _ _ _
    split at h
    · exact absurd h (by simp)
    · exact absurd h (by simp)
    · have hrest := ih (fun u hu => hkeys u (List.mem_cons_of_mem t hu)) h
      exact hlook.trans hrest

/-- **A failed query leaves the cache intact**: when `lookup` returns an error, the keys, the
responses, their times and TTLs and the access order are as before the call. -/
theorem failed_query_keeps_cache (self : CacheForwardAuthority) (hk : Hickory) (name : LowerName)
    (rtype : RecordType) (info : Option RequestInfo) {e : LookupError} {l l' : Local}
    {s s' : Shared} (h : (self.lookup hk name rtype info).run handle l s = (.error e, l', s')) :
    OnlyProbed (probedKeys hk name rtype) s.cache s'.cache := by
  unfold probedKeys
  by_cases hany : rtype = .ANY
  · unfold lookup lookupAny at h
    rw [if_pos hany] at h ⊢
    refine onlyProbed_anyLoop hk name ?_ h
    intro t ht
    rcases List.mem_pair.mp ht with rfl | rfl <;> simp
  · rw [if_neg hany]
    rw [self.run_lookup hk name hany, cacheKey_eq_keyOf] at h
    dsimp only at h
    split at h
    · exact absurd h (by simp)
    · -- on the miss path an error comes from the stages before the store
      have hcache := self.run_missPath_cache hk (keyOf hk name rtype) name rtype l
        (s.probe l (keyOf hk name rtype) name rtype)
      have hfst := self.run_missPath_fst hk (keyOf hk name rtype) name rtype l
        (s.probe l (keyOf hk name rtype) name rtype)
      rw [h] at hcache hfst
      cases hasm : self.assembled (fwdName name) rtype l with
      | ok a =>
        rw [hasm] at hfst
        exact absurd hfst (by simp [Except.map])
      | error e' =>
        rw [hasm] at hcache
        dsimp only at hcache
        rw [hcache, cache_probe]
        exact .lookup (List.mem_singleton.mpr rfl) _ _ _

/-- A cache whose answer for `www.example.com` is a single octet. -/
def tamperedCache : LiveCache :=
  (LiveCache.new CacheConfig.default CacheConfig.one_le_default_size).insert
    (keyOf wwwCodec wwwExample .A) [0xff] (Duration.fromSecs 60) 0

/-- Upstream is silent. -/
def silent : Upstream := fun _ _ _ => .error .Timeout

/-- A stored answer nobody can read, and a resolver that does not answer: the ANY query fails, and
the entry is still there. -/
theorem failed_any_query_keeps_entry :
    let s : Shared := ⟨tamperedCache, 0, fun _ => 0, [], []⟩
    let r := (CacheForwardAuthority.default.lookup wwwCodec wwwExample .ANY none).run handle
      ⟨.query wwwExample .ANY, silent, 0⟩ s
    r.1 = .error (.Io "RFC 8482: no address records for ANY query") ∧
      OnlyProbed (probedKeys wwwCodec wwwExample .ANY) tamperedCache r.2.2.cache := by
  intro s r
  have hrun : r = (.error (.Io "RFC 8482: no address records for ANY query"), r.2.1, r.2.2) := rfl
  exact ⟨rfl, failed_query_keeps_cache _ _ wwwExample .ANY none hrun⟩

/-! ## Corrupt entries -/

/-- The cache without a key, as `reap_expired` takes one out. -/
def dropKey (c : LiveCache) (k : CacheKey) : LiveCache :=
  ⟨c.cache.removeKey k, Cache.inv_removeKey c.inv k⟩

/-- The state without the entry of a key. -/
def Shared.without (s : Shared) (k : CacheKey) : Shared := { s with cache := dropKey s.cache k }

/-- Two states of the same moment, with the same entries except at `k`: there the first has the
response `bytes`, and the second nothing. -/
structure CorruptAt (k : CacheKey) (bytes : Bytes) (s s₀ : Shared) : Prop where
  now : s.now = s₀.now
  present : ∃ e, s.cache.entryAt k = some e ∧ e.responseBytes = bytes
  absent : s₀.cache.entryAt k = none
  others : ∀ key, key ≠ k → s.cache.entryAt key = s₀.cache.entryAt key

theorem corruptAt_without {s : Shared} {k : CacheKey} {e : CacheEntry}
    (he : s.cache.entryAt k = some e) : CorruptAt k e.responseBytes s (s.without k) where
  now := rfl
  present := ⟨e, he, rfl⟩
  absent := AList.lookup_erase k s.cache.cache.entries
  others _ hne := (AList.lookup_erase_ne hne).symm

namespace CorruptAt

variable {k : CacheKey} {bytes : Bytes} {s s₀ s' s₀' : Shared}

/-- Only the clock and the entries count. -/
theorem congr (h : CorruptAt k bytes s s₀) (hnow : s'.now = s.now) (hnow₀ : s₀'.now = s₀.now)
    (hcache : s'.cache = s.cache) (hcache₀ : s₀'.cache = s₀.cache) :
    CorruptAt k bytes s' s₀' where
  now := by rw [hnow, hnow₀, h.now]
  present := by rw [hcache]; exact h.present
  absent := by rw [hcache₀]; exact h.absent
  others := by rw [hcache, hcache₀]; exact h.others

/-- A lookup of any key in both states. -/
theorem lookup (h : CorruptAt k bytes s s₀) (key : CacheKey) (hnow : s'.now = s.now)
    (hnow₀ : s₀'.now = s₀.now)
    (hcache : s'.cache = (s.cache.lookupWithMetrics s.metrics key s.now).2.1)
    (hcache₀ : s₀'.cache = (s₀.cache.lookupWithMetrics s₀.metrics key s₀.now).2.1) :
    CorruptAt k bytes s' s₀' where
  now := by rw [hnow, hnow₀, h.now]
  present := by
    obtain ⟨e, he, rfl⟩ := h.present
    rw [hcache, LiveCache.entryAt_lookupWithMetrics, he]
    refine ⟨_, rfl, ?_⟩
    split <;> rfl
  absent := by rw [hcache₀, LiveCache.entryAt_lookupWithMetrics, h.absent, Option.map_none]
  others k' hne := by
    rw [hcache, hcache₀, LiveCache.entryAt_lookupWithMetrics, LiveCache.entryAt_lookupWithMetrics,
      h.others k' hne, h.now]

/-- What decodes under a key, in both states. -/
theorem decoded_eq {hk : Hickory} (h : CorruptAt k bytes s s₀) (hbad : hk.fromVec bytes = none)
    (key : CacheKey) :
    ((s.cache.entryAt key).bind fun e => hk.fromVec e.responseBytes) =
      (s₀.cache.entryAt key).bind fun e => hk.fromVec e.responseBytes := by
  by_cases hkey : key = k
  · subst hkey
    obtain ⟨e, he, rfl⟩ := h.present
    rw [he, h.absent, Option.bind_some, hbad, Option.bind_none]
  · rw [h.others key hkey]

theorem answersAt_eq {hk : Hickory} (h : CorruptAt k bytes s s₀) (hbad : hk.fromVec bytes = none)
    (key : CacheKey) : s.answersAt hk key = s₀.answersAt hk key := by
  have hdec := congrArg (Option.map Message.answers) (h.decoded_eq hbad key)
  rwa [Option.map_bind, Option.map_bind] at hdec

end CorruptAt

/-- The caches two runs leave at the key of the corrupt entry: what the run without it has stored,
the other one has stored as well, and where it stored nothing the other one has the corrupt entry or
none. -/
structure SameStore (k : CacheKey) (bytes : Bytes) (c c₀ : LiveCache) : Prop where
  stored : ∀ e₀, c₀.entryAt k = some e₀ → ∃ e, c.entryAt k = some e ∧
    e.responseBytes = e₀.responseBytes ∧ e.originalTtl = e₀.originalTtl
  untouched : c₀.entryAt k = none → ∀ e, c.entryAt k = some e → e.responseBytes = bytes

theorem CorruptAt.sameStore {k : CacheKey} {bytes : Bytes} {s s₀ : Shared}
    (h : CorruptAt k bytes s s₀) : SameStore k bytes s.cache s₀.cache where
  stored e₀ he₀ := by
    rw [h.absent] at he₀
    cases he₀
  untouched _ e he := by
    obtain ⟨e', he', rfl⟩ := h.present
    rw [he'] at he
    rw [Option.some.inj he]

/-- Storing an answer, under the corrupt key or another one. -/
theorem CorruptAt.sameStore_stored {k : CacheKey} {bytes : Bytes} {s s₀ : Shared}
    (h : CorruptAt k bytes s s₀) (hk : Hickory) (key : CacheKey) (records : List Record) :
    SameStore k bytes (stored hk key records s.now s.cache)
      (stored hk key records s₀.now s₀.cache) := by
  unfold Resolver.stored
  cases hk.toVec (cacheMessage records) with
  | none => exact h.sameStore
  | some answer =>
    dsimp only
    by_cases hkey : k = key
    · subst hkey
      have hnew := s.cache.entryAt_insert k answer (minTtl records) s.now
      have hnew₀ := s₀.cache.entryAt_insert k answer (minTtl records) s₀.now
      constructor
      · intro e₀ he₀
        obtain rfl := Option.some.inj (hnew₀.symm.trans he₀)
        exact ⟨_, hnew, rfl, rfl⟩
      · intro hnone
        rw [hnew₀] at hnone
        cases hnone
    · constructor
      · intro e₀ he₀
        have hold := LiveCache.entryAt_of_insert hkey he₀
        rw [h.absent] at hold
        cases hold
      · intro _ e he
        obtain ⟨e', he', rfl⟩ := h.present
        rw [LiveCache.entryAt_of_insert hkey he] at he'
        rw [Option.some.inj he']

/-- The miss path from two such states. -/
theorem CorruptAt.missPath {k : CacheKey} {bytes : Bytes} {s s₀ : Shared}
    (h : CorruptAt k bytes s s₀) (self : CacheForwardAuthority) (hk : Hickory) (key : CacheKey)
    (name : LowerName) (rtype : RecordType) (l : Local) :
    let r := (self.missPath hk key name rtype).run handle l s
    let r₀ := (self.missPath hk key name rtype).run handle l s₀
    r.1 = r₀.1 ∧ SameStore k bytes r.2.2.cache r₀.2.2.cache := by
  intro r r₀
  refine ⟨?_, ?_⟩
  · show ((self.missPath hk key name rtype).run handle l s).1 =
      ((self.missPath hk key name rtype).run handle l s₀).1
    rw [run_missPath_fst, run_missPath_fst]
  · show SameStore k bytes ((self.missPath hk key name rtype).run handle l s).2.2.cache
      ((self.missPath hk key name rtype).run handle l s₀).2.2.cache
    rw [run_missPath_cache, run_missPath_cache]
    cases self.assembled (fwdName name) rtype l with
    | error e => exact h.sameStore
    | ok a => exact h.sameStore_stored hk key a.records

/-- The ANY path from two such states, by induction on the types that are left. -/
theorem CorruptAt.anyLoop {k : CacheKey} {bytes : Bytes} {hk : Hickory}
    (hbad : hk.fromVec bytes = none) (name : LowerName) (types : List RecordType) {l : Local}
    {s s₀ : Shared} (h : CorruptAt k bytes s s₀) :
    let r := (anyLoop hk name types).run handle l s
    let r₀ := (anyLoop hk name types).run handle l s₀
    r.1 = r₀.1 ∧ SameStore k bytes r.2.2.cache r₀.2.2.cache := by
  induction types generalizing l s s₀ with
  | nil => exact ⟨rfl, h.sameStore⟩
  | cons t rest ih =>
    intro r r₀
    have hlook : CorruptAt k bytes (handle (.lookup (keyOf hk name t)) l s).2.2
        (handle (.lookup (keyOf hk name t)) l s₀).2.2 :=
      h.lookup _ (now_handle_lookup _ _ _) (now_handle_lookup _ _ _) (cache_handle_lookup _ _ _)
        (cache_handle_lookup _ _ _)
    have hask : CorruptAt k bytes
        (handle (.net (.upstream (fwdName name) t)) l
          (handle (.lookup (keyOf hk name t)) l s).2.2).2.2
        (handle (.net (.upstream (fwdName name) t)) l
          (handle (.lookup (keyOf hk name t)) l s₀).2.2).2.2 :=
      hlook.congr rfl rfl rfl rfl
    have hanswers := h.answersAt_eq hbad (keyOf hk name t)
    have hr : r = _ := run_anyLoop_cons hk name t rest l s
    have hr₀ : r₀ = _ := run_anyLoop_cons hk name t rest l s₀
    rw [hr, hr₀]
    unfold keyOf at hanswers hlook hask
    dsimp only
    rw [hanswers]
    split
    · exact ⟨rfl, hlook.sameStore⟩
    · exact ⟨rfl, hask.sameStore_stored hk _ _⟩
    · exact ih hask

/-- **A corrupt entry is harmless**: for every key whose stored response does not decode, a query
returns what it returns when the key is not in the cache, and when it stores an answer under that
key, the response and its TTL are the same in both runs. -/
theorem corrupt_entry_harmless (self : CacheForwardAuthority) (hk : Hickory) (name : LowerName)
    (rtype : RecordType) (info : Option RequestInfo) (l : Local) (s : Shared) (k : CacheKey)
    (e : CacheEntry) (he : s.cache.entryAt k = some e) (hbad : hk.fromVec e.responseBytes = none) :
    let r := (self.lookup hk name rtype info).run handle l s
    let r₀ := (self.lookup hk name rtype info).run handle l (s.without k)
    r.1 = r₀.1 ∧ SameStore k e.responseBytes r.2.2.cache r₀.2.2.cache := by
  have h := corruptAt_without he
  by_cases hany : rtype = .ANY
  · unfold CacheForwardAuthority.lookup lookupAny
    rw [if_pos hany]
    exact h.anyLoop hbad name _
  · have hprobe : CorruptAt k e.responseBytes
        (s.probe l (self.cacheKey hk name rtype info) name rtype)
        ((s.without k).probe l (self.cacheKey hk name rtype info) name rtype) :=
      h.lookup _ (now_probe _ _ _ _ _) (now_probe _ _ _ _ _) (cache_probe _ _ _ _ _)
        (cache_probe _ _ _ _ _)
    dsimp only
    rw [self.run_lookup hk name hany, self.run_lookup hk name hany]
    dsimp only
    rw [h.decoded_eq hbad]
    split
    · exact ⟨rfl, hprobe.sameStore⟩
    · exact hprobe.missPath self hk _ name rtype l

/-- With the tampered answer the query goes upstream, and the good answer takes its place. -/
theorem tampered_answer_replaced :
    let s : Shared := ⟨tamperedCache, 0, fun _ => 0, [], []⟩
    let key := keyOf wwwCodec wwwExample .A
    let l : Local := ⟨.query wwwExample .A, fixed apexAlsoAnswers, 0⟩
    let r := (CacheForwardAuthority.default.lookup wwwCodec wwwExample .A none).run handle l s
    let r₀ := (CacheForwardAuthority.default.lookup wwwCodec wwwExample .A none).run handle l
      (s.without key)
    (∃ e, s.cache.entryAt key = some e ∧ wwwCodec.fromVec e.responseBytes = none) ∧
      r₀.1 = .ok [wwwRecord] ∧ r.1 = r₀.1 ∧
      SameStore key [0xff] r.2.2.cache r₀.2.2.cache := by
  intro s key l
  have he : s.cache.entryAt key = some ⟨[0xff], 0, Duration.fromSecs 60, 0, 0⟩ :=
    LiveCache.entryAt_insert _ _ _ _ _
  have hbad : wwwCodec.fromVec [0xff] = none := by decide
  have hsame := corrupt_entry_harmless CacheForwardAuthority.default wwwCodec wwwExample .A none l s
    key _ he hbad
  exact ⟨⟨_, he, hbad⟩, rfl, hsame⟩

end Heimdallr.Resolver
