import Heimdallr.Core.Cache

/-!
# The cache on disk (`Cache::save_to_file`, `Cache::load_from_file`)

A snapshot has one row for each entry: key, response, the original TTL in whole seconds and the hit
count. When an entry was inserted is not in it. The loader starts from a cache with a
configuration of its own (`loadConfig`: the number of rows or 100, 30 seconds of serve-stale, no
prefetch) and inserts the rows one after the other, which stamps every entry with the time of the
load.

* serde_json is the parameter `Json`: a text for a list of rows, and the rows of a text. That it
  reads back what it writes is `Json.RoundTrips`.
* The rows come in the order in which the map is iterated. The statements hold for every order.
* `clock` gives the reading at the `i`-th insertion, so loading may take time.
* The loader's `insert` is the one of the cache, with its eviction loop; `Cache.loadFromFile` is the
  loop as it stands, which may not return, `loadFromFile` the total one on `LiveCache`, and the two
  are shown to agree.

Results:
* `loadRows_spec`: what is in the cache after the rows are in.
* `load_of_saved`: a loaded cache has the keys of the saved one, and under each the TTL cut to whole
  seconds.
* `save_load_keeps_every_answer`: the loader's loop, in which every `insert` could evict, returns
  and loses no row but those a later row of the same key replaces.

Out of scope: errors of the file system. When a snapshot is too old to be loaded is `Net.Startup`.
-/

namespace Heimdallr

/-- `Duration::as_secs`. -/
def Duration.asSecs (d : Duration) : Nat := d / 1000000000

theorem Duration.fromSecs_asSecs_le (d : Duration) : Duration.fromSecs d.asSecs ≤ d :=
  Nat.div_mul_le_self d 1000000000

/-- One element of the saved vector: `(CacheKey, Vec<u8>, u64, u64)`. -/
structure SnapshotRow where
  key : CacheKey
  responseBytes : Bytes
  ttlSecs : Nat
  hitCount : Nat
  deriving DecidableEq, Repr

/-- What the cache uses of `serde_json`. -/
structure Json where
  /-- `serde_json::to_string` -/
  toString : List SnapshotRow → Option String
  /-- `serde_json::from_str` -/
  fromStr : String → Option (List SnapshotRow)

/-- What was written is read back. -/
def Json.RoundTrips (json : Json) : Prop :=
  ∀ rows text, json.toString rows = some text → json.fromStr text = some rows

/-- The JSON of one snapshot. -/
def Json.knowing (rows : List SnapshotRow) (text : String) : Json where
  toString r := if r = rows then some text else none
  fromStr s := if s = text then some rows else none

theorem Json.roundTrips_knowing (rows : List SnapshotRow) (text : String) :
    (Json.knowing rows text).RoundTrips := by
  intro r s h
  unfold knowing at h ⊢
  dsimp only at h ⊢
  split at h
  · rename_i hr
    obtain rfl := Option.some.inj h
    rw [if_pos rfl, hr]
  · cases h

theorem Json.toString_knowing (rows : List SnapshotRow) (text : String) :
    (Json.knowing rows text).toString rows = some text := if_pos rfl

/-- The errors of `load_from_file`. -/
inductive LoadError
  /-- the file cannot be read -/
  | Io
  /-- `serde_json: {e}` -/
  | InvalidData
  deriving DecidableEq, Repr

/-! ## Saving -/

/-- The row of an entry. -/
def SnapshotRow.ofEntry (key : CacheKey) (e : CacheEntry) : SnapshotRow :=
  ⟨key, e.responseBytes, e.originalTtl.asSecs, e.hitCount⟩

/-- The rows `save_to_file` collects. The hash map gives them in no particular order, so what is
written is a permutation of this list. -/
def Cache.snapshot (c : Cache) : List SnapshotRow :=
  c.entries.entries.map fun e => .ofEntry e.1 e.2

/-! ## Loading -/

/-- The configuration of a loaded cache. -/
def loadConfig (rows : List SnapshotRow) : CacheConfig :=
  ⟨max rows.length 100, Duration.fromSecs 30, 0⟩

theorem loadConfig_size_pos (rows : List SnapshotRow) : 1 ≤ (loadConfig rows).size := by
  show 1 ≤ max rows.length 100
  omega

/-- The capacity of a loaded cache is no less than the number of rows. -/
theorem loadConfig_room (rows : List SnapshotRow) :
    (LiveCache.new (loadConfig rows) (loadConfig_size_pos rows)).cache.len + rows.length ≤
      (LiveCache.new (loadConfig rows) (loadConfig_size_pos rows)).cache.config.size := by
  show 0 + rows.length ≤ max rows.length 100
  omega

namespace LiveCache

/-- `entries.get_mut(&k)` and the assignment to `hit_count`. -/
def setHitCount (c : LiveCache) (key : CacheKey) (hitCount : Nat) : LiveCache :=
  match h : c.cache.entries.lookup key with
  | none => c
  | some entry =>
    ⟨{ c.cache with entries := c.cache.entries.insert key { entry with hitCount } }, by
      have hmem : key ∈ c.cache.entries := AList.lookup_isSome.mp (by rw [h]; rfl)
      have hperm := Cache.keys_insert_of_mem (e := { entry with hitCount }) hmem
      exact ⟨c.inv.size_pos, c.inv.order.trans hperm, by
        show List.length _ ≤ _
        rw [← hperm.length_eq]
        exact c.inv.bound⟩⟩

/-- The loop of `load_from_file`; `clock i` is what `Instant::now` says in its `i`-th round. -/
def loadRows (clock : Nat → Instant) : List SnapshotRow → Nat → LiveCache → LiveCache
  | [], _, c => c
  | row :: rows, i, c =>
    loadRows clock rows (i + 1)
      ((c.insert row.key row.responseBytes (.fromSecs row.ttlSecs) (clock i)).setHitCount row.key
        row.hitCount)

end LiveCache

/-- `load_from_file`, on the text of the file. -/
def loadFromFile (json : Json) (text : String) (clock : Nat → Instant) :
    Except LoadError LiveCache :=
  match json.fromStr text with
  | none => .error .InvalidData
  | some rows =>
    .ok ((LiveCache.new (loadConfig rows) (loadConfig_size_pos rows)).loadRows clock rows 0)

/-! ## What a load leaves in the cache -/

/-- The last row with the key. -/
def lastRow (rows : List SnapshotRow) (k : CacheKey) : Option SnapshotRow :=
  rows.reverse.find? fun row => row.key = k

theorem lastRow_cons (row : SnapshotRow) (rows : List SnapshotRow) (k : CacheKey) :
    lastRow (row :: rows) k = (lastRow rows k).or (if row.key = k then some row else none) := by
  unfold lastRow
  rw [List.reverse_cons, List.find?_append]
  congr 1
  by_cases hk : row.key = k <;> simp [hk]

theorem lastRow_eq_none {rows : List SnapshotRow} {k : CacheKey} :
    lastRow rows k = none ↔ k ∉ rows.map SnapshotRow.key := by
  simp [lastRow]

theorem lastRow_some {rows : List SnapshotRow} {k : CacheKey} {row : SnapshotRow}
    (h : lastRow rows k = some row) : row ∈ rows ∧ row.key = k :=
  ⟨List.mem_reverse.mp (List.mem_of_find?_eq_some h), by simpa using List.find?_some h⟩

/-- Among rows with distinct keys the last row of a key is its only one. -/
theorem lastRow_of_nodup {rows : List SnapshotRow} (hnd : (rows.map SnapshotRow.key).Nodup)
    {row : SnapshotRow} (hrow : row ∈ rows) : lastRow rows row.key = some row := by
  cases h : lastRow rows row.key with
  | none => exact absurd (List.mem_map_of_mem hrow) (lastRow_eq_none.mp h)
  | some r =>
    obtain ⟨hr, hkey⟩ := lastRow_some h
    rw [List.inj_on_of_nodup_map hnd hr hrow hkey]

namespace LiveCache

theorem entryAt_setHitCount (c : LiveCache) (key : CacheKey) (hitCount : Nat) (k : CacheKey) :
    (c.setHitCount key hitCount).entryAt k = (c.entryAt k).map fun e =>
      if k = key then { e with hitCount } else e := by
  unfold setHitCount entryAt
  split
  · rename_i hnone
    by_cases hk : k = key
    · rw [hk, hnone]
      rfl
    · simp [hk]
  · rename_i entry hsome
    by_cases hk : k = key
    · subst hk
      simp [hsome]
    · simp [hk, AList.lookup_insert_ne]

@[simp] theorem config_setHitCount (c : LiveCache) (key : CacheKey) (hitCount : Nat) :
    (c.setHitCount key hitCount).cache.config = c.cache.config := by
  unfold setHitCount
  split <;> rfl

theorem len_setHitCount (c : LiveCache) (key : CacheKey) (hitCount : Nat) :
    (c.setHitCount key hitCount).cache.len = c.cache.len := by
  unfold setHitCount
  split
  · rfl
  · rename_i entry hsome
    have hmem : key ∈ c.cache.entries := AList.lookup_isSome.mp (by rw [hsome]; rfl)
    exact (Cache.keys_insert_of_mem (e := { entry with hitCount }) hmem).length_eq.symm

/-- With room, an insertion evicts nothing. -/
theorem insert_of_room {c : LiveCache} (hroom : c.cache.len < c.cache.config.size)
    (key : CacheKey) (bytes : Bytes) (ttl : Duration) (now : Instant) :
    (c.insert key bytes ttl now).cache = c.cache.put key bytes ttl now := by
  have hput : c.cache.insert key bytes ttl now = some (c.cache.put key bytes ttl now) := by
    rw [Cache.insert, Cache.makeRoom_of_room hroom, Option.map_some]
  unfold insert
  simp only [hput, Option.get_some]

@[simp] theorem config_loadRows (clock : Nat → Instant) (rows : List SnapshotRow) (i : Nat)
    (c : LiveCache) : (c.loadRows clock rows i).cache.config = c.cache.config := by
  induction rows generalizing i c with
  | nil => rfl
  | cons row rows ih =>
    rw [loadRows, ih]
    simp

/-- One round of the loop on a cache with room: the row's entry is in, and the others stay. -/
theorem loadRow_spec {c : LiveCache} (hroom : c.cache.len < c.cache.config.size)
    (row : SnapshotRow) (now : Instant) :
    let c' := (c.insert row.key row.responseBytes (.fromSecs row.ttlSecs) now).setHitCount row.key
      row.hitCount
    c'.cache.len ≤ c.cache.len + 1 ∧
      c'.entryAt row.key =
        some ⟨row.responseBytes, now, .fromSecs row.ttlSecs, row.hitCount, now⟩ ∧
      ∀ k, k ≠ row.key → c'.entryAt k = c.entryAt k := by
  refine ⟨?_, ?_, ?_⟩
  · rw [len_setHitCount, insert_of_room hroom]
    show (c.cache.entries.insert row.key _).keys.length ≤ _
    rw [AList.keys_insert, List.length_cons]
    have hle := List.length_erase_le (a := row.key) (l := c.cache.entries.keys)
    unfold Cache.len
    omega
  · rw [entryAt_setHitCount, entryAt_insert]
    simp
  · intro k hk
    have hput : (c.insert row.key row.responseBytes (.fromSecs row.ttlSecs) now).entryAt k =
        c.entryAt k := by
      unfold entryAt
      rw [insert_of_room hroom]
      exact AList.lookup_insert_ne hk
    rw [entryAt_setHitCount, hput]
    simp [hk]

/-- **What the rows become**, when there is room for all of them: a key of theirs has what its last
row says, and any other key what it had. -/
theorem loadRows_spec (clock : Nat → Instant) (rows : List SnapshotRow) (i : Nat) {c : LiveCache}
    (hroom : c.cache.len + rows.length ≤ c.cache.config.size) (k : CacheKey) :
    (∀ row, lastRow rows k = some row → ∃ now, (c.loadRows clock rows i).entryAt k =
        some ⟨row.responseBytes, now, .fromSecs row.ttlSecs, row.hitCount, now⟩) ∧
      (lastRow rows k = none → (c.loadRows clock rows i).entryAt k = c.entryAt k) := by
  induction rows generalizing i c with
  | nil => exact ⟨fun row h => absurd h (by simp [lastRow]), fun _ => rfl⟩
  | cons row rows ih =>
    rw [List.length_cons] at hroom
    obtain ⟨hlen, hrow, hother⟩ := loadRow_spec (c := c) (by omega) row (clock i)
    obtain ⟨hin, hout⟩ := ih (i + 1)
      (c := (c.insert row.key row.responseBytes (.fromSecs row.ttlSecs) (clock i)).setHitCount
        row.key row.hitCount) (by
        rw [config_setHitCount, config_insert]
        omega)
    rw [lastRow_cons, loadRows]
    cases hlast : lastRow rows k with
    | some r => exact ⟨fun _ h => hin _ (hlast.trans h), fun h => absurd h (by simp)⟩
    | none =>
      rw [Option.none_or, hout hlast]
      by_cases hk : row.key = k
      · subst hk
        rw [if_pos rfl]
        exact ⟨fun _ h => ⟨clock i, Option.some.inj h ▸ hrow⟩, fun h => absurd h (by simp)⟩
      · rw [if_neg hk]
        exact ⟨fun _ h => absurd h (by simp), fun _ => hother k (Ne.symm hk)⟩

end LiveCache

theorem entries_snapshot {c : Cache} {k : CacheKey} {e : CacheEntry}
    (h : c.entries.lookup k = some e) : SnapshotRow.ofEntry k e ∈ c.snapshot := by
  have hmem := AList.mem_lookup_iff.mp h
  exact List.mem_map.mpr ⟨⟨k, e⟩, hmem, rfl⟩

theorem keys_snapshot (c : Cache) : c.snapshot.map SnapshotRow.key = c.entries.keys := by
  unfold Cache.snapshot
  rw [List.map_map]
  rfl

/-- **A saved cache that is loaded again** has the same keys; the TTLs are cut to whole seconds and
begin anew. -/
theorem load_of_saved {c : Cache} {rows : List SnapshotRow} (hrows : rows.Perm c.snapshot)
    (clock : Nat → Instant) (k : CacheKey) :
    ∃ now, ((LiveCache.new (loadConfig rows) (loadConfig_size_pos rows)).loadRows clock rows
        0).entryAt k =
      (c.entries.lookup k).map fun e =>
        ⟨e.responseBytes, now, .fromSecs e.originalTtl.asSecs, e.hitCount, now⟩ := by
  have hnd : (rows.map SnapshotRow.key).Nodup := by
    rw [(hrows.map SnapshotRow.key).nodup_iff, keys_snapshot]
    exact c.entries.keys_nodup
  obtain ⟨hin, hout⟩ := LiveCache.loadRows_spec clock rows 0
    (c := LiveCache.new (loadConfig rows) (loadConfig_size_pos rows)) (loadConfig_room rows) k
  cases hk : c.entries.lookup k with
  | none =>
    refine ⟨0, ?_⟩
    rw [hout ?_]
    · rfl
    · rw [lastRow_eq_none, (hrows.map SnapshotRow.key).mem_iff, keys_snapshot, ← AList.mem_keys]
      exact AList.lookup_eq_none.mp hk
  | some e =>
    have hrow : SnapshotRow.ofEntry k e ∈ rows := hrows.mem_iff.mpr (entries_snapshot hk)
    exact hin _ (lastRow_of_nodup hnd hrow)

/-! ## The loader, round by round

`LiveCache.loadRows` takes it from the invariant that every `insert` returns. Below is the loop as
the source has it, on a bare `Cache`: `none` is a loop that never ends. -/

/-- `if let Some(entry) = cache.entries.get_mut(&k) { entry.hit_count = hit_count; }`. -/
def Cache.setHitCount (c : Cache) (key : CacheKey) (hitCount : Nat) : Cache :=
  match c.entries.lookup key with
  | none => c
  | some entry => { c with entries := c.entries.insert key { entry with hitCount } }

/-- The loop of `load_from_file`; `none` when an `insert` in it does not return. -/
def Cache.loadRows (clock : Nat → Instant) : List SnapshotRow → Nat → Cache → Option Cache
  | [], _, c => some c
  | row :: rows, i, c =>
    (c.insert row.key row.responseBytes (.fromSecs row.ttlSecs) (clock i)).bind fun c =>
      Cache.loadRows clock rows (i + 1) (c.setHitCount row.key row.hitCount)

/-- `load_from_file`, on the text of the file; `none` when it does not return. -/
def Cache.loadFromFile (json : Json) (text : String) (clock : Nat → Instant) :
    Option (Except LoadError Cache) :=
  match json.fromStr text with
  | none => some (.error .InvalidData)
  | some rows => (Cache.loadRows clock rows 0 (Cache.new (loadConfig rows))).map .ok

/-- `save_to_file` can write this text: the map hands its entries out in some order. -/
def Cache.SavedAs (json : Json) (c : Cache) (text : String) : Prop :=
  ∃ rows, rows.Perm c.snapshot ∧ json.toString rows = some text

theorem LiveCache.cache_setHitCount (c : LiveCache) (key : CacheKey) (hitCount : Nat) :
    (c.setHitCount key hitCount).cache = c.cache.setHitCount key hitCount := by
  unfold setHitCount Cache.setHitCount
  split <;> simp [*]

/-- Every `insert` of the loop returns: the capacity of the cache is at least one. -/
theorem Cache.loadRows_live (clock : Nat → Instant) (rows : List SnapshotRow) (i : Nat)
    (c : LiveCache) :
    Cache.loadRows clock rows i c.cache = some (c.loadRows clock rows i).cache := by
  induction rows generalizing i c with
  | nil => rfl
  | cons row rows ih =>
    have hinsert : c.cache.insert row.key row.responseBytes (.fromSecs row.ttlSecs) (clock i) =
        some (c.insert row.key row.responseBytes (.fromSecs row.ttlSecs) (clock i)).cache :=
      (Option.some_get _).symm
    rw [Cache.loadRows, hinsert, Option.bind_some, ← LiveCache.cache_setHitCount, ih]
    rfl

theorem Cache.loadFromFile_eq (json : Json) (text : String) (clock : Nat → Instant) :
    Cache.loadFromFile json text clock =
      some ((Heimdallr.loadFromFile json text clock).map LiveCache.cache) := by
  unfold Cache.loadFromFile Heimdallr.loadFromFile
  cases json.fromStr text with
  | none => rfl
  | some rows =>
    have hlive := Cache.loadRows_live clock rows 0
      (LiveCache.new (loadConfig rows) (loadConfig_size_pos rows))
    show Option.map _ (Cache.loadRows clock rows 0 (LiveCache.new (loadConfig rows)
      (loadConfig_size_pos rows)).cache) = _
    rw [hlive]
    rfl

/-- The loader returns on every text that decodes, with the cache the rows make. -/
theorem Cache.loadFromFile_returns {json : Json} {text : String} {rows : List SnapshotRow}
    (h : json.fromStr text = some rows) (clock : Nat → Instant) :
    Cache.loadFromFile json text clock = some (.ok
      ((LiveCache.new (loadConfig rows) (loadConfig_size_pos rows)).loadRows clock rows 0).cache) := by
  rw [Cache.loadFromFile_eq]
  unfold Heimdallr.loadFromFile
  rw [h]
  rfl

/-- **Save and load.** Loading what was saved returns a cache with the invariant, the same keys, and
under each of them the same response and hit count and the TTL cut to whole seconds, in whichever
order the map handed its entries out. Loading any other text that decodes returns too, and under
every key it names stands what the last row of the key says. -/
theorem save_load_keeps_every_answer (json : Json) (hjson : json.RoundTrips)
    (clock : Nat → Instant) :
    (∀ (c : Cache) text, c.SavedAs json text →
      ∃ d, Cache.loadFromFile json text clock = some (.ok d) ∧ d.Inv ∧
        (∀ k, k ∈ d.entries ↔ k ∈ c.entries) ∧
        ∀ k e, c.entries.lookup k = some e → ∃ e', d.entries.lookup k = some e' ∧
          e'.responseBytes = e.responseBytes ∧ e'.hitCount = e.hitCount ∧
          e'.originalTtl = .fromSecs e.originalTtl.asSecs) ∧
      ∀ text rows, json.fromStr text = some rows →
        ∃ d, Cache.loadFromFile json text clock = some (.ok d) ∧ d.Inv ∧
          (∀ k, k ∈ d.entries ↔ k ∈ rows.map SnapshotRow.key) ∧
          ∀ k row, lastRow rows k = some row → ∃ e, d.entries.lookup k = some e ∧
            e.responseBytes = row.responseBytes ∧ e.hitCount = row.hitCount ∧
            e.originalTtl = .fromSecs row.ttlSecs := by
  constructor
  · rintro c text ⟨rows, hperm, htext⟩
    refine ⟨_, Cache.loadFromFile_returns (hjson rows text htext) clock, LiveCache.inv _, ?_, ?_⟩
    · intro k
      obtain ⟨now, hnow⟩ := load_of_saved hperm clock k
      rw [← AList.lookup_isSome, ← AList.lookup_isSome]
      unfold LiveCache.entryAt at hnow
      rw [hnow, Option.isSome_map]
    · intro k e he
      obtain ⟨now, hnow⟩ := load_of_saved hperm clock k
      rw [he] at hnow
      exact ⟨_, hnow, rfl, rfl, rfl⟩
  · intro text rows hrows
    refine ⟨_, Cache.loadFromFile_returns hrows clock, LiveCache.inv _, ?_, ?_⟩
    · intro k
      obtain ⟨hin, hout⟩ := LiveCache.loadRows_spec clock rows 0 (loadConfig_room rows) k
      unfold LiveCache.entryAt at hin hout
      rw [← AList.lookup_isSome]
      cases hlast : lastRow rows k with
      | none =>
        rw [hout hlast]
        exact iff_of_false (by simp [LiveCache.new, Cache.new]) (lastRow_eq_none.mp hlast)
      | some row =>
        obtain ⟨now, hnow⟩ := hin row hlast
        obtain ⟨hmem, rfl⟩ := lastRow_some hlast
        rw [hnow]
        exact iff_of_true rfl (List.mem_map_of_mem hmem)
    · intro k row hlast
      obtain ⟨now, hnow⟩ :=
        (LiveCache.loadRows_spec clock rows 0 (loadConfig_room rows) k).1 row hlast
      exact ⟨_, hnow, rfl, rfl, rfl⟩

/-- A file that names a key twice. -/
def repeatedRows : List SnapshotRow :=
  [⟨⟨"a.", 1, none⟩, [1], 60, 5⟩, ⟨⟨"a.", 1, none⟩, [2], 30, 7⟩]

/-- A snapshot that has one key twice. -/
def repeatedText : String :=
  "[[\x7b\"qname\":\"a.\",\"qtype\":1,\"client_subnet\":null\x7d,[1],60,5]," ++
    "[\x7b\"qname\":\"a.\",\"qtype\":1,\"client_subnet\":null\x7d,[2],30,7]]"

theorem save_load_repeated_key :
    (Json.knowing repeatedRows repeatedText).RoundTrips ∧
      ∃ d, Cache.loadFromFile (.knowing repeatedRows repeatedText) repeatedText (fun _ => 0) =
          some (.ok d) ∧
        ∃ e, d.entries.lookup ⟨"a.", 1, none⟩ = some e ∧ e.responseBytes = [2] ∧
          e.hitCount = 7 ∧ e.originalTtl = .fromSecs 30 := by
  have hjson := Json.roundTrips_knowing repeatedRows repeatedText
  obtain ⟨d, hload, -, -, hlast⟩ :=
    (save_load_keeps_every_answer _ hjson fun _ => 0).2 repeatedText repeatedRows
      (hjson _ _ (Json.toString_knowing _ _))
  exact ⟨hjson, d, hload, hlast ⟨"a.", 1, none⟩ ⟨⟨"a.", 1, none⟩, [2], 30, 7⟩ (by decide)⟩

end Heimdallr
