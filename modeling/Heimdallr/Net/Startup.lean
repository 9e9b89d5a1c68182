import Heimdallr.Core.Persist
import Heimdallr.Resolver.System
import Mathlib.Data.Fintype.EquivFin

/-!
# The cache across restarts (`Net::run`, `Net::load_persistent_cache`)

At its start the server builds the cache its configuration asks for, and puts the loaded snapshot in
its place when there is one; at its end it saves the cache. The saved rows know the original TTLs
only, and the loaded cache has a configuration of its own.

* A missing file is no error, an unreadable one is logged, and either way the server starts with an
  empty cache. A file whose age the system does not tell is loaded.
* The age limit is a product of two 64-bit numbers (`tooOld`). It is computed in `UInt64`, as a
  release build does; `tooOld_eq` says what it means when the product fits, and the results about
  restarts hold either way, as they are about the snapshots that load.
* `Restart` is any saving and any later loading, with any configuration and clock between which the
  file is left alone; `Life` is a sequence of cache operations and restarts.
* The sections of the configuration are those the start reads (`CacheSettings`); `CacheConfig` is
  what the running cache has of them.

Results:
* **`never_extends_iff`**: when no restart gives an answer more time than it had left.
* **`obeys_config_iff`**: when the loaded cache keeps to the configuration, after any operations.

Out of scope: writing the snapshot while tasks still run, and a snapshot that was only partly
written (serde_json refuses it).
-/

namespace Heimdallr.Net

open Heimdallr.Resolver

/-- The part of the configuration about the cache on disk. -/
structure CacheSettings extends CacheSection where
  persistent : Option String
  persistentMaxAgeDays : UInt64

/-- A file that exists: its text, when it can be read, and its age, when the system tells. -/
structure DiskFile where
  text : Option String
  age : Option Duration

/-- The file is older than `persistent_max_age_days`. The seconds of the days are computed in 64 bits:
a release build goes on with the remainder, where a debug build panics. -/
def tooOld (cfg : CacheSettings) (file : DiskFile) : Bool :=
  match file.age with
  | some age => decide (Duration.fromSecs (cfg.persistentMaxAgeDays * 86400).toNat < age)
  | none => false

/-- `load_persistent_cache`. -/
def loadPersistentCache (json : Json) (cfg : CacheSettings) (disk : String → Option DiskFile)
    (clock : Nat → Instant) : Except LoadError (Option LiveCache) :=
  match cfg.persistent with
  | none => .ok none
  | some path =>
    match disk path with
    | none => .ok none
    | some file =>
      if tooOld cfg file then .ok none
      else
        match file.text with
        | none => .error .Io
        | some text => (loadFromFile json text clock).map some

/-- The cache `Net::run` begins to serve from. -/
def startCache (json : Json) (cfg : CacheSettings) (disk : String → Option DiskFile)
    (clock : Nat → Instant) (h : 1 ≤ cfg.size) : LiveCache :=
  match loadPersistentCache json cfg disk clock with
  | .ok (some loaded) => loaded
  | _ => LiveCache.new cfg.runtime h

/-- The snapshot `rows` loads: it is in the configured file, which is not too old. -/
structure SnapshotLoads (json : Json) (cfg : CacheSettings) (disk : String → Option DiskFile)
    (rows : List SnapshotRow) : Prop where
  file : ∃ path file text, cfg.persistent = some path ∧ disk path = some file ∧
    tooOld cfg file = false ∧ file.text = some text ∧ json.fromStr text = some rows

theorem loadPersistentCache_eq {json : Json} {cfg : CacheSettings}
    {disk : String → Option DiskFile} {rows : List SnapshotRow}
    (h : SnapshotLoads json cfg disk rows) (clock : Nat → Instant) :
    loadPersistentCache json cfg disk clock =
      .ok (some ((LiveCache.new (loadConfig rows) (loadConfig_size_pos rows)).loadRows clock rows
        0)) := by
  obtain ⟨path, file, text, hpath, hdisk, hage, htext, hrows⟩ := h.file
  simp only [loadPersistentCache, hpath, hdisk, hage, Bool.false_eq_true, if_false, htext,
    loadFromFile, hrows]
  rfl

theorem startCache_eq {json : Json} {cfg : CacheSettings} {disk : String → Option DiskFile}
    {rows : List SnapshotRow} (h : SnapshotLoads json cfg disk rows) (clock : Nat → Instant)
    (hsize : 1 ≤ cfg.size) :
    startCache json cfg disk clock hsize =
      (LiveCache.new (loadConfig rows) (loadConfig_size_pos rows)).loadRows clock rows 0 := by
  unfold startCache
  rw [loadPersistentCache_eq h clock]

/-! ## Restarts -/

/-- The cache `c` is saved, and `c'` is what a later process loads from the file. -/
structure Restart (json : Json) (c c' : LiveCache) : Prop where
  loads : ∃ rows text cfg disk path age clock, rows.Perm c.cache.snapshot ∧
    json.toString rows = some text ∧ CacheSettings.persistent cfg = some path ∧
    disk path = some ⟨some text, age⟩ ∧
    loadPersistentCache json cfg disk clock = .ok (some c')

/-- **What a restart does to the entries**: each one is kept, with its TTL in whole seconds and
its time begun anew. -/
theorem Restart.entryAt {json : Json} (hjson : json.RoundTrips) {c c' : LiveCache}
    (h : Restart json c c') (k : CacheKey) :
    ∃ now, c'.entryAt k = (c.entryAt k).map fun e =>
      ⟨e.responseBytes, now, .fromSecs e.originalTtl.asSecs, e.hitCount, now⟩ := by
  obtain ⟨rows, text, cfg, disk, path, age, clock, hperm, htext, hpath, hdisk, hload⟩ := h.loads
  have hage : tooOld cfg ⟨some text, age⟩ = false := by
    by_contra hold
    rw [Bool.not_eq_false] at hold
    simp only [loadPersistentCache, hpath, hdisk, hold, if_true] at hload
    cases hload
  have hloads : SnapshotLoads json cfg disk rows :=
    ⟨path, _, text, hpath, hdisk, hage, rfl, hjson rows text htext⟩
  rw [loadPersistentCache_eq hloads] at hload
  obtain rfl := Option.some.inj (Except.ok.inj hload)
  exact load_of_saved hperm clock k

/-- What happens to a cache in the course of time. -/
inductive LifeEvent
  | op (o : CacheOp)
  | restart

/-- A cache goes through operations and restarts. -/
inductive Life (json : Json) : List LifeEvent → LiveCache → LiveCache → Prop
  | nil (c : LiveCache) : Life json [] c c
  | op {o : CacheOp} {m m' : Metrics} {c c₁ c' : LiveCache} {rest : List LifeEvent}
      (hop : o.apply (c.cache, m) = some (c₁.cache, m')) (hrest : Life json rest c₁ c') :
      Life json (.op o :: rest) c c'
  | restart {c c₁ c' : LiveCache} {rest : List LifeEvent} (hload : Restart json c c₁)
      (hrest : Life json rest c₁ c') : Life json (.restart :: rest) c c'

/-- No answer is stored under the key. -/
def NotInserted (k : CacheKey) (events : List LifeEvent) : Prop :=
  ∀ bytes ttl now, LifeEvent.op (.insert k bytes ttl now) ∉ events

/-- An entry under the key is one that was there, with a TTL that is no longer. -/
def NoLonger (k : CacheKey) (c c' : LiveCache) : Prop :=
  ∀ e', c'.entryAt k = some e' → ∃ e, c.entryAt k = some e ∧ e'.originalTtl ≤ e.originalTtl

theorem NoLonger.trans {k : CacheKey} {c₁ c₂ c₃ : LiveCache} (h₁ : NoLonger k c₁ c₂)
    (h₂ : NoLonger k c₂ c₃) : NoLonger k c₁ c₃ := by
  intro e₃ he₃
  obtain ⟨e₂, he₂, hle₂⟩ := h₂ e₃ he₃
  obtain ⟨e₁, he₁, hle₁⟩ := h₁ e₂ he₂
  exact ⟨e₁, he₁, Nat.le_trans hle₂ hle₁⟩

/-- Counting a hit leaves the TTL alone. -/
theorem noLonger_of_lookup {c c₁ : LiveCache} {m : Metrics} {key : CacheKey} {now : Instant}
    (h : c₁.cache.entries = (c.cache.lookupWithMetrics m key now).2.1.entries) (k : CacheKey) :
    NoLonger k c c₁ := by
  intro e' he'
  unfold LiveCache.entryAt at he'
  rw [h, Cache.lookup_lookupWithMetrics] at he'
  obtain ⟨e, he, rfl⟩ := Option.map_eq_some_iff.mp he'
  refine ⟨e, he, ?_⟩
  split <;> exact Nat.le_refl _

/-- An operation that stores nothing under the key. -/
theorem noLonger_op {o : CacheOp} {m m' : Metrics} {c c₁ : LiveCache} {k : CacheKey}
    (hop : o.apply (c.cache, m) = some (c₁.cache, m'))
    (hk : ∀ bytes ttl now, o ≠ .insert k bytes ttl now) : NoLonger k c c₁ := by
  cases o with
  | insert key bytes ttl now =>
    have hne : k ≠ key := by
      rintro rfl
      exact hk bytes ttl now rfl
    obtain ⟨c', hins, -, -, -, hsub⟩ := Cache.insert_spec c.inv key bytes ttl now
    rw [CacheOp.apply, hins, Option.map_some] at hop
    obtain ⟨rfl, -⟩ := Prod.mk.inj (Option.some.inj hop)
    intro e' he'
    exact ⟨e', hsub k e' hne he', Nat.le_refl _⟩
  | lookup key now =>
    have hc : c₁.cache = (c.cache.lookup key now).2 :=
      (congrArg Prod.fst (Option.some.inj hop)).symm
    exact noLonger_of_lookup (by rw [hc, Cache.entries_lookup c.cache m]) k
  | lookupWithMetrics key now =>
    have hc : c₁.cache = (c.cache.lookupWithMetrics m key now).2.1 :=
      (congrArg Prod.fst (Option.some.inj hop)).symm
    exact noLonger_of_lookup (by rw [hc]) k
  | recordMiss =>
    have hc : c₁.cache = (c.cache.recordMiss m).1 :=
      (congrArg Prod.fst (Option.some.inj hop)).symm
    intro e' he'
    refine ⟨e', ?_, Nat.le_refl _⟩
    rw [LiveCache.entryAt, hc] at he'
    exact he'
  | reapExpired now =>
    have hc : c₁.cache = c.cache.reapExpired now := (congrArg Prod.fst (Option.some.inj hop)).symm
    intro e' he'
    refine ⟨e', ?_, Nat.le_refl _⟩
    rw [LiveCache.entryAt, hc] at he'
    exact Cache.lookup_of_foldl_removeKey _ he'
  | clear =>
    have hc : c₁.cache = c.cache.clear := (congrArg Prod.fst (Option.some.inj hop)).symm
    intro e' he'
    rw [LiveCache.entryAt, hc] at he'
    cases he'

theorem noLonger_restart {json : Json} (hjson : json.RoundTrips) {c c' : LiveCache}
    (h : Restart json c c') (k : CacheKey) : NoLonger k c c' := by
  intro e' he'
  obtain ⟨now, hnow⟩ := h.entryAt hjson k
  rw [he'] at hnow
  obtain ⟨e, he, rfl⟩ := Option.map_eq_some_iff.mp hnow.symm
  exact ⟨e, he, e.originalTtl.fromSecs_asSecs_le⟩

/-- **TTLs never grow**, through any operations and any number of restarts. -/
theorem noLonger_life {json : Json} (hjson : json.RoundTrips) {events : List LifeEvent}
    {c c' : LiveCache} {k : CacheKey} (hlife : Life json events c c')
    (hk : NotInserted k events) : NoLonger k c c' := by
  induction hlife with
  | nil c => exact fun e' he' => ⟨e', he', Nat.le_refl _⟩
  | op hop _ ih =>
    refine (noLonger_op hop ?_).trans (ih ?_)
    · rintro bytes ttl now rfl
      exact hk bytes ttl now (by simp)
    · intro bytes ttl now hmem
      exact hk bytes ttl now (List.mem_cons_of_mem _ hmem)
  | restart hload _ ih =>
    refine (noLonger_restart hjson hload k).trans (ih ?_)
    intro bytes ttl now hmem
    exact hk bytes ttl now (List.mem_cons_of_mem _ hmem)

/-- The entry has time left at `t`, and at least its TTL in whole seconds: it was inserted not longer
ago than the fraction of a second that the snapshot drops. -/
def FreshAt (e : CacheEntry) (t : Instant) : Prop :=
  e.isExpired t = false ∧ Duration.fromSecs e.originalTtl.asSecs ≤ e.ttlRemaining t

/-- **When restarts never extend a life.** The cache `c` is saved at `t` and loaded as `c₁`; whatever
operations and restarts follow, an answer that was not stored anew has at most the time left that
it had at `t`, and was not expired then. -/
theorem never_extends_iff {json : Json} (hjson : json.RoundTrips) {c c₁ : LiveCache}
    (h : Restart json c c₁) (t : Instant) :
    (∀ events c' k e', Life json events c₁ c' → NotInserted k events → c'.entryAt k = some e' →
        ∃ e, c.entryAt k = some e ∧ e.isExpired t = false ∧
          ∀ now, e'.ttlRemaining now ≤ e.ttlRemaining t) ↔
      ∀ k e, c.entryAt k = some e → FreshAt e t := by
  constructor
  · intro hnever k e he
    obtain ⟨now, hnow⟩ := h.entryAt hjson k
    rw [he, Option.map_some] at hnow
    obtain ⟨e₀, he₀, hexp, hle⟩ := hnever [] c₁ k _ (.nil c₁) (by simp [NotInserted]) hnow
    obtain rfl := Option.some.inj (he.symm.trans he₀)
    refine ⟨hexp, ?_⟩
    have hload := hle now
    rwa [CacheEntry.ttlRemaining_insertedAt
      ⟨e.responseBytes, now, .fromSecs e.originalTtl.asSecs, e.hitCount, now⟩] at hload
  · intro hfresh events c' k e' hlife hk he'
    obtain ⟨e₁, he₁, hle⟩ := noLonger_life hjson hlife hk e' he'
    obtain ⟨now₁, hnow₁⟩ := h.entryAt hjson k
    rw [he₁] at hnow₁
    obtain ⟨e, he, rfl⟩ := Option.map_eq_some_iff.mp hnow₁.symm
    obtain ⟨hexp, hleft⟩ := hfresh k e he
    refine ⟨e, he, hexp, fun now => ?_⟩
    exact Nat.le_trans (e'.ttlRemaining_le now) (Nat.le_trans hle hleft)

/-! ### An answer for five minutes -/

/-- The key of the example row. -/
def exampleKey : CacheKey := ⟨"example.com.", 1, none⟩

/-- The answer is stored at the start of the clock. -/
def exampleCache : LiveCache :=
  (LiveCache.new ⟨50000, Duration.fromSecs 30, 2⟩ (by decide)).insert exampleKey [1, 2, 3]
    (Duration.fromSecs 300) 0

/-- A snapshot with one row. -/
def exampleRows : List SnapshotRow := [⟨exampleKey, [1, 2, 3], 300, 0⟩]

/-- Its text. -/
def exampleText : String :=
  "[[\x7b\"qname\":\"example.com.\",\"qtype\":1,\"client_subnet\":null\x7d,[1,2,3],300,0]]"

/-- A serializer that knows this snapshot. -/
def exampleJson : Json := .knowing exampleRows exampleText

/-- The default configuration, and a file for the cache. -/
def exampleSettings : CacheSettings :=
  ⟨CacheSection.default, some "/var/lib/heimdallr/cache.bin", 7⟩

/-- The disk has a file with that text, of an unknown age. -/
def exampleDisk (_ : String) : Option DiskFile := some ⟨some exampleText, none⟩

/-- The cache of a process that starts after an hour. -/
def exampleLoaded : LiveCache :=
  (LiveCache.new (loadConfig exampleRows) (loadConfig_size_pos exampleRows)).loadRows
    (fun _ => Duration.fromSecs 3600) exampleRows 0

theorem example_snapshotLoads : SnapshotLoads exampleJson exampleSettings exampleDisk exampleRows :=
  ⟨_, _, exampleText, rfl, rfl, rfl, rfl,
    Json.roundTrips_knowing _ _ _ _ (Json.toString_knowing _ _)⟩

theorem example_restart : Restart exampleJson exampleCache exampleLoaded := by
  have hrows : exampleCache.cache.snapshot = exampleRows := by decide
  refine ⟨exampleRows, exampleText, exampleSettings, exampleDisk, _, none,
    fun _ => Duration.fromSecs 3600, ?_, Json.toString_knowing _ _, rfl, rfl, ?_⟩
  · rw [hrows]
  · exact loadPersistentCache_eq example_snapshotLoads _

theorem exampleCache_entries {k : CacheKey} {e : CacheEntry}
    (h : exampleCache.entryAt k = some e) :
    e = ⟨[1, 2, 3], 0, Duration.fromSecs 300, 0, 0⟩ := by
  have hentries : exampleCache.cache.entries.entries =
      [⟨exampleKey, ⟨[1, 2, 3], 0, Duration.fromSecs 300, 0, 0⟩⟩] := by decide
  have hmem := AList.mem_lookup_iff.mp h
  rw [hentries, List.mem_singleton] at hmem
  exact eq_of_heq (Sigma.mk.inj hmem).2

/-- Saved in the moment it was stored, the answer does not get more time. -/
theorem never_extends_saved_at_once :
    Restart exampleJson exampleCache exampleLoaded ∧
      ∀ events c' k e', Life exampleJson events exampleLoaded c' → NotInserted k events →
        c'.entryAt k = some e' →
          ∃ e, exampleCache.entryAt k = some e ∧ e.isExpired 0 = false ∧
            ∀ now, e'.ttlRemaining now ≤ e.ttlRemaining 0 := by
  refine ⟨example_restart, (never_extends_iff (Json.roundTrips_knowing _ _) example_restart 0).mpr ?_⟩
  intro k e he
  obtain rfl := exampleCache_entries he
  exact ⟨by decide, by decide⟩

/-- Saved a second before its end it gets five minutes again, and saved after its end it is
there. -/
theorem restart_extends :
    Restart exampleJson exampleCache exampleLoaded ∧
      (∃ e e', exampleCache.entryAt exampleKey = some e ∧ exampleLoaded.entryAt exampleKey = some e' ∧
        e.ttlRemaining (Duration.fromSecs 299) = Duration.fromSecs 1 ∧
        e'.ttlRemaining (Duration.fromSecs 3600) = Duration.fromSecs 300 ∧
        e.isExpired (Duration.fromSecs 301) = true) ∧
      ¬ ∀ events c' k e', Life exampleJson events exampleLoaded c' → NotInserted k events →
        c'.entryAt k = some e' →
          ∃ e, exampleCache.entryAt k = some e ∧ e.isExpired (Duration.fromSecs 299) = false ∧
            ∀ now, e'.ttlRemaining now ≤ e.ttlRemaining (Duration.fromSecs 299) := by
  have hsaved : exampleCache.entryAt exampleKey =
      some ⟨[1, 2, 3], 0, Duration.fromSecs 300, 0, 0⟩ := by decide
  have hloaded : exampleLoaded.entryAt exampleKey =
      some ⟨[1, 2, 3], Duration.fromSecs 3600, Duration.fromSecs 300, 0, Duration.fromSecs 3600⟩ := by
    decide
  refine ⟨example_restart, ⟨_, _, hsaved, hloaded, by decide, by decide, by decide⟩, ?_⟩
  intro hnever
  obtain ⟨e, he, -, hle⟩ := hnever [] exampleLoaded exampleKey _ (.nil _) (by simp [NotInserted])
    hloaded
  obtain rfl := exampleCache_entries he
  exact absurd (hle (Duration.fromSecs 3600)) (by decide)

/-! ## The configuration -/

/-- The cache keeps to the configuration, whatever operations follow. -/
structure ObeysConfig (cfg : CacheSettings) (c : LiveCache) : Prop where
  bound : ∀ ops m c' m', CacheOp.runAll ops (c.cache, m) = some (c', m') → c'.len ≤ cfg.size
  evicts : ∀ ops m c' m', CacheOp.runAll ops (c.cache, m) = some (c', m') →
    c'.makeRoom ≠ some c' → cfg.size ≤ c'.len
  prefetches : ∀ ops m c' m', CacheOp.runAll ops (c.cache, m) = some (c', m') →
    ∀ k now, c'.shouldPrefetch k now = { c' with config := cfg.runtime }.shouldPrefetch k now

/-- There is always another key. -/
theorem exists_fresh_key (keys : List CacheKey) : ∃ k, k ∉ keys := by
  have hinj : Function.Injective fun n : Nat =>
      CacheKey.mk (String.ofList (List.replicate n 'a')) 1 none := by
    intro a b hab
    have hname := congrArg (fun k => k.qname.toList.length) hab
    simpa using hname
  have hinf : Infinite CacheKey := Infinite.of_injective _ hinj
  obtain ⟨k, hk⟩ := Infinite.exists_notMem_finset keys.toFinset
  exact ⟨k, by simpa using hk⟩

/-- A cache can be filled to its capacity. -/
theorem exists_filled {c : Cache} (h : c.Inv) (m : Metrics) :
    ∃ ops c', CacheOp.runAll ops (c, m) = some (c', m) ∧ c'.Inv ∧ c'.len = c.config.size := by
  induction hn : c.config.size - c.len generalizing c with
  | zero =>
    have hbound := h.bound
    exact ⟨[], c, rfl, h, by omega⟩
  | succ n ih =>
    obtain ⟨k, hk⟩ := exists_fresh_key c.entries.keys
    have hroom : c.len < c.config.size := by omega
    obtain ⟨c₁, hins, hinv, hcfg, -, -⟩ := Cache.insert_spec h k [] 0 0
    have hput : c.insert k [] 0 0 = some (c.put k [] 0 0) := by
      rw [Cache.insert, Cache.makeRoom_of_room hroom, Option.map_some]
    obtain rfl := Option.some.inj (hput.symm.trans hins)
    have hlen : (c.put k [] 0 0).len = c.len + 1 := by
      show (c.entries.insert k _).keys.length = _
      rw [AList.keys_insert, List.length_cons, List.erase_of_not_mem hk]
      rfl
    obtain ⟨ops, c', hrun, hinv', hlen'⟩ := ih hinv (by rw [hcfg, hlen]; omega)
    refine ⟨.insert k [] 0 0 :: ops, c', ?_, hinv', by rw [hlen', hcfg]⟩
    rw [CacheOp.runAll, CacheOp.apply, hins]
    exact hrun

/-- With prefetching on, an answer without a TTL is due after its first hit. -/
theorem exists_prefetch_due {c : Cache} (h : c.Inv) (m : Metrics) :
    ∃ ops c' m' k, CacheOp.runAll ops (c, m) = some (c', m') ∧ c'.config = c.config ∧
      ∀ config : CacheConfig,
        { c' with config }.shouldPrefetch k 0 = decide (config.prefetch ≠ 0) := by
  obtain ⟨c₁, hins, -, hcfg, hk, -⟩ := Cache.insert_spec h exampleKey [] 0 0
  refine ⟨[.insert exampleKey [] 0 0, .lookup exampleKey 0], (c₁.lookup exampleKey 0).2, m,
    exampleKey, ?_, ?_, ?_⟩
  · rw [CacheOp.runAll, CacheOp.apply, hins]
    rfl
  · rw [← hcfg]
    unfold Cache.lookup
    rw [hk]
  · intro config
    unfold Cache.shouldPrefetch Cache.lookup
    rw [hk]
    by_cases hzero : config.prefetch = 0
    · simp [hzero]
    · rw [if_neg hzero, AList.lookup_insert]
      -- the entry has no time left and one hit
      have hdue : 0 < Duration.fromSecs (config.prefetch * (0 + 1)) :=
        Nat.mul_pos (Nat.mul_pos (Nat.pos_of_ne_zero hzero) Nat.one_pos) (by decide)
      exact (decide_eq_true hdue).trans (decide_eq_true hzero).symm

/-- After any operations on a cache: its invariant, and the configuration it had. -/
theorem runAll_reached {c : LiveCache} {ops : List CacheOp} {m m' : Metrics} {c' : Cache}
    (hrun : CacheOp.runAll ops (c.cache, m) = some (c', m')) :
    c'.Inv ∧ c'.config = c.cache.config := by
  obtain ⟨s, hs, hinv, hcfg⟩ := CacheOp.runAll_inv ops (s := (c.cache, m)) c.inv
  obtain rfl := Option.some.inj (hs.symm.trans hrun)
  exact ⟨hinv, hcfg⟩

/-- A cache that obeys the configuration can be filled just as far as it says. -/
theorem ObeysConfig.size_eq {cfg : CacheSettings} {c : LiveCache} (h : ObeysConfig cfg c) :
    cfg.size = c.cache.config.size := by
  obtain ⟨ops, c', hrun, hinv, hlen⟩ := exists_filled c.inv fun _ => 0
  have hbound := h.bound ops _ c' _ hrun
  -- a full cache has to evict
  have hevicts : cfg.size ≤ c'.len := by
    refine h.evicts ops _ c' _ hrun ?_
    obtain ⟨room, hroom, hrcfg, hless, -, -⟩ := Cache.makeRoom_spec hinv
    have hccfg := (runAll_reached hrun).2
    rw [hroom]
    intro heq
    obtain rfl := Option.some.inj heq
    rw [hccfg] at hless
    omega
  omega

/-- A cache that never prefetches obeys no configuration that asks for it. -/
theorem ObeysConfig.prefetch_eq_zero {cfg : CacheSettings} {c : LiveCache} (h : ObeysConfig cfg c)
    (hc : c.cache.config.prefetch = 0) : cfg.prefetch = 0 := by
  obtain ⟨ops, d, m', k, hrun, hdcfg, hdue⟩ := exists_prefetch_due c.inv fun _ => 0
  have hpre := h.prefetches ops _ d m' hrun k 0
  have hoff := hdue d.config
  rw [hdue cfg.runtime] at hpre
  have hzero : d.config.prefetch = 0 := by rw [hdcfg, hc]
  rw [hzero] at hoff
  by_contra hne
  have hon : decide (cfg.runtime.prefetch ≠ 0) = true := decide_eq_true hne
  rw [hon] at hpre
  exact absurd (hpre.symm.trans hoff) (by simp)

theorem obeysConfig_of_eq {cfg : CacheSettings} {c : LiveCache}
    (hsize : cfg.size = c.cache.config.size) (hc : c.cache.config.prefetch = 0)
    (hprefetch : cfg.prefetch = 0) : ObeysConfig cfg c := by
  refine ⟨?_, ?_, ?_⟩
  · intro ops m c' m' hrun
    obtain ⟨hinv, hccfg⟩ := runAll_reached hrun
    rw [hsize, ← hccfg]
    exact hinv.bound
  · intro ops m c' m' hrun hevicts
    obtain ⟨-, hccfg⟩ := runAll_reached hrun
    by_contra hless
    refine hevicts (Cache.makeRoom_of_room ?_)
    rw [hccfg]
    omega
  · intro ops m c' m' hrun k now
    obtain ⟨-, hccfg⟩ := runAll_reached hrun
    have hzero : c'.config.prefetch = 0 := by rw [hccfg, hc]
    have hzero' : cfg.runtime.prefetch = 0 := hprefetch
    unfold Cache.shouldPrefetch
    rw [if_pos hzero, if_pos hzero']

/-- A loaded cache has the configuration the loader gave it. -/
theorem config_startCache {json : Json} {cfg : CacheSettings} {disk : String → Option DiskFile}
    {rows : List SnapshotRow} (h : SnapshotLoads json cfg disk rows) (clock : Nat → Instant)
    (hsize : 1 ≤ cfg.size) :
    (startCache json cfg disk clock hsize).cache.config = loadConfig rows := by
  rw [startCache_eq h, LiveCache.config_loadRows]
  rfl

/-- **When a loaded cache obeys the configuration.** -/
theorem obeys_config_iff {json : Json} {cfg : CacheSettings} {disk : String → Option DiskFile}
    {rows : List SnapshotRow} (h : SnapshotLoads json cfg disk rows) (clock : Nat → Instant)
    (hsize : 1 ≤ cfg.size) :
    ObeysConfig cfg (startCache json cfg disk clock hsize) ↔
      cfg.size = max rows.length 100 ∧ cfg.prefetch = 0 := by
  have hcfg := config_startCache h clock hsize
  have hoff : (startCache json cfg disk clock hsize).cache.config.prefetch = 0 := by
    rw [hcfg]
    rfl
  constructor
  · intro hobeys
    have hcapacity := hobeys.size_eq
    rw [hcfg] at hcapacity
    exact ⟨hcapacity, hobeys.prefetch_eq_zero hoff⟩
  · rintro ⟨hcapacity, hprefetch⟩
    refine obeysConfig_of_eq ?_ hoff hprefetch
    rw [hcfg]
    exact hcapacity

/-- A capacity of 100 and no prefetching, as the loader has it for a small snapshot. -/
def smallSettings : CacheSettings := ⟨⟨100, true, 0⟩, some "/var/lib/heimdallr/cache.bin", 7⟩

theorem obeys_config_small :
    ObeysConfig smallSettings
      (startCache exampleJson smallSettings exampleDisk (fun _ => 0) (by decide)) := by
  have hloads : SnapshotLoads exampleJson smallSettings exampleDisk exampleRows :=
    ⟨_, _, exampleText, rfl, rfl, rfl, rfl,
      Json.roundTrips_knowing _ _ _ _ (Json.toString_knowing _ _)⟩
  exact (obeys_config_iff hloads _ _).mpr ⟨by decide, rfl⟩

/-- The default configuration asks for prefetching; a cache loaded under it never prefetches. -/
theorem config_ignored :
    ¬ ObeysConfig exampleSettings
      (startCache exampleJson exampleSettings exampleDisk (fun _ => 0) (by decide)) := by
  intro hobeys
  have hoff : (startCache exampleJson exampleSettings exampleDisk (fun _ => 0)
      (by decide)).cache.config.prefetch = 0 := by
    rw [config_startCache example_snapshotLoads]
    rfl
  exact absurd (hobeys.prefetch_eq_zero hoff) (by decide)

end Heimdallr.Net
