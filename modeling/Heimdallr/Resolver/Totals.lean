import Heimdallr.Core.Metrics
import Heimdallr.Resolver.Workload

/-!
# The cache totals of a running resolver

`cache_hits_total` and `cache_misses_total` are incremented with the lookup they count, while tasks
interleave and count other things in between. What a scrape shows of the two is the number of
lookups that found their key, and of those that did not, and there are no more of them than the
queries need.

The text is the one of `Core.Metrics`, so the numbers are modulo 2^64; the log of `Resolver.Effects`
says which lookups there were, and `Core.Accounting` what one of them counts.

* `strayCost`: the increments that would spoil the totals; no task makes one.
* `counted_act`: one act of the system.
* **`totals_exported`**: every run.
-/

namespace Heimdallr.Resolver

open Lib

/-- The event is a lookup that found its key. -/
def Event.isHit : Event → Bool
  | .hit _ _ _ _ => true
  | _ => false

/-- The event is a lookup that did not find its key. -/
def Event.isMiss : Event → Bool
  | .miss _ => true
  | _ => false

/-- The lookups so far that found their key. -/
def Shared.hits (s : Shared) : Nat := s.log.countP fun x => x.2.isHit

/-- The lookups so far that did not. -/
def Shared.misses (s : Shared) : Nat := s.log.countP fun x => x.2.isMiss

/-! ## Increments out of place -/

/-- An increment of a counter that is not the task's to increment costs one. -/
def strayCost : Op → Nat
  | .net (.increment metric _) => if metric ∈ taskMetrics then 0 else 1
  | _ => 0

/-- Nothing counts. -/
def Weights.none : Weights := ⟨0, 0, 0, 0, 0⟩

theorem Weights.none_bounds : Weights.none.Bounds strayCost where
  upstream _ _ := Nat.le_refl _
  increment _ hmetric _ := Nat.le_of_eq (if_pos hmetric)
  lookup _ := Nat.le_refl _
  insert _ _ _ := Nat.le_refl _
  spawn _ _ := Nat.le_refl _

theorem Weights.none_query (self : CacheForwardAuthority) (rtype : RecordType) :
    Weights.none.query self rtype = 0 := by
  unfold Weights.query Weights.missPath Weights.resolve
  simp [Weights.none, Weights.anyLoop]

/-- The two totals are the numbers of the events. -/
structure Shared.Counted (s : Shared) : Prop where
  hits : s.metrics .CacheHitsTotal = s.hits
  misses : s.metrics .CacheMissesTotal = s.misses

/-- One operation that is not out of place. -/
theorem counted_handle {o : Op} {l : Local} {s : Shared} (hs : s.Counted) (ho : strayCost o = 0) :
    (handle o l s).2.2.Counted := by
  cases o with
  | net o =>
    cases o with
    | upstream name rtype =>
      refine ⟨?_, ?_⟩
      · simpa [handle, Shared.hits, Event.isHit] using hs.hits
      · simpa [handle, Shared.misses, Event.isMiss] using hs.misses
    | increment metric delta =>
      have hmetric : metric ∈ taskMetrics := by
        by_contra hnot
        rw [strayCost, if_neg hnot] at ho
        cases ho
      have hhit : MetricName.CacheHitsTotal ≠ metric := by
        rintro rfl
        simp [taskMetrics] at hmetric
      have hmiss : MetricName.CacheMissesTotal ≠ metric := by
        rintro rfl
        simp [taskMetrics] at hmetric
      exact ⟨(if_neg hhit).trans hs.hits, (if_neg hmiss).trans hs.misses⟩
  | lookup key =>
    obtain ⟨-, -, hht, hmt⟩ := s.cache.cache.lookupWithMetrics_counts s.metrics key s.now
    have hfst := s.cache.lookupWithMetrics_fst s.metrics key s.now
    cases hres : s.cache.entryAt key with
    | none =>
      rw [hres] at hfst
      have hlooked : (s.cache.cache.lookupWithMetrics s.metrics key s.now).1 = none := hfst
      rw [hlooked] at hht hmt
      rw [handle_lookup_none hres]
      refine ⟨?_, ?_⟩
      · exact hht.trans (by simpa [Shared.hits, Event.isHit, CacheEvent.isHit] using hs.hits)
      · exact hmt.trans (by
          simpa [Shared.misses, Event.isMiss, CacheEvent.isMiss, List.countP_append,
            List.countP_singleton] using hs.misses)
    | some e =>
      rw [hres] at hfst
      have hlooked : (s.cache.cache.lookupWithMetrics s.metrics key s.now).1 = some _ := hfst
      rw [hlooked] at hht hmt
      rw [handle_lookup_some hres]
      refine ⟨?_, ?_⟩
      · exact hht.trans (by
          simpa [Shared.hits, Event.isHit, CacheEvent.isHit, List.countP_append,
            List.countP_singleton] using hs.hits)
      · exact hmt.trans (by simpa [Shared.misses, Event.isMiss, CacheEvent.isMiss] using hs.misses)
  | insert key bytes ttl =>
    refine ⟨?_, ?_⟩
    · simpa [handle, Shared.hits, Event.isHit] using hs.hits
    · simpa [handle, Shared.misses, Event.isMiss] using hs.misses
  | spawnPrefetch name rtype =>
    refine ⟨?_, ?_⟩
    · simpa [handle, Shared.hits, Event.isHit] using hs.hits
    · simpa [handle, Shared.misses, Event.isMiss] using hs.misses

section Runs

variable {self : CacheForwardAuthority} {hk : Hickory}

/-- The totals are right, and no task will spoil them. -/
structure System.Counted (P : System) : Prop where
  shared : P.shared.Counted
  clean : P.Funded strayCost (fun _ _ => 0) 0

/-- **One act** keeps the totals right. -/
theorem counted_act (a : Act) (P P' : System) (hP : P.Counted) (h : act self hk a P = some P') :
    P'.Counted := by
  cases a with
  | query name rtype info u =>
    obtain rfl := Option.some.inj h
    have hquery := within_queryTask Weights.none_bounds self hk name rtype info u
    rw [Weights.none_query] at hquery
    exact ⟨hP.shared, Pool.funded_start hP.clean hquery⟩
  | prefetch j u =>
    obtain ⟨name, rtype, -, rfl⟩ := act_prefetch h
    have hprefetch := within_prefetchTask Weights.none_bounds hk name rtype u
    exact ⟨⟨hP.shared.hits, hP.shared.misses⟩, Pool.funded_start (hP.clean.of_tasks rfl) hprefetch⟩
  | task i =>
    obtain ⟨l, o, k, ht, hP'⟩ := Pool.step_eq h
    obtain ⟨hcost, hclean⟩ := Pool.funded_step hP.clean ht h
    have ho : strayCost o = 0 := Nat.le_zero.mp hcost
    subst hP'
    refine ⟨counted_handle hP.shared ho, hclean.mono ?_⟩
    omega
  | tick d =>
    obtain rfl := Option.some.inj h
    exact ⟨⟨hP.shared.hits, hP.shared.misses⟩, hP.clean.of_tasks rfl⟩
  | insert key bytes ttl =>
    obtain rfl := Option.some.inj h
    exact ⟨⟨hP.shared.hits, hP.shared.misses⟩, hP.clean.of_tasks rfl⟩

/-! ## How many lookups there are -/

/-- The lookups a query makes: one, or one for each of the types of ANY. -/
def Act.maxLookups : Act → Nat
  | .query _ rtype _ _ => if rtype = .ANY then 2 else 1
  | _ => 0

/-- Only lookups count. -/
def lookupWeights : Weights := ⟨0, 0, 1, 0, 0⟩

theorem brings_lookups (self : CacheForwardAuthority) :
    Act.brings lookupWeights self = Act.maxLookups := by
  funext a
  cases a with
  | query name rtype info u =>
    show lookupWeights.query self rtype = if rtype = .ANY then 2 else 1
    unfold Weights.query Weights.missPath Weights.resolve
    by_cases hany : rtype = .ANY
    · rw [if_pos hany, if_pos hany]
      rfl
    · rw [if_neg hany, if_neg hany]
      simp [lookupWeights]
  | _ => rfl

theorem lookupWeights_pays : lookupWeights.Pays 0 0 fun s => s.hits + s.misses where
  op o l s := by
    cases o with
    | net o =>
      cases o with
      | upstream name rtype =>
        simp [handle, Shared.hits, Shared.misses, Event.isHit, Event.isMiss]
      | increment metric delta => simp [handle, Shared.hits, Shared.misses]
    | lookup key =>
      cases hres : s.cache.entryAt key with
      | none =>
        rw [handle_lookup_none hres]
        simp [Shared.hits, Shared.misses, Event.isHit, Event.isMiss, Weights.op, lookupWeights,
          List.countP_append]
        omega
      | some e =>
        rw [handle_lookup_some hres]
        simp [Shared.hits, Shared.misses, Event.isHit, Event.isMiss, Weights.op, lookupWeights,
          List.countP_append]
        omega
    | insert key bytes ttl =>
      simp [handle, Shared.hits, Shared.misses, Event.isHit, Event.isMiss]
    | spawnPrefetch name rtype =>
      simp [handle, Shared.hits, Shared.misses, Event.isHit, Event.isMiss]
  begins := Nat.le_refl _
  log s s' h := by
    unfold Shared.hits Shared.misses
    rw [h]

/-- **What a scrape shows of the cache.** After any run from the empty cache, the exported totals are
the numbers of lookups that found their key and that did not, modulo 2^64, and together these are no
more than one for a query and two for an ANY query. -/
theorem totals_exported (self : CacheForwardAuthority) (hk : Hickory) (c : CacheSection)
    (hsize : 1 ≤ c.size) (acts : List Act) (P : System)
    (hrun : runAll (act self hk) acts (System.initial c hsize) = some P) (r : MetricsRegistry)
    (hr : r.Shows P.shared.metrics) :
    scraped r.serialize .CacheHitsTotal = some (P.shared.hits % 2 ^ 64) ∧
      scraped r.serialize .CacheMissesTotal = some (P.shared.misses % 2 ^ 64) ∧
      P.shared.hits + P.shared.misses ≤ (acts.map Act.maxLookups).sum := by
  have hstart : (System.initial c hsize).Counted := ⟨⟨rfl, rfl⟩, ⟨[], .nil, Nat.le_refl _⟩⟩
  have hcounted : P.Counted := runAll_keeps counted_act hstart hrun
  have hinit : Budget lookupWeights 0 (fun s => s.hits + s.misses) (System.initial c hsize) 0 :=
    budget_initial fun s hs => by
      unfold Shared.hits Shared.misses
      rw [hs]
      rfl
  obtain ⟨n, ⟨m, -, hpaid⟩, hle⟩ := run_budget lookupWeights_pays hinit hrun
  have hsum : P.shared.hits + P.shared.misses + 0 * P.shared.pending.length + m ≤ n := hpaid
  rw [brings_lookups] at hle
  refine ⟨?_, ?_, by omega⟩
  · rw [hr.scraped_eq, hcounted.shared.hits]
  · rw [hr.scraped_eq, hcounted.shared.misses]

/-- The registry of a run in which the cache was asked twice. -/
theorem totals_exported_dayLater :
    ∃ P, runAll (act CacheForwardAuthority.default wwwCodec) dayLater
        (System.initial CacheSection.default (by decide)) = some P ∧
      ∃ r : MetricsRegistry, r.Shows P.shared.metrics ∧
        scraped r.serialize .CacheHitsTotal = some (P.shared.hits % 2 ^ 64) ∧
        scraped r.serialize .CacheMissesTotal = some (P.shared.misses % 2 ^ 64) ∧
        P.shared.hits + P.shared.misses ≤ (dayLater.map Act.maxLookups).sum := by
  have hpossible : (runAll (act CacheForwardAuthority.default wwwCodec) dayLater
      (System.initial CacheSection.default (by decide))).isSome = true := rfl
  obtain ⟨P, hP⟩ := Option.isSome_iff_exists.mp hpossible
  have hshows : MetricsRegistry.Shows ⟨fun name => some (UInt64.ofNat (P.shared.metrics name))⟩
      P.shared.metrics := fun _ => rfl
  exact ⟨P, hP, _, hshows, totals_exported _ _ _ _ _ _ hP _ hshows⟩

end Runs

end Heimdallr.Resolver
