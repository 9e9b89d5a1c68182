import Heimdallr.Lib.Cost
import Heimdallr.Resolver.Provenance

/-!
# Prefetches

A hit on an entry that is nearly used up spawns a prefetch. The log shows the spawnings and the
hits; in a run none of the first is without one of the second, and what is spawned is pending until
it begins, and begins once.

* `should_prefetch` compares the time that is left with a number of seconds times the hits of the
  entry, so a popular entry is fetched ahead sooner, and with `prefetch = 0` none ever is.
* A spawned task is one of the runtime's. Until its first operation it is pending in `Shared`; which
  pending task begins, and when, is up to the run.

Results:
* `handle_counts`: one operation, as a payment: a due hit brings in what a spawning costs.
* `lookup_affords`: a query spawns no more than it has hit (`Lib.Cost`).
* **`prefetch_discipline`**: every run.
-/

namespace Heimdallr.Resolver

open Lib CacheForwardAuthority

/-! ## What the log shows -/

/-- The prefetch an event spawns. -/
def Event.spawned : Event → Option (LowerName × RecordType)
  | .spawn name rtype => some (name, rtype)
  | _ => none

/-- The prefetch a request is. -/
def Request.prefetching : Request → Option (LowerName × RecordType)
  | .prefetch name rtype => some (name, rtype)
  | _ => none

/-- The prefetches that were spawned. -/
def Shared.spawned (s : Shared) : List (LowerName × RecordType) :=
  s.log.filterMap fun x => x.2.spawned

/-- The prefetches that have begun. -/
def System.prefetches (P : System) : List (LowerName × RecordType) :=
  P.started.filterMap fun x => x.1.prefetching

/-- The entry is due when a hit has been counted: its TTL left is below the threshold. -/
def entryDue (config : CacheConfig) (e : CacheEntry) (now : Instant) : Bool :=
  decide (config.prefetch ≠ 0 ∧
    e.ttlRemaining now < Duration.fromSecs (config.prefetch * (e.hitCount + 1)))

/-- The event is a hit on the key, by which its entry is due. -/
def Event.isDue (config : CacheConfig) (key : CacheKey) : Event → Bool
  | .hit k e now _ => decide (k = key) && entryDue config e now
  | _ => false

/-- The prefetch is for the key. -/
def isFor (hk : Hickory) (key : CacheKey) (x : LowerName × RecordType) : Bool :=
  decide (keyOf hk x.1 x.2 = key)

/-- What `should_prefetch` says, right after `lookup_with_metrics` counted the hit. -/
theorem prefetchDue_eq {s : Shared} {key : CacheKey} {e : CacheEntry}
    (he : s.cache.entryAt key = some e) :
    s.prefetchDue key = entryDue s.cache.cache.config e s.now := by
  have hcfg := LiveCache.config_lookupWithMetrics s.cache s.metrics key s.now
  have hentry := LiveCache.entryAt_lookupWithMetrics s.cache s.metrics key s.now key
  rw [he, Option.map_some, if_pos rfl] at hentry
  unfold Shared.prefetchDue Cache.shouldPrefetch entryDue
  unfold LiveCache.entryAt at hentry
  rw [hcfg, hentry]
  by_cases hoff : s.cache.cache.config.prefetch = 0
  · rw [if_pos hoff]
    exact (decide_eq_false fun hdue => hdue.1 hoff).symm
  · rw [if_neg hoff]
    exact decide_eq_decide.mpr (and_iff_right hoff).symm

/-! ## Spawnings are paid for -/

section Payments

variable (hk : Hickory) (key : CacheKey)

/-- Spawning a prefetch for the key costs one. -/
def spawnCost : Op → Nat
  | .spawnPrefetch name rtype => if isFor hk key (name, rtype) then 1 else 0
  | _ => 0

/-- A due hit on the key brings in one. -/
def dueGain : (o : Op) → o.Ans → Nat
  | .lookup k, found => if k = key ∧ (found.any fun f => f.2) then 1 else 0
  | _, _ => 0

/-- How many prefetches for the key were spawned. -/
def Shared.spawnedFor (s : Shared) : Nat := s.spawned.countP (isFor hk key)

/-- How many hits on the key were due. -/
def Shared.dueHits (s : Shared) (config : CacheConfig) : Nat :=
  s.log.countP fun x => x.2.isDue config key

variable {hk key} {self : CacheForwardAuthority}

/-- **One operation**: the log grows by what it costs and by what its answer brings in. -/
theorem handle_counts (hk : Hickory) (key : CacheKey) (o : Op) (l : Local) (s : Shared) :
    (handle o l s).2.2.spawnedFor hk key = s.spawnedFor hk key + spawnCost hk key o ∧
      (handle o l s).2.2.dueHits key s.cache.cache.config =
        s.dueHits key s.cache.cache.config + dueGain key o (handle o l s).1 := by
  cases o with
  | net o =>
    cases o with
    | upstream name rtype =>
      simp [handle, Shared.spawnedFor, Shared.spawned, Shared.dueHits, Event.spawned, Event.isDue,
        spawnCost, dueGain]
    | increment metric delta => exact ⟨rfl, rfl⟩
  | lookup k =>
    cases hres : s.cache.entryAt k with
    | none =>
      rw [handle_lookup_none hres]
      simp [Shared.spawnedFor, Shared.spawned, Shared.dueHits, Event.spawned, Event.isDue,
        spawnCost, dueGain]
    | some e =>
      have hdue := prefetchDue_eq hres
      unfold Shared.prefetchDue at hdue
      rw [handle_lookup_some hres, hdue]
      simp [Shared.spawnedFor, Shared.spawned, Shared.dueHits, Event.spawned, Event.isDue,
        spawnCost, dueGain, List.countP_append, List.countP_singleton]
  | insert k bytes ttl =>
    simp [handle, Shared.spawnedFor, Shared.spawned, Shared.dueHits, Event.spawned, Event.isDue,
      spawnCost, dueGain]
  | spawnPrefetch name rtype =>
    simp [handle, Shared.spawnedFor, Shared.spawned, Shared.dueHits, Event.spawned, Event.isDue,
      spawnCost, dueGain, List.countP_append, List.countP_singleton]

/-- A `Net` program spawns nothing. -/
theorem lift_affords {α : Type} (p : Net α) (n : Nat) :
    p.lift.Affords (spawnCost hk key) (dueGain key) n :=
  Prog.affords_embed (Prog.affords_free (fun _ => rfl) p n)

theorem storeAnswer_affords (k : CacheKey) (records : List Record) (n : Nat) :
    (storeAnswer hk k records).Affords (spawnCost hk key) (dueGain key) n := by
  unfold storeAnswer
  split
  · exact Prog.affords_perform (Nat.zero_le n)
  · exact Prog.affords_pure _ _

theorem missPath_affords (k : CacheKey) (name : LowerName) (rtype : RecordType) (n : Nat) :
    (self.missPath hk k name rtype).Affords (spawnCost hk key) (dueGain key) n := by
  unfold missPath
  refine Prog.affords_bind_of_le (lift_affords _ 0) (Nat.zero_le n) fun res => ?_
  split
  · exact Prog.affords_pure _ _
  · refine Prog.affords_bind_of_le (storeAnswer_affords _ _ 0) (Nat.zero_le _) fun _ => ?_
    refine Prog.affords_bind_of_le (lift_affords _ 0) (Nat.zero_le _) fun _ => ?_
    exact Prog.affords_pure _ _

theorem anyLoop_affords (name : LowerName) (types : List RecordType) (n : Nat) :
    (anyLoop hk name types).Affords (spawnCost hk key) (dueGain key) n := by
  induction types generalizing n with
  | nil => exact Prog.affords_pure _ _
  | cons t rest ih =>
    unfold anyLoop
    refine Prog.affords_perform_bind (Nat.zero_le n) fun found => ?_
    split
    · exact Prog.affords_pure _ _
    · refine Prog.affords_bind_of_le (lift_affords _ 0) (Nat.zero_le _) fun reply => ?_
      split
      · exact Prog.affords_bind_of_le (storeAnswer_affords _ _ 0) (Nat.zero_le _) fun _ =>
          Prog.affords_pure _ _
      · exact ih _

/-- **A query** spawns a prefetch only right after a due hit on its key. -/
theorem lookup_affords (name : LowerName) (rtype : RecordType) (info : Option RequestInfo) :
    (self.lookup hk name rtype info).Affords (spawnCost hk key) (dueGain key) 0 := by
  unfold lookup
  split
  · exact anyLoop_affords name _ 0
  · dsimp only
    rw [cacheKey_eq_keyOf]
    refine Prog.affords_perform_bind (Nat.le_refl 0) fun found => ?_
    cases found with
    | none => exact missPath_affords _ name rtype _
    | some f =>
      obtain ⟨hit, due⟩ := f
      have hserve : ∀ serve : Task Answer,
          (∀ n, serve.Affords (spawnCost hk key) (dueGain key) n) →
          (do
            if due then
              Prog.perform (Op.spawnPrefetch name rtype)
            serve : Task Answer).Affords (spawnCost hk key) (dueGain key)
              (0 + dueGain key (Op.lookup (keyOf hk name rtype)) (some (hit, due))) := by
        intro serve hserve
        cases due with
        | false => exact hserve _
        | true =>
          refine Prog.affords_perform_bind ?_ fun _ => hserve _
          -- the hit was on the key the prefetch is for
          simp [spawnCost, dueGain, isFor]
      refine hserve _ fun n => ?_
      cases hk.fromVec hit.bytes with
      | none => exact missPath_affords _ name rtype n
      | some msg => exact Prog.affords_pure _ _

theorem queryTask_affords (name : LowerName) (rtype : RecordType) (info : Option RequestInfo)
    (u : Upstream) :
    (queryTask self hk name rtype info u).2.Affords (spawnCost hk key) (dueGain key) 0 :=
  Prog.affords_bind_of_le (lookup_affords name rtype info) (Nat.le_refl 0) fun _ =>
    Prog.affords_pure _ _

theorem prefetchTask_affords (name : LowerName) (rtype : RecordType) (u : Upstream) :
    (prefetchTask hk name rtype u).2.Affords (spawnCost hk key) (dueGain key) 0 := by
  refine Prog.affords_bind_of_le ?_ (Nat.le_refl 0) fun _ => Prog.affords_pure _ _
  unfold prefetch
  refine Prog.affords_bind_of_le (lift_affords _ 0) (Nat.le_refl 0) fun reply => ?_
  split
  · exact storeAnswer_affords _ _ _
  · exact Prog.affords_pure _ _

/-! ## Runs -/

/-- What was spawned for the key, and what the tasks can still spawn, was paid for by due hits. -/
structure PaidFor (hk : Hickory) (key : CacheKey) (config : CacheConfig) (P : System) : Prop where
  obeys : P.shared.cache.cache.config = config
  paid : ∃ m, P.Funded (spawnCost hk key) (dueGain key) m ∧
    P.shared.spawnedFor hk key + m ≤ P.shared.dueHits key config

/-- An act that changes neither the log nor the tasks, or starts a task that has to earn first. -/
theorem PaidFor.of_log {config : CacheConfig} {P P' : System} (h : PaidFor hk key config P)
    (hcfg : P'.shared.cache.cache.config = config) (hlog : P'.shared.log = P.shared.log)
    (hfund : ∀ m, P.Funded (spawnCost hk key) (dueGain key) m →
      P'.Funded (spawnCost hk key) (dueGain key) m) : PaidFor hk key config P' := by
  obtain ⟨m, hm, hle⟩ := h.paid
  refine ⟨hcfg, m, hfund m hm, ?_⟩
  unfold Shared.spawnedFor Shared.spawned Shared.dueHits at *
  rw [hlog]
  exact hle

theorem paidFor_act {config : CacheConfig} (a : Act) (P P' : System)
    (hP : PaidFor hk key config P) (h : act self hk a P = some P') : PaidFor hk key config P' := by
  cases a with
  | query name rtype info u =>
    obtain rfl := Option.some.inj h
    exact hP.of_log hP.obeys rfl fun m hm =>
      Pool.funded_start hm (queryTask_affords name rtype info u)
  | prefetch j u =>
    obtain ⟨name, rtype, -, rfl⟩ := act_prefetch h
    exact hP.of_log hP.obeys rfl fun m hm =>
      Pool.funded_start (hm.of_tasks rfl) (prefetchTask_affords name rtype u)
  | task i =>
    obtain ⟨l, o, k, ht, hP'⟩ := Pool.step_eq h
    obtain ⟨m, hm, hle⟩ := hP.paid
    obtain ⟨hcost, hfund⟩ := Pool.funded_step hm ht h
    obtain ⟨hspawned, hdue⟩ := handle_counts hk key o l P.shared
    subst hP'
    refine ⟨(handle_config o l P.shared).trans hP.obeys, _, hfund, ?_⟩
    rw [hP.obeys] at hdue
    show (handle o l P.shared).2.2.spawnedFor hk key + _ ≤
      (handle o l P.shared).2.2.dueHits key config
    rw [hspawned, hdue]
    omega
  | tick d =>
    obtain rfl := Option.some.inj h
    exact hP.of_log hP.obeys rfl fun m hm => hm.of_tasks rfl
  | insert k bytes ttl =>
    obtain rfl := Option.some.inj h
    exact hP.of_log ((LiveCache.config_insert _ _ _ _ _).trans hP.obeys) rfl fun m hm =>
      hm.of_tasks rfl

end Payments

section Runs

variable {hk : Hickory} {self : CacheForwardAuthority}

/-- What was spawned is pending or has begun. -/
def Kept (P : System) : Prop := P.shared.spawned.Perm (P.shared.pending ++ P.prefetches)

/-- What one operation adds to the pending prefetches, its log shows. -/
theorem handle_pending (o : Op) (l : Local) (s : Shared) :
    ∃ new, (handle o l s).2.2.pending = s.pending ++ new ∧
      (handle o l s).2.2.spawned = s.spawned ++ new := by
  cases o with
  | net o =>
    cases o with
    | upstream name rtype => exact ⟨[], by simp [handle, Shared.spawned, Event.spawned]⟩
    | increment metric delta => exact ⟨[], by simp [handle, Shared.spawned]⟩
  | lookup k =>
    refine ⟨[], ?_⟩
    cases hres : s.cache.entryAt k with
    | none =>
      rw [handle_lookup_none hres]
      simp [Shared.spawned, Event.spawned]
    | some e =>
      rw [handle_lookup_some hres]
      simp [Shared.spawned, Event.spawned]
  | insert k bytes ttl => exact ⟨[], by simp [handle, Shared.spawned, Event.spawned]⟩
  | spawnPrefetch name rtype =>
    exact ⟨[(name, rtype)], by simp [handle, Shared.spawned, Event.spawned]⟩

theorem prefetches_act {a : Act} {P P' : System} (h : act self hk a P = some P') :
    P'.prefetches = P.prefetches ++ (a.starts P).filterMap fun x => x.1.prefetching := by
  unfold System.prefetches
  rw [started_act h, List.filterMap_append]

/-- An element that is taken out of the middle of one list and put at the end of the other. -/
theorem perm_eraseIdx_concat {α : Type} {xs ys : List α} {j : Nat} {x : α} (h : xs[j]? = some x) :
    (xs ++ ys).Perm (xs.eraseIdx j ++ (ys ++ [x])) := by
  obtain ⟨hj, rfl⟩ := List.getElem?_eq_some_iff.mp h
  have hxs := (List.getElem_cons_eraseIdx_perm hj).symm
  have hmove : (xs[j] :: (xs.eraseIdx j ++ ys)).Perm (xs.eraseIdx j ++ ys ++ [xs[j]]) :=
    (List.perm_append_singleton _ _).symm
  rw [← List.append_assoc]
  exact (hxs.append_right ys).trans hmove

theorem kept_act (a : Act) (P P' : System) (hP : Kept P) (h : act self hk a P = some P') :
    Kept P' := by
  have hprefetches := prefetches_act h
  unfold Kept at *
  rw [hprefetches]
  cases a with
  | query name rtype info u =>
    obtain rfl := Option.some.inj h
    exact (List.append_nil P.prefetches).symm ▸ hP
  | prefetch j u =>
    obtain ⟨name, rtype, hj, rfl⟩ := act_prefetch h
    have hstarts : ((Act.prefetch j u).starts P).filterMap (fun x => x.1.prefetching) =
        [(name, rtype)] := by simp [Act.starts, hj, Request.prefetching]
    rw [hstarts]
    exact hP.trans (perm_eraseIdx_concat hj)
  | task i =>
    obtain ⟨l, o, k, -, rfl⟩ := Pool.step_eq h
    obtain ⟨new, hpending, hspawned⟩ := handle_pending o l P.shared
    have hnone : ((Act.task i).starts P).filterMap (fun x => x.1.prefetching) = [] := rfl
    rw [hnone, List.append_nil]
    show (handle o l P.shared).2.2.spawned.Perm ((handle o l P.shared).2.2.pending ++ P.prefetches)
    rw [hpending, hspawned]
    refine (hP.append_right new).trans ?_
    rw [List.append_assoc, List.append_assoc]
    exact List.perm_append_comm.append_left _
  | tick d =>
    obtain rfl := Option.some.inj h
    exact (List.append_nil P.prefetches).symm ▸ hP
  | insert k bytes ttl =>
    obtain rfl := Option.some.inj h
    exact (List.append_nil P.prefetches).symm ▸ hP

/-- An event is due only when prefetching is on. -/
theorem isDue_off {config : CacheConfig} (hoff : config.prefetch = 0) (key : CacheKey) (e : Event) :
    e.isDue config key = false := by
  cases e with
  | hit k entry now stale => simp [Event.isDue, entryDue, hoff]
  | _ => rfl

/-- **The prefetch discipline.** In every run from the empty cache: what was spawned is pending or has
begun, each of them once; for every key no more prefetches were spawned than hits on it were due;
and without prefetching in the configuration, none. -/
theorem prefetch_discipline (self : CacheForwardAuthority) (hk : Hickory) (c : CacheSection)
    (hsize : 1 ≤ c.size) (acts : List Act) (P : System)
    (hrun : runAll (act self hk) acts (System.initial c hsize) = some P) :
    P.shared.spawned.Perm (P.shared.pending ++ P.prefetches) ∧
      (∀ key, P.shared.spawned.countP (isFor hk key) ≤ P.shared.dueHits key c.runtime) ∧
      (c.prefetch = 0 → P.shared.spawned = []) := by
  have hstart : Kept (System.initial c hsize) := List.Perm.refl []
  have hkept : Kept P := runAll_keeps kept_act hstart hrun
  have hpaid : ∀ key, P.shared.spawned.countP (isFor hk key) ≤ P.shared.dueHits key c.runtime := by
    intro key
    have hinit : PaidFor hk key c.runtime (System.initial c hsize) :=
      ⟨rfl, 0, ⟨[], .nil, Nat.le_refl _⟩, Nat.le_refl _⟩
    obtain ⟨m, -, hle⟩ := (runAll_keeps paidFor_act hinit hrun).paid
    exact Nat.le_trans (Nat.le_add_right _ m) hle
  refine ⟨hkept, hpaid, fun hoff => List.eq_nil_iff_forall_not_mem.mpr fun x hx => ?_⟩
  have hone : 0 < P.shared.spawned.countP (isFor hk (keyOf hk x.1 x.2)) :=
    List.countP_pos_iff.mpr ⟨x, hx, by simp [isFor]⟩
  have hruntime : c.runtime.prefetch = 0 := hoff
  have hnone : P.shared.dueHits (keyOf hk x.1 x.2) c.runtime = 0 :=
    List.countP_eq_zero.mpr fun y _ => by simp [isDue_off hruntime]
  have hle := hpaid (keyOf hk x.1 x.2)
  omega

/-- The hit of a day later is due. -/
theorem prefetch_discipline_dayLater :
    ∃ P, runAll (act CacheForwardAuthority.default wwwCodec) dayLater
        (System.initial CacheSection.default (by decide)) = some P ∧
      P.shared.spawned.Perm (P.shared.pending ++ P.prefetches) ∧
      ∀ key, P.shared.spawned.countP (isFor wwwCodec key) ≤
        P.shared.dueHits key CacheSection.default.runtime := by
  have hpossible : (runAll (act CacheForwardAuthority.default wwwCodec) dayLater
      (System.initial CacheSection.default (by decide))).isSome = true := rfl
  obtain ⟨P, hP⟩ := Option.isSome_iff_exists.mp hpossible
  obtain ⟨hkept, hpaid, -⟩ := prefetch_discipline _ _ _ _ _ _ hP
  exact ⟨P, hP, hkept, hpaid⟩

end Runs

end Heimdallr.Resolver
