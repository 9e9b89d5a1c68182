import Heimdallr.Core.Cache
import Heimdallr.Lib.Prog

/-!
# What a resolver task does to the world

A query handler (`CacheForwardAuthority::lookup`) and a background prefetch are tasks. Between two
of their effects anything may happen in other tasks, so the effects are the operations of a
`Prog`:

* `NetOp`: a question to the upstream resolver, and the increment of a global counter. Their
  answers do not depend on what other tasks do; a `Net` program uses only these.
* `Op`: these, the two critical sections on the shared cache (one per acquisition of its write
  lock), and the spawning of a prefetch task.

`Upstream` is what the resolver answers to the `i`-th question of a task: any reply, and another one
when the same question is asked again. `fixed f` is the upstream that answers by a function.
hickory's resolver is behind it, with its retries, its own cache and its validation, so a reply is a
list of records or an error.

The state all tasks share is `Shared`: the cache, the counters, the clock. Its `log` is not data of
the program, it records which task did what, for the statements about whole runs.

Out of scope: the query log (`Core.QueryLog`) and the lines that are logged. Neither changes what a
task does next.
-/

namespace Heimdallr.Resolver

open Lib

/-! ## Operations -/

/-- What the resolver gives for a question: the answer section, or an error. -/
abbrev Reply := Except NetError (List Record)

/-- The replies of the upstream resolver: to the `i`-th question a task asks. The same question
may be answered differently when it is asked again. -/
abbrev Upstream := Nat → Name → RecordType → Reply

/-- What the resolving stages do outside: a question to the upstream, a step of a counter. -/
inductive NetOp
  /-- `resolver.lookup(name, rtype).await` -/
  | upstream (name : Name) (rtype : RecordType)
  /-- `MetricsRegistry::increment_global` -/
  | increment (metric : MetricName) (delta : Nat)

/-- What such an operation is answered with. -/
abbrev NetOp.Ans : NetOp → Type
  | .upstream _ _ => Reply
  | .increment _ _ => Unit

/-- What a task does outside: the operations of the resolving stages, the cache, and the spawning of
a prefetch. -/
inductive Op
  | net (o : NetOp)
  /-- The locked section that looks a key up: `lookup_with_metrics`, and on a hit
  `should_prefetch`. -/
  | lookup (key : CacheKey)
  /-- The locked section that stores an answer: `insert`. -/
  | insert (key : CacheKey) (bytes : Bytes) (ttl : Duration)
  /-- `tokio::spawn` of the prefetch. -/
  | spawnPrefetch (name : LowerName) (rtype : RecordType)

/-- What such an operation is answered with. -/
abbrev Op.Ans : Op → Type
  | .net o => o.Ans
  | .lookup _ => Option (Hit × Bool)
  | .insert _ _ _ => Unit
  | .spawnPrefetch _ _ => Unit

/-- A program of a resolving stage. -/
abbrev Net := Prog NetOp NetOp.Ans

/-- A program of a task. -/
abbrev Task := Prog Op Op.Ans

/-- A `Net` program as a part of a task. -/
def Net.lift {α : Type} (p : Net α) : Task α := @Prog.embed Op Op.Ans α NetOp Op.net p

/-- `resolver.lookup(name, rtype)`. -/
def upstream (name : Name) (rtype : RecordType) : Net Reply :=
  .perform (NetOp.upstream name rtype)

/-- `MetricsRegistry::increment_global(metric, delta)`. -/
def incrementGlobal (metric : MetricName) (delta : Nat) : Net Unit :=
  .perform (NetOp.increment metric delta)

/-! ## States -/

/-- What a task was started for. -/
inductive Request
  | query (name : LowerName) (rtype : RecordType)
  | prefetch (name : LowerName) (rtype : RecordType)

/-- A task's own state: its request, the replies it will get and how many it has got. -/
structure Local where
  request : Request
  upstream : Upstream
  asked : Nat

/-- An entry of the log. -/
inductive Event
  | upstream (name : Name) (rtype : RecordType) (reply : Reply)
  /-- a key was found, with this entry, at this clock reading and with this stale flag -/
  | hit (key : CacheKey) (entry : CacheEntry) (now : Instant) (stale : Bool)
  | miss (key : CacheKey)
  | insert (key : CacheKey) (bytes : Bytes) (ttl : Duration)
  | spawn (name : LowerName) (rtype : RecordType)

/-- The state the tasks share. -/
structure Shared where
  cache : LiveCache
  now : Instant
  metrics : Metrics
  /-- prefetches spawned and not begun -/
  pending : List (LowerName × RecordType)
  log : List (Request × Event)

/-- The state at the start: an empty cache. -/
def Shared.initial (config : CacheConfig) (h : 1 ≤ config.size) : Shared :=
  ⟨LiveCache.new config h, 0, fun _ => 0, [], []⟩

/-- The replies to a `Net` program, from the task's own state. -/
def netAnswer : (o : NetOp) → Local → o.Ans × Local
  | .upstream name rtype, l => (l.upstream l.asked name rtype, { l with asked := l.asked + 1 })
  | .increment _ _, l => ((), l)

/-- The task's own state after a `Net` program. -/
def Local.after {α : Type} (l : Local) (p : Net α) : Local := (p.eval netAnswer l).2

/-- One operation of a task. -/
def handle : Handler Op Op.Ans Local Shared
  | .net (.upstream name rtype), l, s =>
    let reply := l.upstream l.asked name rtype
    (reply, { l with asked := l.asked + 1 },
      { s with log := s.log ++ [(l.request, .upstream name rtype reply)] })
  | .net (.increment metric delta), l, s =>
    ((), l, { s with metrics := s.metrics.increment metric delta })
  | .lookup key, l, s =>
    let r := s.cache.lookupWithMetrics s.metrics key s.now
    match s.cache.entryAt key, r.1 with
    | some entry, some hit =>
      (some (hit, r.2.1.cache.shouldPrefetch key s.now), l,
        { s with
          cache := r.2.1
          metrics := r.2.2
          log := s.log ++ [(l.request, .hit key entry s.now hit.stale)] })
    | _, _ =>
      (none, l,
        { s with cache := r.2.1, metrics := r.2.2, log := s.log ++ [(l.request, .miss key)] })
  | .insert key bytes ttl, l, s =>
    ((), l,
      { s with
        cache := s.cache.insert key bytes ttl s.now
        log := s.log ++ [(l.request, .insert key bytes ttl)] })
  | .spawnPrefetch name rtype, l, s =>
    ((), l,
      { s with
        pending := s.pending ++ [(name, rtype)]
        log := s.log ++ [(l.request, .spawn name rtype)] })

/-! ## One operation at a time -/

/-- A lookup that finds nothing. -/
theorem handle_lookup_none {key : CacheKey} {l : Local} {s : Shared}
    (h : s.cache.entryAt key = none) :
    handle (.lookup key) l s =
      (none, l,
        { s with
          cache := (s.cache.lookupWithMetrics s.metrics key s.now).2.1
          metrics := (s.cache.lookupWithMetrics s.metrics key s.now).2.2
          log := s.log ++ [(l.request, .miss key)] }) := by
  unfold handle
  simp only [h]

/-- A lookup that finds an entry. -/
theorem handle_lookup_some {key : CacheKey} {l : Local} {s : Shared} {e : CacheEntry}
    (h : s.cache.entryAt key = some e) :
    handle (.lookup key) l s =
      (some (⟨e.responseBytes, e.isStale s.cache.cache.config.serveStale s.now, e.hitCount + 1⟩,
          (s.cache.lookupWithMetrics s.metrics key s.now).2.1.cache.shouldPrefetch key s.now),
        l,
        { s with
          cache := (s.cache.lookupWithMetrics s.metrics key s.now).2.1
          metrics := (s.cache.lookupWithMetrics s.metrics key s.now).2.2
          log := s.log ++ [(l.request, .hit key e s.now
            (e.isStale s.cache.cache.config.serveStale s.now))] }) := by
  have hfst := s.cache.lookupWithMetrics_fst s.metrics key s.now
  rw [h, Option.map_some] at hfst
  unfold handle
  simp only [h, hfst]

/-- The replies of a `Net` program come from the task's own state. -/
theorem handle_led : Prog.Led handle Op.net netAnswer := by
  intro o l s
  cases o <;> exact ⟨rfl, rfl⟩

/-- A `Net` program keeps the task's request and upstream. -/
theorem Local.after_keeps {α : Type} (p : Net α) (l : Local) :
    (l.after p).request = l.request ∧ (l.after p).upstream = l.upstream := by
  induction p generalizing l with
  | ret a => exact ⟨rfl, rfl⟩
  | call o k ih =>
    obtain ⟨h1, h2⟩ := ih (netAnswer o l).1 (netAnswer o l).2
    cases o with
    | upstream name rtype => exact ⟨h1, h2⟩
    | increment metric delta => exact ⟨h1, h2⟩

@[simp] theorem Local.after_upstream {α : Type} (l : Local) (p : Net α) :
    (l.after p).upstream = l.upstream := (l.after_keeps p).2

@[simp] theorem Local.after_request {α : Type} (l : Local) (p : Net α) :
    (l.after p).request = l.request := (l.after_keeps p).1

/-- What a `Net` program leaves alone: it touches the counters, and logs its questions. -/
structure Shared.NetMove (s s' : Shared) : Prop where
  cache_eq : s'.cache = s.cache
  now_eq : s'.now = s.now
  pending_eq : s'.pending = s.pending
  log_grows : ∃ es, s'.log = s.log ++ es ∧ ∀ e ∈ es, ∃ name rtype reply,
    e.2 = .upstream name rtype reply

theorem Shared.NetMove.refl (s : Shared) : s.NetMove s :=
  ⟨rfl, rfl, rfl, [], by simp, by simp⟩

theorem Shared.NetMove.trans {s₁ s₂ s₃ : Shared} (h₁ : s₁.NetMove s₂) (h₂ : s₂.NetMove s₃) :
    s₁.NetMove s₃ := by
  obtain ⟨es₁, hl₁, he₁⟩ := h₁.log_grows
  obtain ⟨es₂, hl₂, he₂⟩ := h₂.log_grows
  refine ⟨h₂.cache_eq.trans h₁.cache_eq, h₂.now_eq.trans h₁.now_eq,
    h₂.pending_eq.trans h₁.pending_eq, es₁ ++ es₂, by rw [hl₂, hl₁, List.append_assoc], ?_⟩
  intro e he
  rcases List.mem_append.mp he with he | he
  · exact he₁ e he
  · exact he₂ e he

theorem Shared.NetMove.step (o : NetOp) (l : Local) (s : Shared) :
    s.NetMove (handle (.net o) l s).2.2 := by
  cases o with
  | upstream name rtype =>
    refine ⟨rfl, rfl, rfl, [(l.request, .upstream name rtype _)], rfl, ?_⟩
    intro e he
    rw [List.mem_singleton.mp he]
    exact ⟨_, _, _, rfl⟩
  | increment metric delta => exact ⟨rfl, rfl, rfl, [], by simp [handle], by simp⟩

/-- A `Net` program run alone. -/
theorem run_lift {α : Type} (p : Net α) (l : Local) (s : Shared) :
    ∃ s', p.lift.run handle l s = ((p.eval netAnswer l).1, l.after p, s') ∧ s.NetMove s' :=
  Prog.run_embed handle_led Shared.NetMove.refl (fun _ _ _ h₁ h₂ => h₁.trans h₂)
    Shared.NetMove.step p l s

/-- A `Net` program among other tasks: an invariant that only looks at the cache and the clock is
kept, and the value is the one `eval` computes. -/
theorem ensures_lift {α : Type} {I : Shared → Prop} {Q : α → Local → Prop}
    (hI : ∀ s s', s.NetMove s' → I s → I s') {p : Net α} {l : Local}
    (hQ : Q (p.eval netAnswer l).1 (l.after p)) :
    p.lift.Ensures handle I Q l :=
  Prog.ensures_embed handle_led (fun o l s => hI _ _ (Shared.NetMove.step o l s)) hQ

end Heimdallr.Resolver
