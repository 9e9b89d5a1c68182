import Heimdallr.Lib.Cost
import Heimdallr.Resolver.System

/-!
# How much work a query makes

A query costs a bounded number of operations, whatever upstream answers and whatever other tasks do
to the cache meanwhile, and so does the prefetch it may spawn. The bounds are stated once for any
weights of the operations (`Lib.Cost`), and taken with weights that count the questions to upstream
or all operations.

* The bound of a query depends on its type and on `max_iterations`. Nothing bounds the number of
  queries.
* Prefetches are counted with the queries that spawn them. A prefetch spawns nothing itself, which
  is why the sum is finite.

Results:
* `within_lookup`, `within_prefetch`: what one task weighs.
* **`amplification_bound`**: the questions to upstream in a run, against the queries.
* **`run_quiesces`**: how many operations a run can have, and that every run can be brought to rest.
-/

namespace Heimdallr.Resolver

open Lib

/-- What the operations of a task count. -/
structure Weights where
  upstream : Nat
  increment : Nat
  lookup : Nat
  insert : Nat
  spawn : Nat

namespace Weights

/-- What an operation of a resolving stage counts. -/
def net (w : Weights) : NetOp → Nat
  | .upstream _ _ => w.upstream
  | .increment _ _ => w.increment

/-- What an operation of a task counts. -/
def op (w : Weights) : Op → Nat
  | .net o => w.net o
  | .lookup _ => w.lookup
  | .insert _ _ _ => w.insert
  | .spawnPrefetch _ _ => w.spawn

/-- How many suffixes minimization asks for at most. -/
def probes (config : QnameMinConfig) : Nat := max config.maxIterations.toNat 1

/-- The forwarding stage. -/
def resolve (w : Weights) (self : CacheForwardAuthority) : Nat :=
  if self.qnameMinimization.enable then
    probes self.qnameMinimization * w.upstream + (w.increment + (w.upstream + w.increment))
  else w.upstream

/-- The miss path: forwarding, DNS64, the two checks, the store and the flattening. -/
def missPath (w : Weights) (self : CacheForwardAuthority) : Nat :=
  w.resolve self + (w.upstream + w.increment + (w.increment + (w.increment + 0))) +
    (w.insert + (w.upstream + (w.upstream + 0)))

/-- The types of an ANY query. -/
def anyLoop (w : Weights) : List RecordType → Nat
  | [] => 0
  | _ :: rest => w.lookup + (w.upstream + (w.insert + w.anyLoop rest))

/-- A query. -/
def query (w : Weights) (self : CacheForwardAuthority) (rtype : RecordType) : Nat :=
  if rtype = .ANY then w.anyLoop [.A, .AAAA] else w.lookup + (w.spawn + w.missPath self)

/-- A prefetch. -/
def prefetch (w : Weights) : Nat := w.upstream + w.insert

end Weights

/-! ## One task -/

/-- The counters a query or a prefetch increments by itself; hits and misses are counted with the
lookup. -/
def taskMetrics : List MetricName :=
  [.QminStepsTotal, .Dns64SynthesizedTotal, .CnameChainTruncatedTotal, .RebindingDetectedTotal]

/-- What the operations of a query or a prefetch weigh by `v` is at most `w`. -/
structure Weights.Bounds (w : Weights) (v : Op → Nat) : Prop where
  upstream : ∀ name rtype, v (.net (.upstream name rtype)) ≤ w.upstream
  increment : ∀ metric ∈ taskMetrics, ∀ delta, v (.net (.increment metric delta)) ≤ w.increment
  lookup : ∀ key, v (.lookup key) ≤ w.lookup
  insert : ∀ key bytes ttl, v (.insert key bytes ttl) ≤ w.insert
  spawn : ∀ name rtype, v (.spawnPrefetch name rtype) ≤ w.spawn

theorem Weights.bounds_op (w : Weights) : w.Bounds w.op where
  upstream _ _ := Nat.le_refl _
  increment _ _ _ := Nat.le_refl _
  lookup _ := Nat.le_refl _
  insert _ _ _ := Nat.le_refl _
  spawn _ _ := Nat.le_refl _

theorem length_probed_le (original : Name) (config : QnameMinConfig) :
    (probed original config).length ≤ Weights.probes config := by
  unfold probed Weights.probes
  rw [List.length_take]
  omega

section Tasks

variable {w : Weights} {v : Op → Nat} (hv : w.Bounds v)

/-- A `Net` program as a part of a task. -/
abbrev NetWithin (v : Op → Nat) {α : Type} (p : Net α) (n : Nat) : Prop :=
  p.Within (fun o => v (.net o)) n

theorem within_lift {α : Type} {p : Net α} {n : Nat} (h : NetWithin v p n) :
    p.lift.Within v n := Prog.affords_embed h

/-- A cached answer, or the miss path when it does not decode. -/
theorem within_served (hk : Hickory) (bytes : Bytes) {miss : Task Answer} {n : Nat}
    (hmiss : miss.Within v n) :
    (match hk.fromVec bytes with
      | some msg => (return .ok msg.answers : Task Answer)
      | none => miss).Within v n := by
  cases hk.fromVec bytes with
  | none => exact hmiss
  | some msg => exact Prog.affords_pure _ _

include hv

theorem within_upstream (name : Name) (rtype : RecordType) :
    NetWithin v (upstream name rtype) w.upstream := Prog.affords_perform (hv.upstream name rtype)

theorem within_increment {metric : MetricName} (hmetric : metric ∈ taskMetrics) (delta : Nat) :
    NetWithin v (incrementGlobal metric delta) w.increment :=
  Prog.affords_perform (hv.increment metric hmetric delta)

/-- A check that counts when it fires. -/
theorem within_counted {metric : MetricName} (hmetric : metric ∈ taskMetrics) (seen : Bool) :
    NetWithin v (do
      if seen then
        incrementGlobal metric 1
      return seen) w.increment := by
  cases seen with
  | false => exact Prog.affords_pure _ _
  | true => exact Prog.affords_bind_of_le (within_increment hv hmetric _) (Nat.le_refl _) fun _ =>
      Prog.affords_pure _ _

theorem within_minLoop (qtype : RecordType) (labels : List Name) :
    ∀ (i : Nat) (st : MinState),
      NetWithin v (minLoop qtype labels i st) (labels.length * w.upstream) := by
  induction labels with
  | nil => exact fun i st => Prog.affords_pure _ _
  | cons label labels ih =>
    intro i st
    rw [List.length_cons, Nat.succ_mul, Nat.add_comm]
    exact Prog.affords_bind (within_upstream hv label qtype) fun reply => ih _ _

theorem within_resolveWithMinimization (original : Name) (qtype : RecordType)
    (config : QnameMinConfig) :
    NetWithin v (resolveWithMinimization original qtype config)
      (Weights.probes config * w.upstream +
        (w.increment + (w.upstream + w.increment))) := by
  unfold resolveWithMinimization
  split
  · exact Prog.affords_pure _ _
  · have hloop := fun i st => (within_minLoop hv qtype (probed original config) i st).mono
      (Nat.mul_le_mul_right w.upstream (length_probed_le original config))
    refine Prog.affords_bind (hloop _ _) fun st => ?_
    refine Prog.affords_bind (within_increment hv (by simp [taskMetrics]) _) fun _ => ?_
    split
    · refine Prog.affords_bind (within_upstream hv original qtype) fun reply => ?_
      split
      · exact Prog.affords_pure _ _
      · refine Prog.affords_bind_of_le (within_increment hv (by simp [taskMetrics]) _)
          (Nat.le_refl _) fun _ => ?_
        exact Prog.affords_pure _ _
    · exact Prog.affords_pure _ _

variable (self : CacheForwardAuthority)

namespace CacheForwardAuthority

theorem within_resolve (fwd : Name) (rtype : RecordType) :
    NetWithin v (self.resolve fwd rtype) (w.resolve self) := by
  unfold resolve Weights.resolve
  split
  · refine Prog.affords_bind_of_le (within_resolveWithMinimization hv fwd rtype _) (Nat.le_refl _) ?_
    intro res
    split <;> exact Prog.affords_pure _ _
  · exact within_upstream hv fwd rtype

theorem within_dns64 (fwd : Name) (rtype : RecordType) (lookup : List Record) :
    NetWithin v (self.dns64 fwd rtype lookup) (w.upstream + w.increment) := by
  unfold dns64
  split
  · exact Prog.affords_pure _ _
  · refine Prog.affords_bind (within_upstream hv _ _) fun reply => ?_
    split
    · split
      · refine Prog.affords_bind_of_le ?_ (Nat.le_refl _) fun _ => Prog.affords_pure _ _
        unfold synthesizeAaaa
        dsimp only
        split
        · exact Prog.affords_bind_of_le (within_increment hv (by simp [taskMetrics]) _)
            (Nat.le_refl _) fun _ => Prog.affords_pure _ _
        · exact Prog.affords_pure _ _
      · exact Prog.affords_pure _ _
    · exact Prog.affords_pure _ _

theorem within_chainRefused (records : List Record) :
    NetWithin v (self.chainRefused records) w.increment := by
  unfold chainRefused
  split
  · exact within_counted hv (by simp [taskMetrics]) _
  · exact Prog.affords_pure _ _

theorem within_rebindingSeen (records : List Record) :
    NetWithin v (self.rebindingSeen records) w.increment := by
  unfold rebindingSeen
  split
  · exact within_counted hv (by simp [taskMetrics]) _
  · exact Prog.affords_pure _ _

theorem within_assemble (fwd : Name) (rtype : RecordType) :
    NetWithin v (self.assemble fwd rtype)
      (w.resolve self + (w.upstream + w.increment + (w.increment + (w.increment + 0)))) := by
  unfold assemble
  refine Prog.affords_bind (within_resolve hv self fwd rtype) fun reply => ?_
  split
  · exact Prog.affords_pure _ _
  · refine Prog.affords_bind (within_dns64 hv self fwd rtype _) fun dns64Synthesized => ?_
    refine Prog.affords_bind (within_chainRefused hv self _) fun refused => ?_
    split
    · exact Prog.affords_pure _ _
    · exact Prog.affords_bind (within_rebindingSeen hv self _) fun _ => Prog.affords_pure _ _

end CacheForwardAuthority

open CacheForwardAuthority

theorem within_flatten (hk : Hickory) (records : List Record) :
    NetWithin v (flatten hk records) (w.upstream + (w.upstream + 0)) := by
  unfold flatten
  split
  · exact Prog.affords_pure _ _
  · refine Prog.affords_bind (within_upstream hv _ _) fun aLookup => ?_
    exact Prog.affords_bind (within_upstream hv _ _) fun aaaaLookup => Prog.affords_pure _ _

theorem within_storeAnswer (hk : Hickory) (key : CacheKey) (records : List Record) :
    (storeAnswer hk key records).Within v w.insert := by
  unfold storeAnswer
  split
  · exact Prog.affords_perform (hv.insert _ _ _)
  · exact Prog.affords_pure _ _

theorem within_missPath (hk : Hickory) (key : CacheKey) (name : LowerName) (rtype : RecordType) :
    (self.missPath hk key name rtype).Within v (w.missPath self) := by
  unfold CacheForwardAuthority.missPath Weights.missPath
  refine Prog.affords_bind (within_lift (within_assemble hv self _ rtype)) fun res => ?_
  split
  · exact Prog.affords_pure _ _
  · refine Prog.affords_bind (within_storeAnswer hv hk key _) fun _ => ?_
    exact Prog.affords_bind_of_le (within_lift (within_flatten hv hk _)) (Nat.le_refl _) fun _ =>
      Prog.affords_pure _ _

theorem within_anyLoop (hk : Hickory) (name : LowerName) (types : List RecordType) :
    (anyLoop hk name types).Within v (w.anyLoop types) := by
  induction types with
  | nil => exact Prog.affords_pure _ _
  | cons t rest ih =>
    unfold anyLoop Weights.anyLoop
    refine Prog.affords_bind (Prog.affords_perform (hv.lookup _)) fun found => ?_
    split
    · exact Prog.affords_pure _ _
    · refine Prog.affords_bind (within_lift (within_upstream hv _ t)) fun reply => ?_
      split
      · exact Prog.affords_bind (within_storeAnswer hv hk _ _) fun _ => Prog.affords_pure _ _
      · exact ih.mono (Nat.le_add_left _ _)

/-- **What a query weighs**, whatever the answers are. -/
theorem within_lookup (hk : Hickory) (name : LowerName) (rtype : RecordType)
    (info : Option RequestInfo) :
    (self.lookup hk name rtype info).Within v (w.query self rtype) := by
  unfold CacheForwardAuthority.lookup Weights.query
  split
  · exact within_anyLoop hv hk name _
  · refine Prog.affords_bind (Prog.affords_perform (hv.lookup _)) fun found => ?_
    have hmiss := within_missPath hv self hk (self.cacheKey hk name rtype info) name rtype
    cases found with
    | none => exact hmiss.mono (Nat.le_add_left _ _)
    | some f =>
      obtain ⟨hit, due⟩ := f
      have hserve := within_served hk hit.bytes hmiss
      cases due with
      | false => exact hserve.mono (Nat.le_add_left _ _)
      | true => exact Prog.affords_bind (Prog.affords_perform (hv.spawn _ _)) fun _ => hserve

theorem within_prefetch (hk : Hickory) (name : LowerName) (rtype : RecordType) :
    (prefetch hk name rtype).Within v w.prefetch := by
  unfold prefetch Weights.prefetch
  refine Prog.affords_bind (within_lift (within_upstream hv _ rtype)) fun reply => ?_
  split
  · exact within_storeAnswer hv hk _ _
  · exact Prog.affords_pure _ _

theorem within_queryTask (hk : Hickory) (name : LowerName) (rtype : RecordType)
    (info : Option RequestInfo) (u : Upstream) :
    (queryTask self hk name rtype info u).2.Within v (w.query self rtype) :=
  Prog.affords_bind_of_le (within_lookup hv self hk name rtype info) (Nat.le_refl _) fun _ =>
    Prog.affords_pure _ _

theorem within_prefetchTask (hk : Hickory) (name : LowerName) (rtype : RecordType)
    (u : Upstream) :
    (prefetchTask hk name rtype u).2.Within v w.prefetch :=
  Prog.affords_bind_of_le (within_prefetch hv hk name rtype) (Nat.le_refl _) fun _ =>
    Prog.affords_pure _ _

end Tasks

/-! ## Runs -/

/-- The act is an operation of a task, or the beginning of a prefetch. -/
def Act.isWork : Act → Bool
  | .task _ => true
  | .prefetch _ _ => true
  | _ => false

/-- What a query brings into a run; other acts bring nothing. -/
def Act.brings (w : Weights) (self : CacheForwardAuthority) : Act → Nat
  | .query _ rtype _ _ => w.query self rtype
  | _ => 0

/-- Every operation pays its weight: into `paid`, which depends on the log, for the prefetches it
spawns, and `fee` for itself. -/
structure Weights.Pays (w : Weights) (credit fee : Nat) (paid : Shared → Nat) : Prop where
  op : ∀ o l s,
    paid (handle o l s).2.2 + credit * (handle o l s).2.2.pending.length + fee ≤
      paid s + credit * s.pending.length + w.op o
  begins : fee + w.prefetch ≤ credit
  log : ∀ s s', s'.log = s.log → paid s' = paid s

section Budget

variable {w : Weights} {credit fee : Nat} {paid : Shared → Nat} {self : CacheForwardAuthority}
  {hk : Hickory}

/-- What was paid, what the pending prefetches will need and what the tasks may still need come to at
most `n`. -/
def Budget (w : Weights) (credit : Nat) (paid : Shared → Nat) (P : System) (n : Nat) : Prop :=
  ∃ m, P.Funded w.op (fun _ _ => 0) m ∧ paid P.shared + credit * P.shared.pending.length + m ≤ n

theorem length_eraseIdx_of_getElem? {α : Type} {xs : List α} {j : Nat} {x : α}
    (h : xs[j]? = some x) : (xs.eraseIdx j).length + 1 = xs.length := by
  obtain ⟨hj, -⟩ := List.getElem?_eq_some_iff.mp h
  rw [List.length_eraseIdx_of_lt hj]
  omega

/-- **One act** keeps within the budget, and work is paid for. -/
theorem act_budget (hp : w.Pays credit fee paid) (a : Act) (P P' : System) (n : Nat)
    (hP : Budget w credit paid P n) (h : act self hk a P = some P') :
    ∃ m, Budget w credit paid P' m ∧
      m + (if a.isWork then fee else 0) ≤ n + a.brings w self := by
  obtain ⟨m, hfunded, hsum⟩ := hP
  cases a with
  | query name rtype info u =>
    obtain rfl := Option.some.inj h
    exact ⟨n + w.query self rtype,
      ⟨_, Pool.funded_start hfunded (within_queryTask w.bounds_op self hk name rtype info u), by
        rw [← Nat.add_assoc]
        exact Nat.add_le_add_right hsum _⟩, Nat.le_refl _⟩
  | prefetch j u =>
    obtain ⟨name, rtype, hj, rfl⟩ := act_prefetch h
    have hlen := length_eraseIdx_of_getElem? hj
    have hbegins := hp.begins
    have hothers : Pool.Funded w.op (fun _ _ => 0) { P with
        shared := { P.shared with pending := P.shared.pending.eraseIdx j } } m :=
      hfunded.of_tasks rfl
    have hpaid : paid { P.shared with pending := P.shared.pending.eraseIdx j } = paid P.shared :=
      hp.log _ _ rfl
    refine ⟨n - fee,
      ⟨_, Pool.funded_start hothers (within_prefetchTask w.bounds_op hk name rtype u), ?_⟩, ?_⟩
    · show paid { P.shared with pending := P.shared.pending.eraseIdx j } +
        credit * (P.shared.pending.eraseIdx j).length + (m + w.prefetch) ≤ n - fee
      rw [hpaid]
      rw [← hlen, Nat.mul_succ] at hsum
      omega
    · rw [← hlen, Nat.mul_succ] at hsum
      show n - fee + fee ≤ n + 0
      omega
  | task i =>
    obtain ⟨l, o, k, ht, hP'⟩ := Pool.step_eq h
    obtain ⟨hle, hfund⟩ := Pool.funded_step hfunded ht h
    have hop := hp.op o l P.shared
    subst hP'
    refine ⟨n - fee, ⟨_, hfund, ?_⟩, ?_⟩
    · show paid (handle o l P.shared).2.2 + credit * (handle o l P.shared).2.2.pending.length +
        (m - w.op o) ≤ n - fee
      omega
    · show n - fee + fee ≤ n + 0
      omega
  | tick d =>
    obtain rfl := Option.some.inj h
    have hpaid : paid { P.shared with now := P.shared.now + d } = paid P.shared := hp.log _ _ rfl
    exact ⟨n, ⟨m, hfunded.of_tasks rfl, hpaid.symm ▸ hsum⟩, Nat.le_refl _⟩
  | insert key bytes ttl =>
    obtain rfl := Option.some.inj h
    have hpaid : paid { P.shared with cache := P.shared.cache.insert key bytes ttl P.shared.now } =
        paid P.shared := hp.log _ _ rfl
    exact ⟨n, ⟨m, hfunded.of_tasks rfl, hpaid.symm ▸ hsum⟩, Nat.le_refl _⟩

/-- A whole run. -/
theorem run_budget (hp : w.Pays credit fee paid) {acts : List Act} {P P' : System} {n : Nat}
    (hP : Budget w credit paid P n) (hrun : runAll (act self hk) acts P = some P') :
    ∃ m, Budget w credit paid P' m ∧
      m + (acts.map fun a => if a.isWork then fee else 0).sum ≤
        n + (acts.map (Act.brings w self)).sum :=
  runAll_budget (act_budget hp) hP hrun

theorem budget_initial (hp : ∀ s : Shared, s.log = [] → paid s = 0) {c : CacheSection}
    {hsize : 1 ≤ c.size} : Budget w credit paid (System.initial c hsize) 0 :=
  ⟨0, ⟨[], .nil, Nat.le_refl _⟩, by rw [hp _ rfl]; rfl⟩

end Budget

/-! ## Questions to upstream -/

/-- The event is a question to upstream. -/
def Event.isQuestion : Event → Bool
  | .upstream _ _ _ => true
  | _ => false

/-- How many questions upstream was asked. -/
def Shared.questions (s : Shared) : Nat := s.log.countP fun x => x.2.isQuestion

/-- The questions a query can lead to. ANY asks for two types. Any other type is forwarded, and
leads to at most one question for DNS64, two for the target of a CNAME and one of a prefetch. -/
def CacheForwardAuthority.maxQuestions (self : CacheForwardAuthority) (rtype : RecordType) : Nat :=
  if rtype = .ANY then 2
  else
    (if self.qnameMinimization.enable then max self.qnameMinimization.maxIterations.toNat 1 + 1
      else 1) + 4

/-- The questions an act can lead to. -/
def Act.maxQuestions (self : CacheForwardAuthority) : Act → Nat
  | .query _ rtype _ _ => self.maxQuestions rtype
  | _ => 0

/-- Only questions count, and the spawning of a prefetch, which asks one. -/
def questionWeights : Weights := ⟨1, 0, 0, 0, 1⟩

theorem questionWeights_query (self : CacheForwardAuthority) (rtype : RecordType) :
    questionWeights.query self rtype = self.maxQuestions rtype := by
  unfold Weights.query Weights.missPath Weights.resolve CacheForwardAuthority.maxQuestions
    questionWeights Weights.probes
  by_cases hany : rtype = .ANY
  · rw [if_pos hany, if_pos hany]
    rfl
  · rw [if_neg hany, if_neg hany]
    cases self.qnameMinimization.enable with
    | true =>
      simp only [if_true]
      omega
    | false => rfl

theorem brings_questions (self : CacheForwardAuthority) :
    Act.brings questionWeights self = Act.maxQuestions self := by
  funext a
  cases a with
  | query name rtype info u => exact questionWeights_query self rtype
  | _ => rfl

theorem questionWeights_pays : questionWeights.Pays 1 0 Shared.questions where
  op o l s := by
    cases o with
    | net o =>
      cases o with
      | upstream name rtype =>
        simp [handle, Shared.questions, Event.isQuestion, Weights.op, Weights.net, questionWeights]
        omega
      | increment metric delta => exact Nat.le_refl _
    | lookup key =>
      cases hres : s.cache.entryAt key with
      | none =>
        rw [handle_lookup_none hres]
        simp [Shared.questions, Event.isQuestion]
      | some e =>
        rw [handle_lookup_some hres]
        simp [Shared.questions, Event.isQuestion]
    | insert key bytes ttl => simp [handle, Shared.questions, Event.isQuestion]
    | spawnPrefetch name rtype =>
      simp [handle, Shared.questions, Event.isQuestion, Weights.op, questionWeights]
      omega
  begins := Nat.le_refl _
  log s s' h := by
    unfold Shared.questions
    rw [h]

/-- **The amplification bound.** In every run from the empty cache, however the operations of
queries and prefetches come in between each other, upstream is asked at most as many questions as the
queries allow, counting those the pending prefetches will ask. -/
theorem amplification_bound (self : CacheForwardAuthority) (hk : Hickory) (c : CacheSection)
    (hsize : 1 ≤ c.size) (acts : List Act) (P : System)
    (hrun : runAll (act self hk) acts (System.initial c hsize) = some P) :
    P.shared.questions + P.shared.pending.length ≤ (acts.map (Act.maxQuestions self)).sum := by
  have hinit : Budget questionWeights 1 Shared.questions (System.initial c hsize) 0 :=
    budget_initial fun s hs => by
      unfold Shared.questions
      rw [hs]
      rfl
  obtain ⟨m, ⟨b, -, hsum⟩, hle⟩ := run_budget questionWeights_pays hinit hrun
  rw [brings_questions] at hle
  omega

/-- The bound is tight for a prefetch: one query, a hit that is due, and two questions. -/
theorem amplification_bound_dayLater :
    ∃ P, runAll (act CacheForwardAuthority.default wwwCodec) dayLater
        (System.initial CacheSection.default (by decide)) = some P ∧
      P.shared.questions + P.shared.pending.length ≤
        (dayLater.map (Act.maxQuestions CacheForwardAuthority.default)).sum := by
  have hpossible : (runAll (act CacheForwardAuthority.default wwwCodec) dayLater
      (System.initial CacheSection.default (by decide))).isSome = true := rfl
  obtain ⟨P, hP⟩ := Option.isSome_iff_exists.mp hpossible
  exact ⟨P, hP, amplification_bound _ _ _ _ _ _ hP⟩

/-! ## Coming to rest -/

/-- Nothing is left to do: no prefetch is pending, and every task has ended. -/
def System.Quiet (P : System) : Prop :=
  P.shared.pending = [] ∧ ∀ t ∈ P.tasks, ∃ a, t.2 = .ret a

/-- The operations a query can lead to, with the beginning of a prefetch and its two. -/
def CacheForwardAuthority.maxOperations (self : CacheForwardAuthority) (rtype : RecordType) : Nat :=
  if rtype = .ANY then 6
  else
    (if self.qnameMinimization.enable then max self.qnameMinimization.maxIterations.toNat 1 + 3
      else 1) + 12

/-- The operations an act can lead to. -/
def Act.maxOperations (self : CacheForwardAuthority) : Act → Nat
  | .query _ rtype _ _ => self.maxOperations rtype
  | _ => 0

/-- Every operation counts; the spawning of a prefetch also for its beginning and its two
operations. -/
def workWeights : Weights := ⟨1, 1, 1, 1, 4⟩

theorem workWeights_query (self : CacheForwardAuthority) (rtype : RecordType) :
    workWeights.query self rtype = self.maxOperations rtype := by
  unfold Weights.query Weights.missPath Weights.resolve CacheForwardAuthority.maxOperations
    workWeights Weights.probes
  by_cases hany : rtype = .ANY
  · rw [if_pos hany, if_pos hany]
    rfl
  · rw [if_neg hany, if_neg hany]
    cases self.qnameMinimization.enable with
    | true =>
      simp only [if_true]
      omega
    | false => rfl

theorem brings_operations (self : CacheForwardAuthority) :
    Act.brings workWeights self = Act.maxOperations self := by
  funext a
  cases a with
  | query name rtype info u => exact workWeights_query self rtype
  | _ => rfl

theorem workWeights_pays : workWeights.Pays 3 1 fun _ => 0 where
  op o l s := by
    cases o with
    | net o =>
      cases o with
      | upstream name rtype => simp [handle, Weights.op, Weights.net, workWeights]
      | increment metric delta => simp [handle, Weights.op, Weights.net, workWeights]
    | lookup key =>
      cases hres : s.cache.entryAt key with
      | none =>
        rw [handle_lookup_none hres]
        simp [Weights.op, workWeights]
      | some e =>
        rw [handle_lookup_some hres]
        simp [Weights.op, workWeights]
    | insert key bytes ttl => simp [handle, Weights.op, workWeights]
    | spawnPrefetch name rtype =>
      simp [handle, Weights.op, workWeights]
      omega
  begins := Nat.le_refl _
  log s s' h := rfl

section Rest

variable {self : CacheForwardAuthority} {hk : Hickory}

/-- What is not at rest can work. -/
theorem exists_work (P : System) (h : ¬ P.Quiet) :
    ∃ a P', a.isWork = true ∧ act self hk a P = some P' := by
  cases hpending : P.shared.pending with
  | cons x rest =>
    have hbegins :
        (act self hk (.prefetch 0 fun _ _ _ => .error (.NoRecordsFound .NoError)) P).isSome := by
      simp [act, hpending]
    obtain ⟨P', hP'⟩ := Option.isSome_iff_exists.mp hbegins
    exact ⟨_, P', rfl, hP'⟩
  | nil =>
    have hcall : ∃ t ∈ P.tasks, ∀ a, t.2 ≠ .ret a := by
      by_contra hne
      refine h ⟨hpending, fun t ht => ?_⟩
      by_contra hret
      exact hne ⟨t, ht, fun a ha => hret ⟨a, ha⟩⟩
    obtain ⟨⟨l, t⟩, hmem, hne⟩ := hcall
    obtain ⟨i, hi⟩ := List.mem_iff_getElem?.mp hmem
    cases t with
    | ret a => exact absurd rfl (hne a)
    | call o k =>
      have hstep : (act self hk (.task i) P).isSome := by
        simp [act, Pool.step, hi]
      obtain ⟨P', hP'⟩ := Option.isSome_iff_exists.mp hstep
      exact ⟨_, P', rfl, hP'⟩

theorem brings_of_isWork {w : Weights} {a : Act} (h : a.isWork = true) : a.brings w self = 0 := by
  cases a with
  | query name rtype info u => exact absurd h (by simp [Act.isWork])
  | _ => rfl

/-- Work lowers the budget. -/
theorem work_budget (a : Act) (P P' : System) (n : Nat)
    (hP : Budget workWeights 3 (fun _ => 0) P n) (ha : a.isWork = true)
    (h : act self hk a P = some P') :
    ∃ m, Budget workWeights 3 (fun _ => 0) P' m ∧ m + 1 ≤ n + 0 := by
  obtain ⟨m, hm, hpaid⟩ := act_budget workWeights_pays a P P' n hP h
  rw [brings_of_isWork ha, if_pos ha] at hpaid
  exact ⟨m, hm, hpaid⟩

end Rest

/-- **Every run comes to rest.** In a run from the empty cache the tasks perform no more operations
than the queries allow, and from any state it reaches, operations and prefetches alone, no more of
them than are left, end every task and leave no prefetch pending. -/
theorem run_quiesces (self : CacheForwardAuthority) (hk : Hickory) (c : CacheSection)
    (hsize : 1 ≤ c.size) (acts : List Act) (P : System)
    (hrun : runAll (act self hk) acts (System.initial c hsize) = some P) :
    ∃ rest P', runAll (act self hk) rest P = some P' ∧ P'.Quiet ∧
      (∀ a ∈ rest, a.isWork = true) ∧
      acts.countP Act.isWork + rest.length ≤ (acts.map (Act.maxOperations self)).sum := by
  have hinit : Budget workWeights 3 (fun _ => 0) (System.initial c hsize) 0 :=
    budget_initial fun _ _ => rfl
  obtain ⟨n, hn, hle⟩ := run_budget workWeights_pays hinit hrun
  obtain ⟨rest, P', hrest, hquiet, hwork, hlen⟩ :=
    runAll_rests work_budget exists_work n hn
  refine ⟨rest, P', hrest, hquiet, hwork, ?_⟩
  rw [brings_operations, sum_ite_one] at hle
  omega

/-- The prefetch of the second query is still pending; it can come to rest. -/
theorem run_quiesces_dayLater :
    ∃ P, runAll (act CacheForwardAuthority.default wwwCodec) dayLater
        (System.initial CacheSection.default (by decide)) = some P ∧
      ∃ rest P', runAll (act CacheForwardAuthority.default wwwCodec) rest P = some P' ∧ P'.Quiet ∧
        (∀ a ∈ rest, a.isWork = true) ∧
        dayLater.countP Act.isWork + rest.length ≤
          (dayLater.map (Act.maxOperations CacheForwardAuthority.default)).sum := by
  have hpossible : (runAll (act CacheForwardAuthority.default wwwCodec) dayLater
      (System.initial CacheSection.default (by decide))).isSome = true := rfl
  obtain ⟨P, hP⟩ := Option.isSome_iff_exists.mp hpossible
  exact ⟨P, hP, run_quiesces _ _ _ _ _ _ hP⟩

end Heimdallr.Resolver
