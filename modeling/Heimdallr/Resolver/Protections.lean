import Heimdallr.Resolver.Safety

/-!
# The two checks on answers, over whole runs

Instances of `run_good`, for every order of queries, prefetches and their operations. Each is a
property of record lists together with a condition on what upstream may reply under which every task
keeps it.

* `rebinding_kept`: internal addresses. `rebinding_detected` counts and logs, and no path refuses
  what it has found, so it is upstream that has to have none.
* `cname_limit_kept`: the CNAME limit. The miss path checks it; what a prefetch or an ANY query
  stores, and what is appended for a CNAME target, is not checked, so there the replies have to be
  within the limit.

The conditions are about the steps of a run: they bound the replies that reach the paths without a
check, and nothing else.
-/

namespace Heimdallr.Resolver

open Lib CacheForwardAuthority

/-! ## Internal addresses -/

/-- No record has an address that `rebinding_detected` flags. -/
def NoInternal (records : List Record) : Prop := ∀ r ∈ records, Filter.flagged r = false

theorem noInternal_qualified (records : List Record) (h : NoInternal records) :
    NoInternal (records.map Record.qualified) := by
  intro r hr
  obtain ⟨x, hx, rfl⟩ := List.mem_map.mp hr
  rw [Filter.flagged_qualified]
  exact h x hx

/-- A query of a type other than ANY gets no internal address: not in the upstream answer, not
among the DNS64 records, and not for the CNAME target when the answer is extended by it. An answer
whose chain is refused does not count. -/
def QueryNoInternal (self : CacheForwardAuthority) (hk : Hickory) (name : LowerName)
    (rtype : RecordType) (l : Local) : Prop :=
  let fwd := fwdName name
  ∀ lookup, self.resolved l.upstream fwd rtype l.asked = .ok lookup →
    let dns64 := self.dns64Of fwd rtype lookup (self.chainedA fwd rtype l)
    let records := rewritten fwd lookup dns64
    self.filter.chainTooLong records = false →
      NoInternal lookup ∧ NoInternal dns64 ∧
        (dns64 ≠ [] → NoInternal (targetRecords hk records (l.after (self.assemble fwd rtype))))

/-- No upstream answer that a started task can use has an internal address. -/
def RepliesNoInternal (self : CacheForwardAuthority) (hk : Hickory) : Act → System → Prop
  | .query name rtype _ u, _ =>
    let l : Local := ⟨.query name rtype, u, 0⟩
    if rtype = .ANY then AnyOk hk NoInternal (fun _ _ => True) name [.A, .AAAA] l
    else QueryNoInternal self hk name rtype l
  | .prefetch j u, P => ∀ name rtype, P.shared.pending[j]? = some (name, rtype) →
    PrefetchOk hk NoInternal (fun _ _ => True) name rtype ⟨.prefetch name rtype, u, 0⟩
  | .insert _ _ _, _ => False
  | _, _ => True

/-- The CNAMEs made for DNAMEs are no addresses. -/
theorem noInternal_rewritten {self : CacheForwardAuthority} {fwd : Name} {rtype : RecordType}
    {lookup : List Record} {reply : Reply} (hlookup : NoInternal lookup)
    (hdns64 : NoInternal (self.dns64Of fwd rtype lookup reply)) :
    NoInternal (rewritten fwd lookup (self.dns64Of fwd rtype lookup reply)) := by
  rw [rewritten_dns64Of]
  unfold NoInternal
  rw [List.forall_mem_append, List.forall_mem_append]
  refine ⟨hlookup, hdns64, ?_⟩
  intro r hr
  obtain ⟨x, -, hx⟩ := List.mem_filterMap.mp hr
  split at hx
  · split at hx
    · exact absurd hx (by simp)
    · rw [← Option.some.inj hx]
      rfl
  · exact absurd hx (by simp)

theorem missOk_of_queryNoInternal {self : CacheForwardAuthority} {hk : Hickory}
    {name : LowerName} {rtype : RecordType} {l : Local}
    (h : QueryNoInternal self hk name rtype l) :
    MissOk self hk NoInternal (fun _ _ => True) (fun _ => True) name rtype l := by
  refine ⟨?_, ?_, trivial, fun _ => trivial⟩
  · intro a hasm
    obtain ⟨hres, hdns64, hrec, hshort⟩ := (assembled_ok_iff self).mp hasm
    rw [hrec, hdns64] at hshort
    obtain ⟨hlookup, hsynth, -⟩ := h a.lookup hres hshort
    rw [hrec, hdns64]
    exact noInternal_rewritten hlookup hsynth
  · intro a hasm
    obtain ⟨hres, hdns64, hrec, hshort⟩ := (assembled_ok_iff self).mp hasm
    rw [hrec, hdns64] at hshort
    obtain ⟨hlookup, hsynth, htarget⟩ := h a.lookup hres hshort
    unfold answerOf
    split
    · rename_i hne
      have hne' : a.dns64 ≠ [] := by simpa using hne
      rw [hdns64] at hne'
      rw [hrec, hdns64]
      unfold NoInternal
      rw [List.forall_mem_append]
      exact ⟨noInternal_rewritten hlookup hsynth, htarget hne'⟩
    · exact hlookup

/-- **Rebinding**: in a run in which no upstream answer has an internal address, no answer has one.
The code refuses none, so the condition is all on upstream. -/
theorem rebinding_kept (self : CacheForwardAuthority) (hk : Hickory) (hrt : hk.RoundTrips)
    (c : CacheSection) (hsize : 1 ≤ c.size) (acts : List Act) (P : System)
    (hrun : runAll (act self hk) acts (System.initial c hsize) = some P)
    (hok : Along (act self hk) (RepliesNoInternal self hk) acts (System.initial c hsize))
    (l : Local) (records : List Record) (ht : (l, .ret (some (.ok records))) ∈ P.tasks) :
    NoInternal records := by
  have htask : ∀ a P, RepliesNoInternal self hk a P →
      TaskOk self hk NoInternal (fun _ _ => True) (fun _ => True) a P := by
    intro a P ha
    cases a with
    | query name rtype info u =>
      simp only [RepliesNoInternal, TaskOk] at ha ⊢
      split
      · rename_i hany
        rwa [if_pos hany] at ha
      · rename_i hany
        rw [if_neg hany] at ha
        exact missOk_of_queryNoInternal ha
    | prefetch j u => exact ha
    | task i => exact trivial
    | tick d => exact trivial
    | insert key bytes ttl => exact ha
  have hgood := run_good hrt noInternal_qualified hrun (hok.mono htask)
  exact (Pool.good_ret hgood ht _ rfl).1 records rfl

/-- A query answered with a public address. -/
theorem rebinding_kept_public_address :
    ∃ P, runAll (act CacheForwardAuthority.default wwwCodec)
        [.query wwwExample .A none (fixed apexAlsoAnswers), .task 0, .task 0, .task 0]
        (System.initial CacheSection.default (by decide)) = some P ∧
      (⟨.query wwwExample .A, fixed apexAlsoAnswers, 1⟩, .ret (some (.ok [wwwRecord]))) ∈ P.tasks ∧
      NoInternal [wwwRecord] := by
  obtain ⟨P, hP, ht⟩ : ∃ P, runAll (act CacheForwardAuthority.default wwwCodec)
      [.query wwwExample .A none (fixed apexAlsoAnswers), .task 0, .task 0, .task 0]
      (System.initial CacheSection.default (by decide)) = some P ∧
        P.tasks[0]? = some (⟨.query wwwExample .A, fixed apexAlsoAnswers, 1⟩,
          .ret (some (.ok [wwwRecord]))) := ⟨_, rfl, rfl⟩
  have hmem := List.mem_of_getElem? ht
  refine ⟨P, hP, hmem, rebinding_kept _ _ (Hickory.roundTrips_knowing (by decide)) _ _ _ P hP ?_
    _ _ hmem⟩
  refine ⟨?_, fun _ _ => ⟨trivial, fun _ _ => ⟨trivial, fun _ _ => ⟨trivial, fun _ _ => trivial⟩⟩⟩⟩
  -- upstream answers with one public address, and nothing is synthesized
  intro lookup hlookup
  obtain rfl : [wwwRecord] = lookup := Except.ok.inj hlookup
  intro dns64 records _
  refine ⟨by simp [NoInternal]; decide, ?_, ?_⟩
  · intro r hr
    exact absurd hr List.not_mem_nil
  · intro hne
    exact absurd rfl hne

/-- A record that points `www.example.com` into the local network. -/
def internalRecord : Record := ⟨.ofLabels ["www", "example", "com"] true, 300, .A ⟨192, 168, 1, 1⟩⟩

/-- The wire form of the answer of the example. -/
def internalWire : Bytes :=
  [0, 0, 0, 0, 0, 0, 0, 1, 0, 0, 0, 0] ++
    ([3] ++ ascii "www" ++ [7] ++ ascii "example" ++ [3] ++ ascii "com" ++ [0]) ++
    [0, 1, 0, 1, 0, 0, 1, 44, 0, 4, 192, 168, 1, 1]

/-- An upstream that answers with an address inside the network. -/
def internalAnswer (_ : Name) (rtype : RecordType) : Reply :=
  if rtype = .A then .ok [internalRecord] else .error (.NoRecordsFound .NoError)

/-- With rebinding protection on, the internal address is counted, stored and returned. -/
theorem internal_address_returned :
    CacheForwardAuthority.default.filter.rebinding = true ∧
    ∃ P, runAll (act CacheForwardAuthority.default
        (Hickory.knowing [(cacheMessage [internalRecord], internalWire)]))
        [.query wwwExample .A none (fixed internalAnswer), .task 0, .task 0, .task 0, .task 0]
        (System.initial CacheSection.default (by decide)) = some P ∧
      P.shared.metrics .RebindingDetectedTotal = 1 ∧
      (⟨.query wwwExample .A, fixed internalAnswer, 1⟩, .ret (some (.ok [internalRecord]))) ∈
        P.tasks ∧
      ¬ NoInternal [internalRecord] := by
  refine ⟨rfl, _, rfl, rfl, List.mem_of_getElem? (i := 0) rfl, ?_⟩
  intro h
  exact absurd (h internalRecord List.mem_cons_self) (by decide)

/-! ## The CNAME limit -/

/-- At most the configured number of CNAMEs. -/
def WithinLimit (self : CacheForwardAuthority) (records : List Record) : Prop :=
  Filter.cnameChainCount records ≤ self.filter.cnameChainLimit.toNat

instance (self : CacheForwardAuthority) (records : List Record) :
    Decidable (WithinLimit self records) :=
  inferInstanceAs (Decidable (_ ≤ _))

theorem withinLimit_qualified (self : CacheForwardAuthority) (records : List Record)
    (h : WithinLimit self records) : WithinLimit self (records.map Record.qualified) := by
  unfold WithinLimit
  rw [Filter.cnameChainCount_qualified]
  exact h

/-- The miss path of a query wrote it. -/
def MissWriter (request : Request) : Prop := ∃ name rtype, request = .query name rtype ∧ rtype ≠ .ANY

/-- A query of a type other than ANY: if its chain is refused its key is one of `R`; if it gets
through and is extended by the CNAME target's records, it stays within the limit with them. -/
def QueryWithinLimit (self : CacheForwardAuthority) (hk : Hickory) (R : CacheKey → Prop)
    (name : LowerName) (rtype : RecordType) (l : Local) : Prop :=
  let fwd := fwdName name
  ∀ lookup, self.resolved l.upstream fwd rtype l.asked = .ok lookup →
    let dns64 := self.dns64Of fwd rtype lookup (self.chainedA fwd rtype l)
    let records := rewritten fwd lookup dns64
    if self.filter.chainTooLong records then R (keyOf hk name rtype)
    else dns64 ≠ [] →
      WithinLimit self (records ++ targetRecords hk records (l.after (self.assemble fwd rtype)))

/-- What a started task gets from upstream: for ANY and for a prefetch, whose answers nobody
checks, an answer within the limit and not for a key of `R`. -/
def RepliesWithinLimit (self : CacheForwardAuthority) (hk : Hickory) (R : CacheKey → Prop) :
    Act → System → Prop
  | .query name rtype _ u, _ =>
    let l : Local := ⟨.query name rtype, u, 0⟩
    if rtype = .ANY then AnyOk hk (WithinLimit self) (fun _ key => ¬ R key) name [.A, .AAAA] l
    else QueryWithinLimit self hk R name rtype l
  | .prefetch j u, P => ∀ name rtype, P.shared.pending[j]? = some (name, rtype) →
    PrefetchOk hk (WithinLimit self) (fun _ key => ¬ R key) name rtype ⟨.prefetch name rtype, u, 0⟩
  | .insert _ _ _, _ => False
  | _, _ => True

theorem withinLimit_of_short {self : CacheForwardAuthority}
    (hcloak : self.filter.cnameCloaking = true) {records : List Record}
    (h : self.filter.chainTooLong records = false) : WithinLimit self records := by
  unfold Filter.chainTooLong at h
  rw [hcloak, Bool.true_and, decide_eq_false_iff_not, Nat.not_lt] at h
  exact h

theorem WithinLimit.left {self : CacheForwardAuthority} {xs ys : List Record}
    (h : WithinLimit self (xs ++ ys)) : WithinLimit self xs := by
  unfold WithinLimit at h ⊢
  rw [Filter.cnameChainCount_append] at h
  omega

/-- Who may write where: the miss path anywhere, the others not under the keys of `R`. -/
def MayWrite (R : CacheKey → Prop) (request : Request) (key : CacheKey) : Prop :=
  MissWriter request ∨ ¬ R key

/-- The key of a query is one of `R`. -/
def Refusable (hk : Hickory) (R : CacheKey → Prop) (request : Request) : Prop :=
  ∀ name rtype, request = .query name rtype → R (keyOf hk name rtype)

theorem missOk_of_queryWithinLimit {self : CacheForwardAuthority} {hk : Hickory}
    (hcloak : self.filter.cnameCloaking = true) {R : CacheKey → Prop} {name : LowerName}
    {rtype : RecordType} (hany : rtype ≠ .ANY) {l : Local} (hl : l.request = .query name rtype)
    (h : QueryWithinLimit self hk R name rtype l) :
    MissOk self hk (WithinLimit self) (MayWrite R) (Refusable hk R) name rtype l := by
  refine ⟨?_, ?_, Or.inl ⟨name, rtype, hl, hany⟩, ?_⟩
  · intro a hasm
    exact withinLimit_of_short hcloak ((assembled_ok_iff self).mp hasm).2.2.2
  · intro a hasm
    obtain ⟨hres, hdns64, hrec, hshort⟩ := (assembled_ok_iff self).mp hasm
    unfold answerOf
    split
    · rename_i hne
      have hne' : a.dns64 ≠ [] := by simpa using hne
      have hlimit := h a.lookup hres
      dsimp only at hlimit
      rw [← hdns64, ← hrec, hshort, if_neg (by simp)] at hlimit
      exact hlimit hne'
    · have hstored := withinLimit_of_short hcloak hshort
      rw [hrec, hdns64, rewritten_dns64Of] at hstored
      exact hstored.left
  · intro hasm name' rtype' hreq
    obtain ⟨lookup, hres, htoo⟩ := assembled_refused self hasm
    have hrefused := h lookup hres
    dsimp only at hrefused
    rw [htoo, if_pos rfl] at hrefused
    rw [hl] at hreq
    obtain ⟨rfl, rfl⟩ := Request.query.inj hreq
    exact hrefused

theorem AnyOk.mono {hk : Hickory} {G : List Record → Prop} {W W' : Request → CacheKey → Prop}
    (hW : ∀ request key, W request key → W' request key) {name : LowerName}
    {types : List RecordType} {l : Local} (h : AnyOk hk G W name types l) :
    AnyOk hk G W' name types l := by
  induction types generalizing l with
  | nil => exact trivial
  | cons t rest ih =>
    unfold AnyOk at h ⊢
    split at h
    · exact ⟨h.1, hW _ _ h.2⟩
    · exact ih h

theorem taskOk_of_repliesWithinLimit {self : CacheForwardAuthority} {hk : Hickory}
    (hcloak : self.filter.cnameCloaking = true) {R : CacheKey → Prop} (a : Act) (P : System)
    (h : RepliesWithinLimit self hk R a P) :
    TaskOk self hk (WithinLimit self) (MayWrite R) (Refusable hk R) a P := by
  cases a with
  | query name rtype info u =>
    simp only [RepliesWithinLimit, TaskOk] at h ⊢
    split
    · rename_i hany
      rw [if_pos hany] at h
      exact h.mono fun _ _ => Or.inr
    · rename_i hany
      rw [if_neg hany] at h
      exact missOk_of_queryWithinLimit hcloak hany rfl h
  | prefetch j u =>
    intro name rtype hj records hreply
    obtain ⟨hG, hR⟩ := h name rtype hj records hreply
    exact ⟨hG, Or.inr hR⟩
  | task i => exact trivial
  | tick d => exact trivial
  | insert key bytes ttl => exact h

/-! ### Where entries come from -/

/-- Every entry in the cache, and every entry that was ever found, was stored by a task. -/
structure Sourced (s : Shared) : Prop where
  entries : ∀ key e, s.cache.entryAt key = some e →
    ∃ q ttl, (q, Event.insert key e.responseBytes ttl) ∈ s.log
  hits : ∀ q key e now stale, (q, Event.hit key e now stale) ∈ s.log →
    ∃ q' ttl, (q', Event.insert key e.responseBytes ttl) ∈ s.log

/-- The log grows by events that find nothing but what was in the cache, and what the cache holds
was there or is logged. -/
theorem Sourced.grow {s s' : Shared} (hs : Sourced s) {es : List (Request × Event)}
    (hlog : s'.log = s.log ++ es)
    (hentries : ∀ key e, s'.cache.entryAt key = some e →
      (∃ e', s.cache.entryAt key = some e' ∧ e'.responseBytes = e.responseBytes) ∨
        ∃ q ttl, (q, Event.insert key e.responseBytes ttl) ∈ es)
    (hhits : ∀ q key e now stale, (q, Event.hit key e now stale) ∈ es →
      s.cache.entryAt key = some e) : Sourced s' := by
  have hold : ∀ key e, s.cache.entryAt key = some e →
      ∃ q ttl, (q, Event.insert key e.responseBytes ttl) ∈ s'.log := by
    intro key e he
    obtain ⟨q, ttl, hmem⟩ := hs.entries key e he
    exact ⟨q, ttl, by rw [hlog]; exact List.mem_append_left _ hmem⟩
  refine ⟨?_, ?_⟩
  · intro key e he
    rcases hentries key e he with ⟨e', he', hbytes⟩ | ⟨q, ttl, hmem⟩
    · rw [← hbytes]
      exact hold key e' he'
    · exact ⟨q, ttl, by rw [hlog]; exact List.mem_append_right _ hmem⟩
  · intro q key e now stale hmem
    rw [hlog] at hmem
    rcases List.mem_append.mp hmem with hmem | hmem
    · obtain ⟨q', ttl, hins⟩ := hs.hits q key e now stale hmem
      exact ⟨q', ttl, by rw [hlog]; exact List.mem_append_left _ hins⟩
    · exact hold key e (hhits q key e now stale hmem)

theorem sourced_handle (o : Op) (l : Local) {s : Shared} (hs : Sourced s) :
    Sourced (handle o l s).2.2 := by
  cases o with
  | net o =>
    have hmove := Shared.NetMove.step o l s
    obtain ⟨es, hlog, hes⟩ := hmove.log_grows
    refine hs.grow hlog ?_ ?_
    · intro key e he
      rw [hmove.cache_eq] at he
      exact Or.inl ⟨e, he, rfl⟩
    · intro q key e now stale hmem
      obtain ⟨n, t, reply, hup⟩ := hes _ hmem
      exact absurd hup (by simp)
  | lookup key =>
    cases hres : s.cache.entryAt key with
    | none =>
      rw [handle_lookup_none hres]
      exact hs.grow rfl (fun k e he => Or.inl (entryAt_of_lookup he)) (by simp)
    | some e =>
      rw [handle_lookup_some hres]
      refine hs.grow rfl (fun k e he => Or.inl (entryAt_of_lookup he)) ?_
      intro q k e' now stale hmem
      obtain ⟨rfl, rfl, -, -⟩ := Event.hit.inj (Prod.mk.inj (List.mem_singleton.mp hmem)).2
      exact hres
  | insert key bytes ttl =>
    refine hs.grow rfl ?_ (by simp)
    intro k e he
    by_cases hkey : k = key
    · subst hkey
      have hnew : (s.cache.insert k bytes ttl s.now).entryAt k = some e := he
      rw [LiveCache.entryAt_insert] at hnew
      obtain rfl := Option.some.inj hnew
      exact Or.inr ⟨l.request, ttl, List.mem_singleton_self _⟩
    · exact Or.inl ⟨e, LiveCache.entryAt_of_insert hkey he, rfl⟩
  | spawnPrefetch name rtype =>
    exact hs.grow rfl (fun k e he => Or.inl ⟨e, he, rfl⟩) (by simp)

theorem sourced_act {self : CacheForwardAuthority} {hk : Hickory} (a : Act) (P P' : System)
    (hP : Sourced P.shared) (hne : ∀ key bytes ttl, a ≠ .insert key bytes ttl)
    (h : act self hk a P = some P') : Sourced P'.shared := by
  cases a with
  | query name rtype info u =>
    obtain rfl := Option.some.inj h
    exact hP
  | prefetch j u =>
    obtain ⟨name, rtype, -, rfl⟩ := act_prefetch h
    exact ⟨hP.entries, hP.hits⟩
  | task i =>
    obtain ⟨l, o, k, -, rfl⟩ := Pool.step_eq h
    exact sourced_handle o l hP
  | tick d =>
    obtain rfl := Option.some.inj h
    exact ⟨hP.entries, hP.hits⟩
  | insert key bytes ttl => exact absurd rfl (hne key bytes ttl)

/-- **The CNAME limit**: with the check on, in a run in which the answers nobody checks are within
the limit and not for keys whose chain is refused, no answer has more CNAMEs than the limit, and
what is found under the key of a refused query was stored by the miss path. -/
theorem cname_limit_kept (self : CacheForwardAuthority) (hk : Hickory) (hrt : hk.RoundTrips)
    (hcloak : self.filter.cnameCloaking = true) (R : CacheKey → Prop) (c : CacheSection)
    (hsize : 1 ≤ c.size) (acts : List Act) (P : System)
    (hrun : runAll (act self hk) acts (System.initial c hsize) = some P)
    (hok : Along (act self hk) (RepliesWithinLimit self hk R) acts (System.initial c hsize)) :
    (∀ l records, (l, .ret (some (.ok records))) ∈ P.tasks → WithinLimit self records) ∧
      ∀ l name rtype, (l, .ret (some (.error truncatedError))) ∈ P.tasks →
        l.request = .query name rtype →
        ∀ q e now stale, (q, .hit (keyOf hk name rtype) e now stale) ∈ P.shared.log →
          ∃ q' ttl, (q', .insert (keyOf hk name rtype) e.responseBytes ttl) ∈ P.shared.log ∧
            MissWriter q' := by
  have hgood := run_good hrt (withinLimit_qualified self) hrun
    (hok.mono (taskOk_of_repliesWithinLimit hcloak))
  have hsourced : Sourced P.shared := by
    have hstart : Sourced (System.initial c hsize).shared := by
      refine ⟨?_, fun q key e now stale hmem => absurd hmem List.not_mem_nil⟩
      intro key e he
      have hnone : (System.initial c hsize).shared.cache.entryAt key = none := rfl
      rw [hnone] at he
      exact absurd he (by simp)
    refine runAll_invariant (I := fun P : System => Sourced P.shared)
      (C := fun a _ => ∀ key bytes ttl, a ≠ .insert key bytes ttl) sourced_act hstart
      (hok.mono ?_) hrun
    rintro a P h key bytes ttl rfl
    exact h
  refine ⟨fun l records ht => (Pool.good_ret hgood ht _ rfl).1 records rfl, ?_⟩
  intro l name rtype ht hreq q e now stale hhit
  have hR : R (keyOf hk name rtype) := (Pool.good_ret hgood ht _ rfl).2 rfl name rtype hreq
  obtain ⟨q', ttl, hins⟩ := hsourced.hits q _ e now stale hhit
  refine ⟨q', ttl, hins, ?_⟩
  rcases hgood.1.writes _ hins _ _ _ rfl with hmiss | hnot
  · exact hmiss
  · exact absurd hR hnot

/-- A query answered without a CNAME. -/
theorem cname_limit_kept_no_chain :
    ∃ P, runAll (act CacheForwardAuthority.default wwwCodec)
        [.query wwwExample .A none (fixed apexAlsoAnswers), .task 0, .task 0, .task 0]
        (System.initial CacheSection.default (by decide)) = some P ∧
      ∀ l records, (l, .ret (some (.ok records))) ∈ P.tasks →
        WithinLimit CacheForwardAuthority.default records := by
  obtain ⟨P, hP⟩ : ∃ P, runAll (act CacheForwardAuthority.default wwwCodec)
      [.query wwwExample .A none (fixed apexAlsoAnswers), .task 0, .task 0, .task 0]
      (System.initial CacheSection.default (by decide)) = some P := ⟨_, rfl⟩
  refine ⟨P, hP, (cname_limit_kept _ _ (Hickory.roundTrips_knowing (by decide)) rfl (fun _ => False)
    _ _ _ P hP ?_).1⟩
  refine ⟨?_, fun _ _ => ⟨trivial, fun _ _ => ⟨trivial, fun _ _ => ⟨trivial, fun _ _ => trivial⟩⟩⟩⟩
  intro lookup hlookup
  obtain rfl : [wwwRecord] = lookup := Except.ok.inj hlookup
  intro dns64 records
  have hshort : CacheForwardAuthority.default.filter.chainTooLong records = false := rfl
  rw [hshort, if_neg (by simp)]
  intro hne
  exact absurd rfl hne

/-- Two CNAMEs and the address at their end. -/
def chain : List Record :=
  [⟨.ofLabels ["www", "example", "com"] true, 300, .CNAME (.ofLabels ["a", "test"] true)⟩,
    ⟨.ofLabels ["a", "test"] true, 300, .CNAME (.ofLabels ["b", "test"] true)⟩,
    ⟨.ofLabels ["b", "test"] true, 300, .A ⟨203, 0, 113, 9⟩⟩]

/-- Its wire form; names after the first are pointers where they can be. -/
def chainWire : Bytes :=
  [0, 0, 0, 0, 0, 0, 0, 3, 0, 0, 0, 0] ++
    ([3] ++ ascii "www" ++ [7] ++ ascii "example" ++ [3] ++ ascii "com" ++ [0]) ++
    [0, 5, 0, 1, 0, 0, 1, 44, 0, 8] ++ ([1] ++ ascii "a" ++ [4] ++ ascii "test" ++ [0]) ++
    [0xc0, 39, 0, 5, 0, 1, 0, 0, 1, 44, 0, 4] ++ ([1] ++ ascii "b" ++ [0xc0, 41]) ++
    [0xc0, 59, 0, 1, 0, 1, 0, 0, 1, 44, 0, 4, 203, 0, 113, 9]

/-- An upstream that answers with a chain of aliases. -/
def chainAnswer (_ : Name) (rtype : RecordType) : Reply :=
  if rtype = .A then .ok chain else .error (.NoRecordsFound .NoError)

/-- A forwarder that allows one CNAME. -/
def oneCname : CacheForwardAuthority :=
  { CacheForwardAuthority.default with filter := { Filter.default with cnameChainLimit := 1 } }

/-- An A query, an ANY query and the A query again, one after the other. -/
def anyInBetween : List Act :=
  [.query wwwExample .A none (fixed chainAnswer), .task 0, .task 0, .task 0,
    .query wwwExample .ANY none (fixed chainAnswer), .task 1, .task 1, .task 1,
    .query wwwExample .A none (fixed chainAnswer), .task 2]

/-- The A query is refused, the ANY query returns the chain and stores it, and the second A query is
served from that entry. -/
theorem refused_chain_served :
    ∃ P, runAll (act oneCname (Hickory.knowing [(cacheMessage chain, chainWire)])) anyInBetween
        (System.initial CacheSection.default (by decide)) = some P ∧
      P.tasks.map (fun t => (t.1.asked, t.2)) =
        [(1, .ret (some (.error truncatedError))), (1, .ret (some (.ok chain))),
          (0, .ret (some (.ok chain)))] ∧
      ¬ ∀ l records, (l, .ret (some (.ok records))) ∈ P.tasks → WithinLimit oneCname records := by
  refine ⟨_, rfl, rfl, ?_⟩
  intro h
  have hlimit := h ⟨.query wwwExample .A, fixed chainAnswer, 0⟩ chain
    (List.mem_of_getElem? (i := 2) rfl)
  exact absurd hlimit (by decide)

end Heimdallr.Resolver
