import Heimdallr.Resolver.Paths

/-!
# Blocked names on the serving path

`Filter::is_blocked` decides whether a client may have a name. Nothing in `lookup` or `lookup_any`
asks it, so whether a blocked name is kept from the client depends on the cache and the settings
only.

The policy (`Enforced`) is that of the design notes of the repository, as far as it does not depend
on what is answered instead: for a blocked name no upstream is asked, no prefetch is spawned, and no
record of upstream or of the cache is returned. It is stated of one call, for every client, type,
state of the cache and upstream, and read off the log (`Emitted`).

* `enforced_iff_unserved`: exactly when a query asks no upstream for its name, spawns no prefetch
  and returns nothing of the cache or of upstream, blocked or not.
* `blocking_enforced_iff`: exactly when the policy holds for a query.
-/

namespace Heimdallr.Resolver

open Lib CacheForwardAuthority

/-! ## What a run emits -/

/-- The event was logged between the two states. -/
def Emitted (s s' : Shared) (e : Event) : Prop :=
  ∃ es request, s'.log = s.log ++ es ∧ (request, e) ∈ es

theorem emitted_iff {s s' : Shared} {es : List (Request × Event)} (h : s'.log = s.log ++ es)
    {e : Event} : Emitted s s' e ↔ ∃ request, (request, e) ∈ es := by
  constructor
  · rintro ⟨es', request, h', hmem⟩
    rw [h] at h'
    rw [← List.append_cancel_left h'] at hmem
    exact ⟨request, hmem⟩
  · rintro ⟨request, hmem⟩
    exact ⟨es, request, h, hmem⟩

/-- One operation only adds to the log. -/
theorem handle_log_grows (o : Op) (l : Local) (s : Shared) : s.log <+: (handle o l s).2.2.log := by
  cases o with
  | net o =>
    obtain ⟨es, hlog, -⟩ := (Shared.NetMove.step o l s).log_grows
    rw [hlog]
    exact List.prefix_append _ _
  | lookup key =>
    cases hres : s.cache.entryAt key with
    | none =>
      rw [handle_lookup_none hres]
      exact List.prefix_append _ _
    | some e =>
      rw [handle_lookup_some hres]
      exact List.prefix_append _ _
  | insert key bytes ttl => exact List.prefix_append _ _
  | spawnPrefetch name rtype => exact List.prefix_append _ _

theorem run_log_grows {α : Type} (p : Task α) (l : Local) (s : Shared) :
    s.log <+: (p.run handle l s).2.2.log := by
  induction p generalizing l s with
  | ret a => exact List.prefix_refl _
  | call o k ih => exact (handle_log_grows o l s).trans (ih _ _ _)

/-- What a prefix of a run emitted, the run emitted. -/
theorem Emitted.grow {s s₁ s₂ : Shared} {e : Event} (h : Emitted s s₁ e)
    (hlog : s₁.log <+: s₂.log) : Emitted s s₂ e := by
  obtain ⟨es, request, hes, hmem⟩ := h
  obtain ⟨es', hes'⟩ := hlog
  refine ⟨es ++ es', request, ?_, List.mem_append_left _ hmem⟩
  rw [← hes', hes, List.append_assoc]

theorem Emitted.after {s s₁ s₂ : Shared} {e : Event} (hlog : s.log <+: s₁.log)
    (h : Emitted s₁ s₂ e) : Emitted s s₂ e := by
  obtain ⟨es, request, hes, hmem⟩ := h
  obtain ⟨es', hes'⟩ := hlog
  refine ⟨es' ++ es, request, ?_, List.mem_append_right _ hmem⟩
  rw [hes, ← hes', List.append_assoc]

/-! ## The policy -/

/-- A record of an upstream reply of the run. -/
def FromUpstream (s s' : Shared) (x : Record) : Prop :=
  ∃ name rtype records, Emitted s s' (.upstream name rtype (.ok records)) ∧ x ∈ records

/-- A record of a cache entry the run found. -/
def FromCache (hk : Hickory) (s s' : Shared) (x : Record) : Prop :=
  ∃ key entry now stale msg, Emitted s s' (.hit key entry now stale) ∧
    hk.fromVec entry.responseBytes = some msg ∧ x ∈ msg.answers

/-- The run kept the name from the client: no question for it, no prefetch of it, and no record
from upstream or from the cache in the answer. -/
structure Enforced (hk : Hickory) (name : LowerName) (s : Shared)
    (r : Answer × Local × Shared) : Prop where
  no_query : ∀ rtype reply, ¬ Emitted s r.2.2 (.upstream (fwdName name) rtype reply)
  no_prefetch : ∀ rtype, ¬ Emitted s r.2.2 (.spawn name rtype)
  no_record : ∀ records, r.1 = .ok records → ∀ x ∈ records,
    ¬ FromUpstream s r.2.2 x ∧ ¬ FromCache hk s r.2.2 x

/-- `Filter::is_blocked` for the name and the client of a request. -/
def BlockedFor (self : CacheForwardAuthority) (hk : Hickory) (name : LowerName)
    (info : RequestInfo) (m : Metrics) : Prop :=
  (self.filter.isBlocked (hk.toUtf8 name.name) info.src.ip m).1 = true

instance (self : CacheForwardAuthority) (hk : Hickory) (name : LowerName) (info : RequestInfo)
    (m : Metrics) : Decidable (BlockedFor self hk name info m) :=
  inferInstanceAs (Decidable (_ = true))

/-- A query that neither finds records nor asks for them: the type is not ANY, no prefetch is due,
and there is an entry without answers, or there is none that decodes and minimization turns the
name away for having no labels. -/
def Unserved (self : CacheForwardAuthority) (hk : Hickory) (name : LowerName) (rtype : RecordType)
    (info : Option RequestInfo) (s : Shared) : Prop :=
  let key := self.cacheKey hk name rtype info
  rtype ≠ .ANY ∧ s.prefetchDue key = false ∧
    match s.answersAt hk key with
    | some answers => answers = []
    | none => self.qnameMinimization.enable = true ∧ (fwdName name).numLabels = 0

/-! ## The first question -/

/-- Minimization asks for the full name first. -/
theorem resolve_asks (self : CacheForwardAuthority) (fwd : Name) (rtype : RecordType)
    (h : ¬ (self.qnameMinimization.enable = true ∧ fwd.numLabels = 0)) :
    ∃ k, self.resolve fwd rtype = .call (.upstream fwd rtype) k := by
  unfold resolve
  by_cases hmin : self.qnameMinimization.enable = true
  · have hlabels : fwd.numLabels ≠ 0 := fun h0 => h ⟨hmin, h0⟩
    unfold resolveWithMinimization
    rw [if_pos hmin, if_neg hlabels, probed_eq]
    exact ⟨_, rfl⟩
  · rw [if_neg hmin]
    exact ⟨_, rfl⟩

/-- The miss path asks for the name unless minimization turns it away. -/
theorem missPath_asks (self : CacheForwardAuthority) (hk : Hickory) (key : CacheKey)
    (name : LowerName) (rtype : RecordType)
    (h : ¬ (self.qnameMinimization.enable = true ∧ (fwdName name).numLabels = 0)) :
    ∃ k, self.missPath hk key name rtype = .call (.net (.upstream (fwdName name) rtype)) k := by
  obtain ⟨k, hk⟩ := resolve_asks self (fwdName name) rtype h
  unfold missPath assemble
  rw [hk]
  exact ⟨_, rfl⟩

theorem missPath_turns_away (self : CacheForwardAuthority) (hk : Hickory) (key : CacheKey)
    (name : LowerName) (rtype : RecordType) (hmin : self.qnameMinimization.enable = true)
    (hlabels : (fwdName name).numLabels = 0) :
    self.missPath hk key name rtype =
      .ret (.error (.Net (.Io "qname-min: cannot minimize root name"))) := by
  unfold missPath assemble resolve resolveWithMinimization
  rw [if_pos hmin, if_pos hlabels]
  rfl

theorem emitted_upstream (name : Name) (rtype : RecordType) (l : Local) (s : Shared) :
    Emitted s (handle (.net (.upstream name rtype)) l s).2.2
      (.upstream name rtype (l.upstream l.asked name rtype)) :=
  ⟨_, l.request, rfl, List.mem_singleton_self _⟩

/-- A run that begins by asking for the name does not keep it from the client. -/
theorem not_enforced_of_asked {hk : Hickory} {name : LowerName} {s s₁ : Shared}
    {r : Answer × Local × Shared} {rtype : RecordType} {l : Local} (hlog : s.log <+: s₁.log)
    (hgrow : (handle (.net (.upstream (fwdName name) rtype)) l s₁).2.2.log <+: r.2.2.log) :
    ¬ Enforced hk name s r := by
  intro h
  exact h.no_query _ _ (((emitted_upstream (fwdName name) rtype l s₁).grow hgrow).after hlog)

/-! ## The locked section at the start -/

/-- No prefetch is due for a key that is not there. -/
theorem prefetchDue_absent {s : Shared} {key : CacheKey} (h : s.cache.entryAt key = none) :
    s.prefetchDue key = false := by
  have hafter : (s.cache.lookupWithMetrics s.metrics key s.now).2.1.cache.entries.lookup key =
      none := by
    have hentry := s.cache.entryAt_lookupWithMetrics s.metrics key s.now key
    rw [h] at hentry
    exact hentry
  unfold Shared.prefetchDue Cache.shouldPrefetch
  rw [hafter]
  simp

/-- What the locked section logs: the miss, or the hit and the prefetch if one is due. -/
theorem probe_log (s : Shared) (l : Local) (key : CacheKey) (name : LowerName)
    (rtype : RecordType) :
    (s.probe l key name rtype).log = s.log ++
      match s.cache.entryAt key with
      | none => [(l.request, .miss key)]
      | some e =>
        (l.request, .hit key e s.now (e.isStale s.cache.cache.config.serveStale s.now)) ::
          if s.prefetchDue key then [(l.request, .spawn name rtype)] else [] := by
  unfold Shared.probe
  dsimp only
  cases hres : s.cache.entryAt key with
  | none => rw [handle_lookup_none hres]
  | some e =>
    rw [handle_lookup_some hres]
    cases s.prefetchDue key with
    | false => rfl
    | true => exact List.append_assoc _ _ _

theorem probe_log_grows (s : Shared) (l : Local) (key : CacheKey) (name : LowerName)
    (rtype : RecordType) : s.log <+: (s.probe l key name rtype).log := by
  rw [probe_log]
  exact List.prefix_append _ _

theorem lookup_log_probe (s : Shared) (l : Local) (key : CacheKey) (name : LowerName)
    (rtype : RecordType) :
    (handle (.lookup key) l s).2.2.log <+: (s.probe l key name rtype).log := by
  unfold Shared.probe
  dsimp only
  split
  · exact List.prefix_refl _
  · split
    · exact handle_log_grows _ _ _
    · exact List.prefix_refl _

/-- The hit is in the log. -/
theorem emitted_hit {s : Shared} {key : CacheKey} {e : CacheEntry}
    (h : s.cache.entryAt key = some e) (l : Local) :
    Emitted s (handle (.lookup key) l s).2.2
      (.hit key e s.now (e.isStale s.cache.cache.config.serveStale s.now)) := by
  rw [handle_lookup_some h]
  exact ⟨_, l.request, rfl, List.mem_singleton_self _⟩

/-- The locked section asks nothing. -/
theorem probe_not_upstream (s : Shared) (l : Local) (key : CacheKey) (name : LowerName)
    (rtype : RecordType) (n : Name) (t : RecordType) (reply : Reply) :
    ¬ Emitted s (s.probe l key name rtype) (.upstream n t reply) := by
  rw [emitted_iff (probe_log s l key name rtype)]
  rintro ⟨request, hmem⟩
  split at hmem
  · exact absurd hmem (by simp)
  · split at hmem <;> exact absurd hmem (by simp)

/-- It spawns a prefetch exactly when one is due. -/
theorem probe_spawn_iff (s : Shared) (l : Local) (key : CacheKey) (name : LowerName)
    (rtype : RecordType) :
    (∃ t, Emitted s (s.probe l key name rtype) (.spawn name t)) ↔ s.prefetchDue key = true := by
  simp only [emitted_iff (probe_log s l key name rtype)]
  cases hres : s.cache.entryAt key with
  | none => simp [prefetchDue_absent hres]
  | some e => cases s.prefetchDue key <;> simp

/-! ## When a query serves nothing -/

section Unserved

variable (self : CacheForwardAuthority) (hk : Hickory) (name : LowerName) (rtype : RecordType)
  (info : Option RequestInfo) (l : Local) (s : Shared)

/-- An ANY query finds a cached answer, or asks. -/
theorem lookupAny_not_enforced : ¬ Enforced hk name s ((lookupAny hk name).run handle l s) := by
  unfold lookupAny
  rw [run_anyLoop_cons]
  dsimp only
  split
  · rename_i x records hans
    intro h
    obtain ⟨e, hres, hdec⟩ := Option.bind_eq_some_iff.mp hans
    obtain ⟨msg, hmsg, hanswers⟩ := Option.map_eq_some_iff.mp hdec
    have hhit := emitted_hit hres l
    refine (h.no_record _ rfl x List.mem_cons_self).2 ⟨_, e, s.now, _, msg, hhit, hmsg, ?_⟩
    rw [hanswers]
    exact List.mem_cons_self
  · exact not_enforced_of_asked (handle_log_grows _ l s) (List.prefix_append _ _)
  · exact not_enforced_of_asked (handle_log_grows _ l s) (run_log_grows _ _ _)

/-- A query answered from an entry. -/
theorem hit_enforced_iff {msg : Message} {key : CacheKey}
    (h : ((s.cache.entryAt key).bind fun e => hk.fromVec e.responseBytes) = some msg) :
    Enforced hk name s (.ok msg.answers, l, s.probe l key name rtype) ↔
      s.prefetchDue key = false ∧ msg.answers = [] := by
  obtain ⟨e, hres, hdec⟩ := Option.bind_eq_some_iff.mp h
  have hspawn := probe_spawn_iff s l key name rtype
  constructor
  · intro henf
    constructor
    · rw [← Bool.not_eq_true, ← hspawn]
      rintro ⟨t, ht⟩
      exact henf.no_prefetch t ht
    · rw [List.eq_nil_iff_forall_not_mem]
      intro x hx
      have hhit := (emitted_hit hres l).grow (lookup_log_probe s l key name rtype)
      exact (henf.no_record _ rfl x hx).2 ⟨key, e, s.now, _, msg, hhit, hdec, hx⟩
  · rintro ⟨hdue, hnil⟩
    refine ⟨fun t reply => probe_not_upstream s l key name rtype _ t reply, ?_, ?_⟩
    · intro t ht
      rw [hspawn.mp ⟨t, ht⟩] at hdue
      exact absurd hdue (by simp)
    · intro records hrec x hx
      obtain rfl : msg.answers = records := Except.ok.inj hrec
      rw [hnil] at hx
      exact absurd hx List.not_mem_nil

/-- A query that goes down the miss path. -/
theorem miss_enforced_iff (key : CacheKey) :
    Enforced hk name s ((self.missPath hk key name rtype).run handle l
        (s.probe l key name rtype)) ↔
      s.prefetchDue key = false ∧
        self.qnameMinimization.enable = true ∧ (fwdName name).numLabels = 0 := by
  have hspawn := probe_spawn_iff s l key name rtype
  by_cases haway : self.qnameMinimization.enable = true ∧ (fwdName name).numLabels = 0
  · rw [missPath_turns_away self hk key name rtype haway.1 haway.2, Prog.run_ret,
      and_iff_left haway]
    constructor
    · intro henf
      rw [← Bool.not_eq_true, ← hspawn]
      rintro ⟨t, ht⟩
      exact henf.no_prefetch t ht
    · intro hdue
      refine ⟨fun t reply => probe_not_upstream s l key name rtype _ t reply, ?_, ?_⟩
      · intro t ht
        rw [hspawn.mp ⟨t, ht⟩] at hdue
        exact absurd hdue (by simp)
      · intro records hrec
        exact absurd hrec (by simp)
  · obtain ⟨k, hcall⟩ := missPath_asks self hk key name rtype haway
    refine iff_of_false ?_ (fun h => haway h.2)
    rw [hcall, Prog.run_call]
    exact not_enforced_of_asked (probe_log_grows s l key name rtype) (run_log_grows _ _ _)

/-- **When a query serves nothing**, blocked or not. -/
theorem enforced_iff_unserved :
    Enforced hk name s ((self.lookup hk name rtype info).run handle l s) ↔
      Unserved self hk name rtype info s := by
  unfold Unserved
  by_cases hany : rtype = .ANY
  · refine iff_of_false ?_ (fun h => h.1 hany)
    unfold lookup
    rw [if_pos hany]
    exact lookupAny_not_enforced hk name l s
  · rw [run_lookup self hk name hany]
    dsimp only
    have hans : s.answersAt hk (self.cacheKey hk name rtype info) =
        ((s.cache.entryAt (self.cacheKey hk name rtype info)).bind fun e =>
          hk.fromVec e.responseBytes).map (·.answers) := Option.map_bind.symm
    rw [hans]
    cases hdec : (s.cache.entryAt (self.cacheKey hk name rtype info)).bind
        (fun e => hk.fromVec e.responseBytes) with
    | some msg =>
      rw [and_iff_right hany]
      exact hit_enforced_iff hk name rtype l s hdec
    | none =>
      rw [and_iff_right hany]
      exact miss_enforced_iff self hk name rtype l s _

end Unserved

/-- **When blocking is enforced**: for a query that is not blocked, and for one that serves nothing
anyway. -/
theorem blocking_enforced_iff (self : CacheForwardAuthority) (hk : Hickory) (name : LowerName)
    (rtype : RecordType) (info : RequestInfo) (l : Local) (s : Shared) :
    (BlockedFor self hk name info s.metrics →
        Enforced hk name s ((self.lookup hk name rtype (some info)).run handle l s)) ↔
      ¬ BlockedFor self hk name info s.metrics ∨ Unserved self hk name rtype (some info) s := by
  rw [enforced_iff_unserved]
  exact imp_iff_not_or

/-- A filter with `www.example.com` on its blocklist. -/
def blockingForwarder : CacheForwardAuthority :=
  { CacheForwardAuthority.default with
    filter := { Filter.default with blocklist := ⟨["www.example.com"]⟩ } }

/-- The blocked name is asked for, and its address returned and stored. -/
theorem blocked_name_served :
    let hk := Hickory.knowing [(cacheMessage [wwwRecord], wwwWire)]
    let info : RequestInfo := ⟨.V4 ⟨192, 0, 2, 1⟩ 5353⟩
    let start := Shared.initial CacheConfig.default (by decide)
    let r := (blockingForwarder.lookup hk wwwExample .A (some info)).run handle
      ⟨.query wwwExample .A, fixed apexAlsoAnswers, 0⟩ start
    BlockedFor blockingForwarder hk wwwExample info start.metrics ∧ r.1 = .ok [wwwRecord] ∧
      ¬ (BlockedFor blockingForwarder hk wwwExample info start.metrics →
        Enforced hk wwwExample start r) := by
  intro hk info start r
  have hblocked : BlockedFor blockingForwarder hk wwwExample info start.metrics := by
    decide
  refine ⟨hblocked, rfl, ?_⟩
  intro h
  obtain ⟨-, -, haway, -⟩ := (enforced_iff_unserved _ _ _ _ _ _ _).mp (h hblocked)
  exact absurd haway (by decide)

end Heimdallr.Resolver
