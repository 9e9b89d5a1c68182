import Heimdallr.Resolver.Forward

/-!
# What the stages of the forwarder compute

One lemma per stage, for a task run alone: what it returns, what it stores and what it leaves alone.
The results of the `Net` stages depend on the task's replies only, so they are stated once, as
equations on `eval`, and hold of the stage in any interleaving (`Lib.Prog`).

* `eval_resolve`, `eval_dns64`, `eval_assemble`, `eval_flatten`: the network stages;
  `assembled_ok_iff` says when the answer is complete.
* `run_storeAnswer`, `run_missPath_ok`, `run_missPath_error`: the miss path, with the state it
  leaves.
* `cacheKey_eq_keyOf`, `run_lookup`: the key of a query, and the ways `lookup` goes for a type
  other than ANY.
* `run_anyLoop_cons`: one type of an ANY query.

`Assembled` keeps the three lists of the miss path apart: the upstream answer, what DNS64 has made,
and what is stored. Which of them is returned depends on whether DNS64 has made anything
(`answerOf`). Later modules cite these lemmas and do not unfold the program.
-/

namespace Heimdallr.Resolver

open Lib

/-! ## The network stages -/

namespace CacheForwardAuthority

variable (self : CacheForwardAuthority) (hk : Hickory)

/-- The answer of the forwarding stage. -/
def resolved (u : Upstream) (fwd : Name) (rtype : RecordType) (asked : Nat) : Reply :=
  if self.qnameMinimization.enable then minimized u fwd rtype self.qnameMinimization asked
  else u asked fwd rtype

theorem eval_resolve (fwd : Name) (rtype : RecordType) (l : Local) :
    ((self.resolve fwd rtype).eval netAnswer l).1 =
      self.resolved l.upstream fwd rtype l.asked := by
  unfold resolve resolved
  split
  · rw [Prog.eval_bind, ← eval_resolveWithMinimization]
    cases ((resolveWithMinimization fwd rtype self.qnameMinimization).eval netAnswer l).1 <;> rfl
  · rfl

/-- The records DNS64 makes of the reply to the chained A question. -/
def dns64Of (fwd : Name) (rtype : RecordType) (lookup : List Record) (reply : Reply) :
    List Record :=
  match self.dns64Wanted rtype lookup with
  | none => []
  | some pre =>
    dns64Records fwd (okRecords reply) (synthesized (aAddresses (okRecords reply)) pre)

theorem eval_dns64 (fwd : Name) (rtype : RecordType) (lookup : List Record) (l : Local) :
    ((self.dns64 fwd rtype lookup).eval netAnswer l).1 =
      self.dns64Of fwd rtype lookup (l.upstream l.asked (fwd.setFqdn false) .A) := by
  unfold dns64 dns64Of
  cases self.dns64Wanted rtype lookup with
  | none => rfl
  | some pre =>
    dsimp only
    have hask : (upstream (fwd.setFqdn false) .A).eval netAnswer l =
        (l.upstream l.asked (fwd.setFqdn false) .A, { l with asked := l.asked + 1 }) := rfl
    rw [Prog.eval_bind, hask]
    cases l.upstream l.asked (fwd.setFqdn false) .A with
    | error e => rfl
    | ok aLookup =>
      dsimp only [okRecords]
      split
      · rw [Prog.eval_bind, eval_synthesizeAaaa]
        rfl
      · rename_i hne
        have hnil : aAddresses aLookup = [] := by simpa using hne
        rw [hnil]
        rfl

/-- The miss path up to the store, from the answer of the forwarding stage and the reply to the
chained A question. -/
def assembledOf (fwd : Name) (rtype : RecordType) (answer chainedA : Reply) :
    Except LookupError Assembled :=
  match answer with
  | .error e => .error (.Net e)
  | .ok lookup =>
    let dns64 := self.dns64Of fwd rtype lookup chainedA
    let records := rewritten fwd lookup dns64
    if self.filter.chainTooLong records then
      .error (.Io "CNAME chain truncated (limit exceeded)")
    else .ok { lookup, dns64, records }

/-- The reply to the chained A question of DNS64. -/
def chainedA (fwd : Name) (rtype : RecordType) (l : Local) : Reply :=
  l.upstream (l.after (self.resolve fwd rtype)).asked (fwd.setFqdn false) .A

/-- What the miss path has gathered when it comes to store it. -/
def assembled (fwd : Name) (rtype : RecordType) (l : Local) : Except LookupError Assembled :=
  self.assembledOf fwd rtype (self.resolved l.upstream fwd rtype l.asked)
    (self.chainedA fwd rtype l)

theorem eval_chainRefused (records : List Record) (l : Local) :
    (self.chainRefused records).eval netAnswer l = (self.filter.chainTooLong records, l) := by
  unfold chainRefused
  split
  · exact self.filter.eval_cnameChainTruncated records l
  · rename_i hoff
    rw [Prog.eval_pure]
    simp [Filter.chainTooLong, hoff]

theorem eval_assemble (fwd : Name) (rtype : RecordType) (l : Local) :
    ((self.assemble fwd rtype).eval netAnswer l).1 = self.assembled fwd rtype l := by
  unfold assemble assembled assembledOf
  rw [Prog.eval_bind, eval_resolve]
  cases self.resolved l.upstream fwd rtype l.asked with
  | error e => rfl
  | ok lookup =>
    have hdns64 : ((self.dns64 fwd rtype lookup).eval netAnswer
        (l.after (self.resolve fwd rtype))).1 =
          self.dns64Of fwd rtype lookup (self.chainedA fwd rtype l) := by
      rw [eval_dns64, Local.after_upstream]
      rfl
    dsimp only
    rw [Prog.eval_bind, ← Local.after, hdns64, Prog.eval_bind, eval_chainRefused]
    split
    · rfl
    · rw [Prog.eval_bind]
      rfl

/-- The answer that gets through: of the forwarding stage, rewritten, and not refused. -/
theorem assembled_ok_iff {fwd : Name} {rtype : RecordType} {l : Local} {a : Assembled} :
    self.assembled fwd rtype l = .ok a ↔
      self.resolved l.upstream fwd rtype l.asked = .ok a.lookup ∧
        a.dns64 = self.dns64Of fwd rtype a.lookup (self.chainedA fwd rtype l) ∧
        a.records = rewritten fwd a.lookup a.dns64 ∧
        self.filter.chainTooLong a.records = false := by
  obtain ⟨lookup, dns64, records⟩ := a
  unfold assembled assembledOf
  cases self.resolved l.upstream fwd rtype l.asked with
  | error e => simp
  | ok answer =>
    dsimp only
    split
    · rename_i htoo
      refine iff_of_false (by simp) ?_
      rintro ⟨hans, rfl, rfl, hshort⟩
      obtain rfl := Except.ok.inj hans
      exact absurd (htoo.symm.trans hshort) (by simp)
    · rename_i hshort
      rw [Bool.not_eq_true] at hshort
      constructor
      · intro h
        obtain ⟨rfl, rfl, rfl⟩ := Assembled.mk.inj (Except.ok.inj h)
        exact ⟨rfl, rfl, rfl, hshort⟩
      · rintro ⟨hans, rfl, rfl, -⟩
        obtain rfl := Except.ok.inj hans
        rfl

/-- The answer that is refused. -/
theorem assembled_refused {fwd : Name} {rtype : RecordType} {l : Local} {message : String}
    (h : self.assembled fwd rtype l = .error (.Io message)) :
    ∃ lookup, self.resolved l.upstream fwd rtype l.asked = .ok lookup ∧
      self.filter.chainTooLong (rewritten fwd lookup
        (self.dns64Of fwd rtype lookup (self.chainedA fwd rtype l))) = true := by
  unfold assembled assembledOf at h
  cases hres : self.resolved l.upstream fwd rtype l.asked with
  | error e =>
    rw [hres] at h
    exact absurd h (by simp)
  | ok lookup =>
    rw [hres] at h
    dsimp only at h
    split at h
    · rename_i htoo
      exact ⟨lookup, rfl, htoo⟩
    · exact absurd h (by simp)

/-- The records `flatten` adds: the replies for the target of the first CNAME. -/
def targetRecords (records : List Record) (l : Local) : List Record :=
  match syntheticTarget records with
  | none => []
  | some target =>
    let targetName := (hk.fromAscii (hk.toUtf8 target)).getD Name.root
    okRecords (l.upstream l.asked targetName .A) ++
      okRecords (l.upstream (l.asked + 1) targetName .AAAA)

end CacheForwardAuthority

open CacheForwardAuthority

theorem eval_flatten (hk : Hickory) (records : List Record) (l : Local) :
    ((flatten hk records).eval netAnswer l).1 = records ++ targetRecords hk records l := by
  unfold flatten targetRecords
  cases syntheticTarget records with
  | none => exact (List.append_nil records).symm
  | some target => exact List.append_assoc _ _ _

/-! ## The record list that is stored -/

/-- DNS64 records are addresses. -/
theorem synthesizeDnameCnames_dns64Records (fwd : Name) (aLookup : List Record)
    (aaaaList : List Ipv6Addr) (original : Name) :
    synthesizeDnameCnames (dns64Records fwd aLookup aaaaList) original = [] := by
  unfold synthesizeDnameCnames dns64Records
  rw [List.filterMap_eq_nil_iff]
  intro r hr
  obtain ⟨synth, -, rfl⟩ := List.mem_map.mp hr
  rfl

theorem synthesizeDnameCnames_dns64Of (self : CacheForwardAuthority) (fwd : Name)
    (rtype : RecordType) (lookup : List Record) (reply : Reply) (original : Name) :
    synthesizeDnameCnames (self.dns64Of fwd rtype lookup reply) original = [] := by
  unfold dns64Of
  cases self.dns64Wanted rtype lookup with
  | none => rfl
  | some pre => exact synthesizeDnameCnames_dns64Records fwd _ _ original

/-- Without a DNAME nothing is synthesized, so the test for one only saves work. -/
theorem rewritten_eq (fwd : Name) (lookup dns64 : List Record) :
    rewritten fwd lookup dns64 =
      lookup ++ dns64 ++ synthesizeDnameCnames (lookup ++ dns64) fwd := by
  unfold rewritten
  dsimp only
  split
  · rfl
  · rename_i hnone
    have hnil : synthesizeDnameCnames (lookup ++ dns64) fwd = [] := by
      unfold synthesizeDnameCnames
      rw [List.filterMap_eq_nil_iff]
      intro r hr
      split
      · rename_i dname hd
        refine absurd (List.any_eq_true.mpr ⟨r, hr, ?_⟩) hnone
        simp [Record.recordType, hd]
      · rfl
    rw [hnil, List.append_nil]

/-- The records of the answer, its DNS64 records and one CNAME per DNAME of the answer. -/
theorem rewritten_dns64Of (self : CacheForwardAuthority) (fwd : Name) (rtype : RecordType)
    (lookup : List Record) (reply : Reply) :
    rewritten fwd lookup (self.dns64Of fwd rtype lookup reply) =
      lookup ++ (self.dns64Of fwd rtype lookup reply ++ synthesizeDnameCnames lookup fwd) := by
  have happ : synthesizeDnameCnames (lookup ++ self.dns64Of fwd rtype lookup reply) fwd =
      synthesizeDnameCnames lookup fwd := by
    have hnil := synthesizeDnameCnames_dns64Of self fwd rtype lookup reply fwd
    unfold synthesizeDnameCnames at hnil ⊢
    rw [List.filterMap_append, hnil, List.append_nil]
  rw [rewritten_eq, happ, List.append_assoc]

/-! ## Runs -/

/-- The cache after `storeAnswer`. -/
def stored (hk : Hickory) (key : CacheKey) (records : List Record) (now : Instant)
    (cache : LiveCache) : LiveCache :=
  match hk.toVec (cacheMessage records) with
  | some bytes => cache.insert key bytes (minTtl records) now
  | none => cache

/-- What `storeAnswer` logs. -/
def storeEvents (hk : Hickory) (key : CacheKey) (records : List Record) : List Event :=
  match hk.toVec (cacheMessage records) with
  | some bytes => [.insert key bytes (minTtl records)]
  | none => []

/-- The shared state after `storeAnswer`, for a task with this request. -/
def Shared.store (s : Shared) (request : Request) (hk : Hickory) (key : CacheKey)
    (records : List Record) : Shared :=
  { s with
    cache := stored hk key records s.now s.cache
    log := s.log ++ (storeEvents hk key records).map fun e => (request, e) }

theorem run_storeAnswer (hk : Hickory) (key : CacheKey) (records : List Record) (l : Local)
    (s : Shared) :
    (storeAnswer hk key records).run handle l s = ((), l, s.store l.request hk key records) := by
  unfold storeAnswer Shared.store stored storeEvents
  cases hk.toVec (cacheMessage records) with
  | none =>
    rw [Prog.run_pure]
    simp
  | some bytes => rfl

namespace CacheForwardAuthority

variable (self : CacheForwardAuthority) (hk : Hickory)

/-- What the miss path returns for what it gathered; `l` is the task before the flattening. -/
def answerOf (a : Assembled) (l : Local) : List Record :=
  if !a.dns64.isEmpty then a.records ++ targetRecords hk a.records l else a.lookup

theorem run_missPath_error {key : CacheKey} {name : LowerName} {rtype : RecordType} {l : Local}
    {e : LookupError} (h : self.assembled (fwdName name) rtype l = .error e) (s : Shared) :
    ∃ l' s', (self.missPath hk key name rtype).run handle l s = (.error e, l', s') ∧
      s.NetMove s' := by
  obtain ⟨s', hrun, hmove⟩ := run_lift (self.assemble (fwdName name) rtype) l s
  rw [eval_assemble, h] at hrun
  refine ⟨l.after (self.assemble (fwdName name) rtype), s', ?_, hmove⟩
  unfold missPath
  rw [Prog.run_bind, hrun]
  rfl

theorem run_missPath_ok {key : CacheKey} {name : LowerName} {rtype : RecordType} {l : Local}
    {a : Assembled} (h : self.assembled (fwdName name) rtype l = .ok a) (s : Shared) :
    ∃ l' s₁ s', (self.missPath hk key name rtype).run handle l s =
        (.ok (answerOf hk a (l.after (self.assemble (fwdName name) rtype))), l', s') ∧
      s.NetMove s₁ ∧ (s₁.store l.request hk key a.records).NetMove s' := by
  obtain ⟨s₁, hrun, hmove⟩ := run_lift (self.assemble (fwdName name) rtype) l s
  rw [eval_assemble, h] at hrun
  obtain ⟨s', hrun', hmove'⟩ := run_lift (flatten hk a.records)
    (l.after (self.assemble (fwdName name) rtype)) (s₁.store l.request hk key a.records)
  rw [eval_flatten] at hrun'
  refine ⟨(l.after (self.assemble (fwdName name) rtype)).after (flatten hk a.records), s₁, s', ?_,
    hmove, hmove'⟩
  unfold missPath
  rw [Prog.run_bind, hrun]
  dsimp only
  rw [Prog.run_bind, run_storeAnswer, Local.after_request]
  dsimp only
  rw [Prog.run_bind, hrun']
  rfl

/-- What the miss path returns. -/
theorem run_missPath_fst (key : CacheKey) (name : LowerName) (rtype : RecordType) (l : Local)
    (s : Shared) :
    ((self.missPath hk key name rtype).run handle l s).1 =
      (self.assembled (fwdName name) rtype l).map fun a =>
        answerOf hk a (l.after (self.assemble (fwdName name) rtype)) := by
  cases h : self.assembled (fwdName name) rtype l with
  | error e =>
    obtain ⟨l', s', hrun, -⟩ := self.run_missPath_error hk h s
    rw [hrun]
    rfl
  | ok a =>
    obtain ⟨l', s₁, s', hrun, -, -⟩ := self.run_missPath_ok hk h s
    rw [hrun]
    rfl

/-- The cache the miss path leaves: the gathered records are stored, and nothing on an error. -/
theorem run_missPath_cache (key : CacheKey) (name : LowerName) (rtype : RecordType) (l : Local)
    (s : Shared) :
    ((self.missPath hk key name rtype).run handle l s).2.2.cache =
      match self.assembled (fwdName name) rtype l with
      | .error _ => s.cache
      | .ok a => stored hk key a.records s.now s.cache := by
  cases h : self.assembled (fwdName name) rtype l with
  | error e =>
    obtain ⟨l', s', hrun, hmove⟩ := self.run_missPath_error hk h s
    rw [hrun]
    exact hmove.cache_eq
  | ok a =>
    obtain ⟨l', s₁, s', hrun, hmove, hmove'⟩ := self.run_missPath_ok hk h s
    have hstore : (s₁.store l.request hk key a.records).cache =
        stored hk key a.records s.now s.cache := by
      unfold Shared.store
      rw [hmove.cache_eq, hmove.now_eq]
    rw [hrun]
    exact hmove'.cache_eq.trans hstore

end CacheForwardAuthority

/-- The key a query of this name and type reads and writes. -/
def keyOf (hk : Hickory) (name : LowerName) (rtype : RecordType) : CacheKey :=
  ⟨hk.toUtf8 name.name, rtype.toU16, none⟩

theorem cacheKey_eq_keyOf (self : CacheForwardAuthority) (hk : Hickory) (name : LowerName)
    (rtype : RecordType) (info : Option RequestInfo) :
    self.cacheKey hk name rtype info = keyOf hk name rtype := by
  unfold CacheForwardAuthority.cacheKey extractEcsScope keyOf
  simp

/-- Whether a hit on `key` spawns a prefetch: `should_prefetch`, right after `lookup` counted it. -/
def Shared.prefetchDue (s : Shared) (key : CacheKey) : Bool :=
  (s.cache.lookupWithMetrics s.metrics key s.now).2.1.cache.shouldPrefetch key s.now

/-- The shared state after the first locked section of `lookup`, the spawning included. -/
def Shared.probe (s : Shared) (l : Local) (key : CacheKey) (name : LowerName)
    (rtype : RecordType) : Shared :=
  let s₁ := (handle (.lookup key) l s).2.2
  match s.cache.entryAt key with
  | none => s₁
  | some _ => if s.prefetchDue key then (handle (.spawnPrefetch name rtype) l s₁).2.2 else s₁

/-- **The three ways of `lookup`** for a type other than ANY: a key that is not there, an entry
that decodes, and one that does not. -/
theorem CacheForwardAuthority.run_lookup (self : CacheForwardAuthority) (hk : Hickory)
    (name : LowerName) {rtype : RecordType} (hany : rtype ≠ .ANY) (info : Option RequestInfo)
    (l : Local) (s : Shared) :
    (self.lookup hk name rtype info).run handle l s =
      let key := self.cacheKey hk name rtype info
      match (s.cache.entryAt key).bind fun e => hk.fromVec e.responseBytes with
      | some msg => (.ok msg.answers, l, s.probe l key name rtype)
      | none => (self.missPath hk key name rtype).run handle l (s.probe l key name rtype) := by
  unfold lookup Shared.probe
  rw [if_neg hany]
  dsimp only
  rw [Prog.run_bind, Prog.run_perform]
  cases hres : s.cache.entryAt (self.cacheKey hk name rtype info) with
  | none =>
    rw [handle_lookup_none hres]
    rfl
  | some e =>
    rw [handle_lookup_some hres]
    have hdue : (s.cache.lookupWithMetrics s.metrics (self.cacheKey hk name rtype info)
        s.now).2.1.cache.shouldPrefetch (self.cacheKey hk name rtype info) s.now =
          s.prefetchDue (self.cacheKey hk name rtype info) := rfl
    dsimp only [Option.bind_some]
    rw [hdue]
    cases s.prefetchDue (self.cacheKey hk name rtype info) <;>
      cases hk.fromVec e.responseBytes <;> rfl

/-- The answers stored under a key, when there is an entry that decodes. -/
def Shared.answersAt (s : Shared) (hk : Hickory) (key : CacheKey) : Option (List Record) :=
  (s.cache.entryAt key).bind fun e => (hk.fromVec e.responseBytes).map (·.answers)

theorem cachedAnswers_lookup (hk : Hickory) (key : CacheKey) (l : Local) (s : Shared) :
    cachedAnswers hk (handle (.lookup key) l s).1 = s.answersAt hk key := by
  unfold Shared.answersAt
  cases hres : s.cache.entryAt key with
  | none =>
    rw [handle_lookup_none hres]
    rfl
  | some e =>
    rw [handle_lookup_some hres]
    rfl

/-- A round of `lookup_any` from its upstream question on. -/
theorem run_anyLoop_asked (hk : Hickory) (name : LowerName) (t : RecordType)
    (rest : List RecordType) (l : Local) (s : Shared) :
    Prog.run handle (do
        match ← (upstream (fwdName name) t).lift with
        | .ok (x :: records) => do
          storeAnswer hk ⟨hk.toUtf8 name.name, t.toU16, none⟩ (x :: records)
          return .ok (x :: records)
        | _ => anyLoop hk name rest) l s =
      let r := handle (.net (.upstream (fwdName name) t)) l s
      match l.upstream l.asked (fwdName name) t with
      | .ok (x :: records) => (.ok (x :: records), r.2.1,
          r.2.2.store l.request hk ⟨hk.toUtf8 name.name, t.toU16, none⟩ (x :: records))
      | _ => (anyLoop hk name rest).run handle r.2.1 r.2.2 := by
  have hask : ((upstream (fwdName name) t).lift).run handle l s =
    (l.upstream l.asked (fwdName name) t,
      (handle (.net (.upstream (fwdName name) t)) l s).2) := rfl
  rw [Prog.run_bind, hask]
  rcases l.upstream l.asked (fwdName name) t with e | (_ | ⟨x, records⟩)
  · rfl
  · rfl
  · dsimp only
    rw [Prog.run_bind, run_storeAnswer]
    rfl

/-- **One round of `lookup_any`**: a cached answer with records ends it, then an upstream answer
with records, which is stored; otherwise the next type has its round. -/
theorem run_anyLoop_cons (hk : Hickory) (name : LowerName) (t : RecordType)
    (rest : List RecordType) (l : Local) (s : Shared) :
    (anyLoop hk name (t :: rest)).run handle l s =
      let key : CacheKey := ⟨hk.toUtf8 name.name, t.toU16, none⟩
      let s₁ := (handle (.lookup key) l s).2.2
      let r := handle (.net (.upstream (fwdName name) t)) l s₁
      match s.answersAt hk key, l.upstream l.asked (fwdName name) t with
      | some (x :: records), _ => (.ok (x :: records), l, s₁)
      | _, .ok (x :: records) =>
        (.ok (x :: records), r.2.1, r.2.2.store l.request hk key (x :: records))
      | _, _ => (anyLoop hk name rest).run handle r.2.1 r.2.2 := by
  have hlocal : (handle (.lookup ⟨hk.toUtf8 name.name, t.toU16, none⟩) l s).2.1 = l := by
    cases hres : s.cache.entryAt ⟨hk.toUtf8 name.name, t.toU16, none⟩ with
    | none => rw [handle_lookup_none hres]
    | some e => rw [handle_lookup_some hres]
  rw [anyLoop]
  dsimp only
  rw [Prog.run_bind, Prog.run_perform, cachedAnswers_lookup, hlocal]
  rcases s.answersAt hk ⟨hk.toUtf8 name.name, t.toU16, none⟩ with _ | (_ | ⟨x, records⟩)
  · refine (run_anyLoop_asked hk name t rest l _).trans ?_
    rcases l.upstream l.asked (fwdName name) t with e | (_ | ⟨x, records⟩) <;> rfl
  · refine (run_anyLoop_asked hk name t rest l _).trans ?_
    rcases l.upstream l.asked (fwdName name) t with e | (_ | ⟨x, records⟩) <;> rfl
  · rfl

end Heimdallr.Resolver
