import Heimdallr.Resolver.System

/-!
# What the answers of a run can contain

Whatever order queries, prefetches and their operations come in, an answer comes from the replies
its task got or from an entry another task stored. Everything here is for a property `G` of record
lists; `Resolver.Protections` has the two instances.

* `Clean`: every entry in the cache reads back as a list `G` allows. This is the invariant of the
  shared state, and it is all a task may rely on when it is not acting (`Ensures`).
* `ensures_lookup_query`, `ensures_anyLoop`, `ensures_prefetch`: what one task keeps and ends with
  among the others, when the replies it gets are allowed.
* `good_act`, `run_good`: one act, and every run.

`G` may speak of the records but not of where the list came from, so it has to allow what is stored
as well as what is returned: what is appended to an answer after it was stored counts too.
-/

namespace Heimdallr.Resolver

open Lib CacheForwardAuthority

/-- The error of the miss path when the chain is too long. -/
def truncatedError : LookupError := .Io "CNAME chain truncated (limit exceeded)"

/-! ## The invariant and the postcondition -/

section Invariant

variable (hk : Hickory) (G : List Record → Prop) (W : Request → CacheKey → Prop)
  (V : Request → Prop)

/-- Every entry that decodes is a list `G` allows, and every write was one `W` allows. -/
structure Clean (s : Shared) : Prop where
  entries : ∀ key e msg, s.cache.entryAt key = some e → hk.fromVec e.responseBytes = some msg →
    G msg.answers
  writes : ∀ x ∈ s.log, ∀ key bytes ttl, x.2 = .insert key bytes ttl → W x.1 key

/-- An answer is a list `G` allows, and a refusal comes to a request of `V`. -/
def AnswerOk (answer : Answer) (l : Local) : Prop :=
  (∀ records, answer = .ok records → G records) ∧ (answer = .error truncatedError → V l.request)

/-- The same of what a task ends with. -/
def OutcomeOk (o : Outcome) (l : Local) : Prop := ∀ answer, o = some answer → AnswerOk G V answer l

end Invariant

/-! ## Operations -/

section Operations

variable {hk : Hickory} {G : List Record → Prop} {W : Request → CacheKey → Prop}
  {V : Request → Prop}

theorem clean_netMove {s s' : Shared} (h : s.NetMove s') (hs : Clean hk G W s) :
    Clean hk G W s' := by
  refine ⟨?_, ?_⟩
  · rw [h.cache_eq]
    exact hs.entries
  · obtain ⟨es, hlog, hes⟩ := h.log_grows
    rw [hlog, List.forall_mem_append]
    refine ⟨hs.writes, ?_⟩
    intro x hx key bytes ttl hins
    obtain ⟨name, rtype, reply, hup⟩ := hes x hx
    rw [hup] at hins
    exact absurd hins (by simp)

/-- A log entry that writes nothing. -/
theorem clean_log {s : Shared} (hs : Clean hk G W s) {cache : LiveCache} {now : Instant}
    {metrics : Metrics} {pending : List (LowerName × RecordType)} {x : Request × Event}
    (hcache : ∀ key e, cache.entryAt key = some e → ∃ e', s.cache.entryAt key = some e' ∧
      e'.responseBytes = e.responseBytes)
    (hx : ∀ key bytes ttl, x.2 ≠ .insert key bytes ttl) :
    Clean hk G W ⟨cache, now, metrics, pending, s.log ++ [x]⟩ := by
  refine ⟨?_, ?_⟩
  · intro key e msg he hdec
    obtain ⟨e', he', hbytes⟩ := hcache key e he
    rw [← hbytes] at hdec
    exact hs.entries key e' msg he' hdec
  · rw [List.forall_mem_append, List.forall_mem_singleton]
    exact ⟨hs.writes, fun key bytes ttl hins => absurd hins (hx key bytes ttl)⟩

/-- A lookup only counts. -/
theorem entryAt_of_lookup {c : LiveCache} {m : Metrics} {key : CacheKey} {now : Instant}
    {k : CacheKey} {e : CacheEntry}
    (he : (c.lookupWithMetrics m key now).2.1.entryAt k = some e) :
    ∃ e', c.entryAt k = some e' ∧ e'.responseBytes = e.responseBytes := by
  rw [LiveCache.entryAt_lookupWithMetrics] at he
  obtain ⟨e', he', rfl⟩ := Option.map_eq_some_iff.mp he
  refine ⟨e', he', ?_⟩
  split <;> rfl

/-- What a lookup returns decodes to an allowed list. -/
theorem ensures_lookup (key : CacheKey) (l : Local) :
    (Prog.perform (Op.lookup key) : Task (Option (Hit × Bool))).Ensures handle (Clean hk G W)
      (fun found l' => l' = l ∧ ∀ hit due msg, found = some (hit, due) →
        hk.fromVec hit.bytes = some msg → G msg.answers) l := by
  intro s hs
  cases hres : s.cache.entryAt key with
  | none =>
    rw [handle_lookup_none hres]
    exact ⟨clean_log hs (fun _ _ => entryAt_of_lookup) (by simp), rfl, by simp⟩
  | some e =>
    rw [handle_lookup_some hres]
    refine ⟨clean_log hs (fun _ _ => entryAt_of_lookup) (by simp), rfl, ?_⟩
    intro hit due msg hfound hdec
    obtain ⟨rfl, rfl⟩ := Prod.mk.inj (Option.some.inj hfound)
    exact hs.entries key e msg hres hdec

/-- Storing an allowed list, where the task may write. -/
theorem ensures_storeAnswer (hrt : hk.RoundTrips)
    (hwire : ∀ records, G records → G (records.map Record.qualified)) {key : CacheKey}
    {records : List Record} {Q : Unit → Local → Prop} {l : Local} (hG : G records)
    (hW : W l.request key) (hQ : Q () l) :
    (storeAnswer hk key records).Ensures handle (Clean hk G W) Q l := by
  unfold storeAnswer
  cases henc : hk.toVec (cacheMessage records) with
  | none => exact hQ
  | some bytes =>
    intro s hs
    refine ⟨⟨?_, ?_⟩, hQ⟩
    · intro k e msg he hdec
      by_cases hkey : k = key
      · subst hkey
        have hnew : (s.cache.insert k bytes (minTtl records) s.now).entryAt k = some e := he
        rw [LiveCache.entryAt_insert] at hnew
        obtain rfl := Option.some.inj hnew
        rw [hrt _ _ henc] at hdec
        obtain rfl := Option.some.inj hdec
        exact hwire records hG
      · exact hs.entries k e msg (LiveCache.entryAt_of_insert hkey he) hdec
    · show ∀ x ∈ s.log ++ [_], _
      rw [List.forall_mem_append, List.forall_mem_singleton]
      refine ⟨hs.writes, ?_⟩
      intro k b ttl hins
      obtain ⟨rfl, -, -⟩ := Event.insert.inj hins
      exact hW

theorem ensures_spawn {name : LowerName} {rtype : RecordType} {Q : Unit → Local → Prop} {l : Local}
    (hQ : Q () l) :
    (Prog.perform (Op.spawnPrefetch name rtype) : Task Unit).Ensures handle (Clean hk G W) Q l := by
  intro s hs
  exact ⟨clean_log hs (fun _ e he => ⟨e, he, rfl⟩) (by simp), hQ⟩

end Operations

/-! ## Tasks -/

section Tasks

variable (auth : CacheForwardAuthority) (hk : Hickory) (G : List Record → Prop)
  (W : Request → CacheKey → Prop) (V : Request → Prop)

/-- A query of a type other than ANY: what its miss path would store and return is allowed, it may
write under its key, and if the chain would be refused the request is one of `V`. -/
structure MissOk (name : LowerName) (rtype : RecordType) (l : Local) : Prop where
  stored : ∀ a, auth.assembled (fwdName name) rtype l = .ok a → G a.records
  returned : ∀ a, auth.assembled (fwdName name) rtype l = .ok a →
    G (answerOf hk a (l.after (auth.assemble (fwdName name) rtype)))
  writes : W l.request (keyOf hk name rtype)
  refused : auth.assembled (fwdName name) rtype l = .error truncatedError → V l.request

/-- An ANY query: the first reply with records, in the order of the types, is allowed. -/
def AnyOk (name : LowerName) : List RecordType → Local → Prop
  | [], _ => True
  | t :: rest, l =>
    match l.upstream l.asked (fwdName name) t with
    | .ok (x :: records) => G (x :: records) ∧ W l.request (keyOf hk name t)
    | _ => AnyOk name rest { l with asked := l.asked + 1 }

/-- A prefetch: the reply is allowed. -/
def PrefetchOk (name : LowerName) (rtype : RecordType) (l : Local) : Prop :=
  ∀ records, l.upstream l.asked (fwdName name) rtype = .ok records →
    G records ∧ W l.request (keyOf hk name rtype)

variable {hk G W V} {self : CacheForwardAuthority} (hrt : hk.RoundTrips)
  (hwire : ∀ records, G records → G (records.map Record.qualified))

include hrt hwire

theorem ensures_missPath {name : LowerName} {rtype : RecordType} {l : Local}
    (h : MissOk self hk G W V name rtype l) :
    (self.missPath hk (keyOf hk name rtype) name rtype).Ensures handle (Clean hk G W)
      (AnswerOk G V) l := by
  unfold missPath
  apply Prog.ensures_bind
  refine ensures_lift (fun _ _ => clean_netMove) ?_
  rw [eval_assemble]
  cases hasm : self.assembled (fwdName name) rtype l with
  | error e =>
    refine ⟨fun records hrec => absurd hrec (by simp), ?_⟩
    intro htrunc
    obtain rfl := Except.error.inj htrunc
    rw [Local.after_request]
    exact h.refused hasm
  | ok a =>
    have hreq : (l.after (self.assemble (fwdName name) rtype)).request = l.request :=
      Local.after_request _ _
    apply Prog.ensures_bind
    refine ensures_storeAnswer hrt hwire (h.stored a hasm) (by rw [hreq]; exact h.writes) ?_
    apply Prog.ensures_bind
    refine ensures_lift (fun _ _ => clean_netMove) ?_
    rw [eval_flatten]
    refine ⟨?_, fun htrunc => absurd htrunc (by simp)⟩
    intro records hrec
    obtain rfl := Except.ok.inj hrec
    exact h.returned a hasm

omit hrt hwire in
/-- What a lookup of a query does with the bytes it found. -/
theorem ensures_decoded {key : CacheKey} {name : LowerName} {rtype : RecordType} {l : Local}
    {bytes : Bytes}
    (hmiss : (self.missPath hk key name rtype).Ensures handle (Clean hk G W) (AnswerOk G V) l)
    (hfound : ∀ msg, hk.fromVec bytes = some msg → G msg.answers) :
    (match hk.fromVec bytes with
      | some msg => (return .ok msg.answers : Task Answer)
      | none => self.missPath hk key name rtype).Ensures handle
        (Clean hk G W) (AnswerOk G V) l := by
  cases hdec : hk.fromVec bytes with
  | none => exact hmiss
  | some msg =>
    refine ⟨?_, fun htrunc => absurd htrunc (by simp)⟩
    intro records hrec
    obtain rfl := Except.ok.inj hrec
    exact hfound msg hdec

theorem ensures_lookup_query {name : LowerName} {rtype : RecordType} (hany : rtype ≠ .ANY)
    {info : Option RequestInfo} {l : Local} (h : MissOk self hk G W V name rtype l) :
    (self.lookup hk name rtype info).Ensures handle (Clean hk G W) (AnswerOk G V) l := by
  have hmiss := ensures_missPath hrt hwire h
  unfold lookup
  rw [if_neg hany]
  dsimp only
  rw [cacheKey_eq_keyOf]
  apply Prog.ensures_bind
  refine Prog.ensures_mono ?_ (ensures_lookup (keyOf hk name rtype) l)
  rintro found l' ⟨rfl, hfound⟩
  cases found with
  | none => exact hmiss
  | some f =>
    obtain ⟨hit, due⟩ := f
    have hdecode := ensures_decoded hmiss fun msg => hfound hit due msg rfl
    cases due with
    | false => exact hdecode
    | true => exact Prog.ensures_bind (ensures_spawn hdecode)

theorem ensures_anyLoop {name : LowerName} {types : List RecordType} {l : Local}
    (h : AnyOk hk G W name types l) :
    (anyLoop hk name types).Ensures handle (Clean hk G W) (AnswerOk G V) l := by
  induction types generalizing l with
  | nil => exact ⟨fun records hrec => absurd hrec (by simp), fun htrunc => absurd htrunc (by decide)⟩
  | cons t rest ih =>
    have hok : ∀ {records : List Record} {l' : Local}, G records →
        AnswerOk G V (.ok records) l' := by
      intro records l' hG
      refine ⟨fun records' hrec => ?_, fun htrunc => absurd htrunc (by simp)⟩
      obtain rfl := Except.ok.inj hrec
      exact hG
    have hround : (do
        match ← (upstream (fwdName name) t).lift with
        | .ok (x :: records) => do
          storeAnswer hk (keyOf hk name t) (x :: records)
          return .ok (x :: records)
        | _ => anyLoop hk name rest : Task Answer).Ensures handle (Clean hk G W) (AnswerOk G V) l := by
      apply Prog.ensures_bind
      refine ensures_lift (fun _ _ => clean_netMove) ?_
      have hreply : ((upstream (fwdName name) t).eval netAnswer l).1 =
          l.upstream l.asked (fwdName name) t := rfl
      have hafter : l.after (upstream (fwdName name) t) = { l with asked := l.asked + 1 } := rfl
      rw [hreply, hafter]
      unfold AnyOk at h
      rcases hr : l.upstream l.asked (fwdName name) t with e | (_ | ⟨x, records⟩)
      · rw [hr] at h
        exact ih h
      · rw [hr] at h
        exact ih h
      · rw [hr] at h
        apply Prog.ensures_bind
        exact ensures_storeAnswer hrt hwire h.1 h.2 (hok h.1)
    rw [anyLoop]
    apply Prog.ensures_bind
    refine Prog.ensures_mono ?_ (ensures_lookup _ l)
    rintro found l' ⟨rfl, hfound⟩
    -- only a cached answer with records ends the round
    rcases hcached : cachedAnswers hk found with _ | (_ | ⟨x, records⟩)
    · exact hround
    · exact hround
    · obtain ⟨f, rfl, hdec⟩ := Option.bind_eq_some_iff.mp hcached
      obtain ⟨msg, hmsg, hanswers⟩ := Option.map_eq_some_iff.mp hdec
      have hG := hfound f.1 f.2 msg rfl hmsg
      rw [hanswers] at hG
      exact hok hG

theorem ensures_prefetch {name : LowerName} {rtype : RecordType} {l : Local}
    (h : PrefetchOk hk G W name rtype l) :
    (prefetch hk name rtype).Ensures handle (Clean hk G W) (fun _ _ => True) l := by
  unfold prefetch
  apply Prog.ensures_bind
  refine ensures_lift (fun _ _ => clean_netMove) ?_
  have hreply : ((upstream (fwdName name) rtype).eval netAnswer l).1 =
      l.upstream l.asked (fwdName name) rtype := rfl
  rw [hreply]
  cases hr : l.upstream l.asked (fwdName name) rtype with
  | error e => exact trivial
  | ok records =>
    obtain ⟨hG, hW⟩ := h records hr
    exact ensures_storeAnswer hrt hwire hG hW trivial

end Tasks

/-! ## Runs -/

section Runs

variable (self : CacheForwardAuthority) (hk : Hickory) (G : List Record → Prop)
  (W : Request → CacheKey → Prop) (V : Request → Prop)

/-- The act starts a task whose replies are allowed, or none; nothing is inserted from outside. -/
def TaskOk : Act → System → Prop
  | .query name rtype _ u, _ =>
    let l : Local := ⟨.query name rtype, u, 0⟩
    if rtype = .ANY then AnyOk hk G W name [.A, .AAAA] l else MissOk self hk G W V name rtype l
  | .prefetch j u, P => ∀ name rtype, P.shared.pending[j]? = some (name, rtype) →
    PrefetchOk hk G W name rtype ⟨.prefetch name rtype, u, 0⟩
  | .insert _ _ _, _ => False
  | _, _ => True

variable {self hk G W V} (hrt : hk.RoundTrips)
  (hwire : ∀ records, G records → G (records.map Record.qualified))

include hrt hwire

theorem ensures_queryTask {name : LowerName} {rtype : RecordType} {info : Option RequestInfo}
    {u : Upstream} {P : System} (h : TaskOk self hk G W V (.query name rtype info u) P) :
    (queryTask self hk name rtype info u).2.Ensures handle (Clean hk G W) (OutcomeOk G V)
      (queryTask self hk name rtype info u).1 := by
  have hlookup : (self.lookup hk name rtype info).Ensures handle (Clean hk G W) (AnswerOk G V)
      ⟨.query name rtype, u, 0⟩ := by
    by_cases hany : rtype = .ANY
    · simp only [TaskOk, if_pos hany] at h
      unfold lookup
      rw [if_pos hany]
      exact ensures_anyLoop hrt hwire h
    · simp only [TaskOk, if_neg hany] at h
      exact ensures_lookup_query hrt hwire hany h
  apply Prog.ensures_bind
  refine Prog.ensures_mono ?_ hlookup
  intro answer l hans answer' heq
  obtain rfl := Option.some.inj heq
  exact hans

/-- One act keeps the invariant and every task's postcondition. -/
theorem good_act (a : Act) (P P' : System) (hP : P.Good handle (Clean hk G W) (OutcomeOk G V))
    (hok : TaskOk self hk G W V a P) (h : act self hk a P = some P') :
    P'.Good handle (Clean hk G W) (OutcomeOk G V) := by
  cases a with
  | query name rtype info u =>
    obtain rfl := Option.some.inj h
    exact Pool.good_start hP (ensures_queryTask hrt hwire hok)
  | prefetch j u =>
    obtain ⟨name, rtype, hj, rfl⟩ := act_prefetch h
    have henv : Clean hk G W { P.shared with pending := P.shared.pending.eraseIdx j } :=
      ⟨hP.1.entries, hP.1.writes⟩
    refine Pool.good_start (Pool.good_env hP henv) ?_
    apply Prog.ensures_bind
    refine Prog.ensures_mono ?_ (ensures_prefetch hrt hwire (hok name rtype hj))
    intro _ _ _ answer heq
    exact absurd heq (by simp)
  | task i => exact Pool.good_step hP h
  | tick d =>
    obtain rfl := Option.some.inj h
    exact Pool.good_env hP ⟨hP.1.entries, hP.1.writes⟩
  | insert key bytes ttl => exact absurd hok id

/-- **Every run** from the empty cache whose tasks get allowed replies. -/
theorem run_good {c : CacheSection} {hsize : 1 ≤ c.size} {acts : List Act} {P : System}
    (hrun : runAll (act self hk) acts (System.initial c hsize) = some P)
    (hok : Along (act self hk) (TaskOk self hk G W V) acts (System.initial c hsize)) :
    P.Good handle (Clean hk G W) (OutcomeOk G V) := by
  have hstart : (System.initial c hsize).Good handle (Clean hk G W) (OutcomeOk G V) := by
    refine ⟨⟨?_, by simp [System.initial, Shared.initial]⟩, by simp [System.initial]⟩
    intro key e msg he
    have hnone : (System.initial c hsize).shared.cache.entryAt key = none := rfl
    rw [hnone] at he
    exact absurd he (by simp)
  exact runAll_invariant (good_act hrt hwire) hstart hok hrun

end Runs

end Heimdallr.Resolver
