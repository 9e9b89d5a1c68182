import Heimdallr.Resolver.System

/-!
# Where the answers come from

An answer is made of the replies its own task got, or it was stored under the key of the question by
a task that got it. Here for one process, in which `Held key bytes` says what the cache may hold;
`Net.Lives` puts processes one after the other.

* `CacheForwardAuthority.stores`, `CacheForwardAuthority.ownAnswer`: what a task stores and answers
  when the cache has nothing for it, from its replies alone. They are functions of the request and
  the replies, so they do not depend on the interleaving.
* `ensures_queryTask_traced`, `ensures_prefetchTask_traced`: what a task keeps and ends with, whatever
  the others do.
* `traced_act`: one act.

The task of a query may find an entry that another query stored while it was running; the entry then
is another task's, and is under the same key.
-/

namespace Heimdallr.Resolver

open Lib CacheForwardAuthority

/-! ## What a task gets by itself -/

/-- The first reply with records, in the order of the types, with its type; `i` questions were asked
before. -/
def firstReply (u : Upstream) (fwd : Name) : List RecordType → Nat →
    Option (RecordType × List Record)
  | [], _ => none
  | t :: rest, i =>
    match u i fwd t with
    | .ok (r :: records) => some (t, r :: records)
    | _ => firstReply u fwd rest (i + 1)

namespace CacheForwardAuthority

variable (self : CacheForwardAuthority) (hk : Hickory)

/-- What a task may store, by its replies: the gathered records of a query, the first reply with
records of an ANY query, the reply of a prefetch. -/
def stores : Request → Upstream → List (CacheKey × List Record)
  | .query name rtype, u =>
    if rtype = .ANY then
      ((firstReply u (fwdName name) [.A, .AAAA] 0).map fun x => (keyOf hk name x.1, x.2)).toList
    else
      match self.assembled (fwdName name) rtype ⟨.query name rtype, u, 0⟩ with
      | .ok a => [(keyOf hk name rtype, a.records)]
      | .error _ => []
  | .prefetch name rtype, u =>
    match u 0 (fwdName name) rtype with
    | .ok records => [(keyOf hk name rtype, records)]
    | .error _ => []

variable {self hk} {name : LowerName} {rtype : RecordType} {u : Upstream}

theorem mem_stores_query (hany : rtype ≠ .ANY) {a : Assembled}
    (h : self.assembled (fwdName name) rtype ⟨.query name rtype, u, 0⟩ = .ok a) :
    (keyOf hk name rtype, a.records) ∈ self.stores hk (.query name rtype) u := by
  simp [stores, hany, h]

theorem mem_stores_any {x : RecordType × List Record}
    (h : firstReply u (fwdName name) [.A, .AAAA] 0 = some x) :
    (keyOf hk name x.1, x.2) ∈ self.stores hk (.query name .ANY) u := by
  simp [stores, h]

theorem mem_stores_prefetch {records : List Record} (h : u 0 (fwdName name) rtype = .ok records) :
    (keyOf hk name rtype, records) ∈ self.stores hk (.prefetch name rtype) u := by
  simp [stores, h]

/-- What is stored, was gathered by a query, or is a reply to a question of the key. -/
theorem of_mem_stores {request : Request} {key : CacheKey} {records : List Record}
    (h : (key, records) ∈ self.stores hk request u) :
    ∃ name rtype, key = keyOf hk name rtype ∧
      ((rtype ≠ .ANY ∧ ∃ a, request = .query name rtype ∧
          self.assembled (fwdName name) rtype ⟨.query name rtype, u, 0⟩ = .ok a ∧
          records = a.records) ∨
        (∃ types x, firstReply u (fwdName name) types 0 = some x ∧ x = (rtype, records)) ∨
        u 0 (fwdName name) rtype = .ok records) := by
  unfold stores at h
  split at h
  · rename_i name rtype
    split at h
    · obtain ⟨x, hx, heq⟩ := Option.map_eq_some_iff.mp (Option.mem_toList.mp h)
      obtain ⟨rfl, rfl⟩ := Prod.mk.inj heq
      exact ⟨name, x.1, rfl, Or.inr (Or.inl ⟨_, x, hx, rfl⟩)⟩
    · rename_i hany
      split at h
      · rename_i a ha
        obtain ⟨rfl, rfl⟩ := Prod.mk.inj (List.mem_singleton.mp h)
        exact ⟨name, rtype, rfl, Or.inl ⟨hany, a, rfl, ha, rfl⟩⟩
      · exact absurd h List.not_mem_nil
  · rename_i name rtype
    split at h
    · rename_i records' hr
      obtain ⟨rfl, rfl⟩ := Prod.mk.inj (List.mem_singleton.mp h)
      exact ⟨name, rtype, rfl, Or.inr (Or.inr hr)⟩
    · exact absurd h List.not_mem_nil

variable (self hk)

/-- What the miss path returns, from the task it begins with. -/
def missAnswer (name : LowerName) (rtype : RecordType) (l : Local) : Answer :=
  (self.assembled (fwdName name) rtype l).map fun a =>
    answerOf hk a (l.after (self.assemble (fwdName name) rtype))

/-- What an ANY query returns for the first reply with records. -/
def anyAnswer : Option (RecordType × List Record) → Answer
  | some x => .ok x.2
  | none => .error (.Io "RFC 8482: no address records for ANY query")

/-- The answer of a query that finds nothing in the cache. -/
def ownAnswer (name : LowerName) (rtype : RecordType) (u : Upstream) : Answer :=
  if rtype = .ANY then anyAnswer (firstReply u (fwdName name) [.A, .AAAA] 0)
  else self.missAnswer hk name rtype ⟨.query name rtype, u, 0⟩

end CacheForwardAuthority

/-- The keys a query looks up. -/
def keysOf (hk : Hickory) (name : LowerName) (rtype : RecordType) : List CacheKey :=
  if rtype = .ANY then [keyOf hk name .A, keyOf hk name .AAAA] else [keyOf hk name rtype]

/-! ## The invariant -/

section Held

variable (Held : CacheKey → Bytes → Prop) (hk : Hickory)

/-- The cache holds what it may. -/
def HoldsOnly (s : Shared) : Prop :=
  ∀ key e, s.cache.entryAt key = some e → Held key e.responseBytes

/-- The records may be stored under the key. -/
def MayHold (key : CacheKey) (records : List Record) : Prop :=
  ∀ bytes, hk.toVec (cacheMessage records) = some bytes → Held key bytes

/-- The answer of a cached entry of one of the keys. -/
def CachedAnswer (keys : List CacheKey) (answer : Answer) : Prop :=
  ∃ key ∈ keys, ∃ bytes msg, Held key bytes ∧ hk.fromVec bytes = some msg ∧
    answer = .ok msg.answers

/-- The task `l₀` has ended as `l`, with its own answer or one from the cache. -/
def EndsWith (l₀ : Local) (own : Answer) (keys : List CacheKey) (answer : Answer) (l : Local) :
    Prop :=
  (l.request = l₀.request ∧ l.upstream = l₀.upstream) ∧
    (answer = own ∨ CachedAnswer Held hk keys answer)

/-- What a task of a query may end with. -/
def Explained (self : CacheForwardAuthority) (o : Outcome) (l : Local) : Prop :=
  ∀ answer name rtype, o = some answer → l.request = .query name rtype →
    answer = self.ownAnswer hk name rtype l.upstream ∨
      CachedAnswer Held hk (keysOf hk name rtype) answer

end Held

/-! ## Operations -/

section Operations

variable {Held : CacheKey → Bytes → Prop} {hk : Hickory}

theorem traced_of_cache {s s' : Shared} (h : s'.cache = s.cache) (hs : HoldsOnly Held s) :
    HoldsOnly Held s' := by
  unfold HoldsOnly
  rw [h]
  exact hs

theorem traced_lookup {s s' : Shared} {m : Metrics} {key : CacheKey}
    (h : s'.cache = (s.cache.lookupWithMetrics m key s.now).2.1) (hs : HoldsOnly Held s) :
    HoldsOnly Held s' := by
  intro k e he
  rw [h, LiveCache.entryAt_lookupWithMetrics] at he
  obtain ⟨e', he', rfl⟩ := Option.map_eq_some_iff.mp he
  have hheld := hs k e' he'
  split <;> exact hheld

/-- What a lookup finds, the cache may hold. -/
theorem ensures_found (key : CacheKey) (l : Local) :
    (Prog.perform (Op.lookup key) : Task (Option (Hit × Bool))).Ensures handle (HoldsOnly Held)
      (fun found l' => l' = l ∧ ∀ hit due, found = some (hit, due) → Held key hit.bytes) l := by
  intro s hs
  cases hres : s.cache.entryAt key with
  | none =>
    rw [handle_lookup_none hres]
    exact ⟨traced_lookup rfl hs, rfl, by simp⟩
  | some e =>
    rw [handle_lookup_some hres]
    refine ⟨traced_lookup rfl hs, rfl, ?_⟩
    intro hit due hfound
    obtain ⟨rfl, -⟩ := Prod.mk.inj (Option.some.inj hfound)
    exact hs key e hres

/-- Storing what the cache may hold. -/
theorem ensures_stored {key : CacheKey} {records : List Record} {Q : Unit → Local → Prop} {l : Local}
    (hmay : MayHold Held hk key records) (hQ : Q () l) :
    (storeAnswer hk key records).Ensures handle (HoldsOnly Held) Q l := by
  unfold storeAnswer
  cases henc : hk.toVec (cacheMessage records) with
  | none => exact hQ
  | some bytes =>
    intro s hs
    refine ⟨fun k e he => ?_, hQ⟩
    by_cases hkey : k = key
    · subst hkey
      have hnew : (s.cache.insert k bytes (minTtl records) s.now).entryAt k = some e := he
      rw [LiveCache.entryAt_insert] at hnew
      obtain rfl := Option.some.inj hnew
      exact hmay bytes henc
    · exact hs k e (LiveCache.entryAt_of_insert hkey he)

theorem ensures_lifted {α : Type} {Q : α → Local → Prop} {p : Net α} {l : Local}
    (hQ : Q (p.eval netAnswer l).1 (l.after p)) : p.lift.Ensures handle (HoldsOnly Held) Q l :=
  ensures_lift (fun _ _ hmove hs => traced_of_cache hmove.cache_eq hs) hQ

end Operations

/-! ## Tasks -/

section Tasks

variable {Held : CacheKey → Bytes → Prop} {hk : Hickory} {self : CacheForwardAuthority}

theorem CachedAnswer.mono {keys keys' : List CacheKey} {answer : Answer}
    (h : CachedAnswer Held hk keys answer) (hsub : ∀ k ∈ keys, k ∈ keys') :
    CachedAnswer Held hk keys' answer := by
  obtain ⟨key, hkey, hfound⟩ := h
  exact ⟨key, hsub key hkey, hfound⟩

/-- A task that went on from `l₁`, which `l₀` became, with more keys to look up. -/
theorem EndsWith.mono {l₀ l₁ l : Local} {own answer : Answer} {keys keys' : List CacheKey}
    (h : EndsWith Held hk l₁ own keys answer l) (hreq : l₁.request = l₀.request)
    (hup : l₁.upstream = l₀.upstream) (hsub : ∀ k ∈ keys, k ∈ keys') :
    EndsWith Held hk l₀ own keys' answer l := by
  obtain ⟨⟨hreq', hup'⟩, hans⟩ := h
  exact ⟨⟨hreq'.trans hreq, hup'.trans hup⟩, hans.imp_right fun hc => hc.mono hsub⟩

theorem ensures_missPath_own {name : LowerName} {rtype : RecordType} {l : Local}
    (hmay : ∀ a, self.assembled (fwdName name) rtype l = .ok a →
      MayHold Held hk (keyOf hk name rtype) a.records) (keys : List CacheKey) :
    (self.missPath hk (keyOf hk name rtype) name rtype).Ensures handle (HoldsOnly Held)
      (EndsWith Held hk l (self.missAnswer hk name rtype l) keys) l := by
  unfold missPath missAnswer
  apply Prog.ensures_bind
  refine ensures_lifted ?_
  rw [eval_assemble]
  cases hasm : self.assembled (fwdName name) rtype l with
  | error e => exact ⟨⟨Local.after_request _ _, Local.after_upstream _ _⟩, Or.inl rfl⟩
  | ok a =>
    apply Prog.ensures_bind
    refine ensures_stored (hmay a hasm) ?_
    apply Prog.ensures_bind
    refine ensures_lifted ?_
    rw [eval_flatten]
    refine ⟨⟨?_, ?_⟩, Or.inl rfl⟩
    · rw [Local.after_request, Local.after_request]
    · rw [Local.after_upstream, Local.after_upstream]

/-- A query of a type other than ANY. -/
theorem ensures_lookup_traced {name : LowerName} {rtype : RecordType} (hany : rtype ≠ .ANY)
    {info : Option RequestInfo} {l : Local}
    (hmay : ∀ a, self.assembled (fwdName name) rtype l = .ok a →
      MayHold Held hk (keyOf hk name rtype) a.records) :
    (self.lookup hk name rtype info).Ensures handle (HoldsOnly Held)
      (EndsWith Held hk l (self.missAnswer hk name rtype l) [keyOf hk name rtype]) l := by
  have hmiss := ensures_missPath_own hmay [keyOf hk name rtype]
  unfold lookup
  rw [if_neg hany]
  dsimp only
  rw [cacheKey_eq_keyOf]
  apply Prog.ensures_bind
  refine Prog.ensures_mono ?_ (ensures_found (keyOf hk name rtype) l)
  rintro found l' ⟨rfl, hfound⟩
  cases found with
  | none => exact hmiss
  | some f =>
    obtain ⟨hit, due⟩ := f
    have hheld := hfound hit due rfl
    have hserve : ∀ serve : Task Answer,
        serve.Ensures handle (HoldsOnly Held)
          (EndsWith Held hk l' (self.missAnswer hk name rtype l') [keyOf hk name rtype]) l' →
        (do
          if due then
            Prog.perform (Op.spawnPrefetch name rtype)
          serve : Task Answer).Ensures handle (HoldsOnly Held)
            (EndsWith Held hk l' (self.missAnswer hk name rtype l') [keyOf hk name rtype]) l' := by
      intro serve hends
      cases due with
      | false => exact hends
      | true => exact fun s hs => ⟨traced_of_cache rfl hs, hends⟩
    refine hserve _ ?_
    cases hdec : hk.fromVec hit.bytes with
    | none => exact hmiss
    | some msg =>
      exact ⟨⟨rfl, rfl⟩, Or.inr ⟨_, List.mem_singleton_self _, _, msg, hheld, hdec, rfl⟩⟩

/-- The types of an ANY query that are left. -/
theorem ensures_anyLoop_traced {name : LowerName} {types : List RecordType} {l : Local}
    (hmay : ∀ x, firstReply l.upstream (fwdName name) types l.asked = some x →
      MayHold Held hk (keyOf hk name x.1) x.2) :
    (anyLoop hk name types).Ensures handle (HoldsOnly Held)
      (EndsWith Held hk l (anyAnswer (firstReply l.upstream (fwdName name) types l.asked))
        (types.map (keyOf hk name))) l := by
  induction types generalizing l with
  | nil => exact ⟨⟨rfl, rfl⟩, Or.inl rfl⟩
  | cons t rest ih =>
    have hround : (do
        match ← (upstream (fwdName name) t).lift with
        | .ok (x :: records) => do
          storeAnswer hk (keyOf hk name t) (x :: records)
          return .ok (x :: records)
        | _ => anyLoop hk name rest : Task Answer).Ensures handle (HoldsOnly Held)
          (EndsWith Held hk l (anyAnswer (firstReply l.upstream (fwdName name) (t :: rest) l.asked))
            ((t :: rest).map (keyOf hk name))) l := by
      apply Prog.ensures_bind
      refine ensures_lifted ?_
      have hreply : ((upstream (fwdName name) t).eval netAnswer l).1 =
          l.upstream l.asked (fwdName name) t := rfl
      have hafter : l.after (upstream (fwdName name) t) = { l with asked := l.asked + 1 } := rfl
      rw [hreply, hafter]
      unfold firstReply at hmay ⊢
      -- the next type begins where this one has asked its question
      have hnext : (∀ x, firstReply l.upstream (fwdName name) rest (l.asked + 1) = some x →
          MayHold Held hk (keyOf hk name x.1) x.2) →
          (anyLoop hk name rest).Ensures handle (HoldsOnly Held)
            (EndsWith Held hk l
              (anyAnswer (firstReply l.upstream (fwdName name) rest (l.asked + 1)))
              ((t :: rest).map (keyOf hk name))) { l with asked := l.asked + 1 } := fun h =>
        Prog.ensures_mono (fun _ _ hends => hends.mono rfl rfl fun _ => List.mem_cons_of_mem _)
          (ih (l := { l with asked := l.asked + 1 }) h)
      rcases hr : l.upstream l.asked (fwdName name) t with e | (_ | ⟨x, records⟩)
      · rw [hr] at hmay
        exact hnext hmay
      · rw [hr] at hmay
        exact hnext hmay
      · rw [hr] at hmay
        apply Prog.ensures_bind
        exact ensures_stored (hmay _ rfl) ⟨⟨rfl, rfl⟩, Or.inl rfl⟩
    rw [anyLoop]
    apply Prog.ensures_bind
    refine Prog.ensures_mono ?_ (ensures_found (keyOf hk name t) l)
    rintro found l' ⟨rfl, hfound⟩
    -- only a cached answer with records ends the round
    rcases hcached : cachedAnswers hk found with _ | (_ | ⟨x, records⟩)
    · exact hround
    · exact hround
    · obtain ⟨f, rfl, hdec⟩ := Option.bind_eq_some_iff.mp hcached
      obtain ⟨msg, hmsg, hanswers⟩ := Option.map_eq_some_iff.mp hdec
      exact ⟨⟨rfl, rfl⟩, Or.inr ⟨_, List.mem_cons_self, _, msg, hfound f.1 f.2 rfl, hmsg,
        congrArg Except.ok hanswers.symm⟩⟩

/-- The task may store what it stores. -/
def MayStore (Held : CacheKey → Bytes → Prop) (hk : Hickory) (self : CacheForwardAuthority)
    (request : Request) (u : Upstream) : Prop :=
  ∀ x ∈ self.stores hk request u, MayHold Held hk x.1 x.2

/-- **A query** ends with its own answer or with one from the cache. -/
theorem ensures_queryTask_traced {name : LowerName} {rtype : RecordType}
    {info : Option RequestInfo} {u : Upstream}
    (hmay : MayStore Held hk self (.query name rtype) u) :
    (queryTask self hk name rtype info u).2.Ensures handle (HoldsOnly Held)
      (Explained Held hk self) (queryTask self hk name rtype info u).1 := by
  have hlookup : (self.lookup hk name rtype info).Ensures handle (HoldsOnly Held)
      (EndsWith Held hk ⟨.query name rtype, u, 0⟩ (self.ownAnswer hk name rtype u)
        (keysOf hk name rtype)) ⟨.query name rtype, u, 0⟩ := by
    unfold ownAnswer keysOf
    by_cases hany : rtype = .ANY
    · subst hany
      exact ensures_anyLoop_traced fun x hx => hmay _ (mem_stores_any hx)
    · rw [if_neg hany, if_neg hany]
      exact ensures_lookup_traced hany fun a ha => hmay _ (mem_stores_query hany ha)
  apply Prog.ensures_bind
  refine Prog.ensures_mono ?_ hlookup
  rintro answer l ⟨⟨hreq, hup⟩, hans⟩ answer' name' rtype' heq hreq'
  obtain rfl := Option.some.inj heq
  obtain ⟨rfl, rfl⟩ := Request.query.inj (hreq.symm.trans hreq')
  rw [hup]
  exact hans

/-- **A prefetch** stores what it may. -/
theorem ensures_prefetchTask_traced {name : LowerName} {rtype : RecordType} {u : Upstream}
    (hmay : MayStore Held hk self (.prefetch name rtype) u) :
    (prefetchTask hk name rtype u).2.Ensures handle (HoldsOnly Held)
      (Explained Held hk self) (prefetchTask hk name rtype u).1 := by
  have hdone : ∀ l, Explained Held hk self none l := by
    intro l answer name' rtype' h
    exact absurd h (by simp)
  apply Prog.ensures_bind
  unfold prefetch
  apply Prog.ensures_bind
  refine ensures_lifted ?_
  have hreply : ((upstream (fwdName name) rtype).eval netAnswer
      (prefetchTask hk name rtype u).1).1 = u 0 (fwdName name) rtype := rfl
  rw [hreply]
  cases hr : u 0 (fwdName name) rtype with
  | error e => exact hdone _
  | ok records => exact ensures_stored (hmay _ (mem_stores_prefetch hr)) (hdone _)

end Tasks

/-! ## One act -/

section Acts

variable {Held : CacheKey → Bytes → Prop} {hk : Hickory} {self : CacheForwardAuthority}

/-- What the tasks were started for, and with which replies. -/
def System.started (P : System) : List (Request × Upstream) :=
  P.tasks.map fun t => (t.1.request, t.1.upstream)

/-- An operation keeps what its task is. -/
theorem handle_same (o : Op) (l : Local) (s : Shared) :
    (handle o l s).2.1.request = l.request ∧ (handle o l s).2.1.upstream = l.upstream := by
  cases o with
  | net o => cases o <;> exact ⟨rfl, rfl⟩
  | lookup key =>
    cases hres : s.cache.entryAt key with
    | none =>
      rw [handle_lookup_none hres]
      exact ⟨rfl, rfl⟩
    | some e =>
      rw [handle_lookup_some hres]
      exact ⟨rfl, rfl⟩
  | insert key bytes ttl => exact ⟨rfl, rfl⟩
  | spawnPrefetch name rtype => exact ⟨rfl, rfl⟩

/-- A changed element that looks the same. -/
theorem map_set_same {α β : Type} {f : α → β} {xs : List α} {i : Nat} {x y : α}
    (h : xs[i]? = some x) (hf : f y = f x) : (xs.set i y).map f = xs.map f := by
  obtain ⟨hi, rfl⟩ := List.getElem?_eq_some_iff.mp h
  have hi' : i < (xs.map f).length := by simpa using hi
  rw [List.map_set, hf, ← List.getElem_map f (h := hi'), List.set_getElem_self]

/-- The task an act starts, if any. -/
def Act.starts (P : System) : Act → List (Request × Upstream)
  | .query name rtype _ u => [(.query name rtype, u)]
  | .prefetch j u => (P.shared.pending[j]?.map fun x => (Request.prefetch x.1 x.2, u)).toList
  | _ => []

/-- No task is forgotten, and only a query and the beginning of a prefetch add one. -/
theorem started_act {a : Act} {P P' : System} (h : act self hk a P = some P') :
    P'.started = P.started ++ a.starts P := by
  cases a with
  | query name rtype info u =>
    obtain rfl := Option.some.inj h
    exact List.map_append
  | prefetch j u =>
    obtain ⟨name, rtype, hj, rfl⟩ := act_prefetch h
    have hstarts : Act.starts P (.prefetch j u) = [(.prefetch name rtype, u)] := by
      simp [Act.starts, hj]
    rw [hstarts]
    exact List.map_append
  | task i =>
    obtain ⟨l, o, k, ht, rfl⟩ := Pool.step_eq h
    obtain ⟨hreq, hup⟩ := handle_same o l P.shared
    exact (map_set_same ht (Prod.ext hreq hup)).trans (List.append_nil _).symm
  | tick d =>
    obtain rfl := Option.some.inj h
    exact (List.append_nil _).symm
  | insert key bytes ttl =>
    obtain rfl := Option.some.inj h
    exact (List.append_nil _).symm

theorem mem_started_start (t : Local × Task Outcome) (P : System) :
    (t.1.request, t.1.upstream) ∈ System.started (Pool.start t P) := by
  unfold System.started Pool.start
  simp

/-- **One act**, when every task so far may store what it stores. -/
theorem traced_act {a : Act} {P P' : System}
    (hP : P.Good handle (HoldsOnly Held) (Explained Held hk self))
    (hmay : ∀ x ∈ P'.started, MayStore Held hk self x.1 x.2)
    (hinside : ∀ key bytes ttl, a ≠ .insert key bytes ttl) (h : act self hk a P = some P') :
    P'.Good handle (HoldsOnly Held) (Explained Held hk self) := by
  cases a with
  | query name rtype info u =>
    obtain rfl := Option.some.inj h
    exact Pool.good_start hP (ensures_queryTask_traced (hmay _ (mem_started_start _ P)))
  | prefetch j u =>
    obtain ⟨name, rtype, -, rfl⟩ := act_prefetch h
    exact Pool.good_start (Pool.good_env hP (traced_of_cache rfl hP.1))
      (ensures_prefetchTask_traced (hmay _ (mem_started_start _ _)))
  | task i => exact Pool.good_step hP h
  | tick d =>
    obtain rfl := Option.some.inj h
    exact Pool.good_env hP (traced_of_cache rfl hP.1)
  | insert key bytes ttl => exact absurd rfl (hinside key bytes ttl)

end Acts

end Heimdallr.Resolver
