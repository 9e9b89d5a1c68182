import Heimdallr.Resolver.Paths

/-!
# The writers of the cache

Three pieces of code resolve a name, build a message, compute a TTL and store it: the miss path of
`lookup`, the prefetch a hit spawns, and `lookup_any`. They write under the same keys. The miss path
rewrites the answer before it stores it; the other two store what upstream has sent.

* The writings are read off the log (`Shared.inserts`): the key and the bytes, in order.
* `WritersAgree` asks that a prefetch or an ANY query writes nothing that a miss would not write,
  for one upstream that answers by a function, and for any two states of the system they start in.
* `WritersAgreeWhen` is on the replies to the questions that can be asked for the name: those for
  its suffixes, where minimization is on, that for the name, and the chained one of DNS64.

Results:
* `run_lookup_inserts`, `run_prefetch_inserts`, `run_anyLoop_inserts`: what each of them writes,
  for an upstream that answers by a function.
* `writers_agree_iff`: exactly when a prefetch or an ANY query writes what a miss would write.
-/

namespace Heimdallr.Resolver

open Lib CacheForwardAuthority

/-! ## Writes -/

/-- What an event writes, and where. -/
def Event.written : Event → Option (CacheKey × Bytes)
  | .insert key bytes _ => some (key, bytes)
  | _ => none

/-- What has been written so far. -/
def Shared.inserts (s : Shared) : List (CacheKey × Bytes) := s.log.filterMap fun e => e.2.written

/-- What storing a record list writes. -/
def storeWrites (hk : Hickory) (key : CacheKey) (records : List Record) :
    List (CacheKey × Bytes) :=
  (hk.toVec (cacheMessage records)).toList.map fun bytes => (key, bytes)

theorem mem_storeWrites {hk : Hickory} {key k : CacheKey} {records : List Record} {bytes : Bytes} :
    (k, bytes) ∈ storeWrites hk key records ↔
      k = key ∧ hk.toVec (cacheMessage records) = some bytes := by
  unfold storeWrites
  simp only [List.mem_map, Option.mem_toList, Prod.mk.injEq]
  constructor
  · rintro ⟨b, hb, rfl, rfl⟩
    exact ⟨rfl, hb⟩
  · rintro ⟨rfl, hb⟩
    exact ⟨bytes, hb, rfl, rfl⟩

theorem inserts_append (s s' : Shared) {es : List (Request × Event)} (h : s'.log = s.log ++ es) :
    s'.inserts = s.inserts ++ es.filterMap fun e => e.2.written := by
  unfold Shared.inserts
  rw [h, List.filterMap_append]

/-- Questions write nothing. -/
theorem Shared.NetMove.inserts_eq {s s' : Shared} (h : s.NetMove s') :
    s'.inserts = s.inserts := by
  obtain ⟨es, hlog, hes⟩ := h.log_grows
  have hnil : (es.filterMap fun e => e.2.written) = [] := by
    rw [List.filterMap_eq_nil_iff]
    intro e he
    obtain ⟨name, rtype, reply, hup⟩ := hes e he
    rw [hup]
    rfl
  rw [inserts_append s s' hlog, hnil, List.append_nil]

theorem inserts_store (s : Shared) (request : Request) (hk : Hickory) (key : CacheKey)
    (records : List Record) :
    (s.store request hk key records).inserts = s.inserts ++ storeWrites hk key records := by
  have hwrites : ((storeEvents hk key records).map fun e => (request, e)).filterMap
      (fun e => e.2.written) = storeWrites hk key records := by
    unfold storeEvents storeWrites
    cases hk.toVec (cacheMessage records) <;> rfl
  rw [inserts_append s (s.store request hk key records) rfl, hwrites]

/-- Looking a key up writes nothing, whether it is there or not. -/
theorem inserts_lookup (key : CacheKey) (l : Local) (s : Shared) :
    (handle (.lookup key) l s).2.2.inserts = s.inserts := by
  cases hres : s.cache.entryAt key with
  | none =>
    rw [handle_lookup_none hres]
    simp [Shared.inserts, Event.written]
  | some e =>
    rw [handle_lookup_some hres]
    simp [Shared.inserts, Event.written]

theorem inserts_probe (s : Shared) (l : Local) (key : CacheKey) (name : LowerName)
    (rtype : RecordType) : (s.probe l key name rtype).inserts = s.inserts := by
  have hspawn : ∀ s' : Shared, (handle (.spawnPrefetch name rtype) l s').2.2.inserts =
      s'.inserts := by
    intro s'
    simp [handle, Shared.inserts, Event.written]
  unfold Shared.probe
  dsimp only
  split
  · exact inserts_lookup key l s
  · split
    · rw [hspawn, inserts_lookup]
    · exact inserts_lookup key l s

/-! ## What each writer writes -/

/-- A miss writes the gathered records. -/
theorem run_lookup_inserts {self : CacheForwardAuthority} {hk : Hickory} {name : LowerName}
    {rtype : RecordType} {info : Option RequestInfo} {l : Local} {s : Shared}
    (hany : rtype ≠ .ANY)
    (habsent : s.cache.entryAt (self.cacheKey hk name rtype info) = none) :
    ((self.lookup hk name rtype info).run handle l s).2.2.inserts =
      s.inserts ++
        match self.assembled (fwdName name) rtype l with
        | .error _ => []
        | .ok a => storeWrites hk (self.cacheKey hk name rtype info) a.records := by
  rw [lookup_absent hany habsent]
  cases hasm : self.assembled (fwdName name) rtype l with
  | error e =>
    obtain ⟨l', s', hrun, hmove⟩ := self.run_missPath_error hk hasm
      (s.probe l (self.cacheKey hk name rtype info) name rtype)
    rw [hrun, hmove.inserts_eq, inserts_probe, List.append_nil]
  | ok a =>
    obtain ⟨l', s₁, s', hrun, hmove, hmove'⟩ := self.run_missPath_ok hk hasm
      (s.probe l (self.cacheKey hk name rtype info) name rtype)
    rw [hrun, hmove'.inserts_eq, inserts_store, hmove.inserts_eq, inserts_probe]

/-- A prefetch writes the upstream answer as it comes. -/
theorem run_prefetch_inserts (hk : Hickory) (name : LowerName) (rtype : RecordType) (l : Local)
    (s : Shared) :
    ((prefetch hk name rtype).run handle l s).2.2.inserts =
      s.inserts ++
        match l.upstream l.asked (fwdName name) rtype with
        | .error _ => []
        | .ok records => storeWrites hk ⟨hk.toUtf8 name.name, rtype.toU16, none⟩ records := by
  obtain ⟨s', hrun, hmove⟩ := run_lift (upstream (fwdName name) rtype) l s
  have hreply : ((upstream (fwdName name) rtype).eval netAnswer l).1 =
      l.upstream l.asked (fwdName name) rtype := rfl
  unfold prefetch
  rw [Prog.run_bind, hrun, hreply]
  cases l.upstream l.asked (fwdName name) rtype with
  | error e => exact (hmove.inserts_eq).trans (List.append_nil _).symm
  | ok records =>
    dsimp only
    rw [run_storeAnswer, inserts_store, hmove.inserts_eq]

/-- One round of `lookup_any` that goes on to the next type has written nothing; one that ends has
written the upstream answer for its type, or nothing. -/
theorem run_anyLoop_inserts (hk : Hickory) (name : LowerName) {f : Name → RecordType → Reply}
    (types : List RecordType) {l : Local} (hl : l.upstream = fixed f) (s : Shared) :
    ∃ ws, ((anyLoop hk name types).run handle l s).2.2.inserts = s.inserts ++ ws ∧
      ∀ w ∈ ws, ∃ t ∈ types, ∃ records, f (fwdName name) t = .ok records ∧
        w ∈ storeWrites hk ⟨hk.toUtf8 name.name, t.toU16, none⟩ records := by
  induction types generalizing l s with
  | nil => exact ⟨[], (List.append_nil _).symm, by simp⟩
  | cons t rest ih =>
    have hasked : ∀ s₁ : Shared, s₁.NetMove
        (handle (.net (.upstream (fwdName name) t)) l s₁).2.2 :=
      fun s₁ => Shared.NetMove.step _ l s₁
    rw [run_anyLoop_cons, hl]
    dsimp only
    split
    · exact ⟨[], by rw [inserts_lookup, List.append_nil], by simp⟩
    · rename_i x records hreply _
      refine ⟨storeWrites hk ⟨hk.toUtf8 name.name, t.toU16, none⟩ (x :: records), ?_, ?_⟩
      · rw [inserts_store, (hasked _).inserts_eq, inserts_lookup]
      · intro w hw
        exact ⟨t, List.mem_cons_self, x :: records, hreply, hw⟩
    · obtain ⟨ws, hws, hall⟩ := ih (l := (handle (.net (.upstream (fwdName name) t)) l
        (handle (.lookup ⟨hk.toUtf8 name.name, t.toU16, none⟩) l s).2.2).2.1) hl _
      refine ⟨ws, ?_, ?_⟩
      · rw [hws, (hasked _).inserts_eq, inserts_lookup]
      · intro w hw
        obtain ⟨t', ht', records, hf, hmem⟩ := hall w hw
        exact ⟨t', List.mem_cons_of_mem _ ht', records, hf, hmem⟩

/-! ## Agreement -/

/-- The task, run from `s`, writes under `key` an encoding that reads back as `records`. -/
def StoresUnder {α : Type} (hk : Hickory) (key : CacheKey) (p : Task α) (l : Local) (s : Shared)
    (records : List Record) : Prop :=
  ∃ ws bytes msg, (p.run handle l s).2.2.inserts = s.inserts ++ ws ∧ (key, bytes) ∈ ws ∧
    hk.fromVec bytes = some msg ∧ msg.answers = records

/-- A task that writes what `storeWrites` says stores those records, and no others. -/
theorem storesUnder_iff {α : Type} {hk : Hickory} (hrt : hk.RoundTrips) {key : CacheKey}
    {p : Task α} {l : Local} {s : Shared} {written records : List Record}
    (h : (p.run handle l s).2.2.inserts = s.inserts ++ storeWrites hk key written) :
    StoresUnder hk key p l s records ↔
      (hk.toVec (cacheMessage written)).isSome ∧ written.map Record.qualified = records := by
  constructor
  · rintro ⟨ws, bytes, msg, hws, hmem, hdec, rfl⟩
    rw [h] at hws
    rw [← List.append_cancel_left hws] at hmem
    obtain ⟨-, henc⟩ := mem_storeWrites.mp hmem
    rw [hrt _ _ henc] at hdec
    rw [henc, ← Option.some.inj hdec]
    exact ⟨rfl, rfl⟩
  · rintro ⟨hsome, rfl⟩
    obtain ⟨bytes, henc⟩ := Option.isSome_iff_exists.mp hsome
    exact ⟨_, bytes, _, h, mem_storeWrites.mpr ⟨rfl, henc⟩, hrt _ _ henc, rfl⟩

theorem not_storesUnder {α : Type} {hk : Hickory} {key : CacheKey} {p : Task α} {l : Local}
    {s : Shared} {records : List Record} (h : (p.run handle l s).2.2.inserts = s.inserts ++ []) :
    ¬ StoresUnder hk key p l s records := by
  rintro ⟨ws, bytes, msg, hws, hmem, -⟩
  rw [h] at hws
  rw [← List.append_cancel_left hws] at hmem
  exact absurd hmem List.not_mem_nil

/-- Whatever a prefetch for `(name, rtype)`, or an ANY query when the type is one it asks for,
stores under the key of the query, a miss stores there too. -/
def WritersAgree (self : CacheForwardAuthority) (hk : Hickory) (f : Name → RecordType → Reply)
    (name : LowerName) (rtype : RecordType) (info : Option RequestInfo) : Prop :=
  let key := self.cacheKey hk name rtype info
  rtype ≠ .ANY → ∀ (l l' : Local) (s s' : Shared) (records : List Record),
    l.upstream = fixed f → l'.upstream = fixed f → s'.cache.entryAt key = none →
    StoresUnder hk key (prefetch hk name rtype) l s records ∨
        (rtype = .A ∨ rtype = .AAAA) ∧ StoresUnder hk key (lookupAny hk name) l s records →
      StoresUnder hk key (self.lookup hk name rtype info) l' s' records

/-- What the miss path adds to an upstream answer. -/
def additions (self : CacheForwardAuthority) (f : Name → RecordType → Reply) (fwd : Name)
    (rtype : RecordType) (lookup : List Record) : List Record :=
  self.dns64Of fwd rtype lookup (f (fwd.setFqdn false) .A) ++ synthesizeDnameCnames lookup fwd

/-- The proper suffixes of the query name that are asked for before the name's answer is settled:
none without minimization. -/
def CacheForwardAuthority.askedSuffixes (self : CacheForwardAuthority) (fwd : Name) : List Name :=
  if self.qnameMinimization.enable then probedSuffixes fwd self.qnameMinimization else []

/-- When the upstream answer, which a prefetch stores as it comes, is what a miss stores. Its chain is
not refused, and a name that is minimized has a label to count. Where no suffix that is asked for has
records, DNS64 and DNAME add nothing to the answer. Where one has, the records of the last such suffix
take the place of the answer: followed by what DNS64 and DNAME add to them, they are those of the
answer. -/
def WritersAgreeWhen (self : CacheForwardAuthority) (hk : Hickory) (f : Name → RecordType → Reply)
    (name : LowerName) (rtype : RecordType) : Prop :=
  let fwd := fwdName name
  ∀ direct, f fwd rtype = .ok direct → (hk.toVec (cacheMessage direct)).isSome →
    self.filter.chainTooLong direct = false ∧
      (self.qnameMinimization.enable = true → fwd.numLabels ≠ 0) ∧
      ((∀ s ∈ self.askedSuffixes fwd, ¬ HasRecords (f s rtype)) →
        additions self f fwd rtype direct = []) ∧
      ∀ before s after records, self.askedSuffixes fwd = before ++ s :: after →
        f s rtype = .ok records → records ≠ [] → (∀ t ∈ after, ¬ HasRecords (f t rtype)) →
        let added := additions self f fwd rtype records
        (hk.toVec (cacheMessage (records ++ added))).isSome ∧
          records.map Record.qualified ++ added.map Record.qualified =
            direct.map Record.qualified

/-- What a miss stores, for an upstream that answers by a function. -/
theorem lookup_storesUnder_iff {self : CacheForwardAuthority} {hk : Hickory} (hrt : hk.RoundTrips)
    {f : Name → RecordType → Reply} {name : LowerName} {rtype : RecordType}
    (hany : rtype ≠ .ANY) {info : Option RequestInfo} {l : Local} (hl : l.upstream = fixed f)
    {s : Shared} (habsent : s.cache.entryAt (self.cacheKey hk name rtype info) = none)
    {records : List Record} :
    StoresUnder hk (self.cacheKey hk name rtype info) (self.lookup hk name rtype info) l s
        records ↔
      ∃ lookup, self.resolved (fixed f) (fwdName name) rtype l.asked = .ok lookup ∧
        let stored := lookup ++ additions self f (fwdName name) rtype lookup
        self.filter.chainTooLong stored = false ∧ (hk.toVec (cacheMessage stored)).isSome ∧
          stored.map Record.qualified = records := by
  have hins := run_lookup_inserts (l := l) hany habsent
  have hchained : self.chainedA (fwdName name) rtype l = f ((fwdName name).setFqdn false) .A := by
    unfold chainedA
    rw [hl]
    rfl
  have hrewritten : ∀ lookup, rewritten (fwdName name) lookup
      (self.dns64Of (fwdName name) rtype lookup (self.chainedA (fwdName name) rtype l)) =
        lookup ++ additions self f (fwdName name) rtype lookup := by
    intro lookup
    rw [rewritten_dns64Of, hchained]
    rfl
  cases hasm : self.assembled (fwdName name) rtype l with
  | error e =>
    rw [hasm] at hins
    refine iff_of_false (not_storesUnder hins) ?_
    rintro ⟨lookup, hlookup, hshort, -⟩
    rw [← hl] at hlookup
    rw [← hrewritten] at hshort
    have hok := (self.assembled_ok_iff (a := ⟨lookup, _, _⟩)).mpr ⟨hlookup, rfl, rfl, hshort⟩
    exact absurd (hasm.symm.trans hok) (by simp)
  | ok a =>
    obtain ⟨lookup, dns64, records'⟩ := a
    obtain ⟨hres, hdns64, hrec, hshort⟩ := (self.assembled_ok_iff).mp hasm
    dsimp only at hres hdns64 hrec hshort
    subst hdns64
    rw [hrewritten] at hrec
    subst hrec
    rw [hl] at hres
    rw [hasm] at hins
    rw [storesUnder_iff hrt hins]
    constructor
    · rintro ⟨hsome, hrec⟩
      exact ⟨lookup, hres, hshort, hsome, hrec⟩
    · rintro ⟨lookup', hlookup', -, hsome, hrec⟩
      obtain rfl := Except.ok.inj (hres.symm.trans hlookup')
      exact ⟨hsome, hrec⟩

/-- What a prefetch stores. -/
theorem prefetch_storesUnder_iff {hk : Hickory} (hrt : hk.RoundTrips)
    {f : Name → RecordType → Reply} {name : LowerName} {rtype : RecordType} {l : Local}
    (hl : l.upstream = fixed f) {s : Shared} {records : List Record} :
    StoresUnder hk ⟨hk.toUtf8 name.name, rtype.toU16, none⟩ (prefetch hk name rtype) l s records ↔
      ∃ direct, f (fwdName name) rtype = .ok direct ∧
        (hk.toVec (cacheMessage direct)).isSome ∧ direct.map Record.qualified = records := by
  have hins := run_prefetch_inserts hk name rtype l s
  rw [hl] at hins
  cases hf : f (fwdName name) rtype with
  | error e =>
    rw [show fixed f l.asked (fwdName name) rtype = .error e from hf] at hins
    refine iff_of_false (not_storesUnder hins) ?_
    rintro ⟨direct, hdirect, -⟩
    exact absurd hdirect (by simp)
  | ok direct =>
    rw [show fixed f l.asked (fwdName name) rtype = .ok direct from hf] at hins
    rw [storesUnder_iff hrt hins]
    constructor
    · rintro ⟨hsome, hrec⟩
      exact ⟨direct, rfl, hsome, hrec⟩
    · rintro ⟨direct', hdirect', hsome, hrec⟩
      obtain rfl := Except.ok.inj hdirect'
      exact ⟨hsome, hrec⟩

/-- What `lookup_any` stores under the key of one of its types. -/
theorem lookupAny_storesUnder {hk : Hickory} (hrt : hk.RoundTrips)
    {f : Name → RecordType → Reply} {name : LowerName} {rtype : RecordType}
    (htype : rtype = .A ∨ rtype = .AAAA) {l : Local} (hl : l.upstream = fixed f) {s : Shared}
    {records : List Record}
    (h : StoresUnder hk ⟨hk.toUtf8 name.name, rtype.toU16, none⟩ (lookupAny hk name) l s records) :
    ∃ direct, f (fwdName name) rtype = .ok direct ∧
      (hk.toVec (cacheMessage direct)).isSome ∧ direct.map Record.qualified = records := by
  obtain ⟨ws, bytes, msg, hws, hmem, hdec, rfl⟩ := h
  obtain ⟨ws', hws', hall⟩ := run_anyLoop_inserts hk name [.A, .AAAA] hl s
  have hsame : ws = ws' := List.append_cancel_left (hws.symm.trans hws')
  rw [hsame] at hmem
  obtain ⟨t, ht, direct, hf, hw⟩ := hall _ hmem
  obtain ⟨hkey, henc⟩ := mem_storeWrites.mp hw
  -- the two types have different keys
  have htt : rtype = t := by
    have hcode : rtype.toU16 = t.toU16 := congrArg CacheKey.qtype hkey
    rcases htype with rfl | rfl <;> rcases List.mem_cons.mp ht with rfl | ht
    · rfl
    · rw [List.mem_singleton.mp ht] at hcode
      exact absurd hcode (by decide)
    · exact absurd hcode (by decide)
    · exact (List.mem_singleton.mp ht).symm
  rw [hrt _ _ henc] at hdec
  rw [htt]
  exact ⟨direct, hf, by rw [henc]; rfl, congrArg Message.answers (Option.some.inj hdec)⟩

/-- The forwarding stage gives the answer for the name when no suffix that is asked for has
records. -/
theorem resolved_of_none {self : CacheForwardAuthority} {f : Name → RecordType → Reply} {fwd : Name}
    {rtype : RecordType} {direct : List Record} (hf : f fwd rtype = .ok direct)
    (hlabels : self.qnameMinimization.enable = true → fwd.numLabels ≠ 0)
    (hnone : ∀ s ∈ self.askedSuffixes fwd, ¬ HasRecords (f s rtype)) (asked : Nat) :
    self.resolved (fixed f) fwd rtype asked = .ok direct := by
  unfold resolved
  unfold askedSuffixes at hnone
  by_cases hmin : self.qnameMinimization.enable = true
  · rw [if_pos hmin] at hnone ⊢
    unfold minimized
    rw [if_neg (hlabels hmin)]
    dsimp only [fixed]
    rw [minFinal_fixed_none asked hnone, hf]
    cases direct <;> rfl
  · rw [if_neg hmin]
    exact hf

/-- It gives the records of the last suffix that has some. -/
theorem resolved_of_last {self : CacheForwardAuthority} {f : Name → RecordType → Reply} {fwd s : Name}
    {rtype : RecordType} {before after : List Name} {x : Record} {xs : List Record}
    (hlabels : self.qnameMinimization.enable = true → fwd.numLabels ≠ 0)
    (hsplit : self.askedSuffixes fwd = before ++ s :: after) (hs : f s rtype = .ok (x :: xs))
    (hafter : ∀ t ∈ after, ¬ HasRecords (f t rtype)) (asked : Nat) :
    self.resolved (fixed f) fwd rtype asked = .ok (x :: xs) := by
  unfold resolved
  unfold askedSuffixes at hsplit
  by_cases hmin : self.qnameMinimization.enable = true
  · rw [if_pos hmin] at hsplit ⊢
    unfold minimized
    rw [if_neg (hlabels hmin)]
    dsimp only
    rw [minFinal_fixed_last asked hsplit hs hafter]
    rfl
  · rw [if_neg hmin] at hsplit
    exact absurd hsplit (by simp)

/-- Whether the chain is refused does not depend on how names are written. -/
theorem chainTooLong_congr (filter : Filter) {xs ys : List Record}
    (h : xs.map Record.qualified = ys.map Record.qualified) :
    filter.chainTooLong xs = filter.chainTooLong ys := by
  unfold Filter.chainTooLong
  rw [← Filter.cnameChainCount_qualified xs, h, Filter.cnameChainCount_qualified]

/-- A miss stores the upstream answer exactly when the condition holds. -/
theorem stores_direct_iff {self : CacheForwardAuthority} {hk : Hickory}
    {f : Name → RecordType → Reply} {fwd : Name} {rtype : RecordType} {direct : List Record}
    (hf : f fwd rtype = .ok direct) (henc : (hk.toVec (cacheMessage direct)).isSome)
    (asked : Nat) :
    (∃ lookup, self.resolved (fixed f) fwd rtype asked = .ok lookup ∧
        let stored := lookup ++ additions self f fwd rtype lookup
        self.filter.chainTooLong stored = false ∧ (hk.toVec (cacheMessage stored)).isSome ∧
          stored.map Record.qualified = direct.map Record.qualified) ↔
      self.filter.chainTooLong direct = false ∧
        (self.qnameMinimization.enable = true → fwd.numLabels ≠ 0) ∧
        ((∀ s ∈ self.askedSuffixes fwd, ¬ HasRecords (f s rtype)) →
          additions self f fwd rtype direct = []) ∧
        ∀ before s after records, self.askedSuffixes fwd = before ++ s :: after →
          f s rtype = .ok records → records ≠ [] → (∀ t ∈ after, ¬ HasRecords (f t rtype)) →
          let added := additions self f fwd rtype records
          (hk.toVec (cacheMessage (records ++ added))).isSome ∧
            records.map Record.qualified ++ added.map Record.qualified =
              direct.map Record.qualified := by
  constructor
  · rintro ⟨lookup, hlookup, hshort, hstored, hrec⟩
    have hlabels : self.qnameMinimization.enable = true → fwd.numLabels ≠ 0 := by
      intro hmin hzero
      unfold resolved at hlookup
      rw [if_pos hmin] at hlookup
      unfold minimized at hlookup
      rw [if_pos hzero] at hlookup
      cases hlookup
    refine ⟨(chainTooLong_congr self.filter hrec).symm.trans hshort, hlabels, ?_, ?_⟩
    · intro hnone
      obtain rfl := Except.ok.inj ((resolved_of_none hf hlabels hnone asked).symm.trans hlookup)
      rw [List.map_append, List.append_right_eq_self, List.map_eq_nil_iff] at hrec
      exact hrec
    · intro before s after records hsplit hs hne hafter
      obtain ⟨x, xs, rfl⟩ := List.exists_cons_of_ne_nil hne
      have hlast := resolved_of_last hlabels hsplit hs hafter asked
      obtain rfl := Except.ok.inj (hlast.symm.trans hlookup)
      rw [List.map_append] at hrec
      exact ⟨hstored, hrec⟩
  · rintro ⟨hshort, hlabels, hplain, hlast⟩
    rcases exists_last_suffix f rtype (self.askedSuffixes fwd) with
      hnone | ⟨before, s, x, xs, after, hsplit, hs, hafter⟩
    · refine ⟨direct, resolved_of_none hf hlabels hnone asked, ?_⟩
      rw [hplain hnone, List.append_nil]
      exact ⟨hshort, henc, rfl⟩
    · refine ⟨x :: xs, resolved_of_last hlabels hsplit hs hafter asked, ?_⟩
      obtain ⟨hstored, hrec⟩ := hlast before s after _ hsplit hs (List.cons_ne_nil x xs) hafter
      rw [← List.map_append] at hrec
      exact ⟨(chainTooLong_congr self.filter hrec).trans hshort, hstored, hrec⟩

/-- **When the writers of the cache agree**: a miss would store the plain upstream answer. -/
theorem writers_agree_iff (self : CacheForwardAuthority) (hk : Hickory) (hrt : hk.RoundTrips)
    (f : Name → RecordType → Reply) (name : LowerName) (rtype : RecordType)
    (info : Option RequestInfo) :
    WritersAgree self hk f name rtype info ↔
      rtype = .ANY ∨ WritersAgreeWhen self hk f name rtype := by
  by_cases hany : rtype = .ANY
  · exact iff_of_true (fun h => absurd hany h) (Or.inl hany)
  rw [or_iff_right hany]
  constructor
  · -- a prefetch that stores its answer shows what a miss on an empty cache stores
    intro h direct hf henc
    have hstart : (Shared.initial CacheConfig.default (by decide)).cache.entryAt
        (self.cacheKey hk name rtype info) = none := rfl
    have hpre : StoresUnder hk (self.cacheKey hk name rtype info) (prefetch hk name rtype)
        ⟨.prefetch name rtype, fixed f, 0⟩ (Shared.initial CacheConfig.default (by decide))
        (direct.map Record.qualified) := by
      rw [cacheKey_eq_keyOf]
      exact (prefetch_storesUnder_iff hrt rfl).mpr ⟨direct, hf, henc, rfl⟩
    have hmiss := h hany ⟨.prefetch name rtype, fixed f, 0⟩ ⟨.query name rtype, fixed f, 0⟩ _ _ _
      rfl rfl hstart (Or.inl hpre)
    rw [lookup_storesUnder_iff hrt hany rfl hstart] at hmiss
    exact (stores_direct_iff hf henc 0).mp hmiss
  · intro h _ l l' s s' records hl hl' habsent hstores
    have hdirect : ∃ direct, f (fwdName name) rtype = .ok direct ∧
        (hk.toVec (cacheMessage direct)).isSome ∧ direct.map Record.qualified = records := by
      rw [cacheKey_eq_keyOf] at hstores
      rcases hstores with hpre | ⟨htype, hanyq⟩
      · exact (prefetch_storesUnder_iff hrt hl).mp hpre
      · exact lookupAny_storesUnder hrt htype hl hanyq
    obtain ⟨direct, hf, henc, rfl⟩ := hdirect
    rw [lookup_storesUnder_iff hrt hany hl' habsent]
    exact (stores_direct_iff hf henc l'.asked).mpr (h direct hf henc)

/-- One address and nothing to rewrite it: the writers agree. -/
theorem writers_agree_single_address :
    WritersAgree CacheForwardAuthority.default
      (Hickory.knowing [(cacheMessage [wwwRecord], wwwWire)]) apexAlsoAnswers wwwExample .A none := by
  rw [writers_agree_iff _ _ (Hickory.roundTrips_knowing (by decide))]
  right
  intro direct hf _
  obtain rfl : [wwwRecord] = direct := Except.ok.inj hf
  refine ⟨rfl, fun hmin => Bool.noConfusion hmin, fun _ => rfl, ?_⟩
  intro before s after records hsplit
  exact absurd (show [] = before ++ s :: after from hsplit) (by simp)

/-- A redirection of `www.example.com`, as a record of the type the source takes for DNAME. -/
def anameRecord : Record :=
  ⟨.ofLabels ["www", "example", "com"] true, 300, .ANAME (.ofLabels ["cdn", "test"] true)⟩

/-- The CNAME that is synthesized for it. -/
def anameCname : Record :=
  ⟨.ofLabels ["www", "example", "com"] false, 300, .CNAME (.ofLabels ["cdn", "test"] true)⟩

/-- An upstream that has the redirection, and the address behind it. -/
def redirects (n : Name) (rtype : RecordType) : Reply :=
  if rtype = .ANAME ∧ n.labels = wwwExample.name.labels then .ok [anameRecord]
  else if rtype = .A ∧ n.labels = cdnRecord.name.labels then .ok [cdnRecord]
  else .error (.NoRecordsFound .NoError)

/-- The wire form of a message with `answers` answers, the first of which is the redirection. -/
def anameWire (answers : UInt8) : Bytes :=
  [0, 0, 0, 0, 0, 0, 0, answers, 0, 0, 0, 0] ++
    ([3] ++ ascii "www" ++ [7] ++ ascii "example" ++ [3] ++ ascii "com" ++ [0]) ++
    [0xff, 0x19, 0, 1, 0, 0, 1, 44, 0, 10] ++ ([3] ++ ascii "cdn" ++ [4] ++ ascii "test" ++ [0])

/-- The same with the synthesized CNAME, its names pointers to those of the redirection. -/
def anameCnameWire : Bytes :=
  anameWire 2 ++ [0xc0, 12, 0, 5, 0, 1, 0, 0, 1, 44, 0, 2, 0xc0, 39]

/-- The codec with the wire forms of what a prefetch and what a miss store for the redirection. -/
def anameCodec : Hickory :=
  .knowing [(cacheMessage [anameRecord], anameWire 1),
    (cacheMessage [anameRecord, anameCname], anameCnameWire)]

/-- A prefetch replaces the answer a miss stored by one without the synthesized CNAME. -/
theorem prefetch_drops_synthesized :
    let self := CacheForwardAuthority.default
    let start := Shared.initial CacheConfig.default (by decide)
    let key : CacheKey := ⟨"www.example.com.", 65305, none⟩
    ((self.lookup anameCodec wwwExample .ANAME none).run handle
        ⟨.query wwwExample .ANAME, fixed redirects, 0⟩ start).2.2.inserts =
          [(key, anameCnameWire)] ∧
      ((prefetch anameCodec wwwExample .ANAME).run handle
        ⟨.prefetch wwwExample .ANAME, fixed redirects, 0⟩ start).2.2.inserts =
          [(key, anameWire 1)] ∧
      ¬ WritersAgree self anameCodec redirects wwwExample .ANAME none := by
  refine ⟨rfl, rfl, ?_⟩
  have hrt : anameCodec.RoundTrips := Hickory.roundTrips_knowing (by decide)
  intro h
  have hpre : StoresUnder anameCodec ⟨"www.example.com.", 65305, none⟩
      (prefetch anameCodec wwwExample .ANAME) ⟨.prefetch wwwExample .ANAME, fixed redirects, 0⟩
      (Shared.initial CacheConfig.default (by decide)) [anameRecord] :=
    (prefetch_storesUnder_iff hrt rfl).mpr ⟨[anameRecord], rfl, rfl, rfl⟩
  have hmiss := h (by decide) _ ⟨.query wwwExample .ANAME, fixed redirects, 0⟩ _
    (Shared.initial CacheConfig.default (by decide)) _ rfl rfl rfl (Or.inl hpre)
  obtain ⟨lookup, hlookup, -, -, hrec⟩ :=
    (lookup_storesUnder_iff hrt (by decide) rfl rfl).mp hmiss
  obtain rfl : [anameRecord] = lookup := Except.ok.inj hlookup
  exact absurd (congrArg List.length hrec) (by decide)

end Heimdallr.Resolver
