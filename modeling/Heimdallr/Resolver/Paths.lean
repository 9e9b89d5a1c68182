import Heimdallr.Resolver.ForwardSpec

/-!
# How the paths of the forwarder compare

An answer for a name can come from upstream with or without minimization, from the cache entry a
miss left, from a prefetch or from an ANY query. The results say exactly when two of them agree.

* `Transparent` compares two forwarders that differ in `qname_minimization` only, for one upstream
  that answers by a function and for any state of the cache that gives neither of them an answer.
* `HitAgrees` compares a query with the same query again, on the cache the first has left and before
  the entry expires. The answers are compared up to TTLs and the flag of names, both of which the
  wire does not keep: `Record.content` is what is left of a record.
* The conditions are on upstream's replies and the configuration. What the forwarder computes from
  them does not occur, so a condition can be checked without running it.

Results:
* `minimization_transparent_iff`: the forwarder with minimization against the one without.
* `hit_agrees_iff`: the answer of a miss against the answer from the entry it stored.
-/

namespace Heimdallr.Resolver

open Lib CacheForwardAuthority

/-! ## With and without minimization -/

theorem SameAnswer.refl {ε : Type} (r : Except ε (List Record)) : SameAnswer r r := by
  cases r with
  | error e => exact trivial
  | ok records => exact rfl

/-- The forwarder with another minimization setting. -/
def CacheForwardAuthority.minimizing (self : CacheForwardAuthority) (config : QnameMinConfig) :
    CacheForwardAuthority :=
  { self with qnameMinimization := config }

/-- Minimization with this configuration does not show, for an upstream that answers by `f`:
whatever the other settings and the state of the cache, `lookup` returns the same records, or an
error, as with minimization off, and leaves the same cache. When nothing else rewrites the answer
that is what `f` gives for the query name. -/
def Transparent (hk : Hickory) (f : Name → RecordType → Reply) (config : QnameMinConfig)
    (name : LowerName) (rtype : RecordType) : Prop :=
  ∀ (self : CacheForwardAuthority) (info : Option RequestInfo) (l : Local) (s : Shared),
    l.upstream = fixed f →
    let minimized := (((self.minimizing { config with enable := true }).lookup hk name rtype
      info).run handle l s)
    let plain := (((self.minimizing { config with enable := false }).lookup hk name rtype
      info).run handle l s)
    SameAnswer minimized.1 plain.1 ∧ minimized.2.2.cache = plain.2.2.cache ∧
      (rtype ≠ .ANY → s.cache.entryAt (self.cacheKey hk name rtype info) = none →
        self.dns64Prefix = none → self.filter.cnameCloaking = false →
        SameAnswer minimized.1 (f (fwdName name) rtype))

/-- The flattening asks the same of every task with the same upstream function. -/
theorem targetRecords_fixed {hk : Hickory} {f : Name → RecordType → Reply} {l l' : Local}
    (h : l.upstream = fixed f) (h' : l'.upstream = fixed f) (records : List Record) :
    targetRecords hk records l = targetRecords hk records l' := by
  unfold targetRecords
  rw [h, h']
  rfl

theorem answerOf_fixed {hk : Hickory} {f : Name → RecordType → Reply} {l l' : Local}
    (h : l.upstream = fixed f) (h' : l'.upstream = fixed f) (a : Assembled) :
    answerOf hk a l = answerOf hk a l' := by
  unfold answerOf
  rw [targetRecords_fixed h h']

theorem assembled_fixed (self : CacheForwardAuthority) {f : Name → RecordType → Reply} {l : Local}
    (h : l.upstream = fixed f) (fwd : Name) (rtype : RecordType) :
    self.assembled fwd rtype l =
      self.assembledOf fwd rtype (self.resolved (fixed f) fwd rtype l.asked)
        (f (fwd.setFqdn false) .A) := by
  unfold assembled chainedA
  rw [h]
  rfl

/-- The stages after the forwarding do not look at the minimization setting. -/
theorem assembledOf_minimizing (self : CacheForwardAuthority) (config : QnameMinConfig)
    (fwd : Name) (rtype : RecordType) (answer chainedA : Reply) :
    (self.minimizing config).assembledOf fwd rtype answer chainedA =
      self.assembledOf fwd rtype answer chainedA := rfl

/-- A miss whose two forwarding stages answer alike returns alike and stores alike. -/
theorem missPath_same (self : CacheForwardAuthority) (hk : Hickory)
    {f : Name → RecordType → Reply} {config config' : QnameMinConfig} (key : CacheKey)
    (name : LowerName) (rtype : RecordType) {l : Local} (hl : l.upstream = fixed f)
    (hsame : SameAnswer ((self.minimizing config).resolved (fixed f) (fwdName name) rtype l.asked)
      ((self.minimizing config').resolved (fixed f) (fwdName name) rtype l.asked)) (s : Shared) :
    let r := ((self.minimizing config).missPath hk key name rtype).run handle l s
    let r' := ((self.minimizing config').missPath hk key name rtype).run handle l s
    SameAnswer r.1 r'.1 ∧ r.2.2.cache = r'.2.2.cache := by
  dsimp only
  rw [run_missPath_fst, run_missPath_fst, run_missPath_cache, run_missPath_cache,
    assembled_fixed _ hl, assembled_fixed _ hl, assembledOf_minimizing, assembledOf_minimizing]
  cases h : (self.minimizing config).resolved (fixed f) (fwdName name) rtype l.asked with
  | error e =>
    cases h' : (self.minimizing config').resolved (fixed f) (fwdName name) rtype l.asked with
    | error e' => exact ⟨trivial, rfl⟩
    | ok lookup =>
      rw [h, h'] at hsame
      exact absurd hsame id
  | ok lookup =>
    cases h' : (self.minimizing config').resolved (fixed f) (fwdName name) rtype l.asked with
    | error e' =>
      rw [h, h'] at hsame
      exact absurd hsame id
    | ok lookup' =>
      rw [h, h'] at hsame
      obtain rfl : lookup = lookup' := hsame
      cases self.assembledOf (fwdName name) rtype (.ok lookup)
          (f ((fwdName name).setFqdn false) .A) with
      | error e => exact ⟨trivial, rfl⟩
      | ok a =>
        have hafter : ∀ p : Net (Except LookupError Assembled),
            (l.after p).upstream = fixed f := by
          intro p
          rw [Local.after_upstream, hl]
        exact ⟨answerOf_fixed (hafter _) (hafter _) a, rfl⟩

theorem lookup_same (self : CacheForwardAuthority) (hk : Hickory) {f : Name → RecordType → Reply}
    (config config' : QnameMinConfig) (name : LowerName) {rtype : RecordType}
    (hany : rtype ≠ .ANY) (info : Option RequestInfo) {l : Local} (hl : l.upstream = fixed f)
    (hsame : SameAnswer ((self.minimizing config).resolved (fixed f) (fwdName name) rtype l.asked)
      ((self.minimizing config').resolved (fixed f) (fwdName name) rtype l.asked)) (s : Shared) :
    let r := ((self.minimizing config).lookup hk name rtype info).run handle l s
    let r' := ((self.minimizing config').lookup hk name rtype info).run handle l s
    SameAnswer r.1 r'.1 ∧ r.2.2.cache = r'.2.2.cache := by
  have hkey : ∀ c, (self.minimizing c).cacheKey hk name rtype info =
      self.cacheKey hk name rtype info := fun _ => rfl
  dsimp only
  rw [run_lookup _ hk name hany, run_lookup _ hk name hany]
  dsimp only
  rw [hkey, hkey]
  split
  · exact ⟨SameAnswer.refl _, rfl⟩
  · exact missPath_same self hk _ name rtype hl hsame _

/-- With DNS64 and the cloaking check off, a miss returns what the forwarding stage answers. -/
theorem missPath_plain (self : CacheForwardAuthority) (hk : Hickory) (key : CacheKey)
    (name : LowerName) (rtype : RecordType) (l : Local) (s : Shared)
    (hdns64 : self.dns64Prefix = none) (hcloak : self.filter.cnameCloaking = false) :
    ((self.missPath hk key name rtype).run handle l s).1 =
      match self.resolved l.upstream (fwdName name) rtype l.asked with
      | .error e => .error (.Net e)
      | .ok lookup => .ok lookup := by
  rw [run_missPath_fst]
  unfold assembled assembledOf
  cases self.resolved l.upstream (fwdName name) rtype l.asked with
  | error e => rfl
  | ok lookup =>
    have hwant : self.dns64Wanted rtype lookup = none := by
      unfold dns64Wanted
      rw [hdns64]
      simp
    have hnone : ∀ reply, self.dns64Of (fwdName name) rtype lookup reply = [] := by
      intro reply
      unfold dns64Of
      rw [hwant]
    have hshort : ∀ records, self.filter.chainTooLong records = false := by
      intro records
      simp [Filter.chainTooLong, hcloak]
    dsimp only
    rw [hnone, hshort]
    rfl

/-- With nothing resident under the key and nothing to rewrite the answer, `lookup` returns what the
forwarding stage answers. -/
theorem lookup_plain (self : CacheForwardAuthority) {hk : Hickory} {name : LowerName}
    {rtype : RecordType} {info : Option RequestInfo} {l : Local} {s : Shared}
    (hany : rtype ≠ .ANY) (habsent : s.cache.entryAt (self.cacheKey hk name rtype info) = none)
    (hdns64 : self.dns64Prefix = none) (hcloak : self.filter.cnameCloaking = false)
    (g : Reply) :
    SameAnswer ((self.lookup hk name rtype info).run handle l s).1 g ↔
      SameAnswer (self.resolved l.upstream (fwdName name) rtype l.asked) g := by
  rw [self.run_lookup hk name hany]
  dsimp only
  rw [habsent]
  dsimp only [Option.bind_none]
  rw [missPath_plain self hk _ name rtype l _ hdns64 hcloak]
  cases self.resolved l.upstream (fwdName name) rtype l.asked with
  | error e => cases g <;> exact Iff.rfl
  | ok lookup => cases g <;> exact Iff.rfl

/-- **When minimization does not show**: always for ANY, which does not minimize; for any other
type when the last probed suffix that has records has exactly those of the name. -/
theorem minimization_transparent_iff (hk : Hickory) (f : Name → RecordType → Reply)
    (config : QnameMinConfig) (name : LowerName) (rtype : RecordType) :
    Transparent hk f config name rtype ↔
      rtype = .ANY ∨ MinimizationAgrees f (fwdName name) rtype config := by
  by_cases hany : rtype = .ANY
  · refine iff_of_true ?_ (Or.inl hany)
    intro self info l s hl
    have hlookup : ∀ c, (self.minimizing c).lookup hk name rtype info = lookupAny hk name := by
      intro c
      unfold lookup
      rw [if_pos hany]
    dsimp only
    rw [hlookup, hlookup]
    exact ⟨SameAnswer.refl _, rfl, fun h => absurd hany h⟩
  · have hmin : ∀ (self : CacheForwardAuthority) (asked : Nat),
        SameAnswer ((self.minimizing { config with enable := true }).resolved (fixed f)
          (fwdName name) rtype asked) (f (fwdName name) rtype) ↔
        MinimizationAgrees f (fwdName name) rtype config := by
      intro self asked
      exact minimized_agrees_iff f (fwdName name) rtype { config with enable := true } asked
    constructor
    · -- a forwarder that rewrites nothing, on an empty cache, shows the driver's answer
      intro h
      right
      let bare : CacheForwardAuthority :=
        { CacheForwardAuthority.default with
          filter := { Filter.default with cnameCloaking := false } }
      have hbare := (h bare none ⟨.query name rtype, fixed f, 0⟩
        (Shared.initial CacheConfig.default (by decide)) rfl).2.2 hany rfl rfl rfl
      rw [lookup_plain _ hany rfl rfl rfl] at hbare
      exact (hmin bare 0).mp hbare
    · intro h self info l s hl
      have hagree := (hmin self l.asked).mpr (h.resolve_left hany)
      -- off, the forwarding stage gives the upstream's answer by definition
      obtain ⟨hsame, hcache⟩ := lookup_same self hk { config with enable := true }
        { config with enable := false } name hany info hl hagree s
      refine ⟨hsame, hcache, ?_⟩
      intro _ habsent hdns64 hcloak
      rw [lookup_plain (self.minimizing { config with enable := true }) hany habsent hdns64 hcloak,
        hl]
      exact hagree

/-- `www.example.com.`, as a query carries it. -/
def wwwExample : LowerName := ⟨.ofLabels ["www", "example", "com"] true, by decide⟩

/-- An address record of the query name, as the upstream resolver returns it. -/
def wwwRecord : Record := ⟨.ofLabels ["www", "example", "com"] true, 300, .A ⟨203, 0, 113, 7⟩⟩

/-- An address record of its parent. -/
def apexRecord : Record := ⟨.ofLabels ["example", "com"] true, 300, .A ⟨198, 51, 100, 1⟩⟩

/-- An upstream with an address for `www.example.com` and another one for `example.com`. -/
def apexAlsoAnswers (n : Name) (rtype : RecordType) : Reply :=
  if rtype = .A ∧ n.labels = wwwExample.name.labels then .ok [wwwRecord]
  else if rtype = .A ∧ n.labels = wwwExample.name.labels.tail then .ok [apexRecord]
  else .error (.NoRecordsFound .NoError)

/-- The wire form of a stored answer with the record of the name. -/
def wwwWire : Bytes :=
  [0, 0, 0, 0, 0, 0, 0, 1, 0, 0, 0, 0] ++
    ([3] ++ ascii "www" ++ [7] ++ ascii "example" ++ [3] ++ ascii "com" ++ [0]) ++
    [0, 1, 0, 1, 0, 0, 1, 44, 0, 4, 203, 0, 113, 7]

/-- The wire form of a stored answer with the parent's record. -/
def apexWire : Bytes :=
  [0, 0, 0, 0, 0, 0, 0, 1, 0, 0, 0, 0] ++
    ([7] ++ ascii "example" ++ [3] ++ ascii "com" ++ [0]) ++
    [0, 1, 0, 1, 0, 0, 1, 44, 0, 4, 198, 51, 100, 1]

/-- The parent's address is returned, and stored, as the answer for `www.example.com`. -/
theorem minimization_returns_parent :
    let hk := Hickory.knowing [(cacheMessage [apexRecord], apexWire)]
    let self := CacheForwardAuthority.default.minimizing ⟨true, .Strict, 7⟩
    let r := (self.lookup hk wwwExample .A none).run handle
      ⟨.query wwwExample .A, fixed apexAlsoAnswers, 0⟩
      (Shared.initial CacheConfig.default (by decide))
    apexAlsoAnswers (fwdName wwwExample) .A = .ok [wwwRecord] ∧ r.1 = .ok [apexRecord] ∧
      (r.2.2.cache.entryAt ⟨"www.example.com.", 1, none⟩).map (·.responseBytes) = some apexWire ∧
      ¬ Transparent hk apexAlsoAnswers QnameMinConfig.default wwwExample .A := by
  refine ⟨rfl, rfl, rfl, ?_⟩
  intro h
  have hsame := (h CacheForwardAuthority.default none ⟨.query wwwExample .A, fixed apexAlsoAnswers, 0⟩
    (Shared.initial CacheConfig.default (by decide)) rfl).1
  -- minimized the parent's record, plain the record of the name
  have hrecords : [apexRecord] = [wwwRecord] := hsame
  exact absurd hrecords (by decide)

/-! ## The miss and the hit after it -/

/-- The same owners, types and data in the same order. -/
def SameRecords (xs ys : List Record) : Prop := xs.map Record.content = ys.map Record.content

theorem sameRecords_append_right_iff (xs ys : List Record) :
    SameRecords xs (xs ++ ys) ↔ ys = [] := by
  unfold SameRecords
  rw [List.map_append, List.self_eq_append_right, List.map_eq_nil_iff]

theorem sameRecords_append_left_iff (xs ys : List Record) :
    SameRecords (xs ++ ys) xs ↔ ys = [] := by
  unfold SameRecords
  rw [List.map_append, eq_comm, List.self_eq_append_right, List.map_eq_nil_iff]

/-- What comes back from the wire is what went in. -/
theorem sameRecords_qualified_iff (xs ys : List Record) :
    SameRecords xs (ys.map Record.qualified) ↔ SameRecords xs ys := by
  have hcontent : Record.content ∘ Record.qualified = Record.content := by
    funext r
    simp [Record.content, Record.qualified]
  unfold SameRecords
  rw [List.map_map, hcontent]

/-- If the miss in `s` returns `records` and leaves an entry, then the same query, answered from an
entry with those bytes, returns the same records. -/
def HitAgrees (self : CacheForwardAuthority) (hk : Hickory) (name : LowerName) (rtype : RecordType)
    (info : Option RequestInfo) (l : Local) (s : Shared) : Prop :=
  let key := self.cacheKey hk name rtype info
  let miss := (self.lookup hk name rtype info).run handle l s
  ∀ records e, miss.1 = .ok records → miss.2.2.cache.entryAt key = some e →
    ∀ l' s' e', s'.cache.entryAt key = some e' → e'.responseBytes = e.responseBytes →
      ∃ records', ((self.lookup hk name rtype info).run handle l' s').1 = .ok records' ∧
        SameRecords records records'

/-- When the answer of a miss is the list it stores. Without DNS64 records it returns the upstream
answer and stores it with its DNAME substitutions: no DNAME may name another target. With DNS64
records it returns the stored list and the addresses of the first CNAME's target: there may be
none. -/
def HitAgreesWhen (self : CacheForwardAuthority) (hk : Hickory) (name : LowerName)
    (rtype : RecordType) (l : Local) : Prop :=
  let fwd := fwdName name
  ∀ lookup, self.resolved l.upstream fwd rtype l.asked = .ok lookup →
    let dns64 := self.dns64Of fwd rtype lookup (self.chainedA fwd rtype l)
    let records := rewritten fwd lookup dns64
    self.filter.chainTooLong records = false → (hk.toVec (cacheMessage records)).isSome →
    if dns64 = [] then ∀ r ∈ lookup, ∀ dname, r.data = .ANAME dname → dname.eq fwd
    else targetRecords hk records (l.after (self.assemble fwd rtype)) = []

theorem synthesizeDnameCnames_eq_nil_iff (records : List Record) (original : Name) :
    synthesizeDnameCnames records original = [] ↔
      ∀ r ∈ records, ∀ dname, r.data = .ANAME dname → dname.eq original := by
  unfold synthesizeDnameCnames
  rw [List.filterMap_eq_nil_iff]
  constructor
  · intro h r hr dname hd
    have := h r hr
    rw [hd] at this
    by_contra hne
    simp [hne] at this
  · intro h r hr
    split
    · rename_i dname hd
      rw [if_pos (h r hr dname hd)]
    · rfl

/-- A later hit on an entry that holds the encoding of `records`. -/
theorem lookup_stored {self : CacheForwardAuthority} {hk : Hickory} (hrt : hk.RoundTrips)
    {name : LowerName} {rtype : RecordType} (hany : rtype ≠ .ANY) {info : Option RequestInfo}
    {records : List Record} {e : CacheEntry}
    (henc : hk.toVec (cacheMessage records) = some e.responseBytes) {s : Shared}
    (hres : s.cache.entryAt (self.cacheKey hk name rtype info) = some e) (l : Local) :
    ((self.lookup hk name rtype info).run handle l s).1 = .ok (records.map Record.qualified) := by
  rw [run_lookup self hk name hany]
  dsimp only
  rw [hres, Option.bind_some, hrt _ _ henc]
  rfl

/-- The lists agree when the condition on the upstream answer holds. -/
theorem sameRecords_answerOf_iff (hk : Hickory) {lookup dns64 records : List Record} {fwd : Name}
    (hrec : records = lookup ++ (dns64 ++ synthesizeDnameCnames lookup fwd)) (l : Local) :
    SameRecords (answerOf hk ⟨lookup, dns64, records⟩ l) records ↔
      if dns64 = [] then ∀ r ∈ lookup, ∀ dname, r.data = .ANAME dname → dname.eq fwd
      else targetRecords hk records l = [] := by
  unfold answerOf
  by_cases hd : dns64 = []
  · subst hd
    simp only [List.isEmpty_nil, Bool.not_true, Bool.false_eq_true, if_false, if_true]
    rw [hrec, List.nil_append, sameRecords_append_right_iff, synthesizeDnameCnames_eq_nil_iff]
  · have hne : dns64.isEmpty = false := by simpa using hd
    simp only [hne, Bool.not_false, if_true, hd, if_false]
    exact sameRecords_append_left_iff records _

section Miss

variable {self : CacheForwardAuthority} {hk : Hickory} {name : LowerName} {rtype : RecordType}
  {info : Option RequestInfo} {l : Local} {s : Shared} (hany : rtype ≠ .ANY)
  (habsent : s.cache.entryAt (self.cacheKey hk name rtype info) = none)

include hany habsent

theorem lookup_absent :
    (self.lookup hk name rtype info).run handle l s =
      (self.missPath hk (self.cacheKey hk name rtype info) name rtype).run handle l
        (s.probe l (self.cacheKey hk name rtype info) name rtype) := by
  rw [run_lookup self hk name hany]
  dsimp only
  rw [habsent]
  rfl

theorem lookup_absent_fst :
    ((self.lookup hk name rtype info).run handle l s).1 =
      (self.assembled (fwdName name) rtype l).map fun a =>
        answerOf hk a (l.after (self.assemble (fwdName name) rtype)) := by
  rw [lookup_absent hany habsent]
  exact run_missPath_fst self hk _ name rtype l _

/-- The entry a miss leaves under its key: the gathered records, when they encode. -/
theorem lookup_absent_entry :
    (((self.lookup hk name rtype info).run handle l s).2.2.cache.entryAt
        (self.cacheKey hk name rtype info)).map (·.responseBytes) =
      match self.assembled (fwdName name) rtype l with
      | .error _ => none
      | .ok a => hk.toVec (cacheMessage a.records) := by
  have hprobe : (s.probe l (self.cacheKey hk name rtype info) name rtype).cache.entryAt
      (self.cacheKey hk name rtype info) = none := by
    unfold Shared.probe
    rw [habsent, handle_lookup_none habsent]
    dsimp only
    rw [LiveCache.entryAt_lookupWithMetrics, habsent]
    rfl
  rw [lookup_absent hany habsent, run_missPath_cache]
  cases self.assembled (fwdName name) rtype l with
  | error e =>
    dsimp only
    rw [hprobe]
    rfl
  | ok a =>
    dsimp only [stored]
    cases hk.toVec (cacheMessage a.records) with
    | none =>
      dsimp only
      rw [hprobe]
      rfl
    | some bytes =>
      dsimp only
      rw [LiveCache.entryAt_insert]
      rfl

/-- A miss that fails has nothing to repeat. -/
theorem hitAgrees_of_error {e : LookupError}
    (hasm : self.assembled (fwdName name) rtype l = .error e) :
    HitAgrees self hk name rtype info l s := by
  intro records entry hret
  rw [lookup_absent_fst hany habsent, hasm] at hret
  exact absurd hret (by simp [Except.map])

/-- A miss that gathered `a`: what it returns against what it stored. -/
theorem hitAgrees_iff_of_ok (hrt : hk.RoundTrips) {a : Assembled}
    (hasm : self.assembled (fwdName name) rtype l = .ok a) :
    HitAgrees self hk name rtype info l s ↔
      ((hk.toVec (cacheMessage a.records)).isSome →
        SameRecords (answerOf hk a (l.after (self.assemble (fwdName name) rtype))) a.records) := by
  have hfst := lookup_absent_fst (l := l) hany habsent
  have hentry := lookup_absent_entry (l := l) hany habsent
  rw [hasm] at hfst hentry
  constructor
  · intro h hsome
    obtain ⟨bytes, henc⟩ := Option.isSome_iff_exists.mp hsome
    dsimp only at hentry
    rw [henc] at hentry
    obtain ⟨e, he, hbytes⟩ := Option.map_eq_some_iff.mp hentry
    -- the state the miss leaves is one the next query may find
    obtain ⟨records', hhit, hsame⟩ := h _ e hfst he l _ e he rfl
    rw [lookup_stored hrt hany (by rw [henc, ← hbytes]) he] at hhit
    obtain rfl := Except.ok.inj hhit
    exact (sameRecords_qualified_iff _ _).mp hsame
  · intro h records e hret he l' s' e' he' hbytes
    rw [he] at hentry
    have henc : hk.toVec (cacheMessage a.records) = some e'.responseBytes := by
      rw [hbytes]
      exact hentry.symm
    rw [hfst] at hret
    obtain rfl := Except.ok.inj hret
    refine ⟨_, lookup_stored hrt hany henc he' l', ?_⟩
    exact (sameRecords_qualified_iff _ _).mpr (h (by rw [henc]; rfl))

end Miss

/-- **When a hit repeats the miss**: an upstream answer whose stored form is what was returned. -/
theorem hit_agrees_iff (self : CacheForwardAuthority) (hk : Hickory) (hrt : hk.RoundTrips)
    (name : LowerName) {rtype : RecordType} (hany : rtype ≠ .ANY) (info : Option RequestInfo)
    (l : Local) (s : Shared)
    (habsent : s.cache.entryAt (self.cacheKey hk name rtype info) = none) :
    HitAgrees self hk name rtype info l s ↔ HitAgreesWhen self hk name rtype l := by
  cases hasm : self.assembled (fwdName name) rtype l with
  | error e =>
    refine iff_of_true (hitAgrees_of_error hany habsent hasm) ?_
    intro lookup hlookup dns64 records hshort
    have hok : self.assembled (fwdName name) rtype l = .ok ⟨lookup, dns64, records⟩ :=
      (self.assembled_ok_iff).mpr ⟨hlookup, rfl, rfl, hshort⟩
    exact absurd (hasm.symm.trans hok) (by simp)
  | ok a =>
    obtain ⟨lookup, dns64, records⟩ := a
    obtain ⟨hres, hdns64, hrec, hshort⟩ := (self.assembled_ok_iff).mp hasm
    dsimp only at hres hdns64 hrec hshort
    subst hdns64 hrec
    have happend := rewritten_dns64Of self (fwdName name) rtype lookup
      (self.chainedA (fwdName name) rtype l)
    rw [hitAgrees_iff_of_ok hany habsent hrt hasm, sameRecords_answerOf_iff hk happend]
    constructor
    · intro h lookup' hlookup'
      rw [hres] at hlookup'
      obtain rfl := Except.ok.inj hlookup'
      intro _ _ _
      exact h
    · intro h
      exact h lookup hres hshort

/-- A miss and the hit after it, with an upstream that gives one address. -/
theorem hit_agrees_single_address :
    let hk := Hickory.knowing [(cacheMessage [wwwRecord], wwwWire)]
    let l : Local := ⟨.query wwwExample .A, fixed apexAlsoAnswers, 0⟩
    HitAgrees CacheForwardAuthority.default hk wwwExample .A none l
      (Shared.initial CacheConfig.default (by decide)) := by
  dsimp only
  rw [hit_agrees_iff _ _ (Hickory.roundTrips_knowing (by decide)) _ (by decide) _ _ _ rfl]
  intro lookup hlookup
  obtain rfl : [wwwRecord] = lookup := Except.ok.inj hlookup
  intro dns64 records _ _
  have hnil : dns64 = [] := rfl
  rw [if_pos hnil]
  intro r hr dname hd
  rw [List.mem_singleton.mp hr] at hd
  exact absurd hd (by simp [wwwRecord])

/-- An alias at `www.example.com`. -/
def aliasRecord : Record :=
  ⟨.ofLabels ["www", "example", "com"] true, 300, .CNAME (.ofLabels ["cdn", "test"] true)⟩

/-- The address behind the alias. -/
def cdnRecord : Record := ⟨.ofLabels ["cdn", "test"] true, 300, .A ⟨203, 0, 113, 9⟩⟩

/-- The IPv6 address behind the alias. -/
def cdnRecord6 : Record :=
  ⟨.ofLabels ["cdn", "test"] true, 300,
    .AAAA ⟨#v[0x20, 1, 0xd, 0xb8, 0, 0, 0, 0, 0, 0, 0, 0, 0, 0, 0, 9]⟩⟩

/-- An alias whose target has an address of either kind. -/
def aliasOfBoth (n : Name) (rtype : RecordType) : Reply :=
  if n.labels = wwwExample.name.labels then
    match rtype with
    | .A => .ok [aliasRecord, cdnRecord]
    | .AAAA => .ok [aliasRecord, cdnRecord6]
    | _ => .error (.NoRecordsFound .NoError)
  else if n.labels = cdnRecord.name.labels then
    match rtype with
    | .A => .ok [cdnRecord]
    | .AAAA => .ok [cdnRecord6]
    | _ => .error (.NoRecordsFound .NoError)
  else .error (.NoRecordsFound .NXDomain)

/-- The well-known DNS64 prefix `64:ff9b::/96`. -/
def wellKnownPrefix : Dns64Prefix :=
  ⟨⟨#v[0, 0x64, 0xff, 0x9b, 0, 0, 0, 0, 0, 0, 0, 0, 0, 0, 0, 0]⟩, 96⟩

/-- The AAAA record DNS64 makes of `cdnRecord` for `www.example.com`. -/
def synthesizedRecord : Record :=
  ⟨.ofLabels ["www", "example", "com"] false, 300,
    .AAAA ⟨#v[0, 0x64, 0xff, 0x9b, 0, 0, 0, 0, 0, 0, 0, 0, 203, 0, 113, 9]⟩⟩

/-- The wire form of the alias with the address of its target and the synthesized one; the owners of
the addresses are pointers to the names of the alias. -/
def aliasWire : Bytes :=
  [0, 0, 0, 0, 0, 0, 0, 3, 0, 0, 0, 0] ++
    ([3] ++ ascii "www" ++ [7] ++ ascii "example" ++ [3] ++ ascii "com" ++ [0]) ++
    [0, 5, 0, 1, 0, 0, 1, 44, 0, 10] ++ ([3] ++ ascii "cdn" ++ [4] ++ ascii "test" ++ [0]) ++
    [0xc0, 39, 0, 28, 0, 1, 0, 0, 1, 44, 0, 16] ++
    [0x20, 1, 0xd, 0xb8, 0, 0, 0, 0, 0, 0, 0, 0, 0, 0, 0, 9] ++
    [0xc0, 12, 0, 28, 0, 1, 0, 0, 1, 44, 0, 16] ++
    [0, 0x64, 0xff, 0x9b, 0, 0, 0, 0, 0, 0, 0, 0, 203, 0, 113, 9]

/-- The codec with the wire form of what a miss stores for the alias. -/
def aliasCodec : Hickory :=
  .knowing [(cacheMessage [aliasRecord, cdnRecord6, synthesizedRecord], aliasWire)]

/-- The forwarder that synthesizes beside the addresses upstream has. -/
def alwaysDns64Forwarder : CacheForwardAuthority :=
  { CacheForwardAuthority.default with
    dns64Prefix := some wellKnownPrefix
    dns64AlwaysSynthesize := true }

/-- The AAAA query for `www.example.com` to that forwarder. -/
def aliasQuery (s : Shared) : Answer × Local × Shared :=
  (alwaysDns64Forwarder.lookup aliasCodec wwwExample .AAAA none).run handle
    ⟨.query wwwExample .AAAA, fixed aliasOfBoth, 0⟩ s

/-- With DNS64 the miss also returns the addresses of the target, which are not in the entry: the
next query gets two records less. -/
theorem hit_loses_target_address :
    let start := Shared.initial CacheConfig.default (by decide)
    (aliasQuery start).1 =
        .ok [aliasRecord, cdnRecord6, synthesizedRecord, cdnRecord, cdnRecord6] ∧
      (aliasQuery (aliasQuery start).2.2).1 =
        .ok ([aliasRecord, cdnRecord6, synthesizedRecord].map Record.qualified) ∧
      ¬ HitAgrees alwaysDns64Forwarder aliasCodec wwwExample .AAAA none
        ⟨.query wwwExample .AAAA, fixed aliasOfBoth, 0⟩ start := by
  refine ⟨rfl, rfl, ?_⟩
  have hasm : alwaysDns64Forwarder.assembled (fwdName wwwExample) .AAAA
      ⟨.query wwwExample .AAAA, fixed aliasOfBoth, 0⟩ =
        .ok ⟨[aliasRecord, cdnRecord6], [synthesizedRecord],
          [aliasRecord, cdnRecord6, synthesizedRecord]⟩ := rfl
  have hrt : aliasCodec.RoundTrips := Hickory.roundTrips_knowing (by decide)
  intro h
  have hsame := (hitAgrees_iff_of_ok (by decide) rfl hrt hasm).mp h rfl
  exact absurd (congrArg List.length hsame) (by decide)

end Heimdallr.Resolver
