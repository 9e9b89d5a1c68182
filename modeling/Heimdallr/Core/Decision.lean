import Heimdallr.Core.Suffixes

/-!
# The decision of the filter (`core/filter/mod.rs`)

`is_blocked` goes through three stages: the subnets, the patterns, the two lists. The first subnet
that contains the client settles the call, then a pattern that matches, then the lists.
`isBlocked_eq` says which stage settles a call (`Verdict`), what the answer is and whether it is
counted; the rest follows from it.

* A client with an IPv6 address is in no subnet, as the source looks at IPv4 clients only.
* A pattern is the predicate it matches, on the name as it is given. The lists see the normal form
  of the name: lower case, without dots at its end.
* The two stages that block count differently. A block by a pattern is counted in a registry that is
  made for the occasion (`MetricsRegistry::new().increment`) and dropped, one by the lists in the
  global registry, and one by a subnet nowhere.

Results:
* **`spelling_iff`**: when two spellings of one name get the same answer.
* **`allowlist_precedence_iff`**: the allowlist comes before the blocklist and after the patterns.
* **`blocked_total_iff`**: when `blocked_total` grows by one for each blocked call.

Out of scope: the syntax of patterns. What `Regex::new` makes of a text is a parameter of
`Filter.new`.
-/

namespace Heimdallr

/-! ## Which stage settles a call -/

/-- What settles a call of `is_blocked`. -/
inductive Verdict
  | subnet (block : Bool)
  | pattern
  | lists (block : Bool)
  deriving DecidableEq, Repr

namespace Verdict

/-- What `is_blocked` returns. -/
def blocks : Verdict → Bool
  | subnet block => block
  | pattern => true
  | lists block => block

/-- Blocked and counted in the global registry. -/
def counted : Verdict → Bool
  | lists block => block
  | _ => false

end Verdict

namespace Filter

/-- A pattern matches the name as it is given. -/
def PatternMatches (f : Filter) (qname : String) : Prop :=
  ∃ pattern ∈ f.regexBlocklist, pattern qname = true

instance (f : Filter) (qname : String) : Decidable (f.PatternMatches qname) :=
  inferInstanceAs (Decidable (∃ pattern ∈ f.regexBlocklist, pattern qname = true))

/-- The first stage of `is_blocked` that has something to say: the client's subnet, the patterns,
the lists. -/
def verdict (f : Filter) (qname : String) (client : IpAddr) : Verdict :=
  match f.perClientRule client with
  | some block => .subnet block
  | none =>
    if f.PatternMatches qname then .pattern else .lists (blocked f.blocklist f.allowlist qname)

/-- **What a call does.** -/
theorem isBlocked_eq (f : Filter) (qname : String) (client : IpAddr) (m : Metrics) :
    f.isBlocked qname client m =
      ((f.verdict qname client).blocks,
        if (f.verdict qname client).counted then m.increment .BlockedTotal 1 else m) := by
  unfold isBlocked verdict
  cases f.perClientRule client with
  | some block => rfl
  | none =>
    have hany : f.regexBlocklist.any (· qname) = true ↔ f.PatternMatches qname :=
      List.any_eq_true
    dsimp only
    by_cases hpattern : f.PatternMatches qname
    · rw [if_pos (hany.mpr hpattern), if_pos hpattern]
      rfl
    · rw [if_neg (mt hany.mp hpattern), if_neg hpattern]
      rfl

/-- The verdict where no subnet contains the client. -/
theorem verdict_of_none {f : Filter} {client : IpAddr} (h : f.perClientRule client = none)
    (qname : String) :
    f.verdict qname client =
      if f.PatternMatches qname then .pattern
      else .lists (blocked f.blocklist f.allowlist qname) := by
  unfold verdict
  rw [h]

end Filter

/-! ## The spelling of a name -/

/-- The same text but for ASCII case and dots at the end. -/
def SpelledAlike (q q' : String) : Prop :=
  ∃ n n', q.toList.map Char.toLower ++ List.replicate n '.' =
    q'.toList.map Char.toLower ++ List.replicate n' '.'

theorem trimEndDots_decompose (s : List Char) :
    ∃ n, s = trimEndDots s ++ List.replicate n '.' := by
  refine ⟨(s.reverse.takeWhile (· == '.')).length, ?_⟩
  have hdots : s.reverse.takeWhile (· == '.') =
      List.replicate (s.reverse.takeWhile (· == '.')).length '.' := by
    refine List.eq_replicate_of_mem fun c hc => ?_
    simpa using List.all_eq_true.mp List.all_takeWhile c hc
  have hsplit := congrArg List.reverse
    (List.takeWhile_append_dropWhile (p := (· == '.')) (l := s.reverse))
  rw [List.reverse_append, List.reverse_reverse, hdots, List.reverse_replicate] at hsplit
  exact hsplit.symm

/-- Two spellings of one name have one normal form. -/
theorem spelledAlike_iff {q q' : String} : SpelledAlike q q' ↔ normalize q = normalize q' := by
  have hnormal : ∀ s : String,
      normalize s = String.ofList (trimEndDots (s.toList.map Char.toLower)) :=
    fun s => by rw [trimEndDots_map_toLower]; rfl
  rw [hnormal, hnormal, String.ofList_inj]
  constructor
  · rintro ⟨n, n', h⟩
    have htrim := congrArg trimEndDots h
    rwa [trimEndDots_append_dots, trimEndDots_append_dots] at htrim
  · intro h
    obtain ⟨n, hn⟩ := trimEndDots_decompose (q.toList.map Char.toLower)
    obtain ⟨n', hn'⟩ := trimEndDots_decompose (q'.toList.map Char.toLower)
    refine ⟨n', n, ?_⟩
    -- each is the common rest with its own dots behind it
    rw [hn, hn', ← h, List.append_assoc, List.append_assoc, List.replicate_append_replicate,
      List.replicate_append_replicate, Nat.add_comm]

theorem blocked_normalize {q q' : String} (h : normalize q = normalize q') (bl : Blocklist)
    (al : Allowlist) : blocked bl al q = blocked bl al q' := by
  unfold blocked Blocklist.isBlocked Allowlist.isAllowed listMatches
  rw [h]

/-- **When spelling does not matter.** A subnet settles both calls, the lists block the name in any
case, or the patterns take both spellings alike. -/
theorem spelling_iff (f : Filter) (client : IpAddr) (q q' : String) (h : SpelledAlike q q')
    (m m' : Metrics) :
    (f.isBlocked q client m).1 = (f.isBlocked q' client m').1 ↔
      f.perClientRule client ≠ none ∨ blocked f.blocklist f.allowlist q = true ∨
        (f.PatternMatches q ↔ f.PatternMatches q') := by
  have hlists := blocked_normalize (spelledAlike_iff.mp h) f.blocklist f.allowlist
  rw [Filter.isBlocked_eq, Filter.isBlocked_eq]
  dsimp only
  cases hrule : f.perClientRule client with
  | some block =>
    refine iff_of_true ?_ (Or.inl (by simp))
    unfold Filter.verdict
    rw [hrule]
  | none =>
    rw [Filter.verdict_of_none hrule, Filter.verdict_of_none hrule, ← hlists]
    cases blocked f.blocklist f.allowlist q <;>
      by_cases hq : f.PatternMatches q <;> by_cases hq' : f.PatternMatches q' <;>
        simp [hq, hq', Verdict.blocks]

/-- The pattern `\.example\.com$`. -/
def dollarFilter : Filter :=
  { Filter.default with regexBlocklist := [fun s => ".example.com".toList.isSuffixOf s.toList] }

/-- The client of the examples. -/
def homeClient : IpAddr := .V4 ⟨192, 0, 2, 7⟩

/-- The pattern takes these two spellings alike. -/
theorem spelling_iff_ads :
    SpelledAlike "ADS.example.com" "ads.example.com" ∧
      (dollarFilter.isBlocked "ADS.example.com" homeClient fun _ => 0).1 =
        (dollarFilter.isBlocked "ads.example.com" homeClient fun _ => 0).1 := by
  have hspelled : SpelledAlike "ADS.example.com" "ads.example.com" := ⟨0, 0, by decide⟩
  refine ⟨hspelled, (spelling_iff dollarFilter homeClient _ _ hspelled _ _).mpr ?_⟩
  exact Or.inr (Or.inr (by decide))

/-- **Spelling decides.** The fully qualified form, which a `LowerName` prints, is not blocked. -/
theorem fully_qualified_passes :
    ¬ ∀ (f : Filter) (client : IpAddr) (q q' : String), SpelledAlike q q' → ∀ m m',
      (f.isBlocked q client m).1 = (f.isBlocked q' client m').1 := by
  intro h
  have hsame := h dollarFilter homeClient "ads.example.com" "ads.example.com."
    ⟨1, 0, by decide⟩ (fun _ => 0) fun _ => 0
  exact absurd hsame (by decide)

/-! ## Precedence -/

/-- **When the allowlist takes precedence.** Wherever no pattern matches. -/
theorem allowlist_precedence_iff (f : Filter) (client : IpAddr) (qname : String)
    (hclient : f.perClientRule client = none) (hallowed : f.allowlist.isAllowed qname = true)
    (m : Metrics) :
    (f.isBlocked qname client m).1 = false ↔ ¬ f.PatternMatches qname := by
  have hlists : blocked f.blocklist f.allowlist qname = false := if_pos hallowed
  rw [Filter.isBlocked_eq, Filter.verdict_of_none hclient, hlists]
  by_cases hpattern : f.PatternMatches qname <;> simp [hpattern, Verdict.blocks]

/-- A blocklisted name below an allowlisted one, and the pattern of `dollarFilter`. -/
def mixedFilter : Filter :=
  { dollarFilter with
    blocklist := ⟨["ads.example.com", "ads.example.net"]⟩
    allowlist := ⟨["example.com", "example.net"]⟩ }

theorem allowlist_precedence_net :
    (mixedFilter.perClientRule homeClient = none ∧
        mixedFilter.allowlist.isAllowed "ads.example.net" = true) ∧
      (mixedFilter.isBlocked "ads.example.net" homeClient fun _ => 0).1 = false := by
  have hallowed : mixedFilter.allowlist.isAllowed "ads.example.net" = true := by decide
  exact ⟨⟨rfl, hallowed⟩,
    (allowlist_precedence_iff mixedFilter homeClient _ rfl hallowed _).mpr (by decide)⟩

theorem allowlisted_blocked :
    mixedFilter.perClientRule homeClient = none ∧
      mixedFilter.allowlist.isAllowed "ads.example.com" = true ∧
      (mixedFilter.isBlocked "ads.example.com" homeClient fun _ => 0).1 = true := by
  decide

/-! ## Counting -/

/-- The arguments of a call of `is_blocked`. -/
structure BlockCall where
  qname : String
  client : IpAddr

namespace Filter

/-- The answers to some calls, and the global counters after them. -/
def answers (f : Filter) : List BlockCall → Metrics → List Bool × Metrics
  | [], m => ([], m)
  | call :: calls, m =>
    let (blocked, m) := f.isBlocked call.qname call.client m
    let (rest, m) := f.answers calls m
    (blocked :: rest, m)

/-- Blocked, and left out of the global counter. -/
def uncounted (f : Filter) (call : BlockCall) : Bool :=
  (f.verdict call.qname call.client).blocks && !(f.verdict call.qname call.client).counted

theorem uncounted_iff {f : Filter} {call : BlockCall} :
    f.uncounted call = true ↔
      f.perClientRule call.client = some true ∨
        f.perClientRule call.client = none ∧ f.PatternMatches call.qname := by
  unfold uncounted verdict
  cases f.perClientRule call.client with
  | some block => simp [Verdict.blocks, Verdict.counted]
  | none =>
    dsimp only
    by_cases hpattern : f.PatternMatches call.qname
    · simp [hpattern, Verdict.blocks, Verdict.counted]
    · simp [hpattern, Verdict.blocks, Verdict.counted]

/-- One call: a block is either counted or uncounted. -/
theorem isBlocked_balance (f : Filter) (call : BlockCall) (m : Metrics) :
    let r := f.isBlocked call.qname call.client m
    r.2 .BlockedTotal + (if f.uncounted call then 1 else 0) =
      m .BlockedTotal + if r.1 then 1 else 0 := by
  rw [isBlocked_eq]
  unfold uncounted
  cases f.verdict call.qname call.client with
  | subnet block => cases block <;> rfl
  | pattern => rfl
  | lists block => cases block <;> rfl

/-- Every run: the counter lags behind the blocked calls by those left out. -/
theorem answers_balance (f : Filter) (calls : List BlockCall) (m : Metrics) :
    (f.answers calls m).2 .BlockedTotal + calls.countP f.uncounted =
      m .BlockedTotal + (f.answers calls m).1.count true := by
  induction calls generalizing m with
  | nil => rfl
  | cons call calls ih =>
    have hcall := f.isBlocked_balance call m
    have hrest := ih (f.isBlocked call.qname call.client m).2
    unfold answers
    rw [List.countP_cons, List.count_cons]
    dsimp only at hcall ⊢
    simp only [beq_iff_eq]
    omega

/-- **When every block is counted once.** No call comes from a blocked subnet, and none, from outside
the subnets, has a name a pattern matches. -/
theorem blocked_total_iff (f : Filter) (calls : List BlockCall) (m : Metrics) :
    (f.answers calls m).2 .BlockedTotal =
        m .BlockedTotal + (f.answers calls m).1.count true ↔
      ∀ call ∈ calls, f.perClientRule call.client ≠ some true ∧
        (f.perClientRule call.client = none → ¬ f.PatternMatches call.qname) := by
  have hbalance := f.answers_balance calls m
  have hzero : (f.answers calls m).2 .BlockedTotal =
      m .BlockedTotal + (f.answers calls m).1.count true ↔ calls.countP f.uncounted = 0 := by
    omega
  rw [hzero, List.countP_eq_zero]
  refine forall_congr' fun call => forall_congr' fun _ => ?_
  rw [uncounted_iff, not_or, not_and]

end Filter

/-- **Blocks that are not counted.** -/
theorem pattern_block_uncounted :
    let r := dollarFilter.answers [⟨"ads.example.com", homeClient⟩] fun _ => 0
    r.1.count true = 1 ∧ r.2 .BlockedTotal = 0 := by
  decide

end Heimdallr
