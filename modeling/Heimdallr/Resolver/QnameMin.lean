import Heimdallr.Resolver.Effects

/-!
# QNAME minimization (`core/resolver/qname_min.rs`)

`peelLabels` lists the query name and its shorter and shorter suffixes down to the root, and
`resolveWithMinimization` asks for them in that order, up to the iteration cap. It keeps the last
non-empty answer, and asks for the full name once more when there was none.

* The order is the one of the loop: the longest name first. The documentation of the module has the
  names grow, from the top-level domain to the full name, and the two comments in the loop fit that
  order only.
* The mode (`Strict`, `Incremental`, `Aggressive`) only shows in a log line, and no branch reads it.
* A suffix is asked for in the type of the query. The root is asked for too, when the cap allows it.
  A name without a label that counts is turned away at once.
* The resolver behind it (`QnameMinResolver`) is the task's `Upstream`.

Results:
* `eval_resolveWithMinimization`: what the driver returns, as a fold over the replies.
* `minimized_agrees_iff`: for an upstream that answers by a function, when the driver's answer is
  the one that function gives for the query name.
* **`gradual_iff`**: when the names asked for reveal the labels one by one.
-/

namespace Heimdallr.Resolver

open Lib

/-- `QnameMinMode`. -/
inductive QnameMinMode
  | Incremental
  | Aggressive
  | Strict
  deriving DecidableEq, Repr

/-- `ResolverQnameMinimization`. The mode only shows in a log line. -/
structure QnameMinConfig where
  enable : Bool
  mode : QnameMinMode
  maxIterations : UInt8
  deriving DecidableEq, Repr

/-- `ResolverQnameMinimization::default`. -/
def QnameMinConfig.default : QnameMinConfig := ⟨false, .Strict, 7⟩

/-- `QnameMinResult`. -/
structure QnameMinResult where
  records : List Record
  finalQname : Name
  steps : UInt8
  fellBack : Bool
  deriving DecidableEq, Repr

/-! ## The label sequence -/

/-- The loop of `peel_labels` from `current`, and the root pushed after it. Every round drops a
label, so a name of `n` labels is done within `n` rounds. -/
def peelLoop : Nat → Name → List Name
  | 0, current => if current.isRoot then [] else [Name.root]
  | n + 1, current =>
    if 1 < current.numLabels then current.baseName :: peelLoop n current.baseName
    else if current.isRoot then [] else [Name.root]

/-- `peel_labels`. -/
def peelLabels (original : Name) : List Name :=
  original :: peelLoop original.labels.length original

/-- More rounds than labels change nothing. -/
theorem peelLoop_rounds {n : Nat} {current : Name} (h : current.labels.length ≤ n) :
    peelLoop n current = peelLoop current.labels.length current := by
  induction n generalizing current with
  | zero => rw [Nat.le_zero.mp h]
  | succ n ih =>
    cases hl : current.labels with
    | nil => simp [peelLoop, Name.numLabels, hl]
    | cons x rest =>
      have hb : current.baseName.labels = rest := by simp [Name.baseName, hl]
      have hlen : rest.length ≤ n := by
        rw [hl, List.length_cons] at h
        omega
      rw [List.length_cons, peelLoop, peelLoop, ih (by rw [hb]; exact hlen), hb]

/-! ## The driver -/

/-- The variables of the loop. -/
structure MinState where
  lastRecords : List Record
  lastQname : Name
  lastError : Option NetError
  stepsTaken : UInt8

/-- One step: a non-empty answer replaces the kept one, an error is remembered. -/
def MinState.step (st : MinState) (label : Name) (step : Nat) : Reply → MinState
  | .ok records =>
    if !records.isEmpty then
      { lastRecords := records, lastQname := label, lastError := none,
        stepsTaken := UInt8.ofNat step }
    else { st with lastError := none, stepsTaken := UInt8.ofNat step }
  | .error e => { st with lastError := some e, stepsTaken := UInt8.ofNat step }

/-- `for (i, label) in labels.iter().take(max).enumerate()`. -/
def minLoop (qtype : RecordType) : List Name → Nat → MinState → Net MinState
  | [], _, st => pure st
  | label :: labels, i, st => do
    let reply ← upstream label qtype
    minLoop qtype labels (i + 1) (st.step label (i + 1) reply)

/-- The labels that are asked for: the first `max(max_iterations, 1)` of the sequence. -/
def probed (original : Name) (config : QnameMinConfig) : List Name :=
  let labels := peelLabels original
  labels.take (min (max config.maxIterations.toNat 1) labels.length)

/-- `resolve_with_minimization`. -/
def resolveWithMinimization (original : Name) (qtype : RecordType) (config : QnameMinConfig) :
    Net (Except NetError QnameMinResult) :=
  if original.numLabels = 0 then
    return .error (.Io "qname-min: cannot minimize root name")
  else do
    let st ← minLoop qtype (probed original config) 0 ⟨[], original, none, 0⟩
    incrementGlobal .QminStepsTotal st.stepsTaken.toNat
    if st.lastRecords.isEmpty then
      match ← upstream original qtype with
      | .error e => return .error (st.lastError.getD e)
      | .ok records =>
        incrementGlobal .QminStepsTotal 1
        return .ok
          { records, finalQname := original, steps := st.stepsTaken, fellBack := true }
    else
      return .ok
        { records := st.lastRecords, finalQname := st.lastQname, steps := st.stepsTaken,
          fellBack := false }

/-! ## What the loop computes -/

/-- The state after the replies `rs` to `labels`, from step `i` on. -/
def foldReplies : List (Name × Reply) → Nat → MinState → MinState
  | [], _, st => st
  | (label, reply) :: rs, i, st => foldReplies rs (i + 1) (st.step label (i + 1) reply)

/-- The replies to one question per label, beginning with the task's `asked`-th. -/
def repliesTo (u : Upstream) (qtype : RecordType) : Nat → List Name → List (Name × Reply)
  | _, [] => []
  | asked, label :: labels => (label, u asked label qtype) :: repliesTo u qtype (asked + 1) labels

theorem eval_minLoop (qtype : RecordType) (labels : List Name) :
    ∀ (i : Nat) (st : MinState) (l : Local),
      (minLoop qtype labels i st).eval netAnswer l =
        (foldReplies (repliesTo l.upstream qtype l.asked labels) i st,
          { l with asked := l.asked + labels.length }) := by
  induction labels with
  | nil => intro i st l; rfl
  | cons label labels ih =>
    intro i st l
    unfold minLoop
    rw [Prog.eval_bind]
    show (minLoop qtype labels _ _).eval netAnswer { l with asked := l.asked + 1 } = _
    have hlen : l.asked + 1 + labels.length = l.asked + (labels.length + 1) := by omega
    rw [ih, List.length_cons, ← hlen]
    rfl

/-- A reply with at least one record. -/
def HasRecords (r : Reply) : Prop := ∃ x xs, r = .ok (x :: xs)

/-- The kept records are those of the last reply that has any. -/
theorem foldReplies_none {rs : List (Name × Reply)} (h : ∀ r ∈ rs, ¬ HasRecords r.2) :
    ∀ (i : Nat) (st : MinState), (foldReplies rs i st).lastRecords = st.lastRecords := by
  induction rs with
  | nil => intro i st; rfl
  | cons r rs ih =>
    intro i st
    obtain ⟨label, reply⟩ := r
    rw [foldReplies, ih fun r hr => h r (List.mem_cons_of_mem _ hr)]
    cases reply with
    | error e => rfl
    | ok records =>
      cases records with
      | nil => rfl
      | cons x xs => exact absurd ⟨x, xs, rfl⟩ (h _ List.mem_cons_self)

theorem foldReplies_last {before after : List (Name × Reply)} {label : Name} {records : List Record}
    (hrec : records ≠ []) (h : ∀ r ∈ after, ¬ HasRecords r.2) :
    ∀ (i : Nat) (st : MinState),
      (foldReplies (before ++ (label, .ok records) :: after) i st).lastRecords = records := by
  induction before with
  | nil =>
    intro i st
    rw [List.nil_append, foldReplies, foldReplies_none h]
    simp [MinState.step, hrec]
  | cons r before ih =>
    intro i st
    obtain ⟨label', reply⟩ := r
    exact ih (i + 1) _

/-! ## What the driver returns -/

/-- The state after the loop. -/
def minFinal (u : Upstream) (original : Name) (qtype : RecordType) (config : QnameMinConfig)
    (asked : Nat) : MinState :=
  foldReplies (repliesTo u qtype asked (probed original config)) 0 ⟨[], original, none, 0⟩

/-- The records the driver returns, or that it fails. -/
def minimized (u : Upstream) (original : Name) (qtype : RecordType) (config : QnameMinConfig)
    (asked : Nat) : Reply :=
  if original.numLabels = 0 then .error (.Io "qname-min: cannot minimize root name")
  else
    let st := minFinal u original qtype config asked
    if st.lastRecords.isEmpty then
      match u (asked + (probed original config).length) original qtype with
      | .error e => .error (st.lastError.getD e)
      | .ok records => .ok records
    else .ok st.lastRecords

theorem eval_resolveWithMinimization (original : Name) (qtype : RecordType)
    (config : QnameMinConfig) (l : Local) :
    ((resolveWithMinimization original qtype config).eval netAnswer l).1.map (·.records) =
      minimized l.upstream original qtype config l.asked := by
  unfold resolveWithMinimization minimized
  split
  · rfl
  · rw [Prog.eval_bind, eval_minLoop, Prog.eval_bind]
    dsimp only [minFinal]
    split
    · rw [Prog.eval_bind]
      show Except.map _ (Prog.eval netAnswer (match l.upstream _ original qtype with
        | .error e => _
        | .ok records => _) _).1 = _
      dsimp only [incrementGlobal, Prog.eval_perform, netAnswer]
      cases l.upstream (l.asked + (probed original config).length) original qtype <;> rfl
    · rfl

/-- The upstream that answers every question by a function of it. -/
def fixed (f : Name → RecordType → Reply) : Upstream := fun _ => f

theorem repliesTo_fixed (f : Name → RecordType → Reply) (qtype : RecordType)
    (labels : List Name) :
    ∀ asked, repliesTo (fixed f) qtype asked labels = labels.map fun s => (s, f s qtype) := by
  induction labels with
  | nil => intro asked; rfl
  | cons label labels ih => intro asked; rw [repliesTo, ih]; rfl

/-- Both fail, or both succeed with the same records. -/
def SameAnswer {ε ε' : Type} : Except ε (List Record) → Except ε' (List Record) → Prop
  | .ok a, .ok b => a = b
  | .error _, .error _ => True
  | _, _ => False

/-- The proper suffixes of the query name that are asked for. -/
def probedSuffixes (original : Name) (config : QnameMinConfig) : List Name :=
  (probed original config).tail

theorem probed_eq (original : Name) (config : QnameMinConfig) :
    probed original config = original :: probedSuffixes original config := by
  unfold probedSuffixes probed peelLabels
  obtain ⟨n, hn⟩ : ∃ n, min (max config.maxIterations.toNat 1)
      (original :: peelLoop original.labels.length original).length = n + 1 :=
    ⟨_, (Nat.succ_pred_eq_of_pos (by rw [List.length_cons]; omega)).symm⟩
  dsimp only
  rw [hn]
  rfl

/-- When minimization does not change the answer: an upstream without an answer for a name without
labels; for any other name, the last suffix asked for that has records has those of the name. -/
def MinimizationAgrees (f : Name → RecordType → Reply) (original : Name) (qtype : RecordType)
    (config : QnameMinConfig) : Prop :=
  if original.numLabels = 0 then ∃ e, f original qtype = .error e
  else
    ∀ before s after, probedSuffixes original config = before ++ s :: after →
      HasRecords (f s qtype) → (∀ t ∈ after, ¬ HasRecords (f t qtype)) →
      f original qtype = f s qtype

/-- The kept records when a proper suffix has records: those of the last such suffix. -/
theorem minFinal_fixed_last {f : Name → RecordType → Reply} {original s : Name}
    {qtype : RecordType} {config : QnameMinConfig} {before after : List Name} {x : Record}
    {xs : List Record} (asked : Nat)
    (hsplit : probedSuffixes original config = before ++ s :: after)
    (hs : f s qtype = .ok (x :: xs)) (hafter : ∀ t ∈ after, ¬ HasRecords (f t qtype)) :
    (minFinal (fixed f) original qtype config asked).lastRecords = x :: xs := by
  unfold minFinal
  rw [repliesTo_fixed, probed_eq, hsplit, ← List.cons_append, List.map_append,
    List.map_cons (a := s), hs]
  refine foldReplies_last (by simp) ?_ _ _
  intro r hr
  obtain ⟨t, ht, rfl⟩ := List.mem_map.mp hr
  exact hafter t ht

/-- The kept records when no proper suffix has any: those of the name itself. -/
theorem minFinal_fixed_none {f : Name → RecordType → Reply} {original : Name}
    {qtype : RecordType} {config : QnameMinConfig} (asked : Nat)
    (hnone : ∀ t ∈ probedSuffixes original config, ¬ HasRecords (f t qtype)) :
    (minFinal (fixed f) original qtype config asked).lastRecords =
      match f original qtype with
      | .ok records => records
      | .error _ => [] := by
  unfold minFinal
  rw [repliesTo_fixed, probed_eq, List.map_cons, foldReplies, foldReplies_none]
  · cases f original qtype with
    | error e => rfl
    | ok records => cases records <;> rfl
  · intro r hr
    obtain ⟨t, ht, rfl⟩ := List.mem_map.mp hr
    exact hnone t ht

/-- Either no probed suffix has records, or there is a last one that does. -/
theorem exists_last_suffix (f : Name → RecordType → Reply) (qtype : RecordType)
    (names : List Name) :
    (∀ t ∈ names, ¬ HasRecords (f t qtype)) ∨
      ∃ before s x xs after, names = before ++ s :: after ∧ f s qtype = .ok (x :: xs) ∧
        ∀ t ∈ after, ¬ HasRecords (f t qtype) := by
  induction names with
  | nil => exact Or.inl (by simp)
  | cons n names ih =>
    rcases ih with hnone | ⟨before, s, x, xs, after, rfl, hs, hafter⟩
    · by_cases hn : HasRecords (f n qtype)
      · obtain ⟨x, xs, hx⟩ := hn
        exact Or.inr ⟨[], n, x, xs, names, rfl, hx, hnone⟩
      · left
        intro t ht
        rcases List.mem_cons.mp ht with rfl | ht
        · exact hn
        · exact hnone t ht
    · exact Or.inr ⟨n :: before, s, x, xs, after, rfl, hs, hafter⟩

/-- **When minimization keeps the answer**, for an upstream that answers by a function. -/
theorem minimized_agrees_iff (f : Name → RecordType → Reply) (original : Name)
    (qtype : RecordType) (config : QnameMinConfig) (asked : Nat) :
    SameAnswer (minimized (fixed f) original qtype config asked) (f original qtype) ↔
      MinimizationAgrees f original qtype config := by
  unfold minimized MinimizationAgrees
  split
  · cases f original qtype <;> simp [SameAnswer]
  · dsimp only [fixed]
    rcases exists_last_suffix f qtype (probedSuffixes original config) with
      hnone | ⟨before, s, x, xs, after, hsplit, hs, hafter⟩
    · -- no suffix interferes: the probe of the name itself, or the fallback, gives the answer
      have hlast := minFinal_fixed_none asked hnone
      have hcond : ∀ before s after, probedSuffixes original config = before ++ s :: after →
          HasRecords (f s qtype) → (∀ t ∈ after, ¬ HasRecords (f t qtype)) →
          f original qtype = f s qtype := by
        intro before s after hsplit hs _
        exact absurd hs (hnone s (by rw [hsplit]; simp))
      refine iff_of_true ?_ hcond
      rw [hlast]
      cases f original qtype with
      | error e => exact trivial
      | ok records => cases records <;> exact rfl
    · -- the records kept are those of the last suffix that has any
      have hlast := minFinal_fixed_last asked hsplit hs hafter
      rw [hlast]
      simp only [List.isEmpty_cons, Bool.false_eq_true, if_false]
      constructor
      · intro hsame before' s' after' hsplit' hs' hafter'
        obtain ⟨x', xs', hx'⟩ := hs'
        have hlast' := minFinal_fixed_last asked hsplit' hx' hafter'
        rw [hlast] at hlast'
        rw [hx', ← hlast']
        cases hf : f original qtype with
        | error e => rw [hf] at hsame; exact absurd hsame id
        | ok records =>
          rw [hf] at hsame
          exact congrArg Except.ok (Eq.symm hsame)
      · intro h
        rw [h before s after hsplit ⟨x, xs, hs⟩ hafter, hs]
        exact rfl

/-! ## What the upstream gets to see -/

/-- The name an operation asks the upstream for. -/
def NetOp.lookupName? : NetOp → Option Name
  | .upstream name _ => some name
  | .increment _ _ => none

/-- The names passed to `resolver.lookup` before any fallback, in order: the driver bumps the step
counter once after the loop, and a fallback comes after that. -/
def lookupsBeforeFallback (original : Name) (qtype : RecordType) (config : QnameMinConfig)
    (l : Local) : List Name :=
  (((resolveWithMinimization original qtype config).ops netAnswer l).takeWhile
    (·.lookupName?.isSome)).filterMap NetOp.lookupName?

/-- Labels are revealed one by one: more of them with every question, and the whole name only after
each of its proper suffixes (the root apart). -/
structure Gradual (original : Name) (names : List Name) : Prop where
  suffix : ∀ m ∈ names, m.labels <:+ original.labels
  increasing : names.Pairwise fun a b => a.labels.length < b.labels.length
  full_last : ∀ before m after, names = before ++ m :: after → m.labels = original.labels →
    ∀ k, 0 < k → k < original.labels.length → ∃ s ∈ before, s.labels = original.labels.drop k

theorem ops_minLoop (qtype : RecordType) (labels : List Name) :
    ∀ (i : Nat) (st : MinState) (l : Local),
      (minLoop qtype labels i st).ops netAnswer l = labels.map (NetOp.upstream · qtype) := by
  induction labels with
  | nil => intro i st l; rfl
  | cons label labels ih =>
    intro i st l
    unfold minLoop
    rw [Prog.ops_bind, ih]
    rfl

/-- The driver asks for the probed names, and then bumps the counter. -/
theorem lookupsBeforeFallback_eq (original : Name) (qtype : RecordType)
    (config : QnameMinConfig) (l : Local) :
    lookupsBeforeFallback original qtype config l =
      if original.numLabels = 0 then [] else probed original config := by
  unfold lookupsBeforeFallback resolveWithMinimization
  split
  · rfl
  · have hlookup : ∀ o ∈ (probed original config).map (NetOp.upstream · qtype),
        o.lookupName?.isSome = true := by
      intro o ho
      obtain ⟨name, -, rfl⟩ := List.mem_map.mp ho
      rfl
    rw [Prog.ops_bind, ops_minLoop, List.takeWhile_append_of_pos hlookup, Prog.ops_bind,
      incrementGlobal, Prog.ops_perform, List.singleton_append,
      List.takeWhile_cons_of_neg (by simp [NetOp.lookupName?]), List.append_nil, List.filterMap_map]
    exact List.filterMap_some

/-- A single label is followed by the root. -/
theorem probed_single {original : Name} {config : QnameMinConfig}
    (h : original.labels.length = 1) (hmax : 1 < config.maxIterations.toNat) :
    probed original config = [original, Name.root] := by
  obtain ⟨x, hx⟩ := List.length_eq_one_iff.mp h
  have hone : ¬ 1 < original.numLabels := by
    unfold Name.numLabels
    rw [hx]
    dsimp only
    split <;> simp
  have hroot : original.isRoot = false := by simp [Name.isRoot, hx]
  have hpeel : peelLabels original = [original, Name.root] := by
    rw [peelLabels, h, peelLoop, if_neg hone, hroot]
    rfl
  rw [probed, hpeel]
  have hmin : min (max config.maxIterations.toNat 1) 2 = 2 := by omega
  simp only [List.length_cons, List.length_nil, hmin]
  rfl

/-- **When minimization reveals labels gradually.** The longest name is asked for first, so only
when nothing is asked for, or a single label and nothing else. -/
theorem gradual_iff (original : Name) (qtype : RecordType) (config : QnameMinConfig) (l : Local) :
    Gradual original (lookupsBeforeFallback original qtype config l) ↔
      original.numLabels = 0 ∨
        original.labels.length = 1 ∧ config.maxIterations.toNat ≤ 1 := by
  rw [lookupsBeforeFallback_eq]
  by_cases h0 : original.numLabels = 0
  · rw [if_pos h0]
    exact iff_of_true ⟨by simp, List.Pairwise.nil, by simp⟩ (Or.inl h0)
  rw [if_neg h0]
  have hpos : 0 < original.labels.length := by
    by_contra hnone
    have hnil : original.labels = [] := List.length_eq_zero_iff.mp (by omega)
    exact h0 (by rw [Name.numLabels, hnil])
  constructor
  · intro hg
    right
    -- the name comes first, so it can have no proper suffix
    have hlen : original.labels.length = 1 := by
      by_contra hlong
      obtain ⟨s, hs, -⟩ := hg.full_last [] original _ (probed_eq original config) rfl 1 (by omega)
        (by omega)
      cases hs
    refine ⟨hlen, ?_⟩
    by_contra hmore
    have hinc := hg.increasing
    rw [probed_single hlen (by omega)] at hinc
    have hlt := List.rel_of_pairwise_cons hinc (List.mem_singleton_self Name.root)
    simp [Name.root] at hlt
  · rintro (hnone | ⟨hlen, hone⟩)
    · exact absurd hnone h0
    · have hmin : min (max config.maxIterations.toNat 1) (peelLabels original).length = 1 := by
        rw [peelLabels, List.length_cons]
        omega
      have hprobed : probed original config = [original] := by
        rw [probed, hmin]
        rfl
      rw [hprobed]
      refine ⟨by simp, List.pairwise_singleton _ _, ?_⟩
      intro before m after _ _ k hk hlt
      omega

/-- A task that asks for the addresses of a name, of an upstream that knows nothing. -/
def askingTask (name : Name) (h : name.toLowercase = name) : Local :=
  ⟨.query ⟨name, h⟩ .A, fun _ _ _ => .error (.NoRecordsFound .NoError), 0⟩

/-- For `www.example.com.` the first question is the whole name. -/
theorem whole_name_first :
    let name := Name.ofLabels ["www", "example", "com"] true
    name.numLabels ≤ QnameMinConfig.default.maxIterations.toNat ∧
      lookupsBeforeFallback name .A QnameMinConfig.default (askingTask name rfl) =
        [name, Name.ofLabels ["example", "com"] true, Name.ofLabels ["com"] true, Name.root] ∧
      ¬ Gradual name
        (lookupsBeforeFallback name .A QnameMinConfig.default (askingTask name rfl)) := by
  have hnames : lookupsBeforeFallback (Name.ofLabels ["www", "example", "com"] true) .A
      QnameMinConfig.default (askingTask (Name.ofLabels ["www", "example", "com"] true) rfl) =
      [Name.ofLabels ["www", "example", "com"] true, Name.ofLabels ["example", "com"] true,
        Name.ofLabels ["com"] true, Name.root] := by
    rw [lookupsBeforeFallback_eq]
    decide
  refine ⟨by decide, hnames, ?_⟩
  intro hg
  have hinc := hg.increasing
  rw [hnames] at hinc
  exact absurd hinc (by decide)

end Heimdallr.Resolver
