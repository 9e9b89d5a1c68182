import Heimdallr.Resolver.QnameMin

/-!
# What minimization costs and reports (`core/resolver/qname_min.rs`)

A call of `resolve_with_minimization` gets replies to its steps and, when none of them has a record,
one to the fallback query. `minimization_outcome` gives the result and the operations in terms of
these replies, whatever the upstream answers; the upstream may give another reply when it is asked
again.

* A step is a question for a suffix of the name; `s` of them are made, at most as many as
  `max_iterations`, and `f` is 1 where the fallback asks and 0 elsewhere.
* `qmin_steps_total` is incremented by the number of steps after the last of them, and by one for a
  fallback that has succeeded.
* An error of a step is kept until a step succeeds. Where a fallback fails and an error is kept,
  that one is returned.

Results:
* **`cost_accounted_iff`**: when lookups, result and counter agree with `s + f`. The counter misses
  a fallback that fails, and a `*` before the last label hides that label from the steps.
* **`error_reported_iff`**: when a call fails as its last query does. The error of the last step
  takes the place of the fallback's.
-/

namespace Heimdallr.Resolver

open Lib

/-! ## Operations that are performed -/

/-- What an operation does to the global counters. -/
def NetOp.count (m : Metrics) : NetOp → Metrics
  | .upstream _ _ => m
  | .increment metric delta => m.increment metric delta

/-- A program in a task of its own: the lookups it makes. -/
theorem asked_after {α : Type} (p : Net α) (l : Local) :
    (l.after p).asked = l.asked + (p.ops netAnswer l).countP fun o => o.lookupName?.isSome := by
  induction p generalizing l with
  | ret a => rfl
  | call o k ih =>
    show ((netAnswer o l).2.after (k (netAnswer o l).1)).asked = _
    rw [ih]
    cases o with
    | upstream name rtype =>
      simp only [Prog.ops, NetOp.lookupName?, netAnswer, List.countP_cons, Option.isSome_some,
        if_true]
      omega
    | increment metric delta =>
      simp only [Prog.ops, NetOp.lookupName?, netAnswer, List.countP_cons, Option.isSome_none,
        Bool.false_eq_true, if_false, Nat.add_zero]

/-- And the counters it leaves. -/
theorem metrics_lift {α : Type} (p : Net α) (l : Local) (s : Shared) :
    (p.lift.run handle l s).2.2.metrics = (p.ops netAnswer l).foldl NetOp.count s.metrics := by
  induction p generalizing l s with
  | ret a => rfl
  | call o k ih =>
    cases o with
    | upstream name rtype => exact ih _ _ _
    | increment metric delta => exact ih _ _ _

theorem foldl_count_upstream {os : List NetOp} (h : ∀ o ∈ os, o.lookupName?.isSome = true)
    (m : Metrics) : os.foldl NetOp.count m = m := by
  induction os with
  | nil => rfl
  | cons o os ih =>
    have ho := h o List.mem_cons_self
    cases o with
    | upstream name rtype => exact ih fun o ho => h o (List.mem_cons_of_mem _ ho)
    | increment metric delta => cases ho

/-! ## The replies of a call -/

/-- The reply is records, at least one. -/
def answered : Reply → Bool
  | .ok (_ :: _) => true
  | _ => false

theorem answered_iff {r : Reply} : answered r = true ↔ HasRecords r := by
  unfold answered HasRecords
  cases r with
  | error e => simp
  | ok records => cases records <;> simp

/-- The error of a reply. -/
def errorOf : Reply → Option NetError
  | .error e => some e
  | .ok _ => none

section Replies

variable (u : Upstream) (original : Name) (qtype : RecordType) (config : QnameMinConfig)
  (asked : Nat)

/-- The replies to the steps. A name without labels to count has none. -/
def stepReplies : List Reply :=
  if original.numLabels = 0 then []
  else (repliesTo u qtype asked (probed original config)).map Prod.snd

/-- The reply to the fallback query, where there is one. -/
def fallbackReply? : Option Reply :=
  if original.numLabels = 0 ∨ (stepReplies u original qtype config asked).any answered then none
  else some (u (asked + (probed original config).length) original qtype)

end Replies

theorem length_repliesTo (u : Upstream) (qtype : RecordType) (labels : List Name) :
    ∀ asked, (repliesTo u qtype asked labels).length = labels.length := by
  induction labels with
  | nil => intro asked; rfl
  | cons label labels ih =>
    intro asked
    rw [repliesTo, List.length_cons, ih, List.length_cons]

/-! ### The loop on these replies -/

/-- The kept records are empty when no reply has any. -/
theorem foldReplies_isEmpty (rs : List (Name × Reply)) :
    ∀ (i : Nat) (st : MinState), (foldReplies rs i st).lastRecords.isEmpty =
      (st.lastRecords.isEmpty && !(rs.map Prod.snd).any answered) := by
  induction rs with
  | nil => intro i st; simp [foldReplies]
  | cons r rs ih =>
    intro i st
    obtain ⟨label, reply⟩ := r
    rw [foldReplies, ih, List.map_cons, List.any_cons]
    cases reply with
    | error e => rfl
    | ok records => cases records <;> simp [MinState.step, answered]

/-- The remembered error is that of the last reply. -/
theorem foldReplies_lastError (rs : List (Name × Reply)) :
    ∀ (i : Nat) (st : MinState), (foldReplies rs i st).lastError =
      ((rs.map Prod.snd).getLast?.map errorOf).getD st.lastError := by
  induction rs with
  | nil => intro i st; rfl
  | cons r rs ih =>
    intro i st
    obtain ⟨label, reply⟩ := r
    rw [foldReplies, ih, List.map_cons]
    cases hrs : rs.map Prod.snd with
    | nil =>
      cases reply with
      | error e => rfl
      | ok records => cases records <;> rfl
    | cons r' rs' =>
      rw [List.getLast?_cons_cons, List.getLast?_eq_some_getLast (List.cons_ne_nil r' rs')]
      rfl

/-- The steps taken are those there was a reply to. -/
theorem foldReplies_stepsTaken (rs : List (Name × Reply)) :
    ∀ (i : Nat) (st : MinState), (foldReplies rs i st).stepsTaken =
      if rs = [] then st.stepsTaken else UInt8.ofNat (i + rs.length) := by
  induction rs with
  | nil => intro i st; rfl
  | cons r rs ih =>
    intro i st
    obtain ⟨label, reply⟩ := r
    have hstep : (st.step label (i + 1) reply).stepsTaken = UInt8.ofNat (i + 1) := by
      cases reply with
      | error e => rfl
      | ok records => cases records <;> rfl
    rw [foldReplies, ih, hstep, if_neg (List.cons_ne_nil _ _), List.length_cons]
    cases rs with
    | nil => rfl
    | cons r' rs' =>
      rw [if_neg (List.cons_ne_nil _ _)]
      congr 1
      omega

/-! ## The call in terms of its replies -/

section Call

variable {original : Name} {qtype : RecordType} {config : QnameMinConfig} {l : Local}

theorem stepReplies_eq (h : original.numLabels ≠ 0) (u : Upstream) (asked : Nat) :
    stepReplies u original qtype config asked =
      (repliesTo u qtype asked (probed original config)).map Prod.snd := if_neg h

/-- The loop ends without records exactly when the fallback query is made. -/
theorem minFinal_isEmpty (h : original.numLabels ≠ 0) (u : Upstream) (qtype : RecordType)
    (config : QnameMinConfig) (asked : Nat) :
    (minFinal u original qtype config asked).lastRecords.isEmpty =
      !(stepReplies u original qtype config asked).any answered := by
  unfold minFinal
  rw [foldReplies_isEmpty, stepReplies_eq h]
  rfl

/-- What follows the loop. -/
def afterLoop (original : Name) (qtype : RecordType) (st : MinState) :
    Net (Except NetError QnameMinResult) := do
  incrementGlobal .QminStepsTotal st.stepsTaken.toNat
  if st.lastRecords.isEmpty then
    match ← upstream original qtype with
    | .error e => return .error (st.lastError.getD e)
    | .ok records =>
      incrementGlobal .QminStepsTotal 1
      return .ok { records, finalQname := original, steps := st.stepsTaken, fellBack := true }
  else
    return .ok
      { records := st.lastRecords, finalQname := st.lastQname, steps := st.stepsTaken,
        fellBack := false }

theorem resolveWithMinimization_eq (h : original.numLabels ≠ 0) :
    resolveWithMinimization original qtype config =
      minLoop qtype (probed original config) 0 ⟨[], original, none, 0⟩ >>=
        afterLoop original qtype := if_neg h

theorem eval_minLoop_probed :
    (minLoop qtype (probed original config) 0 ⟨[], original, none, 0⟩).eval netAnswer l =
      (minFinal l.upstream original qtype config l.asked,
        { l with asked := l.asked + (probed original config).length }) := eval_minLoop ..

/-- Records were kept. -/
theorem afterLoop_kept (l : Local) {st : MinState} (h : st.lastRecords.isEmpty = false) :
    (afterLoop original qtype st).eval netAnswer l =
        (.ok ⟨st.lastRecords, st.lastQname, st.stepsTaken, false⟩, l) ∧
      (afterLoop original qtype st).ops netAnswer l =
        [.increment .QminStepsTotal st.stepsTaken.toNat] := by
  unfold afterLoop
  rw [h]
  exact ⟨rfl, rfl⟩

/-- No records were kept, and the fallback query is answered. -/
theorem afterLoop_ok (l : Local) {st : MinState} {records : List Record}
    (h : st.lastRecords.isEmpty = true)
    (hreply : l.upstream l.asked original qtype = .ok records) :
    ((afterLoop original qtype st).eval netAnswer l).1 =
        .ok ⟨records, original, st.stepsTaken, true⟩ ∧
      (afterLoop original qtype st).ops netAnswer l =
        [.increment .QminStepsTotal st.stepsTaken.toNat, .upstream original qtype,
          .increment .QminStepsTotal 1] := by
  unfold afterLoop
  rw [h]
  simp only [incrementGlobal, upstream, Prog.eval_bind, Prog.ops_bind, Prog.eval_perform,
    Prog.ops_perform, netAnswer, if_true, hreply]
  exact ⟨rfl, rfl⟩

/-- No records were kept, and the fallback query fails: nothing more is counted. -/
theorem afterLoop_error (l : Local) {st : MinState} {e : NetError}
    (h : st.lastRecords.isEmpty = true)
    (hreply : l.upstream l.asked original qtype = .error e) :
    ((afterLoop original qtype st).eval netAnswer l).1 = .error (st.lastError.getD e) ∧
      (afterLoop original qtype st).ops netAnswer l =
        [.increment .QminStepsTotal st.stepsTaken.toNat, .upstream original qtype] := by
  unfold afterLoop
  rw [h]
  simp only [incrementGlobal, upstream, Prog.eval_bind, Prog.ops_bind, Prog.eval_perform,
    Prog.ops_perform, netAnswer, if_true, hreply]
  exact ⟨rfl, rfl⟩

/-- What a call gives: the result, and the operations after the steps. -/
inductive MinOutcome (original : Name) (qtype : RecordType) (st : MinState) :
    Option Reply → Except NetError QnameMinResult → List NetOp → Prop
  | kept : MinOutcome original qtype st none
      (.ok ⟨st.lastRecords, st.lastQname, st.stepsTaken, false⟩) []
  | fellBack (records : List Record) : MinOutcome original qtype st (some (.ok records))
      (.ok ⟨records, original, st.stepsTaken, true⟩)
      [.upstream original qtype, .increment .QminStepsTotal 1]
  | failed (e : NetError) : MinOutcome original qtype st (some (.error e))
      (.error (st.lastError.getD e)) [.upstream original qtype]

/-- **What a call does**, whatever the upstream answers. -/
theorem minimization_outcome (h : original.numLabels ≠ 0) (qtype : RecordType)
    (config : QnameMinConfig) (l : Local) :
    ∃ result more,
      MinOutcome original qtype (minFinal l.upstream original qtype config l.asked)
        (fallbackReply? l.upstream original qtype config l.asked) result more ∧
      ((resolveWithMinimization original qtype config).eval netAnswer l).1 = result ∧
      (resolveWithMinimization original qtype config).ops netAnswer l =
        (probed original config).map (NetOp.upstream · qtype) ++
          .increment .QminStepsTotal
            (minFinal l.upstream original qtype config l.asked).stepsTaken.toNat :: more := by
  have hempty := minFinal_isEmpty h l.upstream qtype config l.asked
  rw [resolveWithMinimization_eq h, Prog.eval_bind, Prog.ops_bind, eval_minLoop_probed,
    ops_minLoop]
  unfold fallbackReply?
  cases hany : (stepReplies l.upstream original qtype config l.asked).any answered with
  | true =>
    rw [hany] at hempty
    rw [if_pos (Or.inr rfl), (afterLoop_kept _ hempty).1, (afterLoop_kept _ hempty).2]
    exact ⟨_, _, .kept, rfl, rfl⟩
  | false =>
    rw [hany] at hempty
    have hmade : ¬ (original.numLabels = 0 ∨ false = true) := by simp [h]
    rw [if_neg hmade]
    cases hreply : l.upstream (l.asked + (probed original config).length) original qtype with
    | ok records =>
      obtain ⟨heval, hops⟩ := afterLoop_ok { l with asked := _ } hempty hreply
      rw [heval, hops]
      exact ⟨_, _, .fellBack records, rfl, rfl⟩
    | error e =>
      obtain ⟨heval, hops⟩ := afterLoop_error { l with asked := _ } hempty hreply
      rw [heval, hops]
      exact ⟨_, _, .failed e, rfl, rfl⟩

end Call

/-! ## Counting labels and steps -/

/-- The label `*`, which `num_labels` does not count in front. -/
def star : Label := [42]

theorem numLabels_cons (a : Label) (ls : List Label) (q : Bool) :
    (⟨a :: ls, q⟩ : Name).numLabels = if a = star then ls.length else ls.length + 1 := rfl

/-- At the last label, counted or not, the root is pushed. -/
theorem peelLoop_singleton (n : Nat) (a : Label) (q : Bool) :
    peelLoop (n + 1) ⟨[a], q⟩ = [Name.root] := by
  have hone : ¬ 1 < if a = star then ([] : List Label).length else ([] : List Label).length + 1 := by
    split <;> simp
  rw [peelLoop, numLabels_cons, if_neg hone]
  rfl

/-- A round that drops a label. -/
theorem peelLoop_cons_cons {a b : Label} {rest : List Label} (h : ¬ (a = star ∧ rest = []))
    (n : Nat) (q : Bool) :
    peelLoop (n + 1) ⟨a :: b :: rest, q⟩ = ⟨b :: rest, true⟩ :: peelLoop n ⟨b :: rest, true⟩ := by
  have hmore : 1 < if a = star then (b :: rest).length else (b :: rest).length + 1 := by
    rw [not_and] at h
    split
    · rename_i ha
      have hlong := List.length_pos_iff.mpr (h ha)
      rw [List.length_cons]
      omega
    · rw [List.length_cons]
      omega
  rw [peelLoop, numLabels_cons, if_pos hmore]
  rfl

/-- A `*` before the last label stops the loop one label early. -/
theorem length_peelLoop {n : Nat} {ls : List Label} {q : Bool} (hn : ls.length ≤ n) (hne : ls ≠ []) :
    (peelLoop n ⟨ls, q⟩).length =
      if ls.dropLast.getLast? = some star then ls.length - 1 else ls.length := by
  induction n generalizing ls q with
  | zero => exact absurd (List.length_eq_zero_iff.mp (Nat.le_zero.mp hn)) hne
  | succ n ih =>
    obtain ⟨a, rest, rfl⟩ := List.exists_cons_of_ne_nil hne
    cases rest with
    | nil =>
      rw [peelLoop_singleton]
      rfl
    | cons b rest =>
      have hrest : (b :: rest).length ≤ n := by
        rw [List.length_cons] at hn
        omega
      by_cases hstop : a = star ∧ rest = []
      · obtain ⟨rfl, rfl⟩ := hstop
        rfl
      · rw [peelLoop_cons_cons hstop, List.length_cons, ih hrest (List.cons_ne_nil b rest)]
        cases rest with
        | nil =>
          have ha : a ≠ star := fun ha => hstop ⟨ha, rfl⟩
          simp [ha]
        | cons c rest =>
          rw [List.dropLast_cons_cons, List.dropLast_cons_cons, List.dropLast_cons_cons,
            List.getLast?_cons_cons]
          simp only [List.length_cons]
          split <;> omega

/-- The planned number of steps: one for each label and one for the root, up to the cap. -/
def stepCount (original : Name) (config : QnameMinConfig) : Nat :=
  min (max config.maxIterations.toNat 1) (original.labels.length + 1)

theorem length_probed_eq_iff {original : Name} (hne : original.labels ≠ [])
    (config : QnameMinConfig) :
    (probed original config).length = stepCount original config ↔
      original.labels.dropLast.getLast? ≠ some star ∨
        max config.maxIterations.toNat 1 ≤ original.labels.length := by
  have hpos := List.length_pos_iff.mpr hne
  have hpeel : (peelLabels original).length = _ := congrArg Nat.succ (length_peelLoop le_rfl hne)
  unfold probed stepCount
  dsimp only
  rw [List.length_take, hpeel]
  by_cases hstar : original.labels.dropLast.getLast? = some star
  · simp only [hstar, if_true, ne_eq, not_true_eq_false, false_or]
    omega
  · simp only [hstar, if_false, ne_eq, not_false_eq_true, true_or, iff_true]
    omega

/-- The counter of the loop does not overflow: the cap has eight bits. -/
theorem minFinal_stepsTaken (u : Upstream) (original : Name) (qtype : RecordType)
    (config : QnameMinConfig) (asked : Nat) :
    (minFinal u original qtype config asked).stepsTaken.toNat = (probed original config).length := by
  have hlen := length_repliesTo u qtype (probed original config) asked
  have hne : repliesTo u qtype asked (probed original config) ≠ [] := by
    intro hnil
    rw [hnil, probed_eq] at hlen
    cases hlen
  have hcap : (probed original config).length ≤ 255 := by
    have hmax := config.maxIterations.toNat_lt
    unfold probed
    dsimp only
    rw [List.length_take]
    omega
  unfold minFinal
  rw [foldReplies_stepsTaken, if_neg hne, hlen, Nat.zero_add, UInt8.toNat_ofNat']
  omega

/-! ## Accounting -/

/-- One when no step brings a record, zero otherwise. -/
def fallbackCount (u : Upstream) (original : Name) (qtype : RecordType) (config : QnameMinConfig)
    (asked : Nat) : Nat :=
  if (stepReplies u original qtype config asked).any answered then 0 else 1

/-- Lookups, result and counter of a call agree on the steps and the fallback. -/
structure CostAccounted (original : Name) (qtype : RecordType) (config : QnameMinConfig) (l : Local)
    (s : Shared) : Prop where
  lookups :
    ((resolveWithMinimization original qtype config).lift.run handle l s).2.1.asked =
      l.asked + (stepCount original config + fallbackCount l.upstream original qtype config l.asked)
  reported : ∀ result,
    ((resolveWithMinimization original qtype config).lift.run handle l s).1 = .ok result →
      result.steps.toNat = stepCount original config ∧
        (result.fellBack = true ↔ fallbackCount l.upstream original qtype config l.asked = 1)
  metric :
    ((resolveWithMinimization original qtype config).lift.run handle l s).2.2.metrics
        .QminStepsTotal =
      s.metrics .QminStepsTotal +
        (stepCount original config + fallbackCount l.upstream original qtype config l.asked)

theorem fallbackCount_eq {original : Name} (h : original.numLabels ≠ 0) (u : Upstream)
    (qtype : RecordType) (config : QnameMinConfig) (asked : Nat) :
    fallbackCount u original qtype config asked =
      match fallbackReply? u original qtype config asked with
      | none => 0
      | some _ => 1 := by
  unfold fallbackCount fallbackReply?
  cases (stepReplies u original qtype config asked).any answered <;> simp [h]

section Accounting

variable {original : Name} {qtype : RecordType} {config : QnameMinConfig}

/-- What a call costs. -/
theorem minimization_cost (h : original.numLabels ≠ 0) (qtype : RecordType)
    (config : QnameMinConfig) (l : Local) (s : Shared) :
    let r := (resolveWithMinimization original qtype config).lift.run handle l s
    let steps := (probed original config).length
    let f := fallbackCount l.upstream original qtype config l.asked
    r.2.1.asked = l.asked + (steps + f) ∧
      (∀ result, r.1 = .ok result →
        result.steps.toNat = steps ∧ (result.fellBack = true ↔ f = 1)) ∧
      r.2.2.metrics .QminStepsTotal = s.metrics .QminStepsTotal + (steps +
        match fallbackReply? l.upstream original qtype config l.asked with
        | some (.ok _) => 1
        | _ => 0) := by
  obtain ⟨s', hrun, -⟩ := run_lift (resolveWithMinimization original qtype config) l s
  have hmetrics := metrics_lift (resolveWithMinimization original qtype config) l s
  have hasked := asked_after (resolveWithMinimization original qtype config) l
  obtain ⟨result, more, houtcome, heval, hops⟩ :=
    minimization_outcome h qtype config l
  have hsteps := minFinal_stepsTaken l.upstream original qtype config l.asked
  have hlookup : ∀ o ∈ (probed original config).map (NetOp.upstream · qtype),
      o.lookupName?.isSome = true := by
    intro o ho
    obtain ⟨name, -, rfl⟩ := List.mem_map.mp ho
    rfl
  have hall : ((probed original config).map (NetOp.upstream · qtype)).countP
      (fun o => o.lookupName?.isSome) = (probed original config).length := by
    rw [List.countP_eq_length.mpr hlookup, List.length_map]
  rw [hops, List.foldl_append, foldl_count_upstream hlookup, List.foldl_cons] at hmetrics
  rw [hops, List.countP_append, hall, List.countP_cons] at hasked
  dsimp only
  rw [hmetrics, hrun, hasked, heval, fallbackCount_eq h]
  generalize fallbackReply? l.upstream original qtype config l.asked = reply at houtcome ⊢
  cases houtcome with
  | kept =>
    refine ⟨rfl, ?_, ?_⟩
    · intro result hresult
      cases hresult
      exact ⟨hsteps, by simp⟩
    · simp [NetOp.count, Metrics.increment, hsteps]
  | fellBack records =>
    refine ⟨?_, ?_, ?_⟩
    · simp [NetOp.lookupName?]
    · intro result hresult
      cases hresult
      exact ⟨hsteps, by simp⟩
    · simp [NetOp.count, Metrics.increment, hsteps, Nat.add_assoc]
  | failed e =>
    refine ⟨?_, ?_, ?_⟩
    · simp [NetOp.lookupName?]
    · intro result hresult
      cases hresult
    · simp [NetOp.count, Metrics.increment, hsteps]

/-- **When the accounts agree.** The sequence has a step for each label and one for the root, as far as
they are asked for, and the fallback query, if it is made, does not fail. -/
theorem cost_accounted_iff (hlabels : original.labels ≠ [])
    (hstar : original.labels.head? ≠ some star) (l : Local) (s : Shared) :
    CostAccounted original qtype config l s ↔
      (original.labels.dropLast.getLast? ≠ some star ∨
          max config.maxIterations.toNat 1 ≤ original.labels.length) ∧
        ∀ e, fallbackReply? l.upstream original qtype config l.asked ≠ some (.error e) := by
  have hcount : original.numLabels ≠ 0 := by
    obtain ⟨a, rest, hcons⟩ := List.exists_cons_of_ne_nil hlabels
    have ha : a ≠ star := by simpa [hcons] using hstar
    unfold Name.numLabels
    rw [hcons]
    simp [show ¬ a = [42] from ha]
  rw [← length_probed_eq_iff hlabels]
  obtain ⟨hasked, hreported, hmetric⟩ :=
    minimization_cost hcount qtype config l s
  have hf := fallbackCount_eq hcount l.upstream qtype config l.asked
  constructor
  · intro h
    have hsteps : (probed original config).length = stepCount original config := by
      have hlookups := h.lookups
      omega
    refine ⟨hsteps, ?_⟩
    intro e he
    have hgrown := h.metric
    rw [he] at hf hmetric
    dsimp only at hf hmetric
    omega
  · rintro ⟨hsteps, hnofail⟩
    refine ⟨by omega, ?_, ?_⟩
    · intro result hresult
      rw [← hsteps]
      exact hreported result hresult
    · cases hreply : fallbackReply? l.upstream original qtype config l.asked with
      | none =>
        rw [hreply] at hf hmetric
        dsimp only at hf hmetric
        omega
      | some reply =>
        cases reply with
        | error e => exact absurd hreply (hnofail e)
        | ok records =>
          rw [hreply] at hf hmetric
          dsimp only at hf hmetric
          omega

end Accounting

/-- `www.example.com.`, and an address for it. -/
def wwwName : Name := Name.ofLabels ["www", "example", "com"] true

/-- A query for an address of it. -/
def wwwTask (u : Upstream) : Local := ⟨.query ⟨wwwName, rfl⟩ .A, u, 0⟩

/-- A server with an empty cache. -/
def emptyShared : Shared :=
  Shared.initial CacheConfig.default CacheConfig.one_le_default_size

/-- An upstream that knows every name: four steps, no fallback. -/
theorem cost_accounted_www :
    (wwwName.labels ≠ [] ∧ wwwName.labels.head? ≠ some star) ∧
      CostAccounted wwwName .A QnameMinConfig.default
        (wwwTask fun _ name _ => .ok [⟨name, 60, .A ⟨192, 0, 2, 1⟩⟩]) emptyShared := by
  have hlabels : wwwName.labels ≠ [] ∧ wwwName.labels.head? ≠ some star := by decide
  refine ⟨hlabels, (cost_accounted_iff hlabels.1 hlabels.2 _ _).mpr ⟨Or.inl (by decide), ?_⟩⟩
  intro e he
  have hnone : fallbackReply? (wwwTask fun _ name _ => .ok [⟨name, 60, .A ⟨192, 0, 2, 1⟩⟩]).upstream
      wwwName .A QnameMinConfig.default 0 = none := if_pos (Or.inr (by decide))
  cases hnone.symm.trans he

/-- **Lookups that are not counted.** With an upstream that fails there are four steps and a fallback,
and the counter grows by four. A `*` before the last label takes a step away. -/
theorem fallback_uncounted :
    let l := wwwTask fun _ _ _ => .error (.NoRecordsFound .NoError)
    let r := (resolveWithMinimization wwwName .A QnameMinConfig.default).lift.run handle l emptyShared
    r.2.1.asked = 5 ∧ r.2.2.metrics .QminStepsTotal = 4 ∧
      ¬ CostAccounted wwwName .A QnameMinConfig.default l emptyShared ∧
      (probed (Name.ofLabels ["a", "*", "example"] true) QnameMinConfig.default).length = 3 ∧
      stepCount (Name.ofLabels ["a", "*", "example"] true) QnameMinConfig.default = 4 := by
  have hmetric : ((resolveWithMinimization wwwName .A QnameMinConfig.default).lift.run handle
      (wwwTask fun _ _ _ => .error (.NoRecordsFound .NoError)) emptyShared).2.2.metrics
        .QminStepsTotal = 4 := rfl
  refine ⟨rfl, hmetric, ?_, by decide, by decide⟩
  intro h
  exact absurd (hmetric.symm.trans h.metric) (by decide)

section Errors

variable {original : Name} {qtype : RecordType} {config : QnameMinConfig}

/-! ## Errors -/

/-- A call fails when nothing brought a record and the fallback query failed, and then as that did. -/
structure ErrorReported (original : Name) (qtype : RecordType) (config : QnameMinConfig) (l : Local)
    (s : Shared) : Prop where
  fails_iff :
    (∃ e, ((resolveWithMinimization original qtype config).lift.run handle l s).1 = .error e) ↔
      (∀ reply ∈ stepReplies l.upstream original qtype config l.asked, ¬ HasRecords reply) ∧
        ∃ e, fallbackReply? l.upstream original qtype config l.asked = some (.error e)
  most_recent : ∀ e,
    ((resolveWithMinimization original qtype config).lift.run handle l s).1 = .error e →
      fallbackReply? l.upstream original qtype config l.asked = some (.error e)

/-- A fallback query is made after steps without records. -/
theorem no_records_of_fallback {u : Upstream} {asked : Nat} {reply : Reply}
    (h : fallbackReply? u original qtype config asked = some reply) :
    ∀ r ∈ stepReplies u original qtype config asked, ¬ HasRecords r := by
  unfold fallbackReply? at h
  split at h
  · cases h
  · rename_i hnot
    rw [not_or, Bool.not_eq_true, List.any_eq_false] at hnot
    intro r hr hrecords
    exact hnot.2 r hr (answered_iff.mpr hrecords)

theorem minFinal_lastError (h : original.numLabels ≠ 0) (u : Upstream) (qtype : RecordType)
    (config : QnameMinConfig) (asked : Nat) :
    (minFinal u original qtype config asked).lastError =
      (stepReplies u original qtype config asked).getLast?.bind errorOf := by
  unfold minFinal
  rw [foldReplies_lastError, stepReplies_eq h]
  cases ((repliesTo u qtype asked (probed original config)).map Prod.snd).getLast? <;> rfl

/-- **When errors are reported as meant.** The name has a label to count, and the last step did not
fail with another error than the fallback query. -/
theorem error_reported_iff (l : Local) (s : Shared) :
    ErrorReported original qtype config l s ↔
      original.numLabels ≠ 0 ∧
        ∀ e e', fallbackReply? l.upstream original qtype config l.asked = some (.error e) →
          (stepReplies l.upstream original qtype config l.asked).getLast? = some (.error e') →
            e' = e := by
  obtain ⟨s', hrun, -⟩ := run_lift (resolveWithMinimization original qtype config) l s
  by_cases hcount : original.numLabels = 0
  · -- no query is made, and the call fails
    refine iff_of_false ?_ (fun h => h.1 hcount)
    intro h
    have hfails : ((resolveWithMinimization original qtype config).lift.run handle l s).1 =
        .error (.Io "qname-min: cannot minimize root name") := by
      rw [hrun]
      unfold resolveWithMinimization
      rw [if_pos hcount]
      rfl
    have hnone := h.most_recent _ hfails
    unfold fallbackReply? at hnone
    rw [if_pos (Or.inl hcount)] at hnone
    cases hnone
  · obtain ⟨result, more, houtcome, heval, -⟩ :=
      minimization_outcome hcount qtype config l
    have hresult : ((resolveWithMinimization original qtype config).lift.run handle l s).1 =
        result := by rw [hrun, heval]
    have hlast := minFinal_lastError hcount l.upstream qtype config l.asked
    have hreported : ErrorReported original qtype config l s ↔
        ((∃ e, result = .error e) ↔
          (∀ reply ∈ stepReplies l.upstream original qtype config l.asked, ¬ HasRecords reply) ∧
            ∃ e, fallbackReply? l.upstream original qtype config l.asked = some (.error e)) ∧
          ∀ e, result = .error e →
            fallbackReply? l.upstream original qtype config l.asked = some (.error e) := by
      rw [← hresult]
      exact ⟨fun h => ⟨h.fails_iff, h.most_recent⟩, fun h => ⟨h.1, h.2⟩⟩
    rw [hreported]
    have hsilent : ∀ e, fallbackReply? l.upstream original qtype config l.asked = some (.error e) →
        ∀ reply ∈ stepReplies l.upstream original qtype config l.asked, ¬ HasRecords reply :=
      fun _ h => no_records_of_fallback h
    generalize fallbackReply? l.upstream original qtype config l.asked = reply at houtcome hsilent ⊢
    cases houtcome with
    | kept => simp [hcount]
    | fellBack records => simp [hcount]
    | failed e =>
      -- the error given is the fallback's unless the last step left one
      have hgiven : (minFinal l.upstream original qtype config l.asked).lastError.getD e = e ↔
          ∀ e', (stepReplies l.upstream original qtype config l.asked).getLast? =
            some (.error e') → e' = e := by
        rw [hlast]
        cases (stepReplies l.upstream original qtype config l.asked).getLast? with
        | none => simp
        | some reply => cases reply <;> simp [errorOf]
      constructor
      · rintro ⟨-, hrecent⟩
        refine ⟨hcount, ?_⟩
        rintro e₁ e' he₁ hlaststep
        cases he₁
        have hsame := hrecent _ rfl
        rw [Option.some.injEq, Except.error.injEq] at hsame
        exact hgiven.mp hsame.symm e' hlaststep
      · rintro ⟨-, hcond⟩
        have hsame := hgiven.mpr fun e' => hcond e e' rfl
        rw [hsame]
        exact ⟨iff_of_true ⟨e, rfl⟩ ⟨hsilent e rfl, e, rfl⟩, fun e' he' => by cases he'; rfl⟩

end Errors

/-- **An old error.** The steps time out and the fallback query finds no records; the call reports the
timeout. -/
theorem step_error_reported :
    let l := wwwTask fun i _ _ => if i < 4 then .error .Timeout else .error (.NoRecordsFound .NoError)
    ((resolveWithMinimization wwwName .A QnameMinConfig.default).lift.run handle l emptyShared).1 =
        .error .Timeout ∧
      fallbackReply? l.upstream wwwName .A QnameMinConfig.default 0 =
        some (.error (.NoRecordsFound .NoError)) ∧
      ¬ ErrorReported wwwName .A QnameMinConfig.default l emptyShared := by
  refine ⟨rfl, rfl, ?_⟩
  intro h
  cases h.most_recent .Timeout rfl

end Heimdallr.Resolver
