import Heimdallr.Lib.Prog
import Heimdallr.Lib.Run
import Mathlib.Algebra.BigOperators.Group.List.Basic
import Mathlib.Algebra.GroupWithZero.Nat

/-!
# What programs and runs may spend

Every operation has a price, and its answer may bring something in. `Prog.Affords w g p n` says that
`p` can pay for its operations with the `n` it has and what comes in, whatever the answers are;
`Pool.Funded` gives every task of a pool such a sum and adds the sums up. The prices and grants are
parameters, so one proof about a program serves for every way of counting its operations.

* `affords_bind`, `affords_embed`: how sums compose. `Within` is the case in which nothing comes in.
* `Pool.funded_start`, `Pool.funded_step`: a new task brings its sum along, and an operation is paid
  from the sum of its task.
* `runAll_budget`: a run whose steps are granted and cost something spends no more than it had and
  was granted.
* `runAll_rests`: what can go on until it is at rest, at a cost and without a grant, comes to rest.
-/

namespace Heimdallr.Lib

namespace Prog

variable {Op Op' : Type} {Ans : Op → Type} {α β : Type} {w : Op → Nat} {g : (op : Op) → Ans op → Nat}

/-- The program can pay `w` for its operations from `n` and the `g` its answers bring in. -/
def Affords (w : Op → Nat) (g : (op : Op) → Ans op → Nat) : Prog Op Ans α → Nat → Prop
  | .ret _, _ => True
  | .call op k, n => w op ≤ n ∧ ∀ a, (k a).Affords w g (n - w op + g op a)

/-- Whatever the answers are, the operations of the program weigh at most `n` together. -/
abbrev Within (w : Op → Nat) (p : Prog Op Ans α) (n : Nat) : Prop := p.Affords w (fun _ _ => 0) n

theorem affords_pure (a : α) (n : Nat) : (pure a : Prog Op Ans α).Affords w g n := trivial

theorem Affords.mono {p : Prog Op Ans α} {m n : Nat} (hp : p.Affords w g m) (hmn : m ≤ n) :
    p.Affords w g n := by
  induction p generalizing m n with
  | ret a => exact trivial
  | call op k ih =>
    obtain ⟨hop, hk⟩ := hp
    exact ⟨Nat.le_trans hop hmn, fun a =>
      ih a (hk a) (Nat.add_le_add_right (Nat.sub_le_sub_right hmn _) _)⟩

theorem affords_perform {op : Op} {n : Nat} (h : w op ≤ n) :
    (perform op : Prog Op Ans (Ans op)).Affords w g n := ⟨h, fun _ => trivial⟩

theorem affords_bind {p : Prog Op Ans α} {f : α → Prog Op Ans β} {m n : Nat}
    (hp : p.Affords w g m) (hf : ∀ a, (f a).Affords w g n) : (p >>= f).Affords w g (m + n) := by
  induction p generalizing m with
  | ret a => exact (hf a).mono (Nat.le_add_left n m)
  | call op k ih =>
    obtain ⟨hop, hk⟩ := hp
    refine ⟨Nat.le_trans hop (Nat.le_add_right m n), fun a => ?_⟩
    have hrest := ih a (hk a)
    rwa [Nat.add_right_comm, ← Nat.sub_add_comm hop] at hrest

/-- A part that gets by with `m`, and a rest that gets by with what is left of `n`. -/
theorem affords_bind_of_le {p : Prog Op Ans α} {f : α → Prog Op Ans β} {m n : Nat}
    (hp : p.Affords w g m) (hmn : m ≤ n) (hf : ∀ a, (f a).Affords w g (n - m)) :
    (p >>= f).Affords w g n := by
  have h := affords_bind hp hf
  rwa [Nat.add_sub_cancel' hmn] at h

/-- An operation, and a rest that may spend what the answer brings in. -/
theorem affords_perform_bind {op : Op} {f : Ans op → Prog Op Ans β} {n : Nat} (h : w op ≤ n)
    (hf : ∀ a, (f a).Affords w g (n - w op + g op a)) : (perform op >>= f).Affords w g n := ⟨h, hf⟩

/-- A program whose operations are free. -/
theorem affords_free (h : ∀ op, w op = 0) (p : Prog Op Ans α) (n : Nat) : p.Affords w g n := by
  induction p generalizing n with
  | ret a => exact trivial
  | call op k ih => exact ⟨by rw [h op]; exact Nat.zero_le n, fun a => ih a _⟩

/-- A program over fewer operations pays what it pays there. -/
theorem affords_embed {ι : Op' → Op} {p : Prog Op' (fun o => Ans (ι o)) α} {n : Nat}
    (hp : p.Affords (fun o => w (ι o)) (fun o a => g (ι o) a) n) : (p.embed ι).Affords w g n := by
  induction p generalizing n with
  | ret a => exact trivial
  | call o k ih => exact ⟨hp.1, fun a => ih a (hp.2 a)⟩

end Prog

/-! ## Pools -/

/-- A changed element of a list of numbers. -/
theorem sum_set {bs : List Nat} {i b : Nat} (h : bs[i]? = some b) (b' : Nat) :
    (bs.set i b').sum + b = bs.sum + b' := by
  induction bs generalizing i with
  | nil => simp at h
  | cons x xs ih =>
    cases i with
    | zero =>
      obtain rfl : x = b := by simpa using h
      simp only [List.set_cons_zero, List.sum_cons]
      omega
    | succ i =>
      have hrest := ih (i := i) (by simpa using h)
      simp only [List.set_cons_succ, List.sum_cons]
      omega

/-- Related elements stand at the same places. -/
theorem forall₂_getElem? {α β : Type} {R : α → β → Prop} {xs : List α} {ys : List β}
    (h : List.Forall₂ R xs ys) {i : Nat} {x : α} (hx : xs[i]? = some x) :
    ∃ y, ys[i]? = some y ∧ R x y := by
  induction h generalizing i with
  | nil => simp at hx
  | cons hxy _ ih =>
    cases i with
    | zero =>
      obtain rfl := Option.some.inj hx
      exact ⟨_, rfl, hxy⟩
    | succ i => exact ih hx

theorem forall₂_set {α β : Type} {R : α → β → Prop} {xs : List α} {ys : List β}
    (h : List.Forall₂ R xs ys) (i : Nat) {x : α} {y : β} (hxy : R x y) :
    List.Forall₂ R (xs.set i x) (ys.set i y) := by
  induction h generalizing i with
  | nil => exact .nil
  | cons hhead htail ih =>
    cases i with
    | zero => exact .cons hxy htail
    | succ i => exact .cons hhead (ih i)

namespace Pool

variable {Op : Type} {Ans : Op → Type} {L S α : Type} {w : Op → Nat} {g : (op : Op) → Ans op → Nat}

/-- The tasks have sums that add up to at most `n`. -/
def Funded (w : Op → Nat) (g : (op : Op) → Ans op → Nat) (P : Pool Op Ans L S α) (n : Nat) : Prop :=
  ∃ sums : List Nat, List.Forall₂ (fun t b => t.2.Affords w g b) P.tasks sums ∧ sums.sum ≤ n

variable {P P' : Pool Op Ans L S α} {n : Nat}

theorem Funded.mono {m : Nat} (h : P.Funded w g m) (hmn : m ≤ n) : P.Funded w g n := by
  obtain ⟨sums, hsums, hle⟩ := h
  exact ⟨sums, hsums, Nat.le_trans hle hmn⟩

/-- Only the tasks count. -/
theorem Funded.of_tasks (h : P.Funded w g n) (htasks : P'.tasks = P.tasks) : P'.Funded w g n := by
  obtain ⟨sums, hsums, hle⟩ := h
  exact ⟨sums, htasks ▸ hsums, hle⟩

theorem funded_start {t : L × Prog Op Ans α} {b : Nat} (h : P.Funded w g n)
    (ht : t.2.Affords w g b) : (P.start t).Funded w g (n + b) := by
  obtain ⟨sums, hsums, hle⟩ := h
  refine ⟨sums ++ [b], List.rel_append hsums (.cons ht .nil), ?_⟩
  rw [List.sum_append, List.sum_singleton]
  exact Nat.add_le_add_right hle b

/-- An operation is paid for, and what its answer brings in is kept. -/
theorem funded_step {h : Handler Op Ans L S} {i : Nat} {l : L} {op : Op}
    {k : Ans op → Prog Op Ans α} (hP : P.Funded w g n) (ht : P.tasks[i]? = some (l, .call op k))
    (hs : P.step h i = some P') :
    w op ≤ n ∧ P'.Funded w g (n - w op + g op (h op l P.shared).1) := by
  obtain ⟨sums, hsums, hle⟩ := hP
  obtain ⟨b, hb, hop, hk⟩ := forall₂_getElem? hsums ht
  have hothers := sum_set hb 0
  refine ⟨by omega, sums.set i (b - w op + g op (h op l P.shared).1), ?_, ?_⟩
  · obtain ⟨l', op', k', ht', rfl⟩ := step_eq hs
    obtain ⟨rfl, htask⟩ := Prod.mk.inj (Option.some.inj (ht.symm.trans ht'))
    obtain ⟨rfl, hk'⟩ := Prog.call.inj htask
    obtain rfl := eq_of_heq hk'
    exact forall₂_set hsums i (hk _)
  · have hset := sum_set hb (b - w op + g op (h op l P.shared).1)
    omega

end Pool

/-! ## Runs -/

section Runs

variable {A S : Type} {step : A → S → Option S} {grant cost : A → Nat} {I : S → Nat → Prop}

/-- **A run spends no more than it had and was granted.** -/
theorem runAll_budget
    (hstep : ∀ a s s' n, I s n → step a s = some s' → ∃ m, I s' m ∧ m + cost a ≤ n + grant a)
    {acts : List A} {s s' : S} {n : Nat} (hI : I s n) (hrun : runAll step acts s = some s') :
    ∃ m, I s' m ∧ m + (acts.map cost).sum ≤ n + (acts.map grant).sum := by
  induction acts generalizing s n with
  | nil =>
    obtain rfl := Option.some.inj hrun
    exact ⟨n, hI, Nat.le_refl _⟩
  | cons a acts ih =>
    obtain ⟨s₁, hs₁, hrest⟩ := runAll_cons hrun
    obtain ⟨m₁, hm₁, hle₁⟩ := hstep a s s₁ n hI hs₁
    obtain ⟨m, hm, hle⟩ := ih hm₁ hrest
    refine ⟨m, hm, ?_⟩
    rw [List.map_cons, List.map_cons, List.sum_cons, List.sum_cons]
    omega

/-- What can always be spent on, until it is at rest, comes to rest: the steps that `P` allows cost
at least one each and are granted nothing, and one of them is possible until `Done`. -/
theorem runAll_rests {P : A → Prop} {Done : S → Prop}
    (hstep : ∀ a s s' n, I s n → P a → step a s = some s' → ∃ m, I s' m ∧ m + 1 ≤ n + 0)
    (hgo : ∀ s, ¬ Done s → ∃ a s', P a ∧ step a s = some s') (n : Nat) {s : S} (hI : I s n) :
    ∃ acts s', runAll step acts s = some s' ∧ Done s' ∧ (∀ a ∈ acts, P a) ∧ acts.length ≤ n := by
  induction n using Nat.strongRecOn generalizing s with
  | _ n ih =>
    by_cases hdone : Done s
    · exact ⟨[], s, rfl, hdone, fun a ha => absurd ha List.not_mem_nil, Nat.zero_le n⟩
    · obtain ⟨a, s₁, ha, hs₁⟩ := hgo s hdone
      obtain ⟨m, hm, hle⟩ := hstep a s s₁ n hI ha hs₁
      obtain ⟨acts, s', hrun, hrest, hacts, hlen⟩ := ih m (by omega) hm
      refine ⟨a :: acts, s', ?_, hrest, ?_, ?_⟩
      · unfold runAll
        rw [hs₁]
        exact hrun
      · exact List.forall_mem_cons.mpr ⟨ha, hacts⟩
      · rw [List.length_cons]
        omega

end Runs

/-- The elements that count for one. -/
theorem sum_ite_one {A : Type} (p : A → Bool) (acts : List A) :
    (acts.map fun a => if p a then 1 else 0).sum = acts.countP p := by
  induction acts with
  | nil => rfl
  | cons a acts ih =>
    rw [List.map_cons, List.sum_cons, ih, List.countP_cons, Nat.add_comm]

end Heimdallr.Lib
