import Mathlib.Data.List.Basic
import Mathlib.Logic.Relation

/-!
# Programs over operations, alone and in a pool of tasks

A `Prog` is the tree of everything a task can do: it ends with a result, or it performs one
operation and goes on with the answer. A `Handler` answers operations from the task's own state
`L` and the state `S` all tasks share.

* `run` executes one program with nobody else around; `run_bind` composes it.
* `Ensures h I Q` is a postcondition under interference: whenever the task acts, the shared
  state may be anything `I` allows, and the task has to keep `I`. `ensures_bind` composes it.
* `Pool` is a set of tasks over one shared state. `Pool.Good` says the shared invariant holds and
  every task `Ensures` its postcondition; starting a task, one operation of one task and a change
  by the environment keep it (`good_start`, `good_step`, `good_env`), so it holds after every
  interleaving.
* `embed` puts a program over fewer operations into a larger one. When those operations are
  answered from the task's own state (`Led`), the result is the one `eval` computes, whatever the
  others do (`ensures_embed`, `run_embed`).
* `ops` lists the operations of such a program; `ops_bind` composes it.
* `Everywhere C` says that every operation a program can come to goes on as `C` allows, whatever
  the answers before it were; `everywhere_bind` composes it.
-/

namespace Heimdallr.Lib

/-- A program over the operations `Op`; the answer to `op` is a value of `Ans op`. -/
inductive Prog (Op : Type) (Ans : Op → Type) (α : Type) : Type where
  | ret (a : α)
  | call (op : Op) (k : Ans op → Prog Op Ans α)

/-- Answers an operation from the task's state and the shared state, and updates both. -/
abbrev Handler (Op : Type) (Ans : Op → Type) (L S : Type) :=
  (op : Op) → L → S → Ans op × L × S

namespace Prog

variable {Op : Type} {Ans : Op → Type} {α β L S : Type}

/-- Sequencing: the result of `p` is handed to `f`. -/
def bind : Prog Op Ans α → (α → Prog Op Ans β) → Prog Op Ans β
  | .ret a, f => f a
  | .call op k, f => .call op fun a => (k a).bind f

instance : Monad (Prog Op Ans) where
  pure := .ret
  bind := Prog.bind

/-- Perform one operation and return its answer. -/
def perform (op : Op) : Prog Op Ans (Ans op) := .call op .ret

@[simp] theorem call_bind (op : Op) (k : Ans op → Prog Op Ans α) (f : α → Prog Op Ans β) :
    (call op k >>= f) = call op fun a => k a >>= f := rfl

/-! ## Running a program alone -/

/-- Execute the program to its end. -/
def run (h : Handler Op Ans L S) : Prog Op Ans α → L → S → α × L × S
  | .ret a, l, s => (a, l, s)
  | .call op k, l, s => (k (h op l s).1).run h (h op l s).2.1 (h op l s).2.2

@[simp] theorem run_ret (h : Handler Op Ans L S) (a : α) (l : L) (s : S) :
    (ret a : Prog Op Ans α).run h l s = (a, l, s) := rfl

@[simp] theorem run_pure (h : Handler Op Ans L S) (a : α) (l : L) (s : S) :
    (pure a : Prog Op Ans α).run h l s = (a, l, s) := rfl

@[simp] theorem run_call (h : Handler Op Ans L S) (op : Op) (k : Ans op → Prog Op Ans α) (l : L)
    (s : S) :
    (call op k).run h l s = (k (h op l s).1).run h (h op l s).2.1 (h op l s).2.2 := rfl

@[simp] theorem run_perform (h : Handler Op Ans L S) (op : Op) (l : L) (s : S) :
    (perform op : Prog Op Ans (Ans op)).run h l s = h op l s := rfl

theorem run_bind (h : Handler Op Ans L S) (p : Prog Op Ans α) (f : α → Prog Op Ans β) (l : L)
    (s : S) :
    (p >>= f).run h l s =
      (f (p.run h l s).1).run h (p.run h l s).2.1 (p.run h l s).2.2 := by
  induction p generalizing l s with
  | ret a => rfl
  | call op k ih =>
    simp only [call_bind, run_call]
    exact ih _ _ _

/-! ## Postconditions under interference -/

/-- `p` ends with `Q`, keeping `I`, when before each of its operations the shared state may have
become any state that satisfies `I`. -/
def Ensures (h : Handler Op Ans L S) (I : S → Prop) (Q : α → L → Prop) :
    Prog Op Ans α → L → Prop
  | .ret a, l => Q a l
  | .call op k, l => ∀ s, I s →
      I (h op l s).2.2 ∧ (k (h op l s).1).Ensures h I Q (h op l s).2.1

variable {h : Handler Op Ans L S} {I : S → Prop} {Q Q' : α → L → Prop} {R : β → L → Prop}

theorem ensures_mono (hQ : ∀ a l, Q a l → Q' a l) {p : Prog Op Ans α} {l : L}
    (hp : p.Ensures h I Q l) : p.Ensures h I Q' l := by
  induction p generalizing l with
  | ret a => exact hQ a l hp
  | call op k ih =>
    intro s hs
    obtain ⟨hI, hk⟩ := hp s hs
    exact ⟨hI, ih _ hk⟩

theorem ensures_bind {p : Prog Op Ans α} {f : α → Prog Op Ans β} {l : L}
    (hp : p.Ensures h I (fun a l' => (f a).Ensures h I R l') l) : (p >>= f).Ensures h I R l := by
  induction p generalizing l with
  | ret a => exact hp
  | call op k ih =>
    intro s hs
    obtain ⟨hI, hk⟩ := hp s hs
    exact ⟨hI, ih _ hk⟩

/-! ## Programs over fewer operations -/

/-- The result of a program whose operations are answered from the task's own state. -/
def eval (h₀ : (op : Op) → L → Ans op × L) : Prog Op Ans α → L → α × L
  | .ret a, l => (a, l)
  | .call op k, l => (k (h₀ op l).1).eval h₀ (h₀ op l).2

@[simp] theorem eval_pure (h₀ : (op : Op) → L → Ans op × L) (a : α) (l : L) :
    (pure a : Prog Op Ans α).eval h₀ l = (a, l) := rfl

@[simp] theorem eval_perform (h₀ : (op : Op) → L → Ans op × L) (op : Op) (l : L) :
    (perform op : Prog Op Ans (Ans op)).eval h₀ l = h₀ op l := rfl

theorem eval_bind (h₀ : (op : Op) → L → Ans op × L) (p : Prog Op Ans α)
    (f : α → Prog Op Ans β) (l : L) :
    (p >>= f).eval h₀ l = (f (p.eval h₀ l).1).eval h₀ (p.eval h₀ l).2 := by
  induction p generalizing l with
  | ret a => rfl
  | call op k ih =>
    simp only [call_bind, eval]
    exact ih _ _

/-- The operations such a program performs, in order. -/
def ops (h₀ : (op : Op) → L → Ans op × L) : Prog Op Ans α → L → List Op
  | .ret _, _ => []
  | .call op k, l => op :: (k (h₀ op l).1).ops h₀ (h₀ op l).2

@[simp] theorem ops_pure (h₀ : (op : Op) → L → Ans op × L) (a : α) (l : L) :
    (pure a : Prog Op Ans α).ops h₀ l = [] := rfl

@[simp] theorem ops_perform (h₀ : (op : Op) → L → Ans op × L) (op : Op) (l : L) :
    (perform op : Prog Op Ans (Ans op)).ops h₀ l = [op] := rfl

theorem ops_bind (h₀ : (op : Op) → L → Ans op × L) (p : Prog Op Ans α)
    (f : α → Prog Op Ans β) (l : L) :
    (p >>= f).ops h₀ l = p.ops h₀ l ++ (f (p.eval h₀ l).1).ops h₀ (p.eval h₀ l).2 := by
  induction p generalizing l with
  | ret a => rfl
  | call op k ih =>
    simp only [call_bind, ops, eval, List.cons_append]
    rw [ih]

variable {Op' : Type}

/-- A program over `Op'`, whose operations are among `Op` by `ι`, as a program over `Op`. -/
def embed (ι : Op' → Op) : Prog Op' (fun o => Ans (ι o)) α → Prog Op Ans α
  | .ret a => .ret a
  | .call o k => .call (ι o) fun a => (k a).embed ι

/-- The operations of `Op'` are answered from the task's own state, as `h₀` says. -/
def Led (h : Handler Op Ans L S) (ι : Op' → Op) (h₀ : (o : Op') → L → Ans (ι o) × L) : Prop :=
  ∀ o l s, (h (ι o) l s).1 = (h₀ o l).1 ∧ (h (ι o) l s).2.1 = (h₀ o l).2

variable {ι : Op' → Op} {h₀ : (o : Op') → L → Ans (ι o) × L}

/-- An embedded program ends with the value `eval` computes, under any interference. -/
theorem ensures_embed (hled : Led h ι h₀) (hI : ∀ o l s, I s → I (h (ι o) l s).2.2)
    {p : Prog Op' (fun o => Ans (ι o)) α} {l : L} (hQ : Q (p.eval h₀ l).1 (p.eval h₀ l).2) :
    (p.embed ι).Ensures h I Q l := by
  induction p generalizing l with
  | ret a => exact hQ
  | call o k ih =>
    intro s hs
    refine ⟨hI o l s hs, ih _ ?_⟩
    obtain ⟨h1, h2⟩ := hled o l s
    rw [h1, h2]
    exact hQ

/-- An embedded program run alone: the value and the task's state are those of `eval`, and the
shared state has moved along any reflexive and transitive relation its operations move along. -/
theorem run_embed (hled : Led h ι h₀) {T : S → S → Prop} (hrefl : ∀ s, T s s)
    (htrans : ∀ s₁ s₂ s₃, T s₁ s₂ → T s₂ s₃ → T s₁ s₃)
    (hstep : ∀ o l s, T s (h (ι o) l s).2.2) (p : Prog Op' (fun o => Ans (ι o)) α) (l : L)
    (s : S) :
    ∃ s', (p.embed ι).run h l s = ((p.eval h₀ l).1, (p.eval h₀ l).2, s') ∧ T s s' := by
  induction p generalizing l s with
  | ret a => exact ⟨s, rfl, hrefl s⟩
  | call o k ih =>
    obtain ⟨h1, h2⟩ := hled o l s
    obtain ⟨s', hrun, hT⟩ := ih (h (ι o) l s).1 (h (ι o) l s).2.1 (h (ι o) l s).2.2
    refine ⟨s', ?_, htrans _ _ _ (hstep o l s) hT⟩
    show ((k (h (ι o) l s).1).embed ι).run h _ _ = _
    rw [hrun, h1, h2]
    rfl

/-! ## What follows an operation -/

/-- Wherever the program performs an operation, `C` holds of it and of how the program goes on. -/
def Everywhere (C : (op : Op) → (Ans op → Prog Op Ans α) → Prop) : Prog Op Ans α → Prop
  | .ret _ => True
  | .call op k => C op k ∧ ∀ a, (k a).Everywhere C

theorem Everywhere.mono {C C' : (op : Op) → (Ans op → Prog Op Ans α) → Prop}
    (hC : ∀ op k, C op k → C' op k) {p : Prog Op Ans α} (hp : p.Everywhere C) :
    p.Everywhere C' := by
  induction p with
  | ret a => exact trivial
  | call op k ih => exact ⟨hC op k hp.1, fun a => ih a (hp.2 a)⟩

theorem everywhere_bind {C : (op : Op) → (Ans op → Prog Op Ans β) → Prop} {p : Prog Op Ans α}
    {f : α → Prog Op Ans β} (hp : p.Everywhere fun op k => C op fun a => k a >>= f)
    (hf : ∀ a, (f a).Everywhere C) : (p >>= f).Everywhere C := by
  induction p with
  | ret a => exact hf a
  | call op k ih => exact ⟨hp.1, fun a => ih a (hp.2 a)⟩

theorem everywhere_perform {C : (op : Op) → (Ans op → Prog Op Ans β) → Prop} {op : Op}
    {f : Ans op → Prog Op Ans β} (hop : C op f) (hf : ∀ a, (f a).Everywhere C) :
    (perform op >>= f).Everywhere C := ⟨hop, hf⟩

/-- An embedded program performs the operations of the smaller set only. -/
theorem everywhere_embed {C : (op : Op) → (Ans op → Prog Op Ans α) → Prop}
    (hC : ∀ o k, C (ι o) k) (p : Prog Op' (fun o => Ans (ι o)) α) :
    (p.embed ι).Everywhere C := by
  induction p with
  | ret a => exact trivial
  | call o k ih => exact ⟨hC o _, ih⟩

end Prog

/-! ## A pool of tasks -/

/-- Tasks, each with its own state and the rest of its program, over one shared state. -/
structure Pool (Op : Type) (Ans : Op → Type) (L S α : Type) where
  tasks : List (L × Prog Op Ans α)
  shared : S

namespace Pool

variable {Op : Type} {Ans : Op → Type} {α L S : Type}

/-- A new task begins. -/
def start (t : L × Prog Op Ans α) (P : Pool Op Ans L S α) : Pool Op Ans L S α :=
  { P with tasks := P.tasks ++ [t] }

/-- Task `i` performs its next operation; `none` when it does not exist or has ended. -/
def step (h : Handler Op Ans L S) (i : Nat) (P : Pool Op Ans L S α) :
    Option (Pool Op Ans L S α) :=
  match P.tasks[i]? with
  | some (l, .call op k) =>
    some ⟨P.tasks.set i ((h op l P.shared).2.1, k (h op l P.shared).1), (h op l P.shared).2.2⟩
  | _ => none

/-- The shared invariant holds and every task ends with its postcondition. -/
def Good (h : Handler Op Ans L S) (I : S → Prop) (Q : α → L → Prop) (P : Pool Op Ans L S α) :
    Prop :=
  I P.shared ∧ ∀ t ∈ P.tasks, t.2.Ensures h I Q t.1

variable {h : Handler Op Ans L S} {I : S → Prop} {Q : α → L → Prop} {P P' : Pool Op Ans L S α}

/-- What one operation does, by inversion. -/
theorem step_eq {i : Nat} (hs : P.step h i = some P') :
    ∃ l op k, P.tasks[i]? = some (l, .call op k) ∧
      P' = ⟨P.tasks.set i ((h op l P.shared).2.1, k (h op l P.shared).1),
        (h op l P.shared).2.2⟩ := by
  unfold step at hs
  split at hs
  · rename_i l op k ht
    exact ⟨l, op, k, ht, (Option.some.inj hs).symm⟩
  · exact absurd hs (by simp)

theorem good_start {t : L × Prog Op Ans α} (hP : P.Good h I Q) (ht : t.2.Ensures h I Q t.1) :
    (P.start t).Good h I Q := by
  refine ⟨hP.1, fun u hu => ?_⟩
  rcases List.mem_append.mp hu with hu | hu
  · exact hP.2 u hu
  · rw [List.mem_singleton.mp hu]
    exact ht

theorem good_step {i : Nat} (hP : P.Good h I Q) (hs : P.step h i = some P') :
    P'.Good h I Q := by
  obtain ⟨l, op, k, ht, rfl⟩ := step_eq hs
  obtain ⟨hI, hk⟩ := hP.2 _ (List.mem_of_getElem? ht) P.shared hP.1
  refine ⟨hI, fun u hu => ?_⟩
  rcases List.mem_or_eq_of_mem_set hu with hu | rfl
  · exact hP.2 u hu
  · exact hk

theorem good_env {s : S} (hP : P.Good h I Q) (hs : I s) : Good h I Q { P with shared := s } :=
  ⟨hs, hP.2⟩

/-- A task of a good pool that has ended, ended with its postcondition. -/
theorem good_ret {l : L} {a : α} (hP : P.Good h I Q) (ht : (l, .ret a) ∈ P.tasks) : Q a l :=
  hP.2 _ ht

end Pool

end Heimdallr.Lib
