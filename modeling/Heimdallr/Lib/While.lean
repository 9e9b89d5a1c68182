import Mathlib.Data.Nat.Init

/-!
# Loops

`whileLoop cond body n s` runs `while cond { body }` from `s` for at most `n` rounds; `none` means
the condition still held after them. `whileLoop_terminates` is the total-correctness rule: an
invariant and a measure that every round lowers; `whileLoop_invariant` is the partial-correctness
rule. `whileLoop_diverges` says when running out of rounds means the loop never ends: a round that
does not lower the measure leaves the state as it is.

`loop μ body s` is `loop { body }` where a round goes on with a new state or leaves with a result,
for a body whose every further round lowers the measure `μ` (`Lowers`). `loop_eq` is its recursion
equation and `loop_spec` its total-correctness rule.
-/

namespace Heimdallr.Lib

variable {σ : Type} {b : σ → Bool} {f : σ → σ} {I : σ → Prop} {μ : σ → Nat}

/-- `while cond { body }` with at most `n` rounds. -/
def whileLoop (cond : σ → Bool) (body : σ → σ) : Nat → σ → Option σ
  | 0, s => if cond s then none else some s
  | n + 1, s => if cond s then whileLoop cond body n (body s) else some s

/-- Total correctness: the loop ends within `μ s` rounds, in a state with the invariant where the
condition is false. -/
theorem whileLoop_terminates
    (hround : ∀ s, I s → b s = true → I (f s) ∧ μ (f s) < μ s) :
    ∀ {n : Nat} {s : σ}, I s → μ s ≤ n →
      ∃ s', whileLoop b f n s = some s' ∧ I s' ∧ b s' = false := by
  intro n
  induction n with
  | zero =>
    intro s hs hn
    cases hc : b s with
    | false => exact ⟨s, by simp [whileLoop, hc], hs, hc⟩
    | true =>
      have := (hround s hs hc).2
      omega
  | succ n ih =>
    intro s hs hn
    cases hc : b s with
    | false => exact ⟨s, by simp [whileLoop, hc], hs, hc⟩
    | true =>
      obtain ⟨hI, hlt⟩ := hround s hs hc
      obtain ⟨s', hrun, hs', hc'⟩ := ih hI (by omega)
      exact ⟨s', by simpa [whileLoop, hc] using hrun, hs', hc'⟩

/-- Partial correctness: what every round keeps holds where the loop ends. -/
theorem whileLoop_invariant (hround : ∀ s, I s → b s = true → I (f s)) :
    ∀ {n : Nat} {s s' : σ}, I s → whileLoop b f n s = some s' → I s' := by
  intro n
  induction n with
  | zero =>
    intro s s' hs h
    cases hc : b s with
    | false =>
      simp only [whileLoop, hc, Bool.false_eq_true, if_false, Option.some.injEq] at h
      exact h ▸ hs
    | true => simp [whileLoop, hc] at h
  | succ n ih =>
    intro s s' hs h
    cases hc : b s with
    | false =>
      simp only [whileLoop, hc, Bool.false_eq_true, if_false, Option.some.injEq] at h
      exact h ▸ hs
    | true =>
      simp only [whileLoop, hc, if_true] at h
      exact ih (hround s hs hc) h

/-- A state no round changes: the loop never ends there. -/
theorem whileLoop_stuck {s : σ} (hc : b s = true) (hs : f s = s) :
    ∀ n, whileLoop b f n s = none
  | 0 => by simp [whileLoop, hc]
  | n + 1 => by simp [whileLoop, hc, hs, whileLoop_stuck hc hs n]

/-- With a measure that every round lowers or leaves with the state, `μ s` rounds decide: a loop
still running then never ends. -/
theorem whileLoop_diverges (hround : ∀ s, b s = true → μ (f s) < μ s ∨ f s = s) :
    ∀ {n : Nat} {s : σ}, μ s ≤ n → whileLoop b f n s = none →
      ∀ m, whileLoop b f m s = none := by
  intro n
  induction n with
  | zero =>
    intro s hn h m
    cases hc : b s with
    | false => simp [whileLoop, hc] at h
    | true =>
      rcases hround s hc with hlt | hst
      · omega
      · exact whileLoop_stuck hc hst m
  | succ n ih =>
    intro s hn h m
    cases hc : b s with
    | false => simp [whileLoop, hc] at h
    | true =>
      rcases hround s hc with hlt | hst
      · simp only [whileLoop, hc, if_true] at h
        cases m with
        | zero => simp [whileLoop, hc]
        | succ m => simpa [whileLoop, hc] using ih (by omega) h m
      · exact whileLoop_stuck hc hst m

/-! ## `loop` with `break` -/

variable {ρ : Type} {body : σ → σ ⊕ ρ}

/-- At most `n` rounds: `.inl` goes on, `.inr` leaves the loop. -/
def rounds (body : σ → σ ⊕ ρ) : Nat → σ → Option ρ
  | 0, _ => none
  | n + 1, s =>
    match body s with
    | .inl s' => rounds body n s'
    | .inr r => some r

/-- Every round that goes on lowers the measure. -/
def Lowers (μ : σ → Nat) (body : σ → σ ⊕ ρ) : Prop := ∀ s s', body s = .inl s' → μ s' < μ s

/-- `loop { body }`. -/
def loop (μ : σ → Nat) (body : σ → σ ⊕ ρ) (s : σ) : Option ρ := rounds body (μ s + 1) s

/-- Rounds beyond the measure change nothing. -/
theorem rounds_eq (h : Lowers μ body) : ∀ {n m : Nat} {s : σ}, μ s < n → μ s < m →
    rounds body n s = rounds body m s := by
  intro n
  induction n with
  | zero => intro m s hn; omega
  | succ n ih =>
    intro m s hn hm
    obtain ⟨m, rfl⟩ : ∃ k, m = k + 1 := ⟨m - 1, by omega⟩
    cases hb : body s with
    | inl s' =>
      have hlt := h s s' hb
      simp only [rounds, hb]
      exact ih (by omega) (by omega)
    | inr r => simp only [rounds, hb]

theorem loop_eq (h : Lowers μ body) (s : σ) :
    loop μ body s =
      match body s with
      | .inl s' => loop μ body s'
      | .inr r => some r := by
  rw [loop, rounds]
  cases hb : body s with
  | inl s' =>
    have hlt := h s s' hb
    exact rounds_eq h hlt (by omega)
  | inr r => rfl

/-- Total correctness: with an invariant that the rounds keep, the loop ends, and with the result
of a round from a state with the invariant. -/
theorem loop_spec (h : Lowers μ body) {Q : ρ → Prop}
    (hgo : ∀ s s', I s → body s = .inl s' → I s') (hleave : ∀ s r, I s → body s = .inr r → Q r)
    {s : σ} (hs : I s) : ∃ r, loop μ body s = some r ∧ Q r := by
  induction hn : μ s using Nat.strongRecOn generalizing s with
  | ind n ih =>
    rw [loop_eq h]
    cases hb : body s with
    | inl s' =>
      have hlt := h s s' hb
      exact ih (μ s') (by omega) (hgo s s' hs hb) rfl
    | inr r => exact ⟨r, rfl, hleave s r hs hb⟩

end Heimdallr.Lib
