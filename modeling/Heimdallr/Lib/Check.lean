import Mathlib.Data.List.Basic
import Mathlib.Data.List.Forall2

/-!
# Sequences of checks

A validator is a sequence of checks in `Except ε Unit` that ends with the first error. `ensure p e` is
one check; checks follow each other with `>>=`, and `forM` makes one for every element of a list.

* `seq_eq_ok`, `seq_eq_error`: what a sequence of two says of each of them.
* `forM_eq_ok`, `forM_eq_error`: a list passes when all its elements do, and fails with the error of
  the first that does not.
* `mapM_isOk`, `mapM_eq_ok`, `mapM_eq_error`: a list of computations succeeds when each of them does,
  with their results in order, and fails with the error of one of them.
* `foldlM_ok`: the rule for invariants of a fold that can fail.
* `mapError_eq_ok`, `foldlM_mapError`: what succeeds does so whatever its errors are turned into.
* `bind_eq_error`, `mapError_eq_error`: where an error comes from.
-/

namespace Heimdallr.Lib

variable {ε α β : Type}

/-- The check that `p` holds. -/
def ensure (p : Prop) [Decidable p] (e : ε) : Except ε Unit := if p then .ok () else .error e

@[simp] theorem ensure_eq_ok {p : Prop} [Decidable p] {e : ε} : ensure p e = .ok () ↔ p := by
  unfold ensure
  split <;> simp_all

@[simp] theorem ensure_eq_error {p : Prop} [Decidable p] {e e' : ε} :
    ensure p e = .error e' ↔ ¬ p ∧ e = e' := by
  unfold ensure
  split <;> simp_all

/-- A sequence of two checks passes when both do. -/
@[simp] theorem seq_eq_ok {x : Except ε Unit} {f : Unit → Except ε β} {b : β} :
    (x >>= f) = .ok b ↔ x = .ok () ∧ f () = .ok b := by
  cases x with
  | error e => simp [bind, Except.bind]
  | ok u => simp [bind, Except.bind]

/-- It fails with the error of the first, or with that of the second when the first passes. -/
@[simp] theorem seq_eq_error {x : Except ε Unit} {f : Unit → Except ε β} {e : ε} :
    (x >>= f) = .error e ↔ x = .error e ∨ x = .ok () ∧ f () = .error e := by
  cases x with
  | error e => simp [bind, Except.bind]
  | ok u => simp [bind, Except.bind]

/-- A list passes when every element does. -/
theorem forM_eq_ok {f : α → Except ε Unit} {xs : List α} :
    xs.forM f = .ok () ↔ ∀ x ∈ xs, f x = .ok () := by
  induction xs with
  | nil => exact ⟨fun _ x hx => absurd hx List.not_mem_nil, fun _ => rfl⟩
  | cons x xs ih =>
    have hcons : (x :: xs).forM f = (f x >>= fun _ => xs.forM f) := rfl
    rw [hcons, seq_eq_ok, ih, List.forall_mem_cons]

/-- A list fails with the error of the first element that does not pass. -/
theorem forM_eq_error {f : α → Except ε Unit} {xs : List α} {e : ε} :
    xs.forM f = .error e ↔
      ∃ pre x post, xs = pre ++ x :: post ∧ (∀ y ∈ pre, f y = .ok ()) ∧ f x = .error e := by
  induction xs with
  | nil =>
    constructor
    · intro h
      cases h
    · rintro ⟨pre, x, post, hxs, -, -⟩
      simp at hxs
  | cons x xs ih =>
    have hcons : (x :: xs).forM f = (f x >>= fun _ => xs.forM f) := rfl
    rw [hcons, seq_eq_error, ih]
    constructor
    · rintro (hx | ⟨hx, pre, y, post, rfl, hpre, hy⟩)
      · exact ⟨[], x, xs, rfl, by simp, hx⟩
      · exact ⟨x :: pre, y, post, rfl, List.forall_mem_cons.mpr ⟨hx, hpre⟩, hy⟩
    · rintro ⟨pre, y, post, hxs, hpre, hy⟩
      cases pre with
      | nil =>
        obtain ⟨rfl, rfl⟩ := List.cons.inj hxs
        exact .inl hy
      | cons z pre =>
        obtain ⟨rfl, rfl⟩ := List.cons.inj hxs
        obtain ⟨hz, hpre⟩ := List.forall_mem_cons.mp hpre
        exact .inr ⟨hz, pre, y, post, rfl, hpre, hy⟩

theorem mapM_cons_eq_ok {f : α → Except ε β} {x : α} {xs : List α} {ys : List β} :
    (x :: xs).mapM f = .ok ys ↔ ∃ y zs, f x = .ok y ∧ xs.mapM f = .ok zs ∧ ys = y :: zs := by
  rw [List.mapM_cons]
  constructor
  · intro h
    cases hx : f x with
    | error e =>
      rw [hx] at h
      cases h
    | ok y =>
      cases hxs : xs.mapM f with
      | error e =>
        rw [hx, hxs] at h
        cases h
      | ok zs =>
        rw [hx, hxs] at h
        exact ⟨y, zs, rfl, rfl, (Except.ok.inj h).symm⟩
  · rintro ⟨y, zs, hx, hxs, rfl⟩
    rw [hx, hxs]
    rfl

/-- A list of computations succeeds when each of them does. -/
theorem mapM_isOk {f : α → Except ε β} {xs : List α} :
    (∃ ys, xs.mapM f = .ok ys) ↔ ∀ x ∈ xs, ∃ y, f x = .ok y := by
  induction xs with
  | nil => exact ⟨fun _ x hx => absurd hx List.not_mem_nil, fun _ => ⟨[], rfl⟩⟩
  | cons x xs ih =>
    rw [List.forall_mem_cons, ← ih]
    constructor
    · rintro ⟨ys, h⟩
      obtain ⟨y, zs, hx, hxs, -⟩ := mapM_cons_eq_ok.mp h
      exact ⟨⟨y, hx⟩, zs, hxs⟩
    · rintro ⟨⟨y, hx⟩, zs, hxs⟩
      exact ⟨y :: zs, mapM_cons_eq_ok.mpr ⟨y, zs, hx, hxs, rfl⟩⟩

/-- The results of a list of computations stand in the order of the list. -/
theorem mapM_eq_ok {f : α → Except ε β} {xs : List α} {ys : List β} :
    xs.mapM f = .ok ys ↔ List.Forall₂ (fun x y => f x = .ok y) xs ys := by
  induction xs generalizing ys with
  | nil =>
    rw [List.forall₂_nil_left_iff]
    constructor
    · intro h
      exact (Except.ok.inj h).symm
    · rintro rfl
      rfl
  | cons x xs ih =>
    rw [mapM_cons_eq_ok, List.forall₂_cons_left_iff]
    simp only [ih]

/-- A list of computations fails with the error of one of them. -/
theorem mapM_eq_error {f : α → Except ε β} {xs : List α} {e : ε} (h : xs.mapM f = .error e) :
    ∃ x ∈ xs, f x = .error e := by
  induction xs with
  | nil => cases h
  | cons x xs ih =>
    rw [List.mapM_cons] at h
    cases hx : f x with
    | error e' =>
      rw [hx] at h
      cases h
      exact ⟨x, List.mem_cons_self, hx⟩
    | ok y =>
      cases hxs : xs.mapM f with
      | error e' =>
        rw [hx, hxs] at h
        cases h
        obtain ⟨z, hz, herr⟩ := ih hxs
        exact ⟨z, List.mem_cons_of_mem x hz, herr⟩
      | ok ys =>
        rw [hx, hxs] at h
        cases h

/-- A fold succeeds, and an invariant holds at its end, when every step from a state with the
invariant does. -/
theorem foldlM_ok {f : β → α → Except ε β} {xs : List α} {I : β → Prop}
    (hstep : ∀ b, I b → ∀ x ∈ xs, ∃ b', f b x = .ok b' ∧ I b') {b : β} (hb : I b) :
    ∃ b', xs.foldlM f b = .ok b' ∧ I b' := by
  induction xs generalizing b with
  | nil => exact ⟨b, rfl, hb⟩
  | cons x xs ih =>
    obtain ⟨b₁, hx, hb₁⟩ := hstep b hb x List.mem_cons_self
    obtain ⟨b', hrest, hb'⟩ := ih (fun b hb y hy => hstep b hb y (List.mem_cons_of_mem x hy)) hb₁
    refine ⟨b', ?_, hb'⟩
    rw [List.foldlM_cons, hx]
    exact hrest

/-- A computation that fails does so at one of its parts. -/
theorem bind_eq_error {x : Except ε α} {f : α → Except ε β} {e : ε} (h : (x >>= f) = .error e) :
    x = .error e ∨ ∃ a, x = .ok a ∧ f a = .error e := by
  cases x with
  | error e' =>
    cases h
    exact .inl rfl
  | ok a => exact .inr ⟨a, rfl, h⟩

theorem mapError_eq_ok {ε' : Type} {x : Except ε α} {g : ε → ε'} {a : α} :
    x.mapError g = .ok a ↔ x = .ok a := by
  cases x with
  | error e => simp [Except.mapError]
  | ok b => simp [Except.mapError]

theorem mapError_eq_error {ε' : Type} {x : Except ε α} {g : ε → ε'} {e' : ε'} :
    x.mapError g = .error e' ↔ ∃ e, x = .error e ∧ g e = e' := by
  cases x with
  | error e => simp [Except.mapError]
  | ok b => simp [Except.mapError]

theorem foldlM_mapError {ε' : Type} {f : β → α → Except ε β} (g : β → α → ε → ε') {xs : List α}
    {b b' : β} (h : xs.foldlM f b = .ok b') :
    xs.foldlM (fun b x => (f b x).mapError (g b x)) b = .ok b' := by
  induction xs generalizing b with
  | nil =>
    obtain rfl := Except.ok.inj h
    rfl
  | cons x xs ih =>
    rw [List.foldlM_cons] at h ⊢
    cases hx : f b x with
    | error e =>
      rw [hx] at h
      cases h
    | ok b₁ =>
      rw [hx] at h
      exact ih h

end Heimdallr.Lib
