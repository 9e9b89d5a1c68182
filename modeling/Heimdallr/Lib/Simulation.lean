import Mathlib.Data.Option.Basic
import Mathlib.Data.List.Basic

/-!
# Machines that answer, and simulations between them

A machine performs operations one after the other; each returns an answer and a new state, or does
not return. `answers` is everything a client of the machine sees: the answers of a sequence of
operations, or nothing when one of them does not return.

* `Simulates`: from related states an operation of both machines returns in both or in neither, with
  the same answer, to related states.
* `Simulates.answers_alike`: then no sequence of operations tells the machines apart. The relation
  need not be a function, and the two machines need not have states of one type.
-/

namespace Heimdallr.Lib

variable {A O S T : Type}

/-- Perform one operation. -/
abbrev Machine (A O S : Type) := A → S → Option (O × S)

/-- The answers to the operations in order, and the state after them; `none` when one of them does
not return. -/
def answers (step : Machine A O S) : List A → S → Option (List O × S)
  | [], s => some ([], s)
  | a :: acts, s =>
    (step a s).bind fun r => (answers step acts r.2).map fun rest => (r.1 :: rest.1, rest.2)

/-- Both return the same, to states that are related, or neither returns. -/
def Alike {P : Type} (R : S → T → Prop) : Option (P × S) → Option (P × T) → Prop
  | some x, some y => x.1 = y.1 ∧ R x.2 y.2
  | none, none => True
  | _, _ => False

/-- `R` relates states from which the two machines do alike. -/
def Simulates (step : Machine A O S) (step' : Machine A O T) (R : S → T → Prop) : Prop :=
  ∀ a s t, R s t → Alike R (step a s) (step' a t)

variable {step : Machine A O S} {step' : Machine A O T} {R : S → T → Prop}

/-- Alike in an operation and alike in what follows it. -/
theorem Alike.bind {P Q : Type} {x : Option (P × S)} {y : Option (P × T)}
    {f : P × S → Option (Q × S)} {g : P × T → Option (Q × T)} (h : Alike R x y)
    (hfg : ∀ p s t, R s t → Alike R (f (p, s)) (g (p, t))) : Alike R (x.bind f) (y.bind g) := by
  cases x with
  | none =>
    cases y with
    | none => exact trivial
    | some y => exact absurd h id
  | some x =>
    cases y with
    | none => exact absurd h id
    | some y =>
      obtain ⟨p, s⟩ := x
      obtain ⟨p', t⟩ := y
      obtain ⟨rfl, hst⟩ := h
      exact hfg p s t hst

theorem Alike.map {P Q : Type} {x : Option (P × S)} {y : Option (P × T)} (f : P → Q)
    (h : Alike R x y) :
    Alike R (x.map fun r => (f r.1, r.2)) (y.map fun r => (f r.1, r.2)) := by
  rw [Option.map_eq_bind, Option.map_eq_bind]
  exact h.bind fun p s t hst => ⟨rfl, hst⟩

/-- **No sequence of operations** tells related states apart. -/
theorem Simulates.answers_alike (h : Simulates step step' R) {acts : List A} {s : S} {t : T}
    (hst : R s t) : Alike R (answers step acts s) (answers step' acts t) := by
  induction acts generalizing s t with
  | nil => exact ⟨rfl, hst⟩
  | cons a acts ih =>
    refine (h a s t hst).bind ?_
    intro o s₁ t₁ h₁
    exact (ih h₁).map (o :: ·)

end Heimdallr.Lib
