import Mathlib.Logic.Function.Basic

/-!
# Stores that only grow

A partial map grows when what is in it stays, with its content. This is the invariant of whatever
writes a place only while it is empty; a view of a state may grow where the state itself does not.
A computation that fails half-way has a view as well: that of what it leaves behind.

* `Grows` is a preorder, and `grows_update` its one step: writing an empty place.
* `foldl_grows`, `foldlM_grows`: runs of steps that each let a view grow.
-/

namespace Heimdallr.Lib

variable {A S K V ε : Type}

/-- What is there stays, with its content. -/
def Grows (m m' : K → Option V) : Prop := ∀ k v, m k = some v → m' k = some v

theorem Grows.refl (m : K → Option V) : Grows m m := fun _ _ h => h

theorem Grows.trans {m₁ m₂ m₃ : K → Option V} (h : Grows m₁ m₂) (h' : Grows m₂ m₃) : Grows m₁ m₃ :=
  fun k v hk => h' k v (h k v hk)

theorem grows_update [DecidableEq K] {m : K → Option V} {k : K} (h : m k = none) (o : Option V) :
    Grows m (Function.update m k o) := by
  intro k' v' hk'
  have hne : k' ≠ k := by
    rintro rfl
    rw [h] at hk'
    cases hk'
  rw [Function.update_of_ne hne]
  exact hk'

/-! ## Runs -/

theorem foldl_grows {f : (K → Option V) → A → K → Option V} (hstep : ∀ m a, Grows m (f m a))
    (as : List A) (m : K → Option V) : Grows m (as.foldl f m) := by
  induction as generalizing m with
  | nil => exact .refl m
  | cons a as ih => exact (hstep m a).trans (ih (f m a))

/-- The view of what a computation that may fail comes to. -/
def reached (view : S → K → Option V) (left : ε → K → Option V) : Except ε S → K → Option V
  | .ok s => view s
  | .error e => left e

section FoldM

variable {f : S → A → Except ε S} {view : S → K → Option V} {left : ε → K → Option V}

theorem foldlM_grows (hstep : ∀ s a, Grows (view s) (reached view left (f s a))) (as : List A)
    (s : S) : Grows (view s) (reached view left (as.foldlM f s)) := by
  induction as generalizing s with
  | nil => exact .refl (view s)
  | cons a as ih =>
    rw [List.foldlM_cons]
    have hfirst := hstep s a
    cases hs : f s a with
    | error e =>
      rw [hs] at hfirst
      exact hfirst
    | ok s₁ =>
      rw [hs] at hfirst
      exact hfirst.trans (ih s₁)

end FoldM

end Heimdallr.Lib
