import Mathlib.Data.List.Infix

/-!
# The pieces of a list, and what follows a separator

`List.splitOn x` cuts a list at every `x`. Whoever looks for the last pieces of a list need not cut
it: `afterEach x` has what follows each separator, from the left, and the pieces of one list are the
last pieces of another exactly when the one is the other or follows a separator in it.

* `splitOn_injective`: the pieces determine the list.
* **`splitOn_suffix_iff`**: the last pieces, without cutting.
* `splitOn_suffix_append`: a list put before a separator adds pieces in front.
-/

namespace Heimdallr.Lib

variable {α : Type} [DecidableEq α]

/-- What follows each `x`, from the left. -/
def afterEach (x : α) : List α → List (List α)
  | [] => []
  | y :: ys => if y = x then ys :: afterEach x ys else afterEach x ys

theorem splitOn_injective {x : α} {xs ys : List α} : xs.splitOn x = ys.splitOn x ↔ xs = ys := by
  constructor
  · intro h
    have hxs : [x].intercalate (xs.splitOn x) = xs := List.intercalate_splitOn x
    rw [← hxs, h, List.intercalate_splitOn]
  · rintro rfl
    rfl

/-- The first piece is over at a separator. -/
theorem splitOn_cons_self (x : α) (ys : List α) :
    (x :: ys).splitOn x = [] :: ys.splitOn x := by
  simp [List.splitOn_cons_eq_if_modifyHead]

/-- Another element belongs to the first piece. -/
theorem splitOn_cons_of_ne {x y : α} (h : y ≠ x) (ys : List α) :
    (y :: ys).splitOn x = (ys.splitOn x).modifyHead (y :: ·) := by
  simp [List.splitOn_cons_eq_if_modifyHead, h]

/-- The pieces after the first one. -/
theorem splitOn_suffix_tail_iff {x : α} {xs ys : List α} :
    xs.splitOn x <:+ (ys.splitOn x).tail ↔ xs ∈ afterEach x ys := by
  induction ys with
  | nil => simp [afterEach, List.splitOn_ne_nil]
  | cons y ys ih =>
    by_cases hy : y = x
    · subst hy
      obtain ⟨piece, pieces, hpieces⟩ := List.exists_cons_of_ne_nil (List.splitOn_ne_nil y ys)
      rw [hpieces, List.tail_cons] at ih
      rw [splitOn_cons_self, List.tail_cons, hpieces, List.suffix_cons_iff, ih, ← hpieces,
        splitOn_injective]
      simp [afterEach]
    · rw [splitOn_cons_of_ne hy, List.tail_modifyHead, ih]
      simp [afterEach, hy]

/-- **The last pieces, without cutting.** -/
theorem splitOn_suffix_iff {x : α} {xs ys : List α} :
    xs.splitOn x <:+ ys.splitOn x ↔ xs = ys ∨ xs ∈ afterEach x ys := by
  have hsame : xs.splitOn x = ys.splitOn x ↔ xs = ys := splitOn_injective
  rw [← splitOn_suffix_tail_iff, ← hsame]
  obtain ⟨piece, pieces, hpieces⟩ := List.exists_cons_of_ne_nil (List.splitOn_ne_nil x ys)
  rw [hpieces, List.tail_cons, List.suffix_cons_iff]

theorem splitOn_suffix_append (x : α) (xs ys : List α) :
    ys.splitOn x <:+ (xs ++ x :: ys).splitOn x := by
  rw [List.splitOn_append_cons_self]
  exact List.suffix_append _ _

end Heimdallr.Lib
