import Heimdallr.Resolver.QnameCost
import Mathlib.Data.List.Chain
import Mathlib.Data.List.Infix

/-!
# The suffix chain of a name (`core/resolver/qname_min.rs`)

`peel_labels` is meant to list a name, the name without its first label, and so on down to the root.
The loop goes by `num_labels`, which leaves a leading `*` out of the count, as hickory's does. A
name of which the last label but one is `*` therefore ends early.

* `peelLoop_eq`: the loop lists the suffixes, unless the label before the last is `*`.
* **`peel_enumerates_iff`**: when `peel_labels` lists the whole chain.

The loop ends on every name, as each round takes a label off; names that are not fully qualified are
included.
-/

namespace Heimdallr.Resolver

/-- The name and its shorter and shorter suffixes, down to the root. All but the name itself are
fully qualified. -/
def suffixChain (original : Name) : List Name :=
  original :: original.labels.tails.tail.map fun suffix => ⟨suffix, true⟩

/-- The loop lists the proper suffixes. -/
theorem peelLoop_eq {n : Nat} {ls : List Label} {q : Bool} (hn : ls.length ≤ n) (hne : ls ≠ [])
    (hstar : ls.dropLast.getLast? ≠ some star) :
    peelLoop n ⟨ls, q⟩ = ls.tails.tail.map fun suffix => ⟨suffix, true⟩ := by
  induction n generalizing ls q with
  | zero => exact absurd (List.length_eq_zero_iff.mp (Nat.le_zero.mp hn)) hne
  | succ n ih =>
    obtain ⟨a, rest, rfl⟩ := List.exists_cons_of_ne_nil hne
    cases rest with
    | nil =>
      rw [peelLoop_singleton]
      rfl
    | cons b rest =>
      have hstop : ¬ (a = star ∧ rest = []) := by
        rintro ⟨rfl, rfl⟩
        exact hstar rfl
      have hrest : (b :: rest).dropLast.getLast? ≠ some star := by
        cases rest with
        | nil => simp
        | cons c rest =>
          rw [List.dropLast_cons_cons, List.dropLast_cons_cons, List.getLast?_cons_cons] at hstar
          rw [List.dropLast_cons_cons]
          exact hstar
      rw [List.length_cons] at hn
      rw [peelLoop_cons_cons hstop, ih (by omega) (List.cons_ne_nil b rest) hrest, List.tails_cons,
        List.tails_cons]
      rfl

/-! ## The chain -/

theorem length_suffixChain (original : Name) :
    (suffixChain original).length = original.labels.length + 1 := by
  have hpos := List.length_tails original.labels
  simp only [suffixChain, List.length_cons, List.length_map, List.length_tail]
  omega

/-- The labels of the chain. -/
theorem labels_suffixChain (original : Name) :
    (suffixChain original).map Name.labels = original.labels.tails := by
  obtain ⟨ls, q⟩ := original
  unfold suffixChain
  rw [List.map_cons, List.map_map]
  cases ls with
  | nil => rfl
  | cons a ls => simp [Function.comp_def]

/-- Consecutive suffixes differ by the leading element. -/
theorem tails_isChain {α : Type} (l : List α) :
    l.tails.IsChain fun s t => ∃ a, s = a :: t := by
  induction l with
  | nil => simp
  | cons a l ih =>
    rw [List.tails_cons]
    cases l with
    | nil => simp
    | cons b l =>
      rw [List.tails_cons] at ih ⊢
      exact List.isChain_cons_cons.mpr ⟨⟨a, rfl⟩, ih⟩

/-- No two suffixes are the same. -/
theorem nodup_tails {α : Type} (l : List α) : l.tails.Nodup := by
  induction l with
  | nil => simp
  | cons a l ih =>
    rw [List.tails_cons, List.nodup_cons]
    refine ⟨?_, ih⟩
    intro hmem
    have hlen := ((List.mem_tails _ _).mp hmem).length_le
    rw [List.length_cons] at hlen
    omega

theorem getLast?_tails {α : Type} (l : List α) : l.tails.getLast? = some [] := by
  induction l with
  | nil => rfl
  | cons a l ih => rw [List.tails_cons, List.getLast?_cons, ih, Option.getD_some]

/-- The whole chain is listed: every name of it once, each the one before less its leading label, and
the loop is over after as many rounds as there are labels. -/
structure Enumerates (original : Name) : Prop where
  terminates : ∀ more, peelLoop (original.labels.length + more) original =
    peelLoop original.labels.length original
  names : peelLabels original = suffixChain original
  length : (peelLabels original).length = original.labels.length + 1
  consecutive : (peelLabels original).IsChain fun n m => ∃ l, n.labels = l :: m.labels
  nodup : (peelLabels original).Nodup
  last : (peelLabels original).getLast? = some Name.root

theorem peelLabels_eq {original : Name} (hne : original.labels ≠ [])
    (hstar : original.labels.dropLast.getLast? ≠ some star) :
    peelLabels original = suffixChain original := by
  obtain ⟨ls, q⟩ := original
  exact congrArg _ (peelLoop_eq le_rfl hne hstar)

/-- What holds of a sequence that is the chain. -/
theorem enumerates_of_names {original : Name} (hname : original.labels ≠ [] ∨ original = .root)
    (h : peelLabels original = suffixChain original) : Enumerates original where
  terminates more := peelLoop_rounds (Nat.le_add_right _ more)
  names := h
  length := by rw [h, length_suffixChain]
  consecutive := by
    have hchain := tails_isChain original.labels
    rw [← labels_suffixChain, List.isChain_map] at hchain
    rw [h]
    exact hchain
  nodup := by
    have hnodup := nodup_tails original.labels
    rw [← labels_suffixChain] at hnodup
    rw [h]
    exact hnodup.of_map _
  last := by
    rw [h]
    rcases hname with hne | rfl
    · obtain ⟨a, ls, hcons⟩ := List.exists_cons_of_ne_nil hne
      unfold suffixChain
      rw [hcons, List.tails_cons, List.tail_cons, List.getLast?_cons, List.getLast?_map,
        getLast?_tails]
      rfl
    · rfl

/-- **When the chain is listed.** The label before the last one is not `*`. -/
theorem peel_enumerates_iff (original : Name) (hname : original.labels ≠ [] ∨ original = .root) :
    Enumerates original ↔ original.labels.dropLast.getLast? ≠ some star := by
  constructor
  · rintro h hstar
    obtain ⟨ls, q⟩ := original
    have hne : ls ≠ [] := by
      rintro rfl
      cases hstar
    have hlen : (peelLabels ⟨ls, q⟩).length = _ := congrArg Nat.succ (length_peelLoop le_rfl hne)
    have hpos := List.length_pos_iff.mpr hne
    rw [h.length, if_pos hstar] at hlen
    dsimp only at hlen
    omega
  · intro hstar
    refine enumerates_of_names hname ?_
    rcases hname with hne | rfl
    · exact peelLabels_eq hne hstar
    · rfl

theorem peel_enumerates_www :
    (wwwName.labels ≠ [] ∨ wwwName = .root) ∧ Enumerates wwwName := by
  have hname : wwwName.labels ≠ [] ∨ wwwName = .root := Or.inl (by decide)
  exact ⟨hname, (peel_enumerates_iff wwwName hname).mpr (by decide)⟩

/-- **A suffix that is left out.** The second name has two labels and counts as one. -/
theorem wildcard_suffix_skipped :
    let original := Name.ofLabels ["a", "*", "example"] true
    peelLabels original = [original, .ofLabels ["*", "example"] true, .root] ∧
      original.labels.head? ≠ some star ∧ ¬ Enumerates original := by
  have hpeel : peelLabels (.ofLabels ["a", "*", "example"] true) =
      [.ofLabels ["a", "*", "example"] true, .ofLabels ["*", "example"] true, .root] := by
    decide
  refine ⟨hpeel, by decide, fun h => ?_⟩
  have hlen := h.length
  rw [hpeel] at hlen
  exact absurd hlen (by decide)

end Heimdallr.Resolver
