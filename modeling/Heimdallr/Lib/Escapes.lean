import Mathlib.Data.List.Basic

/-!
# Pieces between separators that are not escaped

In a text with escapes an element after an escape stands for itself: a separator there does not
separate. `splitEsc` cuts at the other separators, and leaves the escapes in the pieces. A text that
ends in an escape with nothing after it has no pieces.

* `splitEsc_eq_none_iff`: `escaped` tells such texts.
* `splitEsc_append_sep`: a separator that is not escaped separates.
* `splitEsc_append_plain`: plain elements at the end belong to the last piece, escaped or not.
* `splitEsc_intercalate`, `intercalate_splitEsc`: pieces joined by separators are the pieces, and
  the text.
* `intercalate_append`, `intercalate_concat`: what is joined in parts.
-/

namespace Heimdallr.Lib

variable {α : Type}

/-! ## Joining -/

theorem intercalate_append {sep : List α} {ps qs : List (List α)} (hps : ps ≠ []) (hqs : qs ≠ []) :
    sep.intercalate (ps ++ qs) = sep.intercalate ps ++ sep ++ sep.intercalate qs := by
  induction ps with
  | nil => exact absurd rfl hps
  | cons p ps ih =>
    cases ps with
    | nil =>
      rw [List.singleton_append, List.intercalate_cons_of_ne_nil hqs, List.intercalate_singleton]
    | cons p' ps =>
      rw [List.cons_append, List.intercalate_cons_of_ne_nil (by simp), ih (List.cons_ne_nil _ _),
        List.intercalate_cons_cons]
      simp only [List.append_assoc]

/-- What is put to the last piece is at the end of the text. -/
theorem intercalate_concat (sep : List α) (ps : List (List α)) (q v : List α) :
    sep.intercalate (ps ++ [q ++ v]) = sep.intercalate (ps ++ [q]) ++ v := by
  cases ps with
  | nil => simp
  | cons p ps =>
    rw [intercalate_append (List.cons_ne_nil _ _) (List.cons_ne_nil _ _),
      intercalate_append (List.cons_ne_nil _ _) (List.cons_ne_nil _ _)]
    simp

/-! ## Cutting -/

variable [DecidableEq α] {esc sep : α}

/-- Whether an element after this text is escaped; `b` says it of the first element. -/
def escaped (esc : α) (b : Bool) (t : List α) : Bool := t.foldl (fun b c => !b && c = esc) b

/-- The pieces between the separators that are not escaped; `b` says whether the first element is. -/
def splitEsc (esc sep : α) : Bool → List α → Option (List (List α))
  | b, [] => if b then none else some [[]]
  | b, c :: cs =>
    if b = false ∧ c = sep then (splitEsc esc sep false cs).map ([] :: ·)
    else (splitEsc esc sep (!b && c = esc) cs).map (List.modifyHead (c :: ·))

theorem escaped_cons (b : Bool) (c : α) (t : List α) :
    escaped esc b (c :: t) = escaped esc (!b && c = esc) t := rfl

theorem splitEsc_sep (cs : List α) :
    splitEsc esc sep false (sep :: cs) = (splitEsc esc sep false cs).map ([] :: ·) :=
  if_pos ⟨rfl, rfl⟩

theorem splitEsc_cons {b : Bool} {c : α} (h : ¬ (b = false ∧ c = sep)) (cs : List α) :
    splitEsc esc sep b (c :: cs) =
      (splitEsc esc sep (!b && c = esc) cs).map (List.modifyHead (c :: ·)) :=
  if_neg h

/-! ## Which texts have pieces -/

theorem splitEsc_eq_none_iff (hne : sep ≠ esc) {b : Bool} {t : List α} :
    splitEsc esc sep b t = none ↔ escaped esc b t = true := by
  induction t generalizing b with
  | nil => cases b <;> simp [splitEsc, escaped]
  | cons c t ih =>
    rw [escaped_cons]
    by_cases hc : b = false ∧ c = sep
    · obtain ⟨rfl, rfl⟩ := hc
      rw [splitEsc_sep, Option.map_eq_none_iff, ih]
      simp [hne]
    · rw [splitEsc_cons hc, Option.map_eq_none_iff, ih]

theorem splitEsc_ne_nil {b : Bool} {t : List α} {ps : List (List α)}
    (h : splitEsc esc sep b t = some ps) : ps ≠ [] := by
  induction t generalizing b ps with
  | nil =>
    cases b with
    | false => rw [← Option.some.inj h]; simp
    | true => cases h
  | cons c t ih =>
    by_cases hc : b = false ∧ c = sep
    · obtain ⟨rfl, rfl⟩ := hc
      rw [splitEsc_sep] at h
      obtain ⟨qs, -, rfl⟩ := Option.map_eq_some_iff.mp h
      exact List.cons_ne_nil _ _
    · rw [splitEsc_cons hc] at h
      obtain ⟨qs, hqs, rfl⟩ := Option.map_eq_some_iff.mp h
      rw [Ne, List.modifyHead_eq_nil_iff]
      exact ih hqs

/-! ## Cutting what is put together -/

/-- A separator that is not escaped separates. -/
theorem splitEsc_append_sep (hne : sep ≠ esc) {b : Bool} {u : List α} {ps : List (List α)}
    (h : splitEsc esc sep b u = some ps) (v : List α) :
    splitEsc esc sep b (u ++ sep :: v) = (splitEsc esc sep false v).map (ps ++ ·) := by
  induction u generalizing b ps with
  | nil =>
    cases b with
    | false =>
      rw [← Option.some.inj h]
      exact splitEsc_sep v
    | true => cases h
  | cons c u ih =>
    by_cases hc : b = false ∧ c = sep
    · obtain ⟨rfl, rfl⟩ := hc
      rw [splitEsc_sep] at h
      obtain ⟨qs, hqs, rfl⟩ := Option.map_eq_some_iff.mp h
      rw [List.cons_append, splitEsc_sep, ih hqs, Option.map_map]
      rfl
    · rw [splitEsc_cons hc] at h
      obtain ⟨qs, hqs, rfl⟩ := Option.map_eq_some_iff.mp h
      obtain ⟨q, qs, rfl⟩ := List.exists_cons_of_ne_nil (splitEsc_ne_nil hqs)
      rw [List.cons_append, splitEsc_cons hc, ih hqs, Option.map_map]
      rfl

theorem splitEsc_plain {v : List α} (h : ∀ c ∈ v, c ≠ sep ∧ c ≠ esc) :
    splitEsc esc sep false v = some [v] := by
  induction v with
  | nil => rfl
  | cons c v ih =>
    obtain ⟨⟨hsep, hesc⟩, hv⟩ := List.forall_mem_cons.mp h
    have hstate : (!false && decide (c = esc)) = false := by simp [hesc]
    rw [splitEsc_cons (fun hc => hsep hc.2), hstate, ih hv]
    rfl

/-- Plain elements at the end belong to the last piece. -/
theorem splitEsc_append_plain {v : List α} (hv : v ≠ []) (h : ∀ c ∈ v, c ≠ sep ∧ c ≠ esc)
    (b : Bool) (u : List α) :
    ∃ ps q, splitEsc esc sep b (u ++ v) = some (ps ++ [q ++ v]) := by
  induction u generalizing b with
  | nil =>
    obtain ⟨c, v, rfl⟩ := List.exists_cons_of_ne_nil hv
    obtain ⟨⟨hsep, hesc⟩, hv⟩ := List.forall_mem_cons.mp h
    have hstate : (!b && decide (c = esc)) = false := by simp [hesc]
    refine ⟨[], [], ?_⟩
    rw [List.nil_append, splitEsc_cons (fun hc => hsep hc.2), hstate, splitEsc_plain hv]
    rfl
  | cons c u ih =>
    by_cases hc : b = false ∧ c = sep
    · obtain ⟨rfl, rfl⟩ := hc
      obtain ⟨ps, q, hps⟩ := ih false
      refine ⟨[] :: ps, q, ?_⟩
      rw [List.cons_append, splitEsc_sep, hps]
      rfl
    · obtain ⟨ps, q, hps⟩ := ih (!b && decide (c = esc))
      rw [List.cons_append, splitEsc_cons hc, hps]
      cases ps with
      | nil => exact ⟨[], c :: q, rfl⟩
      | cons p ps => exact ⟨(c :: p) :: ps, q, rfl⟩

/-- Pieces joined by separators are the pieces. -/
theorem splitEsc_intercalate (hne : sep ≠ esc) {ps : List (List α)} (hps : ps ≠ [])
    (h : ∀ p ∈ ps, splitEsc esc sep false p = some [p]) :
    splitEsc esc sep false ([sep].intercalate ps) = some ps := by
  induction ps with
  | nil => exact absurd rfl hps
  | cons p ps ih =>
    obtain ⟨hp, hps⟩ := List.forall_mem_cons.mp h
    cases ps with
    | nil => simpa using hp
    | cons q ps =>
      rw [List.intercalate_cons_cons, List.append_assoc, List.singleton_append,
        splitEsc_append_sep hne hp, ih (List.cons_ne_nil _ _) hps]
      rfl

/-- The pieces joined by separators are the text. -/
theorem intercalate_splitEsc {b : Bool} {t : List α} {ps : List (List α)}
    (h : splitEsc esc sep b t = some ps) : [sep].intercalate ps = t := by
  induction t generalizing b ps with
  | nil =>
    cases b with
    | false => rw [← Option.some.inj h]; rfl
    | true => cases h
  | cons c t ih =>
    by_cases hc : b = false ∧ c = sep
    · obtain ⟨rfl, rfl⟩ := hc
      rw [splitEsc_sep] at h
      obtain ⟨qs, hqs, rfl⟩ := Option.map_eq_some_iff.mp h
      obtain ⟨q, qs, rfl⟩ := List.exists_cons_of_ne_nil (splitEsc_ne_nil hqs)
      rw [List.intercalate_cons_cons, ih hqs]
      rfl
    · rw [splitEsc_cons hc] at h
      obtain ⟨qs, hqs, rfl⟩ := Option.map_eq_some_iff.mp h
      obtain ⟨q, qs, rfl⟩ := List.exists_cons_of_ne_nil (splitEsc_ne_nil hqs)
      have hq := ih hqs
      cases qs with
      | nil =>
        rw [← hq]
        simp
      | cons p qs =>
        rw [← hq]
        simp [List.intercalate_cons_cons]

end Heimdallr.Lib
