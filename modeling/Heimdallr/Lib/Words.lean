import Mathlib.Data.List.DropRight

/-!
# Words between separators

`words p` has the non-empty pieces of a list between the elements that satisfy `p`, as the functions
that split a text at white space give them. Separators at either end do not matter
(`words_dropWhile`, `words_rdropWhile`). A list that does not begin with a separator begins with its
first word (`words_of_head`), and one that does not end with a separator is left as it is when they
are trimmed (`rdropWhile_eq_self_iff`).
-/

namespace Heimdallr.Lib

variable {α : Type} {p : α → Bool}

/-- The non-empty pieces between separators. -/
def words (p : α → Bool) (t : List α) : List (List α) := (t.splitOnP p).filter (· ≠ [])

theorem words_cons_sep {c : α} (h : p c = true) (t : List α) : words p (c :: t) = words p t := by
  unfold words
  rw [List.splitOnP_cons_eq_if_modifyHead, if_pos h]
  simp

theorem words_append_sep {c : α} (h : p c = true) (t s : List α) :
    words p (t ++ c :: s) = words p t ++ words p s := by
  unfold words
  rw [List.splitOnP_append_cons t s h, List.filter_append]

theorem words_of_seps {s : List α} (h : ∀ c ∈ s, p c = true) : words p s = [] := by
  induction s with
  | nil => simp [words]
  | cons c s ih =>
    rw [words_cons_sep (h c List.mem_cons_self)]
    exact ih fun d hd => h d (List.mem_cons_of_mem _ hd)

theorem words_append_seps {s : List α} (h : ∀ c ∈ s, p c = true) (t : List α) :
    words p (t ++ s) = words p t := by
  cases s with
  | nil => rw [List.append_nil]
  | cons c s =>
    rw [words_append_sep (h c List.mem_cons_self),
      words_of_seps fun d hd => h d (List.mem_cons_of_mem _ hd), List.append_nil]

theorem words_dropWhile (p : α → Bool) (t : List α) : words p (t.dropWhile p) = words p t := by
  induction t with
  | nil => rfl
  | cons c t ih =>
    by_cases hc : p c = true
    · rw [List.dropWhile_cons_of_pos hc, words_cons_sep hc, ih]
    · rw [List.dropWhile_cons_of_neg hc]

theorem words_rdropWhile (p : α → Bool) (t : List α) : words p (t.rdropWhile p) = words p t := by
  have hsplit : t.rdropWhile p ++ t.rtakeWhile p = t := List.rdropWhile_append_rtakeWhile
  have hseps : ∀ c ∈ t.rtakeWhile p, p c = true := fun c hc => List.mem_rtakeWhile_imp hc
  conv_rhs => rw [← hsplit]
  rw [words_append_seps hseps]

theorem rdropWhile_eq_self_iff [DecidableEq α] {a : α} {t : List α} :
    t.rdropWhile (· = a) = t ↔ t.getLast? ≠ some a := by
  rw [List.rdropWhile_eq_self_iff]
  constructor
  · intro h hlast
    obtain ⟨s, rfl⟩ := List.getLast?_eq_some_iff.mp hlast
    exact h (by simp) (by simp)
  · intro h hne ha
    rw [List.getLast?_eq_some_getLast hne, of_decide_eq_true ha] at h
    exact h rfl

theorem ne_nil_of_mem_words {w t : List α} (h : w ∈ words p t) : w ≠ [] := by
  simpa using (List.mem_filter.mp h).2

/-- The first word of a list that does not begin with a separator. -/
theorem words_of_head {c : α} (hc : p c = false) (t : List α) :
    words p (c :: t) =
      (c :: t.takeWhile fun d => !p d) :: words p (t.dropWhile fun d => !p d) := by
  have hword : ∀ d ∈ c :: t.takeWhile (fun d => !p d), p d = false := by
    intro d hd
    rcases List.mem_cons.mp hd with rfl | hd
    · exact hc
    · simpa using List.all_eq_true.mp List.all_takeWhile d hd
  have hcut : c :: t = (c :: t.takeWhile fun d => !p d) ++ t.dropWhile fun d => !p d := by
    rw [List.cons_append, List.takeWhile_append_dropWhile]
  conv_lhs => rw [hcut]
  cases hrest : t.dropWhile fun d => !p d with
  | nil =>
    unfold words
    rw [List.append_nil, List.splitOnP_eq_singleton hword]
    simp
  | cons d rest =>
    have hd : p d = true := by
      have hhead := List.head_dropWhile_not (fun d => !p d) (l := t) (by simp [hrest])
      simpa [hrest] using hhead
    rw [words_cons_sep hd]
    unfold words
    rw [List.splitOnP_append_cons_of_forall_mem hword d hd]
    simp

end Heimdallr.Lib
