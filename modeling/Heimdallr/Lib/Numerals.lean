import Mathlib.Data.Nat.Notation

/-!
# Numerals are read back

`Nat.toDigits` writes a number in a positional system. A reader takes the digits there are, looks up
the value of each, and adds them up from the left. `read` stands for the looking up: all that is
asked of it is that it knows the digits below the radix.

* `exists_digits`: the characters that are written, the values that are read of them, and the number
  as a left fold over these.
* `toDigits_head?`: how a numeral begins.
* `takeWhile_stop`, `dropWhile_stop`: a reader takes the digits there are and stops behind them.
-/

namespace Heimdallr.Lib

/-! ## Taking what there is -/

section Take

variable {α : Type*} {p : α → Bool} {xs rest : List α}

/-- All of the front and none of the rest. -/
theorem takeWhile_stop (hall : ∀ x ∈ xs, p x = true) (hstop : ∀ x ∈ rest.head?, p x = false) :
    (xs ++ rest).takeWhile p = xs := by
  rw [List.takeWhile_append_of_pos hall]
  cases rest with
  | nil => simp
  | cons x rest => simp [hstop x rfl]

theorem dropWhile_stop (hall : ∀ x ∈ xs, p x = true) (hstop : ∀ x ∈ rest.head?, p x = false) :
    (xs ++ rest).dropWhile p = rest := by
  rw [List.dropWhile_append_of_pos hall]
  cases rest with
  | nil => rfl
  | cons x rest => simp [hstop x rfl]

end Take

/-! ## Looking up -/

section Values

variable {α β : Type} {f : α → Option β} {xs : List α} {ys : List β}

theorem filterMap_of_map (h : xs.map f = ys.map some) : xs.filterMap f = ys := by
  have hfilter := congrArg (List.filterMap id) h
  simpa [List.filterMap_map, Function.comp_def] using hfilter

theorem isSome_of_map (h : xs.map f = ys.map some) : ∀ x ∈ xs, (f x).isSome = true := by
  intro x hx
  obtain ⟨y, -, hy⟩ := List.mem_map.mp (h ▸ List.mem_map_of_mem hx)
  simp [← hy]

theorem mapM_of_map (h : xs.map f = ys.map some) : xs.mapM f = some ys := by
  induction xs generalizing ys with
  | nil =>
    cases ys with
    | nil => rfl
    | cons y ys => cases h
  | cons x xs ih =>
    cases ys with
    | nil => cases h
    | cons y ys =>
      obtain ⟨hx, hxs⟩ := List.cons.inj h
      rw [List.mapM_cons, hx, ih hxs]
      rfl

end Values

/-! ## Digits -/

variable {radix : Nat} {read : Char → Option Nat}

/-- The digits of a number, and what they add up to. -/
theorem exists_digits (hradix : 1 < radix) (hread : ∀ d < radix, read d.digitChar = some d)
    (n : Nat) :
    ∃ ds : List Nat, (Nat.toDigits radix n).map read = ds.map some ∧
      ds.foldl (fun n d => n * radix + d) 0 = n := by
  induction n using Nat.base_induction radix hradix with
  | single d hd =>
    refine ⟨[d], ?_, ?_⟩
    · simp [Nat.toDigits_of_lt_base hd, hread d hd]
    · simp
  | digit m d hd hm ih =>
    obtain ⟨ds, hds, hvalue⟩ := ih
    refine ⟨ds ++ [d], ?_, ?_⟩
    · rw [← Nat.toDigits_append_toDigits hradix hm hd, List.map_append, hds,
        Nat.toDigits_of_lt_base hd]
      simp [hread d hd]
    · rw [List.foldl_append, hvalue, List.foldl_cons, List.foldl_nil, Nat.mul_comm]

/-- No zero stands in front of a number. -/
theorem toDigits_head? (hradix : 1 < radix) (hread : ∀ d < radix, read d.digitChar = some d)
    {n : Nat} (hn : 0 < n) : (Nat.toDigits radix n).head? ≠ some '0' := by
  induction n using Nat.base_induction radix hradix with
  | single d hd =>
    rw [Nat.toDigits_of_lt_base hd, List.head?_cons]
    intro hzero
    have hd' := hread d hd
    have h0 := hread 0 (by omega)
    rw [Option.some.inj hzero, show '0' = Nat.digitChar 0 from rfl, h0] at hd'
    have := Option.some.inj hd'
    omega
  | digit m d hd hm ih =>
    obtain ⟨c, cs, hcs⟩ := List.exists_cons_of_ne_nil (Nat.toDigits_ne_nil (b := radix) (n := m))
    rw [← Nat.toDigits_append_toDigits hradix hm hd, hcs]
    have hm' := ih hm
    rwa [hcs] at hm'

end Heimdallr.Lib
