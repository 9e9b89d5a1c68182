import Mathlib.Data.Nat.Bitwise

/-!
# Leading bits

Bits are counted from the left, as the prefixes of addresses count them, for words of any width.
`AgreeOn p x y` says that two words have their first `p` bits in common, which a mask tells
(`and_prefixMask_eq_iff`) as well as a division (`agreeOn_iff_div`).

A prefix of zero bits is a mask of zeros, one of the full width or more a mask of ones: the shift
that makes the mask is total here, so nothing has to be said of a prefix that is too long.
-/

namespace Heimdallr.Lib

variable {w : Nat}

/-- The first `p` bits are the same. -/
def AgreeOn (p : Nat) (x y : BitVec w) : Prop := ∀ i < p, x.getMsbD i = y.getMsbD i

/-- The word with its first `p` bits set. -/
def prefixMask (w p : Nat) : BitVec w := BitVec.allOnes w <<< (w - p)

theorem getMsbD_prefixMask {p i : Nat} (hi : i < w) :
    (prefixMask w p).getMsbD i = decide (i < p) := by
  unfold prefixMask
  rw [BitVec.getMsbD_shiftLeft, BitVec.getMsbD_allOnes]
  by_cases hp : i < p
  · simp [hp]
    omega
  · simp [hp]
    omega

/-- The bits of a masked word. -/
theorem getMsbD_and_prefixMask (x : BitVec w) (p i : Nat) :
    (x &&& prefixMask w p).getMsbD i = (decide (i < p) && x.getMsbD i) := by
  rw [BitVec.getMsbD_and]
  by_cases hi : i < w
  · rw [getMsbD_prefixMask hi, Bool.and_comm]
  · have hout : x.getMsbD i = false := BitVec.getMsbD_of_ge x i (by omega)
    rw [hout, Bool.false_and, Bool.and_false]

/-- **A mask compares leading bits.** -/
theorem and_prefixMask_eq_iff {x y : BitVec w} {p : Nat} :
    x &&& prefixMask w p = y &&& prefixMask w p ↔ AgreeOn p x y := by
  constructor
  · intro h i hi
    have hbit := congrArg (BitVec.getMsbD · i) h
    simpa only [getMsbD_and_prefixMask, hi, decide_true, Bool.true_and] using hbit
  · intro h
    refine BitVec.eq_of_getMsbD_eq fun i _ => ?_
    rw [getMsbD_and_prefixMask, getMsbD_and_prefixMask]
    by_cases hi : i < p
    · rw [h i hi]
    · simp [hi]

/-- **A division compares leading bits.** -/
theorem agreeOn_iff_div {x y : BitVec w} {p : Nat} (hp : p ≤ w) :
    AgreeOn p x y ↔ x.toNat / 2 ^ (w - p) = y.toNat / 2 ^ (w - p) := by
  rw [← Nat.shiftRight_eq_div_pow, ← Nat.shiftRight_eq_div_pow]
  constructor
  · intro h
    refine Nat.eq_of_testBit_eq fun j => ?_
    rw [Nat.testBit_shiftRight, Nat.testBit_shiftRight, BitVec.testBit_toNat, BitVec.testBit_toNat,
      BitVec.getLsbD_eq_getMsbD, BitVec.getLsbD_eq_getMsbD]
    by_cases hj : w - p + j < w
    · rw [h _ (by omega)]
    · simp [hj]
  · intro h i hi
    -- bit `i` from the left is bit `p - 1 - i` of the quotient
    have hbit := congrArg (Nat.testBit · (p - 1 - i)) h
    simp only [Nat.testBit_shiftRight, BitVec.testBit_toNat] at hbit
    rw [BitVec.getMsbD_eq_getLsbD, BitVec.getMsbD_eq_getLsbD]
    have hpos : w - 1 - i = w - p + (p - 1 - i) := by omega
    rw [hpos, hbit]

/-- The whole word. -/
theorem agreeOn_width {x y : BitVec w} {p : Nat} (hp : w ≤ p) : AgreeOn p x y ↔ x = y := by
  constructor
  · intro h
    exact BitVec.eq_of_getMsbD_eq fun i hi => h i (by omega)
  · rintro rfl i -
    rfl

theorem agreeOn_zero {x y : BitVec w} : AgreeOn 0 x y := fun _ hi => absurd hi (by omega)

/-! ## The special cases of a mask -/

theorem prefixMask_zero : prefixMask w 0 = 0#w := by
  refine BitVec.eq_of_getMsbD_eq fun i hi => ?_
  rw [getMsbD_prefixMask hi]
  simp

theorem prefixMask_width {p : Nat} (hp : w ≤ p) : prefixMask w p = BitVec.allOnes w := by
  unfold prefixMask
  rw [Nat.sub_eq_zero_of_le hp, BitVec.shiftLeft_zero]

theorem append_inj {v : Nat} {x x' : BitVec w} {y y' : BitVec v} (h : x ++ y = x' ++ y') :
    x = x' ∧ y = y' := by
  constructor
  · have hleft := congrArg (BitVec.extractLsb' v w) h
    rwa [BitVec.extractLsb'_append_eq_left, BitVec.extractLsb'_append_eq_left] at hleft
  · have hright := congrArg (BitVec.extractLsb' 0 v) h
    rwa [BitVec.extractLsb'_append_eq_right, BitVec.extractLsb'_append_eq_right] at hright

end Heimdallr.Lib
