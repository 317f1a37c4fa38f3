import Mathlib.Data.BitVec
import PacketFilter.Word

/-!
# Words read as numbers

A word is compared in two orders.  This module turns both into the order of
the numbers that the word stands for, unsigned and signed, and says how the
two readings are connected: they differ by `2 ^ 64` from the sign boundary on.

With these equations a fact about comparisons of words is one of linear
arithmetic.
-/

namespace PacketFilter.Word

/-- The two readings of a word. -/
theorem toInt_cases (word : Word) :
    (word.toNat < 2 ^ 63 ∧ word.toInt = word.toNat) ∨
      (2 ^ 63 ≤ word.toNat ∧ word.toNat < 2 ^ 64 ∧ word.toInt = (word.toNat : Int) - 2 ^ 64) := by
  have bounded := word.isLt
  rw [BitVec.toInt_eq_toNat_cond]
  split <;> omega

theorem isNonNegative_iff {word : Word} :
    word.isNonNegative = true ↔ word.toNat < 2 ^ 63 := by
  rw [isNonNegative, BitVec.msb_eq_decide]
  simp

theorem toNat_unsignedMin (left right : Word) :
    (unsignedMin left right).toNat = min left.toNat right.toNat := by
  unfold unsignedMin
  split <;> rename_i order <;> rw [BitVec.le_def] at order <;> omega

theorem toNat_unsignedMax (left right : Word) :
    (unsignedMax left right).toNat = max left.toNat right.toNat := by
  unfold unsignedMax
  split <;> rename_i order <;> rw [BitVec.le_def] at order <;> omega

theorem toInt_signedMin (left right : Word) :
    (signedMin left right).toInt = min left.toInt right.toInt := by
  unfold signedMin
  split <;> rename_i order <;> rw [BitVec.sle_iff_toInt_le] at order <;> omega

theorem toInt_signedMax (left right : Word) :
    (signedMax left right).toInt = max left.toInt right.toInt := by
  unfold signedMax
  split <;> rename_i order <;> rw [BitVec.sle_iff_toInt_le] at order <;> omega

theorem toInt_signedLeast_le (word : Word) : signedLeast.toInt ≤ word.toInt := by
  have floor : signedLeast.toInt = -(2 ^ 63) := by decide
  have range := toInt_cases word
  omega

theorem toInt_le_signedGreatest (word : Word) : word.toInt ≤ signedGreatest.toInt := by
  have ceiling : signedGreatest.toInt = 2 ^ 63 - 1 := by decide
  have range := toInt_cases word
  omega

/-- A sum that stays in the signed range is the sum of the signed readings. -/
theorem toInt_add_of_range
    {left right : Word}
    (above : -(2 ^ 63) ≤ left.toInt + right.toInt) (below : left.toInt + right.toInt < 2 ^ 63) :
    (left + right).toInt = left.toInt + right.toInt := by
  rw [BitVec.toInt_add, Int.bmod_eq_of_le] <;> omega

/-- A difference that stays in the signed range is the difference of the signed readings. -/
theorem toInt_sub_of_range
    {left right : Word}
    (above : -(2 ^ 63) ≤ left.toInt - right.toInt) (below : left.toInt - right.toInt < 2 ^ 63) :
    (left - right).toInt = left.toInt - right.toInt := by
  rw [BitVec.toInt_sub, Int.bmod_eq_of_le] <;> omega

theorem signedAdd_eq_some
    {left right sum : Word}
    (added : signedAdd? left right = some sum) :
    sum.toInt = left.toInt + right.toInt := by
  unfold signedAdd? at added
  split at added
  · cases added
  · rename_i fits
    cases added
    exact BitVec.toInt_add_of_not_saddOverflow fits

theorem signedSub_eq_some
    {left right difference : Word}
    (subtracted : signedSub? left right = some difference) :
    difference.toInt = left.toInt - right.toInt := by
  unfold signedSub? at subtracted
  split at subtracted
  · cases subtracted
  · rename_i fits
    cases subtracted
    exact BitVec.toInt_sub_of_not_ssubOverflow fits

theorem unsignedAdd_eq_some
    {left right sum : Word}
    (added : unsignedAdd? left right = some sum) :
    sum.toNat = left.toNat + right.toNat := by
  unfold unsignedAdd? at added
  split at added
  · cases added
  · rename_i fits
    cases added
    exact BitVec.toNat_add_of_not_uaddOverflow fits

theorem unsignedSub_eq_some
    {left right difference : Word}
    (subtracted : unsignedSub? left right = some difference) :
    right.toNat ≤ left.toNat ∧ difference.toNat = left.toNat - right.toNat := by
  unfold unsignedSub? at subtracted
  split at subtracted
  · cases subtracted
  · rename_i order
    cases subtracted
    rw [BitVec.lt_def, Nat.not_lt] at order
    exact ⟨order, BitVec.toNat_sub_of_le order⟩

theorem unsignedAdd?_one {word : Word} (room : word ≠ allOnes) :
    word.unsignedAdd? 1 = some (word + 1) := by
  have below : word.toNat ≠ 2 ^ 64 - 1 := fun top => room (BitVec.eq_of_toNat_eq top)
  have bounded := word.isLt
  have fits : word.uaddOverflow 1 = false := by
    simp only [BitVec.uaddOverflow, BitVec.ofNat_eq_ofNat, BitVec.toNat_ofNat,
      decide_eq_false_iff_not]
    omega
  rw [unsignedAdd?, fits, if_neg Bool.false_ne_true]

theorem unsignedSub?_of_le {left right : Word} (order : right ≤ left) :
    left.unsignedSub? right = some (left - right) :=
  if_neg (BitVec.not_lt.mpr order)

theorem unsignedSub?_one {word : Word} (room : word ≠ 0) :
    word.unsignedSub? 1 = some (word - 1) := by
  apply unsignedSub?_of_le
  rw [BitVec.le_def]
  exact Nat.pos_of_ne_zero fun none => room (BitVec.eq_of_toNat_eq none)

theorem signedAdd?_one {word : Word} (room : word ≠ signedGreatest) :
    word.signedAdd? 1 = some (word + 1) := by
  have below : word.toInt ≠ 2 ^ 63 - 1 := fun top => room (BitVec.eq_of_toInt_eq top)
  have range := toInt_cases word
  have fits : word.saddOverflow 1 = false := by
    simp only [BitVec.saddOverflow, show (1 : Word).toInt = 1 from rfl]
    simp only [Bool.or_eq_false_iff, decide_eq_false_iff_not]
    omega
  rw [signedAdd?, fits, if_neg Bool.false_ne_true]

theorem signedSub?_one {word : Word} (room : word ≠ signedLeast) :
    word.signedSub? 1 = some (word - 1) := by
  have above : word.toInt ≠ -(2 ^ 63) := fun bottom => room (BitVec.eq_of_toInt_eq bottom)
  have range := toInt_cases word
  have fits : word.ssubOverflow 1 = false := by
    simp only [BitVec.ssubOverflow, show (1 : Word).toInt = 1 from rfl]
    simp only [Bool.or_eq_false_iff, decide_eq_false_iff_not]
    omega
  rw [signedSub?, fits, if_neg Bool.false_ne_true]

/-! ## Low bits -/

theorem toNat_lowMask {count : Nat} (short : count ≤ 64) :
    (lowMask count).toNat = 2 ^ count - 1 := by
  have positive := Nat.two_pow_pos count
  have factor : 2 ^ 64 = 2 ^ count * 2 ^ (64 - count) := by
    rw [← Nat.pow_add, Nat.add_sub_cancel' short]
  rw [lowMask, allOnes, BitVec.toNat_not, BitVec.toNat_shiftLeft, BitVec.toNat_allOnes,
    Nat.shiftLeft_eq]
  have shifted : (2 ^ 64 - 1) * 2 ^ count % 2 ^ 64 = 2 ^ 64 - 2 ^ count := by
    by_cases whole : count = 64
    · subst whole
      decide
    · have bounded : 2 ^ count < 2 ^ 64 := Nat.pow_lt_pow_right (by decide) (by omega)
      have split : (2 ^ 64 - 1) * 2 ^ count = 2 ^ 64 - 2 ^ count + 2 ^ 64 * (2 ^ count - 1) := by
        rw [Nat.sub_mul, Nat.mul_sub, Nat.one_mul, Nat.mul_one]
        have grows := Nat.mul_le_mul_left (2 ^ 64) positive
        omega
      rw [split, Nat.add_mul_mod_self_left, Nat.mod_eq_of_lt (by omega)]
  rw [shifted]
  have bounded : 2 ^ count ≤ 2 ^ 64 := Nat.pow_le_pow_right (by decide) short
  omega

theorem toNat_lowBits {word : Word} {count : Nat} (short : count ≤ 64) :
    (word.lowBits count).toNat = word.toNat % 2 ^ count := by
  rw [lowBits, BitVec.toNat_and, toNat_lowMask short, Nat.and_two_pow_sub_one_eq_mod]

theorem toNat_low32 (word : Word) : word.low32.toNat = word.toNat % 2 ^ 32 :=
  @toNat_lowBits word 32 (by decide)

theorem lowBits_of_short
    {word : Word} {count : Nat}
    (short : count ≤ 64) (small : word.toNat < 2 ^ count) :
    word.lowBits count = word := by
  apply BitVec.eq_of_toNat_eq
  rw [toNat_lowBits short, Nat.mod_eq_of_lt small]

/-- The low half of a word, extended again, is the word cut to 32 bits. -/
theorem zeroExtend_setWidth (word : Word) : (word.setWidth 32).zeroExtend 64 = word.low32 := by
  apply BitVec.eq_of_toNat_eq
  rw [toNat_low32, BitVec.zeroExtend, BitVec.toNat_setWidth, BitVec.toNat_setWidth]
  have small := Nat.mod_lt word.toNat (Nat.two_pow_pos 32)
  exact Nat.mod_eq_of_lt (Nat.lt_of_lt_of_le small (by decide))

theorem low32_of_short {word : Word} (small : word.toNat < 2 ^ 32) : word.low32 = word :=
  @lowBits_of_short word 32 (by decide) small

end PacketFilter.Word
