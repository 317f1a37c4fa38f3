import Mathlib.Data.BitVec
import Mathlib.Tactic.Ring
import PacketFilter.KnownBits

/-!
# Arithmetic on known bits keeps members

For every operation on `KnownBits`, the result of the operation on members of
the operands is a member of the result.  Membership is read bit by bit; only
sums and differences need more, because a carry joins the bits below it.  A
carry is monotone in both summands, so it is the same for all members as soon
as it is the same for the least and the greatest ones.

The interval that `ofInterval` describes is treated at the end.  How precise
the descriptions are is not discussed.
-/

namespace PacketFilter.KnownBits

/-! ## Members bit by bit -/

/-- A bit of the value is the member's bit where it is known, and zero elsewhere. -/
theorem value_bit
    {word : Word} {bits : KnownBits}
    (member : word ∈ bits) (index : Nat) :
    bits.value.getLsbD index = (word.getLsbD index && !bits.mask.getLsbD index) := by
  rw [mem_def] at member
  by_cases inside : index < 64
  · rw [← member]
    simp [inside]
  · simp [BitVec.getLsbD_of_ge _ index (Nat.le_of_not_lt inside)]

theorem mem_of_value_bits
    {word : Word} {bits : KnownBits}
    (agrees : ∀ index < 64,
      bits.value.getLsbD index = (word.getLsbD index && !bits.mask.getLsbD index)) :
    word ∈ bits := by
  rw [mem_def]
  apply BitVec.eq_of_getLsbD_eq
  intro index inside
  rw [agrees index inside]
  simp only [BitVec.getLsbD_and, BitVec.getLsbD_not, inside, decide_true, Bool.true_and]

/-- A member of a masked value agrees with it on each known bit. -/
theorem mem_masked
    {word value mask : Word} :
    word ∈ masked value mask ↔
      ∀ index < 64, mask.getLsbD index = false →
        word.getLsbD index = value.getLsbD index := by
  constructor
  · intro member index inside known
    have bit := value_bit member index
    simp only [masked, BitVec.getLsbD_and, BitVec.getLsbD_not, inside, known, decide_true,
      Bool.not_false, Bool.and_true] at bit
    exact bit.symm
  · intro agrees
    apply mem_of_value_bits
    intro index inside
    simp only [masked, BitVec.getLsbD_and, BitVec.getLsbD_not, inside, decide_true, Bool.true_and]
    cases known : mask.getLsbD index with
    | true => simp
    | false => rw [agrees index inside known]

theorem wellFormed_of_mem
    {word : Word} {bits : KnownBits}
    (member : word ∈ bits) :
    bits.value &&& bits.mask = 0 := by
  apply BitVec.eq_of_getLsbD_eq
  intro index inside
  simp [value_bit member index]

/-- A constant has one member. -/
theorem mem_constant
    {word value : Word} :
    word ∈ constant value ↔ word = value := by
  rw [mem_def, constant, show ~~~(0 : Word) = BitVec.allOnes 64 from rfl, BitVec.and_allOnes]

theorem mem_unknown (word : Word) : word ∈ unknown := by
  simp [mem_def, unknown, Word.allOnes]

/-- Bits that are all known have no member but their value. -/
theorem eq_value_of_isConstant
    {word : Word} {bits : KnownBits}
    (member : word ∈ bits) (known : bits.isConstant = true) :
    word = bits.value := by
  have clear : bits.mask = 0 := by simpa [isConstant] using known
  rwa [mem_def, clear, show ~~~(0 : Word) = BitVec.allOnes 64 from rfl,
    BitVec.and_allOnes] at member

/-! ## Words between others, bit by bit -/

/-- Every bit set in the first word is set in the second one. -/
def Covered (small large : Word) : Prop :=
  ∀ index, small.getLsbD index = true → large.getLsbD index = true

/-- The value has no bit that a member lacks. -/
theorem value_covered
    {word : Word} {bits : KnownBits}
    (member : word ∈ bits) :
    Covered bits.value word := by
  intro index set
  rw [value_bit member index] at set
  simp_all

/-- A member has no bit that the greatest one lacks. -/
theorem covered_unsignedMax
    {word : Word} {bits : KnownBits}
    (member : word ∈ bits) :
    Covered word bits.unsignedMax := by
  intro index set
  simp only [unsignedMax, BitVec.getLsbD_or, value_bit member index, set]
  cases bits.mask.getLsbD index <;> rfl

/-- A word is at most one that covers it. -/
theorem covered_toNat_le
    {small large : Word}
    (covered : Covered small large) :
    small.toNat ≤ large.toNat := by
  have same : small = large &&& small := by
    apply BitVec.eq_of_getLsbD_eq
    intro index inside
    cases set : small.getLsbD index with
    | true => simp [set, covered index set]
    | false => simp [set]
  rw [same, BitVec.toNat_and]
  exact Nat.and_le_left

theorem covered_not
    {small large : Word}
    (covered : Covered small large) :
    Covered (~~~large) (~~~small) := by
  intro index set
  have inside := BitVec.lt_of_getLsbD set
  cases below : small.getLsbD index with
  | true => simp [covered index below] at set
  | false =>
      simp only [BitVec.getLsbD_not, below, inside, decide_true, Bool.not_false, Bool.and_self]

/-- Both summands grow, so the carry grows. -/
theorem carry_of_covered
    {left left' right right' : Word} (carried : Bool)
    (leftCovered : Covered left left') (rightCovered : Covered right right') :
    ∀ index, BitVec.carry index left right carried = true →
      BitVec.carry index left' right' carried = true := by
  intro index
  induction index with
  | zero => simp [BitVec.carry_zero]
  | succ index hypothesis =>
      rw [BitVec.carry_succ, BitVec.carry_succ]
      have leftBit := leftCovered index
      have rightBit := rightCovered index
      revert leftBit rightBit hypothesis
      generalize left.getLsbD index = a
      generalize left'.getLsbD index = a'
      generalize right.getLsbD index = b
      generalize right'.getLsbD index = b'
      generalize BitVec.carry index left right carried = c
      generalize BitVec.carry index left' right' carried = c'
      revert a a' b b' c c'
      decide

/--
Between extremes whose summands and whose sums agree in one bit, that bit of
the sum is the same throughout.
-/
theorem sum_bit_between
    {least word greatest least' word' greatest' : Word} (carried : Bool)
    (above : Covered least word) (below : Covered word greatest)
    (above' : Covered least' word') (below' : Covered word' greatest')
    {index : Nat} (inside : index < 64)
    (sameBit : least.getLsbD index = greatest.getLsbD index)
    (sameBit' : least'.getLsbD index = greatest'.getLsbD index)
    (sameSum :
      (least + least' + (BitVec.ofBool carried).setWidth 64).getLsbD index =
        (greatest + greatest' + (BitVec.ofBool carried).setWidth 64).getLsbD index) :
    (word + word' + (BitVec.ofBool carried).setWidth 64).getLsbD index =
      (least + least' + (BitVec.ofBool carried).setWidth 64).getLsbD index := by
  rw [BitVec.getLsbD_add_add_bool inside, BitVec.getLsbD_add_add_bool inside] at sameSum ⊢
  have lower := carry_of_covered carried above above' index
  have upper := carry_of_covered carried below below' index
  have wordLow := above index
  have wordHigh := below index
  have wordLow' := above' index
  have wordHigh' := below' index
  rw [← sameBit] at sameSum wordHigh
  rw [← sameBit'] at sameSum wordHigh'
  have wordBit : word.getLsbD index = least.getLsbD index := Bool.eq_iff_iff.mpr ⟨wordHigh, wordLow⟩
  have wordBit' : word'.getLsbD index = least'.getLsbD index :=
    Bool.eq_iff_iff.mpr ⟨wordHigh', wordLow'⟩
  have sameCarry := Bool.xor_right_inj.mp (Bool.xor_right_inj.mp sameSum)
  have wordCarry :
      BitVec.carry index word word' carried = BitVec.carry index least least' carried := by
    rw [← sameCarry] at upper
    exact Bool.eq_iff_iff.mpr ⟨upper, lower⟩
  rw [wordBit, wordBit', wordCarry]

/-! ## Sums, differences and products -/

theorem value_add_mask
    {word : Word} {bits : KnownBits}
    (member : word ∈ bits) :
    bits.value + bits.mask = bits.unsignedMax := by
  rw [unsignedMax, BitVec.add_eq_or_of_and_eq_zero _ _ (wellFormed_of_mem member)]

/-- The least and the greatest member agree on a known bit. -/
theorem value_bit_of_known
    {bits : KnownBits} {index : Nat}
    (known : bits.mask.getLsbD index = false) :
    bits.value.getLsbD index = bits.unsignedMax.getLsbD index := by
  simp [unsignedMax, known]

/-- Sums of members are members of the sum. -/
theorem add_mem
    {left right : KnownBits} {word word' : Word}
    (leftMember : word ∈ left) (rightMember : word' ∈ right) :
    word + word' ∈ left.add right := by
  rw [add, mem_masked]
  intro index inside known
  simp only [BitVec.getLsbD_or, BitVec.getLsbD_xor, Bool.or_eq_false_iff] at known
  obtain ⟨⟨settled, leftKnown⟩, rightKnown⟩ := known
  have extremes :
      left.mask + right.mask + (left.value + right.value) =
        left.unsignedMax + right.unsignedMax := by
    rw [← value_add_mask leftMember, ← value_add_mask rightMember]
    ac_rfl
  have sameSum :
      (left.value + right.value).getLsbD index =
        (left.unsignedMax + right.unsignedMax).getLsbD index := by
    rw [extremes] at settled
    exact (bne_eq_false_iff_eq.mp settled).symm
  have between := sum_bit_between false (value_covered leftMember)
    (covered_unsignedMax leftMember) (value_covered rightMember)
    (covered_unsignedMax rightMember) inside (value_bit_of_known leftKnown)
    (value_bit_of_known rightKnown) (by simpa using sameSum)
  simpa using between

theorem sub_eq_add_not (left right : Word) :
    left - right = left + ~~~right + (BitVec.ofBool true).setWidth 64 := by
  rw [BitVec.sub_eq_add_neg, BitVec.neg_eq_not_add, ← BitVec.add_assoc]
  rfl

/-- Differences of members are members of the difference. -/
theorem sub_mem
    {left right : KnownBits} {word word' : Word}
    (leftMember : word ∈ left) (rightMember : word' ∈ right) :
    word - word' ∈ left.sub right := by
  rw [sub, mem_masked]
  intro index inside known
  simp only [BitVec.getLsbD_or, BitVec.getLsbD_xor, Bool.or_eq_false_iff] at known
  obtain ⟨⟨settled, leftKnown⟩, rightKnown⟩ := known
  have greatest :
      left.value - right.value + left.mask = left.unsignedMax - right.value := by
    rw [← value_add_mask leftMember]
    simp only [BitVec.sub_eq_add_neg]
    ac_rfl
  have least :
      left.value - right.value - right.mask = left.value - right.unsignedMax := by
    rw [← value_add_mask rightMember, BitVec.sub_sub]
  have sameNot :
      (~~~right.unsignedMax).getLsbD index = (~~~right.value).getLsbD index := by
    simp [unsignedMax, rightKnown]
  have sameSum :
      (left.value - right.unsignedMax).getLsbD index =
        (left.unsignedMax - right.value).getLsbD index := by
    rw [greatest, least] at settled
    exact (bne_eq_false_iff_eq.mp settled).symm
  rw [sub_eq_add_not, sub_eq_add_not] at sameSum
  have leftLow := value_covered leftMember
  have leftHigh := covered_unsignedMax leftMember
  have rightLow := value_covered rightMember
  have rightHigh := covered_unsignedMax rightMember
  have leftTop : Covered left.value left.unsignedMax := fun index set =>
    leftHigh index (leftLow index set)
  have rightTop : Covered right.value right.unsignedMax := fun index set =>
    rightHigh index (rightLow index set)
  have ofWords := sum_bit_between true leftLow leftHigh (covered_not rightHigh)
    (covered_not rightLow) inside (value_bit_of_known leftKnown) sameNot sameSum
  have ofValues := sum_bit_between true (fun _ set => set) leftTop (covered_not rightTop)
    (fun _ set => set) inside (value_bit_of_known leftKnown) sameNot sameSum
  rw [sub_eq_add_not word, sub_eq_add_not left.value, ofWords, ofValues]

/-- The part of a word that a mask covers is described by that mask alone. -/
theorem masked_zero_mem
    {word mask : Word}
    (covered : Covered word mask) :
    word ∈ masked 0 mask := by
  rw [mem_masked]
  intro index _ clear
  cases set : word.getLsbD index with
  | true => simp [covered index set] at clear
  | false => simp

theorem sub_value_mem
    {word : Word} {bits : KnownBits}
    (member : word ∈ bits) :
    word - bits.value ∈ masked 0 bits.mask := by
  have difference : word - bits.value = word &&& bits.mask := by
    have parts : word = bits.value + (word &&& bits.mask) := by
      rw [BitVec.add_eq_or_of_and_eq_zero]
      · apply BitVec.eq_of_getLsbD_eq
        intro index inside
        simp only [BitVec.getLsbD_or, BitVec.getLsbD_and, value_bit member index]
        cases word.getLsbD index <;> cases bits.mask.getLsbD index <;> rfl
      · apply BitVec.eq_of_getLsbD_eq
        intro index inside
        simp only [BitVec.getLsbD_and, value_bit member index]
        cases word.getLsbD index <;> cases bits.mask.getLsbD index <;> simp
    calc
      word - bits.value = bits.value + (word &&& bits.mask) - bits.value := by rw [← parts]
      _ = word &&& bits.mask := by rw [BitVec.add_comm, BitVec.add_sub_cancel]
  rw [difference]
  apply masked_zero_mem
  intro index set
  simp only [BitVec.getLsbD_and, Bool.and_eq_true] at set
  exact set.2

/-! ## Shifts -/

/-- Members shifted to the left are members of the shifted bits. -/
theorem shiftLeft_mem
    {bits : KnownBits} {word : Word} {count : Nat}
    (member : word ∈ bits) (short : count < 64) :
    word <<< count ∈ bits.shiftLeft count := by
  apply mem_of_value_bits
  intro index inside
  simp only [shiftLeft, Nat.min_eq_left (Nat.le_of_lt_succ short), BitVec.getLsbD_shiftLeft,
    value_bit member]
  cases decide (index < 64) <;> cases decide (index < count) <;> simp

/-- Members shifted to the right are members of the shifted bits. -/
theorem shiftRight_mem
    {bits : KnownBits} {word : Word} {count : Nat}
    (member : word ∈ bits) (short : count < 64) :
    word >>> count ∈ bits.shiftRight count := by
  apply mem_of_value_bits
  intro index _
  simp only [shiftRight, Nat.min_eq_left (Nat.le_of_lt_succ short), BitVec.getLsbD_ushiftRight,
    value_bit member]

/-- Members shifted with their sign are members of the shifted bits. -/
theorem signedShiftRight_mem
    {bits : KnownBits} {word : Word} {count : Nat}
    (member : word ∈ bits) (short : count < 64) :
    word.sshiftRight count ∈ bits.signedShiftRight count := by
  apply mem_of_value_bits
  intro index _
  simp only [signedShiftRight, Nat.min_eq_left (Nat.le_of_lt_succ short),
    BitVec.getLsbD_sshiftRight, BitVec.msb_eq_getLsbD_last, value_bit member]
  split <;> cases decide (64 ≤ index) <;> simp

/-! ## Products -/

/-- What one bit of the multiplier adds beyond the product of the values. -/
theorem low_bit_product_mem
    {multiplier multiplicand sum : KnownBits} {word word' rest : Word}
    (member : word ∈ multiplier) (member' : word' ∈ multiplicand) (soFar : rest ∈ sum) :
    rest + ((word &&& 1) * word' - (multiplier.value &&& 1) * multiplicand.value) ∈
      (if multiplier.value &&& 1 ≠ 0 then
        sum.add (masked 0 multiplicand.mask)
      else if multiplier.mask &&& 1 ≠ 0 then
        sum.add (masked 0 (multiplicand.value ||| multiplicand.mask))
      else
        sum) := by
  have lowBit (any : Word) : any &&& 1 = (BitVec.ofBool (any.getLsbD 0)).setWidth 64 := by
    apply BitVec.eq_of_getLsbD_eq
    intro index inside
    cases index with
    | zero => simp
    | succ index => simp
  have bit := value_bit member 0
  simp only [lowBit]
  cases masked : multiplier.mask.getLsbD 0 with
  | false =>
      rw [bit, masked]
      cases word.getLsbD 0 with
      | true => simpa using add_mem soFar (sub_value_mem member')
      | false => simpa using soFar
  | true =>
      rw [bit, masked]
      cases word.getLsbD 0 with
      | true =>
          simpa [unsignedMax] using
            add_mem soFar (masked_zero_mem (covered_unsignedMax member'))
      | false =>
          have nothing :
            (0 : Word) ∈ KnownBits.masked 0 (multiplicand.value ||| multiplicand.mask) :=
            masked_zero_mem fun index set => by simp at set
          simpa using add_mem soFar nothing

/-- A product is taken apart at the lowest bit of its first factor. -/
theorem low_bit_add_rest (word word' : Word) :
    word * word' = (word &&& (1 : Word)) * word' + (word >>> 1) * (word' <<< 1) := by
  apply BitVec.eq_of_toNat_eq
  have lowBit : (word &&& 1).toNat = word.toNat % 2 := by
    rw [BitVec.toNat_and]
    exact Nat.and_one_is_mod _
  have halves := Nat.div_add_mod word.toNat 2
  simp only [BitVec.toNat_mul, BitVec.toNat_add, lowBit, BitVec.toNat_shiftLeft,
    BitVec.toNat_ushiftRight, Nat.shiftRight_eq_div_pow, Nat.shiftLeft_eq, Nat.pow_one]
  conv_lhs => rw [← halves]
  rw [Nat.mul_mod (word.toNat / 2), Nat.mod_mod, ← Nat.mul_mod, ← Nat.add_mod]
  congr 1
  ring

theorem mulUncertainty_mem
    (remaining : Nat) :
    ∀ {multiplier multiplicand sum : KnownBits} {word word' rest : Word},
      word ∈ multiplier → word' ∈ multiplicand → rest ∈ sum → word.toNat < 2 ^ remaining →
        rest + (word * word' - multiplier.value * multiplicand.value) ∈
          mulUncertainty multiplier multiplicand sum remaining := by
  induction remaining with
  | zero =>
      intro multiplier multiplicand sum word word' rest member _ soFar short
      have nothing : word = 0 := BitVec.eq_of_toNat_eq (by simp at short; simp [short])
      have value : multiplier.value = 0 := by
        rw [← (mem_def.mp member), nothing]
        simp
      simpa [mulUncertainty, nothing, value] using soFar
  | succ remaining hypothesis =>
      intro multiplier multiplicand sum word word' rest member member' soFar short
      rw [mulUncertainty]
      split
      case isTrue settled =>
        have known : word = multiplier.value :=
          eq_value_of_isConstant member (by simp [isConstant, settled.2])
        simpa [known, settled.1] using soFar
      case isFalse =>
        have added := low_bit_product_mem member member' soFar
        have halved : (word >>> 1).toNat < 2 ^ remaining := by
          rw [BitVec.toNat_ushiftRight, Nat.shiftRight_eq_div_pow]
          omega
        have rested := hypothesis (shiftRight_mem member (by decide : 1 < 64))
          (shiftLeft_mem member' (by decide : 1 < 64)) added halved
        have regrouped :
            rest + (word * word' - multiplier.value * multiplicand.value) =
              rest +
                  ((word &&& (1 : Word)) * word' -
                    (multiplier.value &&& (1 : Word)) * multiplicand.value) +
                ((word >>> 1) * (word' <<< 1) -
                  (multiplier.shiftRight 1).value * (multiplicand.shiftLeft 1).value) := by
          rw [low_bit_add_rest word, low_bit_add_rest multiplier.value]
          simp only [shiftRight, shiftLeft, Nat.min_eq_left (by decide : 1 ≤ 63)]
          ring
        rw [regrouped]
        exact rested

/-- Products of members are members of the product. -/
theorem mul_mem
    {left right : KnownBits} {word word' : Word}
    (leftMember : word ∈ left) (rightMember : word' ∈ right) :
    word * word' ∈ left.mul right := by
  unfold mul
  split
  case isTrue settled =>
    simp only [Bool.and_eq_true] at settled
    rw [mem_constant, eq_value_of_isConstant leftMember settled.1,
      eq_value_of_isConstant rightMember settled.2]
  case isFalse =>
    have blurred := mulUncertainty_mem 64 leftMember rightMember
      (mem_constant.mpr (rfl : (0 : Word) = 0)) word.isLt
    have parts :
        word * word' =
          left.value * right.value +
            (0 + (word * word' - left.value * right.value)) := by
      ring
    rw [parts]
    exact add_mem (mem_constant.mpr rfl) blurred

/-! ## Bit logic -/

/-- Conjunctions of members are members of the conjunction. -/
theorem and_mem
    {left right : KnownBits} {word word' : Word}
    (leftMember : word ∈ left) (rightMember : word' ∈ right) :
    word &&& word' ∈ left.and right := by
  apply mem_of_value_bits
  intro index inside
  simp only [KnownBits.and, unsignedMax, BitVec.getLsbD_and, BitVec.getLsbD_or, BitVec.getLsbD_not,
    value_bit leftMember, value_bit rightMember, inside, decide_true, Bool.true_and]
  cases word.getLsbD index <;> cases word'.getLsbD index <;>
    cases left.mask.getLsbD index <;> cases right.mask.getLsbD index <;> rfl

/-- Disjunctions of members are members of the disjunction. -/
theorem or_mem
    {left right : KnownBits} {word word' : Word}
    (leftMember : word ∈ left) (rightMember : word' ∈ right) :
    word ||| word' ∈ left.or right := by
  apply mem_of_value_bits
  intro index inside
  simp only [KnownBits.or, BitVec.getLsbD_and, BitVec.getLsbD_or, BitVec.getLsbD_not,
    value_bit leftMember, value_bit rightMember, inside, decide_true, Bool.true_and]
  cases word.getLsbD index <;> cases word'.getLsbD index <;>
    cases left.mask.getLsbD index <;> cases right.mask.getLsbD index <;> rfl

/-- Exclusive disjunctions of members are members of the exclusive disjunction. -/
theorem xor_mem
    {left right : KnownBits} {word word' : Word}
    (leftMember : word ∈ left) (rightMember : word' ∈ right) :
    word ^^^ word' ∈ left.xor right := by
  rw [KnownBits.xor, mem_masked]
  intro index _ known
  simp only [BitVec.getLsbD_or, Bool.or_eq_false_iff] at known
  simp only [BitVec.getLsbD_xor, value_bit leftMember, value_bit rightMember, known.1, known.2,
    Bool.not_false, Bool.and_true]

/-- A member of both sides is a member of their intersection. -/
theorem intersect_mem
    {left right common : KnownBits} {word : Word}
    (leftMember : word ∈ left) (rightMember : word ∈ right)
    (met : left.intersect? right = some common) :
    word ∈ common := by
  unfold intersect? at met
  split at met
  · cases met
  · cases met
    rw [mem_masked]
    intro index _ known
    simp only [BitVec.getLsbD_and] at known
    simp only [BitVec.getLsbD_or, value_bit leftMember, value_bit rightMember]
    revert known
    cases word.getLsbD index <;> cases left.mask.getLsbD index <;>
      cases right.mask.getLsbD index <;> simp

/-- Two sides with a common member do not contradict each other. -/
theorem intersect_isSome
    {left right : KnownBits} {word : Word}
    (leftMember : word ∈ left) (rightMember : word ∈ right) :
    (left.intersect? right).isSome = true := by
  unfold intersect?
  rw [if_neg]
  · rfl
  · rw [not_not]
    apply BitVec.eq_of_getLsbD_eq
    intro index inside
    simp only [BitVec.getLsbD_and, BitVec.getLsbD_xor, BitVec.getLsbD_not, value_bit leftMember,
      value_bit rightMember, inside, decide_true, Bool.true_and]
    cases word.getLsbD index <;> cases left.mask.getLsbD index <;>
      cases right.mask.getLsbD index <;> simp

/-! ## Low bits -/

theorem lowMask_bit {count index : Nat} (inside : index < 64) :
    (Word.lowMask count).getLsbD index = decide (index < count) := by
  simp only [Word.lowMask, Word.allOnes, BitVec.getLsbD_not, BitVec.getLsbD_shiftLeft,
    BitVec.getLsbD_allOnes, inside, decide_true, Bool.true_and]
  by_cases low : index < count
  · simp [low]
  · have shifted : index - count < 64 := by omega
    simp [low, shifted]

theorem lowBits_mem
    {bits : KnownBits} {word : Word}
    (member : word ∈ bits) (count : Nat) :
    word.lowBits count ∈ (⟨bits.value.lowBits count, bits.mask.lowBits count⟩ : KnownBits) := by
  apply mem_of_value_bits
  intro index inside
  simp only [Word.lowBits, BitVec.getLsbD_and, lowMask_bit inside, value_bit member]
  cases decide (index < count) <;> simp

/-- The low half of a member is a member of the low half. -/
theorem truncate32_mem
    {bits : KnownBits} {word : Word}
    (member : word ∈ bits) :
    word.low32 ∈ bits.truncate32 :=
  lowBits_mem member 32

/-- The low bytes of a member are a member of the low bytes. -/
theorem truncate_mem
    {bits : KnownBits} {word : Word} {size : Nat}
    (member : word ∈ bits) (short : size < 8) :
    word.lowBits (size * 8) ∈ bits.truncate size := by
  rw [truncate, if_neg (Nat.not_le_of_lt short)]
  exact lowBits_mem member (size * 8)

/-! ## Extremes -/

theorem unsignedMin_le
    {bits : KnownBits} {word : Word}
    (member : word ∈ bits) :
    bits.unsignedMin ≤ word :=
  covered_toNat_le (value_covered member)

theorem le_unsignedMax
    {bits : KnownBits} {word : Word}
    (member : word ∈ bits) :
    word ≤ bits.unsignedMax :=
  covered_toNat_le (covered_unsignedMax member)

/-- The signed value of a word is its low 63 bits, less the weight of its sign bit. -/
theorem toInt_eq_below_signBit (word : Word) :
    word.toInt =
      ((word &&& Word.signedGreatest).toNat : Int) - (if word.msb then 2 ^ 63 else 0) := by
  have low : (word &&& Word.signedGreatest).toNat = word.toNat % 2 ^ 63 := by
    rw [BitVec.toNat_and, show Word.signedGreatest.toNat = 2 ^ 63 - 1 from rfl,
      Nat.and_two_pow_sub_one_eq_mod]
  rw [low, BitVec.toInt_eq_msb_cond]
  have top := BitVec.msb_eq_decide word
  split
  case isTrue set =>
    have large : 2 ^ 63 ≤ word.toNat := by simpa [set] using top.symm
    omega
  case isFalse clear =>
    have small : word.toNat < 2 ^ 63 := by
      rw [Bool.not_eq_true] at clear
      simpa [clear] using top.symm
    omega

/-- Words whose low bits grow while the sign bit is set less often grow in signed order. -/
theorem sle_of_parts
    {small large : Word}
    (below : Covered (small &&& Word.signedGreatest) (large &&& Word.signedGreatest))
    (sign : large.msb = true → small.msb = true) :
    small.sle large = true := by
  rw [BitVec.sle_iff_toInt_le, toInt_eq_below_signBit small, toInt_eq_below_signBit large]
  have grows := covered_toNat_le below
  have smallShort : (small &&& Word.signedGreatest).toNat < 2 ^ 63 := by
    rw [BitVec.toNat_and]
    exact Nat.lt_of_le_of_lt Nat.and_le_right (by decide)
  have largeShort : (large &&& Word.signedGreatest).toNat < 2 ^ 63 := by
    rw [BitVec.toNat_and]
    exact Nat.lt_of_le_of_lt Nat.and_le_right (by decide)
  cases top : large.msb with
  | true =>
      rw [sign top]
      omega
  | false =>
      rw [if_neg Bool.false_ne_true]
      split <;> omega

/-- No member is below the signed least one. -/
theorem signedMin_sle
    {bits : KnownBits} {word : Word}
    (member : word ∈ bits) :
    bits.signedMin.sle word = true := by
  apply sle_of_parts
  · intro index set
    have inside := BitVec.lt_of_getLsbD set
    simp only [signedMin, BitVec.getLsbD_and, BitVec.getLsbD_or, value_bit member,
      Word.signedGreatest, Word.signedLeast, BitVec.getLsbD_intMax, BitVec.getLsbD_intMin] at set ⊢
    revert set
    cases word.getLsbD index <;> cases bits.mask.getLsbD index <;> simp
    omega
  · intro sign
    rw [BitVec.msb_eq_getLsbD_last] at sign ⊢
    simp only [signedMin, BitVec.getLsbD_and, BitVec.getLsbD_or, value_bit member,
      Word.signedLeast, sign]
    cases bits.mask.getLsbD 63 <;> simp [BitVec.getLsbD_intMin]

/-- No member is above the signed greatest one. -/
theorem sle_signedMax
    {bits : KnownBits} {word : Word}
    (member : word ∈ bits) :
    word.sle bits.signedMax = true := by
  apply sle_of_parts
  · intro index set
    simp only [signedMax, BitVec.getLsbD_and, BitVec.getLsbD_or, value_bit member] at set ⊢
    revert set
    cases word.getLsbD index <;> cases bits.mask.getLsbD index <;>
      cases Word.signedGreatest.getLsbD index <;> simp
  · intro sign
    rw [BitVec.msb_eq_getLsbD_last] at sign ⊢
    simp only [signedMax, BitVec.getLsbD_and, BitVec.getLsbD_or, value_bit member,
      Word.signedGreatest, BitVec.getLsbD_intMax] at sign
    revert sign
    cases word.getLsbD 63 <;> simp

/-! ## Intervals -/

/-- A word is less than the power of two of its length in bits. -/
theorem lt_two_pow_bitLength (word : Word) : word.toNat < 2 ^ word.bitLength := by
  unfold Word.bitLength
  split
  case isTrue zero => simp [zero]
  case isFalse nonzero => exact Nat.lt_log2_self

/-- Words between two others share the bits in which these agree from some bit on. -/
theorem shiftRight_between
    {low word high : Word} {width : Nat}
    (above : low ≤ word) (below : word ≤ high)
    (agree : (low ^^^ high).toNat < 2 ^ width) :
    word >>> width = low >>> width := by
  have ends : low >>> width = high >>> width := by
    have nothing : (low ^^^ high) >>> width = 0 := by
      apply BitVec.eq_of_toNat_eq
      rw [BitVec.toNat_ushiftRight, Nat.shiftRight_eq_div_pow, Nat.div_eq_of_lt agree]
      rfl
    apply BitVec.eq_of_getLsbD_eq
    intro index _
    have bit := congrArg (fun word : Word => word.getLsbD index) nothing
    simpa [BitVec.getLsbD_ushiftRight] using bit
  have endsNat := congrArg BitVec.toNat ends
  apply BitVec.eq_of_toNat_eq
  simp only [BitVec.toNat_ushiftRight, Nat.shiftRight_eq_div_pow] at endsNat ⊢
  have lower : low.toNat / 2 ^ width ≤ word.toNat / 2 ^ width := Nat.div_le_div_right above
  have upper : word.toNat / 2 ^ width ≤ high.toNat / 2 ^ width := Nat.div_le_div_right below
  omega

/-- A word between two ends agrees with them on the bits that they share in front. -/
theorem ofInterval_mem
    {low word high : Word}
    (above : low ≤ word) (below : word ≤ high) :
    word ∈ ofInterval low high := by
  unfold ofInterval
  split
  · exact mem_unknown word
  · dsimp only
    split
    · exact mem_unknown word
    · rw [mem_masked]
      intro index inside known
      rw [lowMask_bit inside, decide_eq_false_iff_not, Nat.not_lt] at known
      have same := shiftRight_between above below (lt_two_pow_bitLength (low ^^^ high))
      have bit := congrArg
        (fun word : Word => word.getLsbD (index - (low ^^^ high).bitLength)) same
      simpa [BitVec.getLsbD_ushiftRight, Nat.add_sub_cancel' known] using bit

end PacketFilter.KnownBits
