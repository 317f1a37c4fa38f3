import PacketFilter.Bounds.Arithmetic
import PacketFilter.Proofs.Bytes
import PacketFilter.Proofs.KnownBits
import PacketFilter.Proofs.Word

/-!
# Arithmetic on bounds keeps members

For every arithmetic operation, the result of the operation on members of the
operands' bounds is a member of the bounds computed for the result.

Everything passes through `synchronize`, which neither loses a member nor
reports a contradiction while there is one.  Interval arithmetic is then done
on the numbers that words stand for.
-/

namespace PacketFilter.Bounds

/-! ## Members -/

theorem mem_def {word : Word} {bounds : Bounds} :
    word ∈ bounds ↔
      word ∈ bounds.bits ∧
        (bounds.unsignedMin ≤ word ∧ word ≤ bounds.unsignedMax) ∧
          (bounds.signedMin.sle word ∧ word.sle bounds.signedMax) :=
  Iff.rfl

/-- Membership in terms of the numbers that words stand for. -/
theorem mem_iff {word : Word} {bounds : Bounds} :
    word ∈ bounds ↔
      word ∈ bounds.bits ∧
        (bounds.unsignedMin.toNat ≤ word.toNat ∧ word.toNat ≤ bounds.unsignedMax.toNat) ∧
          (bounds.signedMin.toInt ≤ word.toInt ∧ word.toInt ≤ bounds.signedMax.toInt) := by
  simp only [mem_def, BitVec.le_def, BitVec.sle_iff_toInt_le]

theorem mem_unknown (word : Word) : word ∈ unknown :=
  mem_iff.mpr
    ⟨KnownBits.mem_unknown word,
      ⟨Nat.zero_le _, by simpa [unknown, Word.allOnes] using Nat.le_of_lt_succ word.isLt⟩,
      Word.toInt_signedLeast_le word, Word.toInt_le_signedGreatest word⟩

theorem mem_constant {word value : Word} : word ∈ constant value ↔ word = value := by
  constructor
  · intro member
    exact KnownBits.mem_constant.mp member.1
  · intro same
    subst same
    exact mem_iff.mpr ⟨KnownBits.mem_constant.mpr rfl, ⟨Nat.le_refl _, Nat.le_refl _⟩,
      Int.le_refl _, Int.le_refl _⟩

/-- Bounds that spell a word hold no other. -/
theorem eq_of_constant
    {bounds : Bounds} {word value : Word}
    (member : word ∈ bounds) (known : bounds.constant? = some value) :
    word = value := by
  unfold constant? at known
  split at known
  · rename_i isConstant
    cases known
    simp only [Bounds.isConstant, Bool.and_eq_true, beq_iff_eq] at isConstant
    obtain ⟨_, ⟨above, below⟩, _⟩ := member
    rw [← isConstant.2] at below
    exact BitVec.le_antisymm below above
  · cases known

/-- Where there is a member, no interval is turned round. -/
theorem sane_of_mem
    {bounds : Bounds} {word : Word}
    (member : word ∈ bounds) :
    bounds.Sane := by
  obtain ⟨_, ⟨above, below⟩, signedAbove, signedBelow⟩ := mem_iff.mp member
  exact ⟨Nat.le_trans above below,
    BitVec.sle_iff_toInt_le.mpr (Int.le_trans signedAbove signedBelow)⟩

/-- A signed interval may be put in place as long as it holds the member. -/
theorem mem_withSigned
    {bounds : Bounds} {word low high : Word}
    (member : word ∈ bounds) (above : low.toInt ≤ word.toInt) (below : word.toInt ≤ high.toInt) :
    word ∈ bounds.withSigned low high := by
  obtain ⟨bits, unsigned, _⟩ := mem_iff.mp member
  exact mem_iff.mpr ⟨bits, unsigned, above, below⟩

/-- An unsigned interval may be put in place as long as it holds the member. -/
theorem mem_withUnsigned
    {bounds : Bounds} {word low high : Word}
    (member : word ∈ bounds) (above : low.toNat ≤ word.toNat) (below : word.toNat ≤ high.toNat) :
    word ∈ bounds.withUnsigned low high := by
  obtain ⟨bits, _, signed⟩ := mem_iff.mp member
  exact mem_iff.mpr ⟨bits, ⟨above, below⟩, signed⟩

theorem mem_withAnySigned
    {bounds : Bounds} {word : Word}
    (member : word ∈ bounds) :
    word ∈ bounds.withAnySigned :=
  mem_withSigned member (Word.toInt_signedLeast_le word) (Word.toInt_le_signedGreatest word)

theorem mem_withAnyUnsigned
    {bounds : Bounds} {word : Word}
    (member : word ∈ bounds) :
    word ∈ bounds.withAnyUnsigned :=
  mem_withUnsigned member (Nat.zero_le _)
    (by simpa [Word.allOnes] using Nat.le_of_lt_succ word.isLt)

/-! ## Synchronisation -/

/-- Every member lies between the extremes of its known bits. -/
theorem narrowByBits_mem
    {bounds : Bounds} {word : Word}
    (member : word ∈ bounds) :
    word ∈ bounds.narrowByBits := by
  obtain ⟨bits, ⟨above, below⟩, signedAbove, signedBelow⟩ := mem_iff.mp member
  have least := KnownBits.unsignedMin_le bits
  have greatest := KnownBits.le_unsignedMax bits
  have signedLeast := KnownBits.signedMin_sle bits
  have signedGreatest := KnownBits.sle_signedMax bits
  rw [BitVec.le_def] at least greatest
  rw [BitVec.sle_iff_toInt_le] at signedLeast signedGreatest
  refine mem_iff.mpr ⟨bits, ⟨?_, ?_⟩, ?_, ?_⟩
  · exact (Word.toNat_unsignedMax _ _).trans_le (Nat.max_le.mpr ⟨above, least⟩)
  · exact (Nat.le_min.mpr ⟨below, greatest⟩).trans_eq (Word.toNat_unsignedMin _ _).symm
  · exact (Word.toInt_signedMax _ _).trans_le (Int.max_le.mpr ⟨signedAbove, signedLeast⟩)
  · exact (Int.le_min.mpr ⟨signedBelow, signedGreatest⟩).trans_eq (Word.toInt_signedMin _ _).symm

/-- An interval of words of one sign holds the same words with signs as without. -/
theorem narrowAcrossSigns_mem
    {bounds : Bounds} {word : Word}
    (member : word ∈ bounds) :
    word ∈ bounds.narrowAcrossSigns := by
  obtain ⟨bits, ⟨above, below⟩, signedAbove, signedBelow⟩ := mem_iff.mp member
  have wordRange := Word.toInt_cases word
  have minRange := Word.toInt_cases bounds.unsignedMin
  have maxRange := Word.toInt_cases bounds.unsignedMax
  have signedMinRange := Word.toInt_cases bounds.signedMin
  have signedMaxRange := Word.toInt_cases bounds.signedMax
  have lowNat := Word.toNat_unsignedMax bounds.unsignedMin bounds.signedMin
  have highNat := Word.toNat_unsignedMin bounds.unsignedMax bounds.signedMax
  have lowRange := Word.toInt_cases (Word.unsignedMax bounds.unsignedMin bounds.signedMin)
  have highRange := Word.toInt_cases (Word.unsignedMin bounds.unsignedMax bounds.signedMax)
  unfold narrowAcrossSigns
  simp only [Bool.or_eq_true, Bool.not_eq_true', Word.isNonNegative_iff,
    ← Bool.not_eq_true]
  split
  case isTrue sameSide =>
    refine mem_iff.mpr ⟨bits, ⟨?_, ?_⟩, ?_, ?_⟩ <;> dsimp only <;> omega
  case isFalse bothSides =>
    split
    case isTrue unsignedSide =>
      refine mem_iff.mpr ⟨bits, ⟨?_, ?_⟩, ?_, ?_⟩ <;> dsimp only <;> omega
    case isFalse =>
      split
      case isTrue unsignedSide =>
        refine mem_iff.mpr ⟨bits, ⟨?_, ?_⟩, ?_, ?_⟩ <;> dsimp only <;> omega
      case isFalse => exact member

/-- While there is a member, synchronising finds no contradiction and keeps the member. -/
theorem synchronize_mem
    {bounds : Bounds} {word : Word}
    (member : word ∈ bounds) :
    ∃ narrowed, bounds.synchronize = .ok narrowed ∧ word ∈ narrowed := by
  have byBits := narrowByBits_mem member
  have bySigns := narrowAcrossSigns_mem byBits
  obtain ⟨_, ⟨above, below⟩, _⟩ := mem_def.mp bySigns
  have interval := KnownBits.ofInterval_mem above below
  obtain ⟨common, met⟩ := Option.isSome_iff_exists.mp
    (KnownBits.intersect_isSome bySigns.1 interval)
  have inCommon := KnownBits.intersect_mem bySigns.1 interval met
  have narrowed :
      word ∈ ({ bounds.narrowByBits.narrowAcrossSigns with bits := common } :
        Bounds).narrowByBits :=
    narrowByBits_mem ⟨inCommon, bySigns.2⟩
  refine ⟨_, ?_, narrowed⟩
  unfold synchronize
  dsimp only
  rw [if_neg (not_not.mpr (sane_of_mem byBits)), if_neg (not_not.mpr (sane_of_mem bySigns)), met]
  exact if_pos (sane_of_mem narrowed)

/-- A member is never lost, so the bounds that have one do not contradict themselves. -/
theorem synchronize?_mem
    {bounds : Bounds} {word : Word}
    (member : word ∈ bounds) :
    ∃ narrowed, bounds.synchronize? = some narrowed ∧ word ∈ narrowed := by
  obtain ⟨narrowed, settled, kept⟩ := synchronize_mem member
  exact ⟨narrowed, by rw [synchronize?, settled]; rfl, kept⟩

theorem synchronized_mem
    {bounds : Bounds} {word : Word}
    (member : word ∈ bounds) :
    word ∈ bounds.synchronized := by
  obtain ⟨narrowed, settled, kept⟩ := synchronize?_mem member
  rw [synchronized, settled]
  exact kept

theorem ofInterval_mem
    {word low high : Word}
    (above : low.toNat ≤ word.toNat) (below : word.toNat ≤ high.toNat) :
    word ∈ ofInterval low high := by
  apply synchronized_mem
  exact mem_iff.mpr ⟨KnownBits.ofInterval_mem above below, ⟨above, below⟩,
    Word.toInt_signedLeast_le word, Word.toInt_le_signedGreatest word⟩

theorem ofBits_mem
    {bits : KnownBits} {word : Word}
    (member : word ∈ bits) :
    word ∈ ofBits bits := by
  apply synchronized_mem
  obtain ⟨_, ranges⟩ := mem_def.mp (mem_unknown word)
  exact ⟨member, ranges⟩

theorem ofWidth_mem
    {word : Word} {size : Nat}
    (short : word.toNat < 2 ^ (size * 8)) :
    word ∈ ofWidth size := by
  unfold ofWidth
  split
  · exact mem_unknown word
  · apply ofInterval_mem (Nat.zero_le _)
    rw [Word.toNat_lowMask (by omega)]
    omega

/-! ## Sums and differences -/

/-- A sum may wrap in one reading of its operands and not in the other, so each interval is kept or
dropped by itself. -/
theorem add_mem
    {left right : Bounds} {word word' : Word}
    (leftMember : word ∈ left) (rightMember : word' ∈ right) :
    word + word' ∈ left.add right := by
  obtain ⟨bits, ⟨above, below⟩, signedAbove, signedBelow⟩ := mem_iff.mp leftMember
  obtain ⟨bits', ⟨above', below'⟩, signedAbove', signedBelow'⟩ := mem_iff.mp rightMember
  unfold add
  apply synchronized_mem
  have start : word + word' ∈ ofBits (left.bits.add right.bits) :=
    ofBits_mem (KnownBits.add_mem bits bits')
  have signed {low high : Word}
      (addedLow : left.signedMin.signedAdd? right.signedMin = some low)
      (addedHigh : left.signedMax.signedAdd? right.signedMax = some high) :
      word + word' ∈ (ofBits (left.bits.add right.bits)).withSigned low high := by
    have lowSum := Word.signedAdd_eq_some addedLow
    have highSum := Word.signedAdd_eq_some addedHigh
    have lowRange := Word.toInt_cases low
    have highRange := Word.toInt_cases high
    have sum := @Word.toInt_add_of_range word word' (by omega) (by omega)
    exact mem_withSigned start (by omega) (by omega)
  split
  case h_1 low high addedLow addedHigh =>
    have lowSum := Word.unsignedAdd_eq_some addedLow
    have highSum := Word.unsignedAdd_eq_some addedHigh
    have bounded := high.isLt
    have sum : (word + word').toNat = word.toNat + word'.toNat := by
      rw [BitVec.toNat_add]
      omega
    refine mem_withUnsigned ?_ (by omega) (by omega)
    split
    case h_1 low high addedLow addedHigh => exact signed addedLow addedHigh
    case h_2 => exact mem_withAnySigned start
  case h_2 =>
    apply mem_withAnyUnsigned
    split
    case h_1 low high addedLow addedHigh => exact signed addedLow addedHigh
    case h_2 => exact mem_withAnySigned start

/-- Differences are as sums, with the right interval turned round. -/
theorem sub_mem
    {left right : Bounds} {word word' : Word}
    (leftMember : word ∈ left) (rightMember : word' ∈ right) :
    word - word' ∈ left.sub right := by
  obtain ⟨bits, ⟨above, below⟩, signedAbove, signedBelow⟩ := mem_iff.mp leftMember
  obtain ⟨bits', ⟨above', below'⟩, signedAbove', signedBelow'⟩ := mem_iff.mp rightMember
  unfold sub
  apply synchronized_mem
  have start : word - word' ∈ ofBits (left.bits.sub right.bits) :=
    ofBits_mem (KnownBits.sub_mem bits bits')
  have signed {low high : Word}
      (lowSub : left.signedMin.signedSub? right.signedMax = some low)
      (highSub : left.signedMax.signedSub? right.signedMin = some high) :
      word - word' ∈ (ofBits (left.bits.sub right.bits)).withSigned low high := by
    have lowDifference := Word.signedSub_eq_some lowSub
    have highDifference := Word.signedSub_eq_some highSub
    have lowRange := Word.toInt_cases low
    have highRange := Word.toInt_cases high
    have difference := @Word.toInt_sub_of_range word word' (by omega) (by omega)
    exact mem_withSigned start (by omega) (by omega)
  split
  case isTrue =>
    apply mem_withAnyUnsigned
    split
    case h_1 low high lowSub highSub => exact signed lowSub highSub
    case h_2 => exact mem_withAnySigned start
  case isFalse order =>
    rw [BitVec.lt_def, Nat.not_lt] at order
    have low := @BitVec.toNat_sub_of_le _ left.unsignedMin right.unsignedMax order
    have high := @BitVec.toNat_sub_of_le _ left.unsignedMax right.unsignedMin
      (by rw [BitVec.le_def]; omega)
    have difference := @BitVec.toNat_sub_of_le _ word word' (by rw [BitVec.le_def]; omega)
    refine mem_withUnsigned ?_ (by omega) (by omega)
    split
    case h_1 low high lowSub highSub => exact signed lowSub highSub
    case h_2 => exact mem_withAnySigned start

theorem neg_mem
    {bounds : Bounds} {word : Word}
    (member : word ∈ bounds) :
    -word ∈ bounds.neg := by
  have difference := sub_mem (mem_constant.mpr (rfl : (0 : Word) = 0)) member
  rwa [show (0 : Word) - word = -word from BitVec.zero_sub word] at difference

/-! ## Products, quotients and remainders -/

theorem mul_mem
    {left right : Bounds} {word word' : Word}
    (leftMember : word ∈ left) (rightMember : word' ∈ right) :
    word * word' ∈ left.mul right := by
  obtain ⟨bits, ⟨above, below⟩, _⟩ := mem_iff.mp leftMember
  obtain ⟨bits', ⟨above', below'⟩, _⟩ := mem_iff.mp rightMember
  have start : word * word' ∈ ofBits (left.bits.mul right.bits) :=
    ofBits_mem (KnownBits.mul_mem bits bits')
  unfold mul
  dsimp only
  split
  case isTrue short =>
    obtain ⟨leftShort, rightShort⟩ := short
    rw [BitVec.le_def, show (0xffffffff : Word).toNat = 2 ^ 32 - 1 from rfl] at leftShort rightShort
    have noWrap {small small' : Word} (fits : small.toNat ≤ left.unsignedMax.toNat)
        (fits' : small'.toNat ≤ right.unsignedMax.toNat) :
        (small * small').toNat = small.toNat * small'.toNat := by
      rw [BitVec.toNat_mul, Nat.mod_eq_of_lt]
      calc
        small.toNat * small'.toNat ≤ (2 ^ 32 - 1) * (2 ^ 32 - 1) :=
          Nat.mul_le_mul (by omega) (by omega)
        _ < 2 ^ 64 := by decide
    apply synchronized_mem
    apply mem_withAnySigned
    apply mem_withUnsigned start
    · rw [noWrap below below', noWrap (by omega) (by omega)]
      exact Nat.mul_le_mul above above'
    · rw [noWrap below below', noWrap (Nat.le_refl _) (Nat.le_refl _)]
      exact Nat.mul_le_mul below below'
  case isFalse => exact start

theorem toNat_udiv (left right : Word) : (left.udiv right).toNat = left.toNat / right.toNat :=
  rfl

theorem toNat_umod (left right : Word) : (left.umod right).toNat = left.toNat % right.toNat :=
  rfl

/-- Division is read off the ends, and by zero it gives zero. -/
theorem div_mem
    {left right : Bounds} {word word' : Word}
    (leftMember : word ∈ left) (rightMember : word' ∈ right) :
    word.udiv word' ∈ left.div right := by
  obtain ⟨_, ⟨above, below⟩, _⟩ := mem_iff.mp leftMember
  obtain ⟨_, ⟨above', below'⟩, _⟩ := mem_iff.mp rightMember
  unfold div
  split
  case isTrue known =>
    have zero := eq_of_constant rightMember known
    rw [mem_constant, zero]
    apply BitVec.eq_of_toNat_eq
    rw [toNat_udiv]
    exact Nat.div_zero _
  case isFalse =>
    split
    case isTrue =>
      apply ofInterval_mem (Nat.zero_le _)
      rw [toNat_udiv]
      exact Nat.le_trans (Nat.div_le_self _ _) below
    case isFalse nonzero =>
      have positive : 0 < right.unsignedMin.toNat :=
        Nat.pos_of_ne_zero fun zero => nonzero (BitVec.eq_of_toNat_eq zero)
      apply ofInterval_mem <;> rw [toNat_udiv, toNat_udiv]
      · exact Nat.div_le_div above below' (by omega)
      · exact Nat.div_le_div below above' (by omega)

/-- A remainder is less than the divisor, and by zero it is the dividend. -/
theorem mod_mem
    {left right : Bounds} {word word' : Word}
    (leftMember : word ∈ left) (rightMember : word' ∈ right) :
    word.umod word' ∈ left.mod right := by
  obtain ⟨_, ⟨above, below⟩, _⟩ := mem_iff.mp leftMember
  obtain ⟨_, ⟨above', below'⟩, _⟩ := mem_iff.mp rightMember
  unfold mod
  split
  case isTrue known =>
    have zero := eq_of_constant rightMember known
    have same : word.umod word' = word := by
      apply BitVec.eq_of_toNat_eq
      rw [toNat_umod, zero]
      exact Nat.mod_zero _
    rwa [same]
  case isFalse =>
    split
    case isTrue small =>
      rw [BitVec.lt_def, BitVec.lt_def] at small
      have same : word.umod word' = word := by
        apply BitVec.eq_of_toNat_eq
        rw [toNat_umod]
        exact Nat.mod_eq_of_lt (by omega)
      rwa [same]
    case isFalse =>
      split
      case isTrue =>
        apply ofInterval_mem (Nat.zero_le _)
        rw [toNat_umod]
        exact Nat.le_trans (Nat.mod_le _ _) below
      case isFalse nonzero =>
        have positive : 0 < right.unsignedMin.toNat :=
          Nat.pos_of_ne_zero fun zero => nonzero (BitVec.eq_of_toNat_eq zero)
        have remainder := Nat.mod_lt word.toNat (show 0 < word'.toNat by omega)
        have below'' : (right.unsignedMax - 1).toNat = right.unsignedMax.toNat - 1 :=
          BitVec.toNat_sub_of_le (by rw [BitVec.le_def]; exact Nat.le_trans positive (by omega))
        apply ofInterval_mem (Nat.zero_le _)
        rw [toNat_umod, Word.toNat_unsignedMin, below'']
        exact Nat.le_min.mpr ⟨Nat.le_trans (Nat.mod_le _ _) below, by omega⟩

/-! ## Bit logic -/

theorem and_mem
    {left right : Bounds} {word word' : Word}
    (leftMember : word ∈ left) (rightMember : word' ∈ right) :
    word &&& word' ∈ left.and right := by
  obtain ⟨bits, ⟨_, below⟩, _⟩ := mem_iff.mp leftMember
  obtain ⟨bits', ⟨_, below'⟩, _⟩ := mem_iff.mp rightMember
  have joined := KnownBits.and_mem bits bits'
  unfold and
  apply synchronized_mem
  apply mem_withAnySigned
  apply mem_withUnsigned (ofBits_mem joined) (KnownBits.unsignedMin_le joined)
  have greatest := KnownBits.le_unsignedMax joined
  rw [BitVec.le_def] at greatest
  rw [Word.toNat_unsignedMin, Word.toNat_unsignedMin]
  have leftPart : (word &&& word').toNat ≤ word.toNat := by
    rw [BitVec.toNat_and]
    exact Nat.and_le_left
  have rightPart : (word &&& word').toNat ≤ word'.toNat := by
    rw [BitVec.toNat_and]
    exact Nat.and_le_right
  omega

theorem or_mem
    {left right : Bounds} {word word' : Word}
    (leftMember : word ∈ left) (rightMember : word' ∈ right) :
    word ||| word' ∈ left.or right := by
  obtain ⟨bits, ⟨above, _⟩, _⟩ := mem_iff.mp leftMember
  obtain ⟨bits', ⟨above', _⟩, _⟩ := mem_iff.mp rightMember
  have joined := KnownBits.or_mem bits bits'
  unfold or
  apply synchronized_mem
  apply mem_withAnySigned
  refine mem_withUnsigned (ofBits_mem joined) ?_ (KnownBits.le_unsignedMax joined)
  have least := KnownBits.unsignedMin_le joined
  rw [BitVec.le_def] at least
  rw [Word.toNat_unsignedMax, Word.toNat_unsignedMax]
  have leftPart : word.toNat ≤ (word ||| word').toNat := by
    rw [BitVec.toNat_or]
    exact Nat.left_le_or
  have rightPart : word'.toNat ≤ (word ||| word').toNat := by
    rw [BitVec.toNat_or]
    exact Nat.right_le_or
  omega

theorem xor_mem
    {left right : Bounds} {word word' : Word}
    (leftMember : word ∈ left) (rightMember : word' ∈ right) :
    word ^^^ word' ∈ left.xor right :=
  ofBits_mem (KnownBits.xor_mem leftMember.1 rightMember.1)

/-! ## Shifts -/

theorem toNat_shiftLeft_of_short
    {word : Word} {count width : Nat}
    (small : word.toNat < 2 ^ width) (short : count + width ≤ 64) :
    (word <<< count).toNat = word.toNat * 2 ^ count := by
  rw [BitVec.toNat_shiftLeft, Nat.shiftLeft_eq, Nat.mod_eq_of_lt]
  calc
    word.toNat * 2 ^ count < 2 ^ width * 2 ^ count :=
      Nat.mul_lt_mul_of_pos_right small (Nat.two_pow_pos count)
    _ = 2 ^ (width + count) := (Nat.pow_add 2 width count).symm
    _ ≤ 2 ^ 64 := Nat.pow_le_pow_right (by decide) (by omega)

/-- The machine takes the count modulo the width; bounds of counts beyond it leave everything
open. -/
theorem shiftLeft_mem
    {left right : Bounds} {word count : Word}
    (leftMember : word ∈ left) (rightMember : count ∈ right) :
    word <<< (count.toNat % 64) ∈ left.shiftLeft right := by
  obtain ⟨bits, ⟨above, below⟩, _⟩ := mem_iff.mp leftMember
  obtain ⟨_, ⟨above', below'⟩, _⟩ := mem_iff.mp rightMember
  unfold shiftLeft
  split
  case isTrue => exact mem_unknown _
  case isFalse short =>
    rw [BitVec.not_le, BitVec.lt_def, show (64 : Word).toNat = 64 from rfl] at short
    have narrowed {start : Bounds} (member : word <<< (count.toNat % 64) ∈ start) :
        word <<< (count.toNat % 64) ∈
          if right.unsignedMax.toNat + left.unsignedMax.bitLength ≤ 64 then
            (start.withUnsigned (left.unsignedMin <<< right.unsignedMin.shiftCount)
              (left.unsignedMax <<< right.unsignedMax.shiftCount)).withAnySigned.synchronized
          else start := by
      split
      case isTrue fits =>
        have width := KnownBits.lt_two_pow_bitLength left.unsignedMax
        have exactShift {small : Word} {by' : Nat} (least : small.toNat ≤ left.unsignedMax.toNat)
            (few : by' ≤ right.unsignedMax.toNat) :
            (small <<< by').toNat = small.toNat * 2 ^ by' :=
          toNat_shiftLeft_of_short (Nat.lt_of_le_of_lt least width) (by omega)
        apply synchronized_mem
        apply mem_withAnySigned
        simp only [Word.shiftCount]
        rw [Nat.mod_eq_of_lt (show count.toNat < 64 by omega)] at member ⊢
        rw [Nat.mod_eq_of_lt (show right.unsignedMin.toNat < 64 by omega), Nat.mod_eq_of_lt short]
        apply mem_withUnsigned member
        · rw [exactShift (by omega) (by omega), exactShift below below']
          exact Nat.mul_le_mul above (Nat.pow_le_pow_right (by decide) above')
        · rw [exactShift below below', exactShift (Nat.le_refl _) (Nat.le_refl _)]
          exact Nat.mul_le_mul below (Nat.pow_le_pow_right (by decide) below')
      case isFalse => exact member
    apply narrowed
    apply ofBits_mem
    split
    case h_1 shift known =>
      rw [← eq_of_constant rightMember known, Nat.mod_eq_of_lt (by omega)]
      exact KnownBits.shiftLeft_mem bits (by omega)
    case h_2 => exact KnownBits.mem_unknown _

/-- Logical shifts keep the order of unsigned words. -/
theorem shiftRight_mem
    {left right : Bounds} {word count : Word}
    (leftMember : word ∈ left) (rightMember : count ∈ right) :
    word >>> (count.toNat % 64) ∈ left.shiftRight right := by
  obtain ⟨bits, ⟨above, below⟩, _⟩ := mem_iff.mp leftMember
  obtain ⟨_, ⟨above', below'⟩, _⟩ := mem_iff.mp rightMember
  unfold shiftRight
  split
  case isTrue => exact mem_unknown _
  case isFalse short =>
    rw [BitVec.not_le, BitVec.lt_def, show (64 : Word).toNat = 64 from rfl] at short
    apply synchronized_mem
    apply mem_withAnySigned
    simp only [Word.shiftCount]
    rw [Nat.mod_eq_of_lt (show count.toNat < 64 by omega),
      Nat.mod_eq_of_lt (show right.unsignedMin.toNat < 64 by omega), Nat.mod_eq_of_lt short]
    refine mem_withUnsigned (ofBits_mem ?_) ?_ ?_
    · split
      case h_1 shift known =>
        rw [← eq_of_constant rightMember known]
        exact KnownBits.shiftRight_mem bits (by omega)
      case h_2 => exact KnownBits.mem_unknown _
    all_goals rw [BitVec.toNat_ushiftRight, BitVec.toNat_ushiftRight, Nat.shiftRight_eq_div_pow,
      Nat.shiftRight_eq_div_pow]
    · exact Nat.div_le_div above (Nat.pow_le_pow_right (by decide) below')
        (Nat.ne_of_gt (Nat.two_pow_pos _))
    · exact Nat.div_le_div below (Nat.pow_le_pow_right (by decide) above')
        (Nat.ne_of_gt (Nat.two_pow_pos _))

/-- Arithmetic shifts keep the order of signed words. -/
theorem signedShiftRight_mem
    {left right : Bounds} {word count : Word}
    (leftMember : word ∈ left) (rightMember : count ∈ right) :
    word.sshiftRight (count.toNat % 64) ∈ left.signedShiftRight right := by
  obtain ⟨bits, _, signedAbove, signedBelow⟩ := mem_iff.mp leftMember
  unfold signedShiftRight
  split
  case h_1 => exact mem_unknown _
  case h_2 shift known =>
    rw [← eq_of_constant rightMember known]
    split
    case isTrue short =>
      rw [BitVec.lt_def, show (64 : Word).toNat = 64 from rfl] at short
      rw [Nat.mod_eq_of_lt short]
      apply synchronized_mem
      apply mem_withAnyUnsigned
      apply mem_withSigned (ofBits_mem (KnownBits.signedShiftRight_mem bits short)) <;>
        rw [BitVec.toInt_sshiftRight, BitVec.toInt_sshiftRight, Int.shiftRight_eq_div_pow,
          Int.shiftRight_eq_div_pow]
      · exact Int.ediv_le_ediv (Int.natCast_pos.mpr (Nat.two_pow_pos _)) signedAbove
      · exact Int.ediv_le_ediv (Int.natCast_pos.mpr (Nat.two_pow_pos _)) signedBelow
    case isFalse => exact mem_unknown _

/-! ## Whole operations -/

/-- The bounds of a 64-bit operation hold its result on members of the operands' bounds. -/
theorem apply_mem
    (operation : Arithmetic) {left right : Bounds} {word word' : Word}
    (leftMember : word ∈ left) (rightMember : word' ∈ right) :
    operation.apply word word' ∈ apply operation left right := by
  cases operation with
  | add => exact add_mem leftMember rightMember
  | sub => exact sub_mem leftMember rightMember
  | mul => exact mul_mem leftMember rightMember
  | div => exact div_mem leftMember rightMember
  | or => exact or_mem leftMember rightMember
  | and => exact and_mem leftMember rightMember
  | shiftLeft => exact shiftLeft_mem leftMember rightMember
  | shiftRight => exact shiftRight_mem leftMember rightMember
  | neg => exact neg_mem leftMember
  | mod => exact mod_mem leftMember rightMember
  | xor => exact xor_mem leftMember rightMember
  | move => exact rightMember
  | signedShiftRight => exact signedShiftRight_mem leftMember rightMember

/-- The low half of a member is within the bounds cut to 32 bits. -/
theorem truncate32_mem
    {bounds : Bounds} {word : Word}
    (member : word ∈ bounds) :
    word.low32 ∈ bounds.truncate32 := by
  obtain ⟨bits, ⟨_, below⟩, _⟩ := mem_iff.mp member
  unfold truncate32
  split
  case h_1 value known =>
    rw [mem_constant, eq_of_constant member known]
  case h_2 =>
    split
    case isTrue short =>
      rw [BitVec.le_def, show (0xffffffff : Word).toNat = 2 ^ 32 - 1 from rfl] at short
      rwa [Word.low32_of_short (by omega)]
    case isFalse =>
      apply synchronized_mem
      have small := Word.toNat_low32 word
      have bounded := Nat.mod_lt word.toNat (Nat.two_pow_pos 32)
      have range := Word.toInt_cases word.low32
      have zero : (0 : Word).toInt = 0 := by decide
      have top : (0xffffffff : Word).toInt = 2 ^ 32 - 1 := by decide
      have topNat : (0xffffffff : Word).toNat = 2 ^ 32 - 1 := by decide
      exact mem_iff.mpr ⟨KnownBits.truncate32_mem bits, ⟨Nat.zero_le _, by dsimp only; omega⟩,
        by dsimp only; omega, by dsimp only; omega⟩

theorem toNat_setWidth32 (word : Word) : (word.setWidth 32).toNat = word.low32.toNat := by
  rw [BitVec.toNat_setWidth, Word.toNat_low32]

/-- The shifts depend on more than the low halves of a 64-bit result's operands. -/
def isShift : Arithmetic → Bool
  | .shiftLeft | .shiftRight | .signedShiftRight => true
  | _ => false

/-- Operations other than shifts may be done on whole words of which the low half is kept. -/
theorem low_half_of_apply
    (operation : Arithmetic) (plain : isShift operation = false) (left right : Word) :
    operation.apply (left.setWidth 32) (right.setWidth 32) =
      (operation.apply left.low32 right.low32).setWidth 32 := by
  have leftSmall : left.low32.toNat < 2 ^ 32 :=
    (Word.toNat_low32 left).trans_lt (Nat.mod_lt _ (Nat.two_pow_pos 32))
  have rightSmall : right.low32.toNat < 2 ^ 32 :=
    (Word.toNat_low32 right).trans_lt (Nat.mod_lt _ (Nat.two_pow_pos 32))
  apply BitVec.eq_of_toNat_eq
  rw [BitVec.toNat_setWidth]
  cases operation with
  | add =>
      simp only [Arithmetic.apply, BitVec.toNat_add, toNat_setWidth32]
      omega
  | sub =>
      simp only [Arithmetic.apply, BitVec.toNat_sub, toNat_setWidth32]
      omega
  | mul =>
      simp only [Arithmetic.apply, BitVec.toNat_mul, toNat_setWidth32]
      exact (Nat.mod_mod_of_dvd _ (by decide)).symm
  | div =>
      have quotient : left.low32.toNat / right.low32.toNat < 2 ^ 32 :=
        Nat.lt_of_le_of_lt (Nat.div_le_self _ _) leftSmall
      simp only [Arithmetic.apply, BitVec.udiv_eq, BitVec.toNat_udiv, toNat_setWidth32]
      exact (Nat.mod_eq_of_lt quotient).symm
  | or =>
      simp only [Arithmetic.apply, BitVec.toNat_or, toNat_setWidth32]
      exact (Nat.mod_eq_of_lt (Nat.or_lt_two_pow leftSmall rightSmall)).symm
  | and =>
      simp only [Arithmetic.apply, BitVec.toNat_and, toNat_setWidth32]
      exact (Nat.mod_eq_of_lt (Nat.and_lt_two_pow _ rightSmall)).symm
  | neg =>
      simp only [Arithmetic.apply, BitVec.toNat_neg, toNat_setWidth32]
      omega
  | mod =>
      have remainder : left.low32.toNat % right.low32.toNat < 2 ^ 32 :=
        Nat.lt_of_le_of_lt (Nat.mod_le _ _) leftSmall
      simp only [Arithmetic.apply, BitVec.umod_eq, BitVec.toNat_umod, toNat_setWidth32]
      exact (Nat.mod_eq_of_lt remainder).symm
  | xor =>
      simp only [Arithmetic.apply, BitVec.toNat_xor, toNat_setWidth32]
      exact (Nat.mod_eq_of_lt (Nat.xor_lt_two_pow leftSmall rightSmall)).symm
  | move =>
      simp only [Arithmetic.apply, toNat_setWidth32]
      exact (Nat.mod_eq_of_lt rightSmall).symm
  | shiftLeft => cases plain
  | shiftRight => cases plain
  | signedShiftRight => cases plain

/-- A left shift may be done on the whole word, as only low bits move into the low half. -/
theorem low_half_of_shiftLeft
    (word : Word) (count : Nat) :
    word.setWidth 32 <<< count = (word.low32 <<< count).setWidth 32 := by
  apply BitVec.eq_of_toNat_eq
  rw [BitVec.toNat_setWidth, BitVec.toNat_shiftLeft, BitVec.toNat_shiftLeft, toNat_setWidth32]
  exact (Nat.mod_mod_of_dvd _ (by decide)).symm

/-- A right shift may be done on the whole word once the high half is cleared. -/
theorem low_half_of_shiftRight
    (word : Word) (count : Nat) :
    word.setWidth 32 >>> count = (word.low32 >>> count).setWidth 32 := by
  apply BitVec.eq_of_toNat_eq
  rw [BitVec.toNat_setWidth, BitVec.toNat_ushiftRight, BitVec.toNat_ushiftRight, toNat_setWidth32,
    Nat.shiftRight_eq_div_pow]
  have small : word.low32.toNat < 2 ^ 32 :=
    (Word.toNat_low32 word).trans_lt (Nat.mod_lt _ (Nat.two_pow_pos 32))
  exact (Nat.mod_eq_of_lt (Nat.lt_of_le_of_lt (Nat.div_le_self _ _) small)).symm

theorem zeroExtend_mem_ofWidth (half : BitVec 32) : half.zeroExtend 64 ∈ ofWidth 4 := by
  apply ofWidth_mem
  rw [BitVec.zeroExtend, BitVec.toNat_setWidth]
  exact Nat.lt_of_le_of_lt (Nat.mod_le _ _) half.isLt

/-- A shift count below 32 counts the same in both widths. -/
theorem half_shiftCount
    {bounds : Bounds} {count : Word}
    (member : count.low32 ∈ bounds) (short : ¬ 32 ≤ bounds.unsignedMax) :
    (count.setWidth 32).toNat % 32 = count.low32.toNat % 64 := by
  obtain ⟨_, ⟨_, below⟩, _⟩ := mem_iff.mp member
  rw [BitVec.not_le, BitVec.lt_def, show (32 : Word).toNat = 32 from rfl] at short
  rw [toNat_setWidth32]
  omega

/-- The bounds of a 32-bit operation hold its result on members of the operands' bounds. -/
theorem apply32_mem
    (operation : Arithmetic) {left right : Bounds} {word word' : Word}
    (leftMember : word ∈ left) (rightMember : word' ∈ right) :
    operation.apply32 word word' ∈ apply32 operation left right := by
  have low := truncate32_mem leftMember
  have operand := truncate32_mem rightMember
  have plain (notShift : isShift operation = false) :
      operation.apply32 word word' ∈
        (apply operation left.truncate32 right.truncate32).truncate32 := by
    rw [Arithmetic.apply32, low_half_of_apply operation notShift, Word.zeroExtend_setWidth]
    exact truncate32_mem (apply_mem operation low operand)
  cases operation with
  | shiftLeft =>
      simp only [apply32]
      split
      · exact zeroExtend_mem_ofWidth _
      · rename_i short
        rw [Arithmetic.apply32, Arithmetic.apply, half_shiftCount operand short,
          low_half_of_shiftLeft, Word.zeroExtend_setWidth]
        exact truncate32_mem (shiftLeft_mem low operand)
  | shiftRight =>
      simp only [apply32]
      split
      · exact zeroExtend_mem_ofWidth _
      · rename_i short
        rw [Arithmetic.apply32, Arithmetic.apply, half_shiftCount operand short,
          low_half_of_shiftRight, Word.zeroExtend_setWidth]
        exact truncate32_mem (shiftRight_mem low operand)
  | signedShiftRight =>
      simp only [apply32]
      split
      · exact zeroExtend_mem_ofWidth _
      · rename_i kept
        rw [not_or, BitVec.not_lt] at kept
        obtain ⟨short, nonNegative⟩ := kept
        obtain ⟨_, ⟨_, below⟩, _⟩ := mem_iff.mp low
        rw [BitVec.le_def, show (0x7fffffff : Word).toNat = 2 ^ 31 - 1 from rfl] at nonNegative
        have clear : (word.setWidth 32).msb = false := by
          rw [BitVec.msb_eq_decide, toNat_setWidth32, decide_eq_false_iff_not]
          omega
        rw [Arithmetic.apply32, Arithmetic.apply, half_shiftCount operand short,
          BitVec.sshiftRight_eq_of_msb_false clear, low_half_of_shiftRight,
          Word.zeroExtend_setWidth]
        exact truncate32_mem (shiftRight_mem low operand)
  | _ =>
      simp only [apply32]
      exact plain rfl

/-- The bounds after a change of byte order hold the changed word. -/
theorem convertOrder_mem
    {bounds : Bounds} {word : Word} {width : Nat}
    (member : word ∈ bounds) (whole : width = 16 ∨ width = 32 ∨ width = 64) (order : ByteOrder) :
    (match order with
      | .little => word.lowBits width
      | .big => word.reverseBytes width) ∈ bounds.convertOrder order width := by
  obtain ⟨bits, ⟨_, below⟩, _⟩ := mem_iff.mp member
  cases order with
  | big =>
      simp only [convertOrder]
      split
      case h_1 value known =>
        rw [mem_constant, eq_of_constant member known]
      case h_2 =>
        apply ofWidth_mem
        have short := Word.toNat_ofBytes_lt
          (word.toBytes (if width = 16 then 2 else if width = 32 then 4 else 8)).reverse
        have length (size : Nat) : ∀ any : Word, (any.toBytes size).length = size := by
          induction size with
          | zero => exact fun _ => rfl
          | succ size hypothesis =>
              exact fun any => by rw [Word.toBytes, List.length_cons, hypothesis]
        rw [List.length_reverse, length] at short
        rcases whole with rfl | rfl | rfl <;> exact short
  | little =>
      simp only [convertOrder]
      split
      case isTrue wide =>
        have full : width = 64 := by omega
        subst full
        rwa [Word.lowBits_of_short (by decide) word.isLt]
      case isFalse narrow =>
        split
        case isTrue short =>
          rw [BitVec.le_def, Word.toNat_lowMask (by omega)] at short
          have positive := Nat.two_pow_pos width
          rwa [Word.lowBits_of_short (by omega) (by omega)]
        case isFalse =>
          apply ofBits_mem
          rcases whole with rfl | rfl | rfl
          · exact @KnownBits.truncate_mem _ _ 2 bits (by decide)
          · exact @KnownBits.truncate_mem _ _ 4 bits (by decide)
          · omega

end PacketFilter.Bounds
