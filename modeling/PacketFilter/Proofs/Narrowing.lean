import PacketFilter.Proofs.Branching

/-!
# Bounds that are only narrowed

Synchronising bounds, or refining them by a comparison, admits no word that
was not admitted before.  Every step moves the ends of an interval inwards or
learns more bits.

Only the exclusion of a word can fail: an end in the last place of the number
range has nowhere to move.  `EndsSettled` bounds have no such end left, and
whatever `synchronize` returns is of that kind.
-/

namespace PacketFilter

namespace Word

variable {word : Word}

theorem eq_allOnes_of_le (top : allOnes ≤ word) : word = allOnes := by
  have bounded := word.isLt
  have order : allOnes.toNat ≤ word.toNat := top
  rw [show allOnes.toNat = 2 ^ 64 - 1 from rfl] at order
  apply BitVec.eq_of_toNat_eq
  rw [show allOnes.toNat = 2 ^ 64 - 1 from rfl]
  omega

theorem eq_zero_of_le (bottom : word ≤ 0) : word = 0 :=
  BitVec.eq_of_toNat_eq (Nat.le_zero.mp bottom)

theorem eq_signedGreatest_of_sle (top : signedGreatest.sle word) : word = signedGreatest :=
  BitVec.eq_of_toInt_eq
    (le_antisymm (toInt_le_signedGreatest word) (BitVec.sle_iff_toInt_le.mp top))

theorem eq_signedLeast_of_sle (bottom : word.sle signedLeast) : word = signedLeast :=
  BitVec.eq_of_toInt_eq
    (le_antisymm (BitVec.sle_iff_toInt_le.mp bottom) (toInt_signedLeast_le word))

end Word

namespace KnownBits

theorem masked_wellFormed (value mask : Word) : (masked value mask).WellFormed := by
  simp [WellFormed, masked, BitVec.and_assoc]

theorem unknown_wellFormed : unknown.WellFormed := by
  decide

theorem ofInterval_wellFormed (low high : Word) : (ofInterval low high).WellFormed := by
  simp only [ofInterval]
  split
  case isTrue => exact unknown_wellFormed
  case isFalse =>
    split
    case isTrue => exact unknown_wellFormed
    case isFalse => exact masked_wellFormed _ _

/-- What two sides have in common is well formed, whatever the sides are. -/
theorem intersect_wellFormed
    {left right common : KnownBits}
    (met : left.intersect? right = some common) :
    common.WellFormed := by
  unfold intersect? at met
  split at met
  case isTrue => cases met
  case isFalse =>
    cases met
    exact masked_wellFormed _ _

/-- The value of well-formed bits is a member of them. -/
theorem value_mem {bits : KnownBits} (wellFormed : bits.WellFormed) : bits.value ∈ bits := by
  apply mem_of_value_bits
  intro index inside
  have clear := congrArg (fun any : Word => any.getLsbD index) wellFormed
  simp only [BitVec.getLsbD_and, BitVec.getLsbD_zero, BitVec.ofNat_eq_ofNat] at clear
  revert clear
  cases bits.value.getLsbD index <;> cases bits.mask.getLsbD index <;> simp

/-- The greatest value of well-formed bits is a member of them. -/
theorem unsignedMax_mem {bits : KnownBits} (wellFormed : bits.WellFormed) :
    bits.unsignedMax ∈ bits := by
  apply mem_of_value_bits
  intro index inside
  have clear := congrArg (fun any : Word => any.getLsbD index) wellFormed
  simp only [BitVec.getLsbD_and, BitVec.getLsbD_zero, BitVec.ofNat_eq_ofNat] at clear
  rw [unsignedMax, BitVec.getLsbD_or]
  revert clear
  cases bits.value.getLsbD index <;> cases bits.mask.getLsbD index <;> simp

/-- A description of a single word knows all its bits. -/
theorem mask_eq_zero_of_single
    {bits : KnownBits} {word : Word}
    (wellFormed : bits.WellFormed) (single : ∀ other ∈ bits, other = word) :
    bits.mask = 0 := by
  have extremes : bits.value = bits.unsignedMax :=
    (single _ (value_mem wellFormed)).trans (single _ (unsignedMax_mem wellFormed)).symm
  apply BitVec.eq_of_getLsbD_eq
  intro index _
  have clear := congrArg (fun any : Word => any.getLsbD index) wellFormed
  have same := congrArg (fun any : Word => any.getLsbD index) extremes
  simp only [unsignedMax, BitVec.getLsbD_and, BitVec.getLsbD_or, BitVec.getLsbD_zero,
    BitVec.ofNat_eq_ofNat] at clear same ⊢
  revert clear same
  cases bits.value.getLsbD index <;> cases bits.mask.getLsbD index <;> simp

/-- Every bit is known of an interval with one word in it. -/
theorem mask_of_intersect_point
    {left common : KnownBits} {word : Word}
    (met : left.intersect? (ofInterval word word) = some common) :
    common.mask = 0 := by
  unfold intersect? at met
  split at met
  case isTrue => cases met
  case isFalse =>
    cases met
    simp [ofInterval, masked, Word.bitLength, Word.lowMask, Word.allOnes]

/-- What an intersection describes is described on both sides. -/
theorem mem_of_intersect
    {left right common : KnownBits} {word : Word}
    (leftWell : left.WellFormed) (rightWell : right.WellFormed)
    (met : left.intersect? right = some common) (member : word ∈ common) :
    word ∈ left ∧ word ∈ right := by
  unfold intersect? at met
  split at met
  case isTrue => cases met
  case isFalse agree =>
    cases met
    rw [not_not] at agree
    have bits (index : Nat) (inside : index < 64) :
        left.value.getLsbD index = (word.getLsbD index && !left.mask.getLsbD index) ∧
          right.value.getLsbD index = (word.getLsbD index && !right.mask.getLsbD index) := by
      have known := mem_masked.mp member index inside
      have agreed := congrArg (fun any : Word => any.getLsbD index) agree
      have leftClear := congrArg (fun any : Word => any.getLsbD index) leftWell
      have rightClear := congrArg (fun any : Word => any.getLsbD index) rightWell
      simp only [BitVec.getLsbD_and, BitVec.getLsbD_or, BitVec.getLsbD_xor, BitVec.getLsbD_not,
        inside, decide_true, Bool.true_and, BitVec.getLsbD_zero, BitVec.ofNat_eq_ofNat]
        at known agreed leftClear rightClear
      revert known agreed leftClear rightClear
      generalize left.value.getLsbD index = leftValue
      generalize left.mask.getLsbD index = leftMask
      generalize right.value.getLsbD index = rightValue
      generalize right.mask.getLsbD index = rightMask
      generalize word.getLsbD index = bit
      revert leftValue leftMask rightValue rightMask bit
      decide
    exact ⟨mem_of_value_bits fun index inside => (bits index inside).1,
      mem_of_value_bits fun index inside => (bits index inside).2⟩

end KnownBits

namespace Bounds

/-- Every member of the first is a member of the second. -/
instance : HasSubset Bounds :=
  ⟨fun narrowed bounds => ∀ ⦃word : Word⦄, word ∈ narrowed → word ∈ bounds⟩

theorem subset_refl (bounds : Bounds) : bounds ⊆ bounds :=
  fun _ member => member

theorem subset_trans
    {first second third : Bounds}
    (inner : first ⊆ second) (outer : second ⊆ third) :
    first ⊆ third :=
  fun _ member => outer (inner member)

/-- Bounds lie inside others if their bits do and each end lies inside the other's. -/
theorem subset_of_ends
    {narrowed bounds : Bounds}
    (bits : ∀ ⦃word : Word⦄, word ∈ narrowed.bits → word ∈ bounds.bits)
    (low : bounds.unsignedMin.toNat ≤ narrowed.unsignedMin.toNat)
    (high : narrowed.unsignedMax.toNat ≤ bounds.unsignedMax.toNat)
    (signedLow : bounds.signedMin.toInt ≤ narrowed.signedMin.toInt)
    (signedHigh : narrowed.signedMax.toInt ≤ bounds.signedMax.toInt) :
    narrowed ⊆ bounds := by
  intro word member
  obtain ⟨inBits, ⟨above, below⟩, signedAbove, signedBelow⟩ := mem_iff.mp member
  exact mem_iff.mpr ⟨bits inBits, ⟨low.trans above, below.trans high⟩,
    signedLow.trans signedAbove, signedBelow.trans signedHigh⟩

/-! ## Synchronisation -/

/-- Narrowing by the bits only takes words away. -/
theorem narrowByBits_subset (bounds : Bounds) : bounds.narrowByBits ⊆ bounds := by
  apply subset_of_ends
  · exact fun _ member => member
  · exact (le_max_left _ _).trans_eq (Word.toNat_unsignedMax _ _).symm
  · exact (Word.toNat_unsignedMin _ _).trans_le (min_le_left _ _)
  · exact (le_max_left _ _).trans_eq (Word.toInt_signedMax _ _).symm
  · exact (Word.toInt_signedMin _ _).trans_le (min_le_left _ _)

/-- An end narrowed by the bits is the old one or the one of the bits. -/
theorem narrowByBits_ends (bounds : Bounds) :
    (bounds.narrowByBits.unsignedMin = bounds.unsignedMin ∨
        bounds.narrowByBits.unsignedMin = bounds.bits.unsignedMin) ∧
      (bounds.narrowByBits.unsignedMax = bounds.unsignedMax ∨
        bounds.narrowByBits.unsignedMax = bounds.bits.unsignedMax) ∧
      (bounds.narrowByBits.signedMin = bounds.signedMin ∨
        bounds.narrowByBits.signedMin = bounds.bits.signedMin) ∧
      (bounds.narrowByBits.signedMax = bounds.signedMax ∨
        bounds.narrowByBits.signedMax = bounds.bits.signedMax) := by
  simp only [narrowByBits, Word.unsignedMin, Word.unsignedMax, Word.signedMin, Word.signedMax]
  refine ⟨?_, ?_, ?_, ?_⟩ <;> split <;> simp

theorem narrowAcrossSigns_bits (bounds : Bounds) :
    bounds.narrowAcrossSigns.bits = bounds.bits := by
  unfold narrowAcrossSigns
  split_ifs <;> rfl

/-- Narrowing one kind of ends by the other only takes words away. -/
theorem narrowAcrossSigns_subset
    {bounds : Bounds}
    (sane : bounds.Sane) :
    bounds.narrowAcrossSigns ⊆ bounds := by
  intro word member
  have inBits := member.1
  rw [narrowAcrossSigns_bits] at inBits
  refine mem_iff.mpr ⟨inBits, ?_⟩
  obtain ⟨order, signedOrder⟩ := sane
  rw [BitVec.le_def] at order
  rw [BitVec.sle_iff_toInt_le] at signedOrder
  have wordRange := Word.toInt_cases word
  have minRange := Word.toInt_cases bounds.unsignedMin
  have maxRange := Word.toInt_cases bounds.unsignedMax
  have signedMinRange := Word.toInt_cases bounds.signedMin
  have signedMaxRange := Word.toInt_cases bounds.signedMax
  have lowNat := Word.toNat_unsignedMax bounds.unsignedMin bounds.signedMin
  have highNat := Word.toNat_unsignedMin bounds.unsignedMax bounds.signedMax
  unfold narrowAcrossSigns at member
  simp only [Bool.or_eq_true, Bool.not_eq_true', Word.isNonNegative_iff,
    ← Bool.not_eq_true] at member
  -- Each interval that is replaced lies on one side of the sign boundary.
  split at member
  case isTrue sameSide =>
    obtain ⟨_, ⟨above, below⟩, _⟩ := mem_iff.mp member
    dsimp only at above below
    omega
  case isFalse bothSides =>
    split at member
    case isTrue unsignedSide =>
      obtain ⟨_, ⟨above, below⟩, _⟩ := mem_iff.mp member
      dsimp only at above below
      omega
    case isFalse =>
      split at member
      case isTrue unsignedSide =>
        obtain ⟨_, ⟨above, below⟩, _⟩ := mem_iff.mp member
        dsimp only at above below
        omega
      case isFalse => exact (mem_iff.mp member).2

/-- The stages that synchronised bounds went through. -/
theorem synchronize?_eq_some
    {bounds narrowed : Bounds}
    (settled : bounds.synchronize? = some narrowed) :
    bounds.narrowByBits.Sane ∧ bounds.narrowByBits.narrowAcrossSigns.Sane ∧ narrowed.Sane ∧
      ∃ bits,
        bounds.bits.intersect?
            (KnownBits.ofInterval bounds.narrowByBits.narrowAcrossSigns.unsignedMin
              bounds.narrowByBits.narrowAcrossSigns.unsignedMax) = some bits ∧
          narrowed =
            ({ bounds.narrowByBits.narrowAcrossSigns with bits } : Bounds).narrowByBits := by
  unfold synchronize? synchronize at settled
  dsimp only at settled
  split at settled
  case isTrue => cases settled
  case isFalse byBits =>
    split at settled
    case isTrue => cases settled
    case isFalse bySigns =>
      split at settled
      case h_1 => cases settled
      case h_2 bits met =>
        split at settled
        case isFalse => cases settled
        case isTrue sane =>
          cases settled
          rw [narrowAcrossSigns_bits] at met
          exact ⟨not_not.mp byBits, not_not.mp bySigns, sane, bits, met, rfl⟩

/-- Afterwards the two intervals have the same ends, or the signed one has both signs in it. -/
theorem narrowAcrossSigns_ends (bounds : Bounds) :
    bounds.narrowAcrossSigns.unsignedMin = bounds.narrowAcrossSigns.signedMin ∧
        bounds.narrowAcrossSigns.unsignedMax = bounds.narrowAcrossSigns.signedMax ∨
      ¬ bounds.narrowAcrossSigns.signedMin.isNonNegative ∧
        bounds.narrowAcrossSigns.signedMax.isNonNegative := by
  unfold narrowAcrossSigns
  split
  case isTrue => exact .inl ⟨rfl, rfl⟩
  case isFalse bothSides =>
    split
    case isTrue => exact .inl ⟨rfl, rfl⟩
    case isFalse =>
      split
      case isTrue => exact .inl ⟨rfl, rfl⟩
      case isFalse => exact .inr (by simpa using bothSides)

theorem narrowByBits_of_known
    {bounds : Bounds}
    (known : bounds.bits.mask = 0) (sane : bounds.narrowByBits.Sane) :
    bounds.narrowByBits = constant bounds.bits.value := by
  obtain ⟨⟨value, mask⟩, low, high, signedLow, signedHigh⟩ := bounds
  dsimp only at known
  subst known
  have whole : value ||| 0 = value := BitVec.or_zero
  have none' (any : Word) : (0 : Word) &&& any = 0 := BitVec.zero_and
  obtain ⟨order, signedOrder⟩ := sane
  rw [BitVec.le_def] at order
  rw [BitVec.sle_iff_toInt_le] at signedOrder
  simp only [narrowByBits, KnownBits.unsignedMin, KnownBits.unsignedMax, KnownBits.signedMin,
    KnownBits.signedMax, none', whole, Word.toNat_unsignedMin, Word.toNat_unsignedMax,
    Word.toInt_signedMin, Word.toInt_signedMax] at order signedOrder
  simp only [narrowByBits, constant, KnownBits.unsignedMin, KnownBits.unsignedMax,
    KnownBits.signedMin, KnownBits.signedMax, KnownBits.constant, none', whole, mk.injEq, true_and]
  refine ⟨BitVec.eq_of_toNat_eq ?_, BitVec.eq_of_toNat_eq ?_, BitVec.eq_of_toInt_eq ?_,
    BitVec.eq_of_toInt_eq ?_⟩
  · rw [Word.toNat_unsignedMax]
    omega
  · rw [Word.toNat_unsignedMin]
    omega
  · rw [Word.toInt_signedMax]
    omega
  · rw [Word.toInt_signedMin]
    omega

/-- Settled bounds lie inside the ones they come from. -/
theorem synchronize?_subset
    {bounds narrowed : Bounds}
    (wellFormed : bounds.bits.WellFormed) (settled : bounds.synchronize? = some narrowed) :
    narrowed ⊆ bounds := by
  obtain ⟨byBits, -, -, bits, met, rfl⟩ := synchronize?_eq_some settled
  refine subset_trans (narrowByBits_subset _) (subset_trans ?_
    (subset_trans (narrowAcrossSigns_subset byBits) (narrowByBits_subset bounds)))
  refine subset_of_ends (fun word member => ?_) le_rfl le_rfl le_rfl le_rfl
  rw [narrowAcrossSigns_bits]
  exact (KnownBits.mem_of_intersect wellFormed (KnownBits.ofInterval_wellFormed _ _) met member).1

/-- An interval that starts where the words end, or ends where they start, is seen to hold a single
word. -/
structure EndsSettled (bounds : Bounds) : Prop where
  low : bounds.unsignedMin = Word.allOnes → bounds.constant? = some Word.allOnes
  high : bounds.unsignedMax = 0 → bounds.constant? = some 0
  signedLow : bounds.signedMin = Word.signedGreatest → bounds.constant? = some Word.signedGreatest
  signedHigh : bounds.signedMax = Word.signedLeast → bounds.constant? = some Word.signedLeast

theorem constant?_constant (word : Word) : (constant word).constant? = some word := by
  simp [constant?, isConstant, constant, KnownBits.isConstant, KnownBits.constant]

theorem constant_endsSettled (word : Word) : (constant word).EndsSettled := by
  constructor <;> rintro ⟨⟩ <;> exact constant?_constant _

/-- Bounds that are settled and not the constant itself leave room to exclude it. -/
theorem EndsSettled.leavesRoom
    {bounds : Bounds} {word : Word}
    (settled : bounds.EndsSettled) (undecided : bounds.constant? ≠ some word) :
    bounds.LeavesRoom word where
  low := by
    rintro end' rfl
    exact undecided (settled.low end')
  high := by
    rintro end' rfl
    exact undecided (settled.high end')
  signedLow := by
    rintro end' rfl
    exact undecided (settled.signedLow end')
  signedHigh := by
    rintro end' rfl
    exact undecided (settled.signedHigh end')

/-- Of synchronised bounds, an interval with a single place left shows which word it is. -/
theorem synchronize?_endsSettled
    {bounds narrowed : Bounds}
    (settled : bounds.synchronize? = some narrowed) :
    narrowed.EndsSettled := by
  obtain ⟨-, ⟨order, signedOrder⟩, sane, bits, met, rfl⟩ := synchronize?_eq_some settled
  have wellFormed := KnownBits.intersect_wellFormed met
  have ends := narrowAcrossSigns_ends bounds.narrowByBits
  generalize bounds.narrowByBits.narrowAcrossSigns = signs at *
  obtain ⟨low, high, signedLow, signedHigh⟩ := narrowByBits_ends { signs with bits }
  have ofSigns (single : signs.unsignedMin = signs.unsignedMax) : bits.mask = 0 := by
    rw [single] at met
    exact KnownBits.mask_of_intersect_point met
  have ofSignedSigns (single : signs.signedMin = signs.signedMax) : bits.mask = 0 := by
    rcases ends with ⟨low, high⟩ | ⟨negative, nonNegative⟩
    · exact ofSigns (low.trans (single.trans high.symm))
    · exact absurd (single ▸ nonNegative) negative
  have ofBits {word : Word} (single : ∀ other ∈ bits, other = word) : bits.mask = 0 :=
    KnownBits.mask_eq_zero_of_single wellFormed single
  -- Once the bits are known, the bounds are those of the word that they spell.
  have ofKnown (known : bits.mask = 0) :
      ({ signs with bits } : Bounds).narrowByBits.EndsSettled := by
    rw [@narrowByBits_of_known { signs with bits } known sane]
    exact constant_endsSettled bits.value
  constructor
  case low =>
    intro last
    refine (ofKnown ?_).low last
    rcases low with low | low <;> rw [last] at low
    · apply ofSigns
      rw [← low] at order ⊢
      exact (Word.eq_allOnes_of_le order).symm
    · exact ofBits fun other member =>
        Word.eq_allOnes_of_le (low.trans_le (KnownBits.unsignedMin_le member))
  case high =>
    intro last
    refine (ofKnown ?_).high last
    rcases high with high | high <;> rw [last] at high
    · apply ofSigns
      rw [← high] at order ⊢
      exact Word.eq_zero_of_le order
    · exact ofBits fun other member =>
        Word.eq_zero_of_le ((KnownBits.le_unsignedMax member).trans_eq high.symm)
  case signedLow =>
    intro last
    refine (ofKnown ?_).signedLow last
    rcases signedLow with low | low <;> rw [last] at low
    · apply ofSignedSigns
      rw [← low] at signedOrder ⊢
      exact (Word.eq_signedGreatest_of_sle signedOrder).symm
    · exact ofBits fun other member =>
        Word.eq_signedGreatest_of_sle (low ▸ KnownBits.signedMin_sle member)
  case signedHigh =>
    intro last
    refine (ofKnown ?_).signedHigh last
    rcases signedHigh with high | high <;> rw [last] at high
    · apply ofSignedSigns
      rw [← high] at signedOrder ⊢
      exact Word.eq_signedLeast_of_sle signedOrder
    · exact ofBits fun other member =>
        Word.eq_signedLeast_of_sle (high ▸ KnownBits.sle_signedMax member)

/-- Excluding a word only takes words away. -/
theorem Excludes.subset
    {bounds narrowed : Bounds} {word : Word}
    (excludes : bounds.Excludes word narrowed) :
    narrowed ⊆ bounds := by
  obtain ⟨bits, low, high, signedLow, signedHigh⟩ := excludes
  refine subset_of_ends (fun _ member => bits ▸ member) ?_ ?_ ?_ ?_
  · exact low ▸ Nat.le_add_right _ _
  · exact high ▸ Nat.le_add_right _ _
  · split at signedLow <;> omega
  · split at signedHigh <;> omega

/-- Nothing has to be moved out of its range when the ends are settled. -/
theorem EndsSettled.excludeConstant?_isSome
    {bounds other : Bounds}
    (settled : bounds.EndsSettled) :
    ∃ narrowed?, bounds.excludeConstant? other = some narrowed? := by
  unfold excludeConstant?
  cases other.constant? with
  | none => exact ⟨_, rfl⟩
  | some word =>
      by_cases known : bounds.constant? = some word
      · exact ⟨none, if_pos known⟩
      · obtain ⟨narrowed, excluded⟩ := exclude?_of_room known (settled.leavesRoom known)
        exact ⟨some narrowed, excluded⟩

/-! ## Refinement by a comparison -/

section Order

variable {left right : Bounds} {narrowed : Bounds × Bounds}
variable (leftWell : left.bits.WellFormed) (rightWell : right.bits.WellFormed)
include leftWell rightWell

end Order

/-- Learning that two settled bounds differ moves no end out of its range. -/
theorem refineDiffer?_of_endsSettled
    {left right : Bounds}
    (leftSettled : left.EndsSettled) (rightSettled : right.EndsSettled) :
    ∃ narrowed?, left.refineDiffer? right = some narrowed? := by
  obtain ⟨left?, excluded⟩ := @EndsSettled.excludeConstant?_isSome left right leftSettled
  rw [refineDiffer?, excluded]
  cases left? with
  | none => exact ⟨none, rfl⟩
  | some left' =>
      obtain ⟨right?, excluded'⟩ := @EndsSettled.excludeConstant?_isSome right left' rightSettled
      rw [Option.bind_eq_bind, Option.bind_some, onward, excluded']
      cases right? with
      | none => exact ⟨none, rfl⟩
      | some right' => exact ⟨_, rfl⟩

/-- A refinement overflows only where the operands are taken to differ, and an end is not
settled. -/
theorem refine?_of_endsSettled
    (comparison : Comparison) {left right : Bounds}
    (settled : comparison = .differ → left.EndsSettled ∧ right.EndsSettled) :
    ∃ narrowed?, refine? comparison left right = some narrowed? := by
  cases comparison with
  | differ => exact refineDiffer?_of_endsSettled (settled rfl).1 (settled rfl).2
  | _ => exact ⟨_, rfl⟩

end Bounds

end PacketFilter
