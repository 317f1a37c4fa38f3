import Mathlib.Data.Nat.Bitwise
import PacketFilter.Proofs.Narrowing

/-!
# What known bits describe

Every operation on well-formed descriptions gives a well-formed one, which
holds the results of the operation on words.  Two constructions are moreover
exact: an intersection describes the common members and nothing else, and of
all descriptions that hold the words of an interval the one made of the
interval holds the fewest words.

For the latter, an interval whose ends first differ in some bit goes over from
the word that has ones below that bit to the one that has zeros there, so no
description of it knows that bit or one below.
-/

namespace PacketFilter.KnownBits

variable {bits left right common : KnownBits} {word word' low high : Word}

/-- The description is well formed and holds the word. -/
def Describes (bits : KnownBits) (word : Word) : Prop :=
  bits.WellFormed ∧ word ∈ bits

theorem describes_of_mem (member : word ∈ bits) : bits.Describes word :=
  ⟨wellFormed_of_mem member, member⟩

/-! ## Intersections -/

theorem mem_intersect_iff
    (leftWell : left.WellFormed) (rightWell : right.WellFormed)
    (met : left.intersect? right = some common) :
    word ∈ common ↔ word ∈ left ∧ word ∈ right :=
  ⟨mem_of_intersect leftWell rightWell met, fun member => intersect_mem member.1 member.2 met⟩

theorem intersect_eq_none_iff (leftWell : left.WellFormed) (rightWell : right.WellFormed) :
    left.intersect? right = none ↔ ∀ word, ¬ (word ∈ left ∧ word ∈ right) := by
  constructor
  · intro apart word member
    have met := intersect_isSome member.1 member.2
    rw [apart] at met
    cases met
  · intro apart
    cases met : left.intersect? right with
    | none => rfl
    | some common =>
        have member := value_mem (intersect_wellFormed met)
        exact absurd (mem_of_intersect leftWell rightWell met member) (apart _)

/-! ## Intervals -/

/-- Two words agree from some bit on exactly when their difference is short. -/
theorem div_eq_div_iff (low high : Word) (count : Nat) :
    low.toNat / 2 ^ count = high.toNat / 2 ^ count ↔ (low ^^^ high).toNat < 2 ^ count := by
  rw [← Nat.shiftRight_eq_div_pow, ← Nat.shiftRight_eq_div_pow, ← Nat.xor_eq_zero_iff,
    ← Nat.shiftRight_xor_distrib, Nat.shiftRight_eq_div_pow,
    Nat.div_eq_zero_iff_lt (Nat.two_pow_pos count), BitVec.toNat_xor]

/-- The interval goes over a multiple of two powers of two, where it goes over the first bit in
which its ends differ. -/
theorem exists_turn
    {count : Nat} (order : low ≤ high) (width : (low ^^^ high).bitLength = count + 1) :
    ∃ half, low.toNat ≤ 2 ^ count * (2 * half) + (2 ^ count - 1) ∧
      2 ^ count * (2 * half + 1) ≤ high.toNat := by
  have apart : low ^^^ high ≠ 0 := by
    intro same
    rw [same] at width
    cases width
  have top : (low ^^^ high).toNat.log2 = count := by
    rw [Word.bitLength, if_neg apart] at width
    exact Nat.succ.inj width
  have agree : low.toNat / 2 ^ (count + 1) = high.toNat / 2 ^ (count + 1) := by
    rw [div_eq_div_iff, ← width]
    exact lt_two_pow_bitLength _
  have differ : low.toNat / 2 ^ count ≠ high.toNat / 2 ^ count := by
    rw [ne_eq, div_eq_div_iff, Nat.not_lt, ← top]
    exact Nat.log2_self_le fun none => apart (BitVec.eq_of_toNat_eq none)
  have grows : low.toNat / 2 ^ count ≤ high.toNat / 2 ^ count := Nat.div_le_div_right order
  rw [Nat.pow_succ, ← Nat.div_div_eq_div_mul, ← Nat.div_div_eq_div_mul] at agree
  -- The quotients are neighbours, of which the lower one is even.
  have even : low.toNat / 2 ^ count = 2 * (low.toNat / 2 ^ count / 2) := by omega
  have next : high.toNat / 2 ^ count = 2 * (low.toNat / 2 ^ count / 2) + 1 := by omega
  refine ⟨low.toNat / 2 ^ count / 2, ?_, ?_⟩
  · have parts := Nat.div_add_mod low.toNat (2 ^ count)
    have small := Nat.mod_lt low.toNat (Nat.two_pow_pos count)
    rw [← even]
    omega
  · rw [← next]
    exact Nat.mul_div_le high.toNat (2 ^ count)

/-- Up to the turn the two words on its sides have opposite bits. -/
theorem turn_bits (half : Nat) {count index : Nat} (below : index ≤ count) :
    (2 ^ count * (2 * half + 1)).testBit index =
      !(2 ^ count * (2 * half) + (2 ^ count - 1)).testBit index := by
  have short : 2 ^ count - 1 < 2 ^ count := Nat.sub_lt (Nat.two_pow_pos count) Nat.one_pos
  have above := Nat.testBit_two_pow_mul_add (2 * half + 1) (Nat.two_pow_pos count) index
  rw [Nat.add_zero] at above
  rw [above, Nat.testBit_two_pow_mul_add (2 * half) short index, Nat.zero_testBit,
    Nat.testBit_two_pow_sub_one]
  by_cases inside : index < count
  · simp [inside]
  · have last : index - count = 0 := by omega
    have odd : (2 * half + 1) % 2 = 1 := by omega
    simp [inside, last, Nat.testBit_zero, odd]

/-- A description of a whole interval knows no bit that the interval runs through. -/
theorem mask_bit_of_interval
    {index : Nat} (order : low ≤ high) (holds : ∀ word, low ≤ word → word ≤ high → word ∈ bits)
    (inside : index < 64) (below : index < (low ^^^ high).bitLength) :
    bits.mask.getLsbD index = true := by
  obtain ⟨count, width⟩ := Nat.exists_eq_succ_of_ne_zero (Nat.ne_zero_of_lt below)
  obtain ⟨half, reached, passed⟩ := exists_turn order width
  have bounded := high.isLt
  have step : 2 ^ count * (2 * half + 1) = 2 ^ count * (2 * half) + (2 ^ count - 1) + 1 := by
    have positive := Nat.two_pow_pos count
    rw [Nat.mul_succ]
    omega
  have within {number : Nat} (least : low.toNat ≤ number) (most : number ≤ high.toNat) :
      BitVec.ofNat 64 number ∈ bits := by
    have same : (BitVec.ofNat 64 number).toNat = number := Nat.mod_eq_of_lt (by omega)
    apply holds <;> rw [BitVec.le_def, same] <;> assumption
  have before := value_bit (within reached (by omega)) index
  have after := value_bit (within (by omega) passed) index
  have opposite := turn_bits half (show index ≤ count by omega)
  rw [BitVec.getLsbD_ofNat, decide_eq_true inside, Bool.true_and] at before after
  rw [before, opposite] at after
  revert after
  cases bits.mask.getLsbD index with
  | true => exact fun _ => rfl
  | false => cases (2 ^ count * (2 * half) + (2 ^ count - 1)).testBit index <;> decide

/-- The members of the description made of an interval are members of every description that holds
the interval. -/
theorem mem_of_mem_ofInterval
    (order : low ≤ high) (holds : ∀ word, low ≤ word → word ≤ high → word ∈ bits)
    (member : word ∈ ofInterval low high) :
    word ∈ bits := by
  have start := holds low (Nat.le_refl _) order
  apply mem_of_value_bits
  intro index inside
  by_cases below : index < (low ^^^ high).bitLength
  · rw [value_bit start, mask_bit_of_interval order holds inside below]
    simp
  · have same : word.getLsbD index = low.getLsbD index := by
      rw [ofInterval, if_neg (BitVec.not_lt.mpr order)] at member
      dsimp only at member
      rw [if_neg (by omega)] at member
      apply mem_masked.mp member index inside
      rw [lowMask_bit inside]
      exact decide_eq_false below
    rw [value_bit start, same]

/-! ## All operations -/

theorem lowBits_of_whole {count : Nat} (whole : 64 ≤ count) (word : Word) :
    word.lowBits count = word := by
  apply BitVec.eq_of_getLsbD_eq
  intro index inside
  rw [Word.lowBits, BitVec.getLsbD_and, lowMask_bit inside, decide_eq_true (by omega),
    Bool.and_true]

theorem truncate_mem_of_any (member : word ∈ bits) (size : Nat) :
    word.lowBits (size * 8) ∈ bits.truncate size := by
  by_cases whole : 8 ≤ size
  · rwa [lowBits_of_whole (by omega), truncate, if_pos whole]
  · exact truncate_mem member (Nat.lt_of_not_le whole)

/-- The operations on well-formed descriptions give well-formed ones that hold the results on
words; an intersection holds the common members, and is missing where there are none; the
description made of an interval holds the interval and is held by every other that does. -/
theorem operations_describe_results (leftWell : left.WellFormed) (rightWell : right.WellFormed) :
    (∀ word ∈ left, ∀ word' ∈ right,
      (left.add right).Describes (word + word') ∧ (left.sub right).Describes (word - word') ∧
        (left.mul right).Describes (word * word') ∧ (left.and right).Describes (word &&& word') ∧
        (left.or right).Describes (word ||| word') ∧
        (left.xor right).Describes (word ^^^ word')) ∧
      (∀ word ∈ left, ∀ count < 64,
        (left.shiftLeft count).Describes (word <<< count) ∧
          (left.shiftRight count).Describes (word >>> count) ∧
          (left.signedShiftRight count).Describes (word.sshiftRight count)) ∧
      (∀ word ∈ left, left.truncate32.Describes word.low32 ∧
        ∀ size, (left.truncate size).Describes (word.lowBits (size * 8))) ∧
      (∀ common, left.intersect? right = some common →
        common.WellFormed ∧ ∀ word, word ∈ common ↔ word ∈ left ∧ word ∈ right) ∧
      (left.intersect? right = none ↔ ∀ word, ¬ (word ∈ left ∧ word ∈ right)) ∧
      ∀ low high, low ≤ high → (ofInterval low high).WellFormed ∧
        (∀ word, low ≤ word → word ≤ high → word ∈ ofInterval low high) ∧
          ∀ bits : KnownBits, (∀ word, low ≤ word → word ≤ high → word ∈ bits) →
            ∀ word ∈ ofInterval low high, word ∈ bits := by
  refine ⟨fun word inLeft word' inRight => ?_, fun word inLeft count short => ?_,
    fun word inLeft => ?_, fun common met => ?_, intersect_eq_none_iff leftWell rightWell,
    fun low high order => ?_⟩
  · exact ⟨describes_of_mem (add_mem inLeft inRight), describes_of_mem (sub_mem inLeft inRight),
      describes_of_mem (mul_mem inLeft inRight), describes_of_mem (and_mem inLeft inRight),
      describes_of_mem (or_mem inLeft inRight), describes_of_mem (xor_mem inLeft inRight)⟩
  · exact ⟨describes_of_mem (shiftLeft_mem inLeft short),
      describes_of_mem (shiftRight_mem inLeft short),
      describes_of_mem (signedShiftRight_mem inLeft short)⟩
  · exact ⟨describes_of_mem (truncate32_mem inLeft),
      fun size => describes_of_mem (truncate_mem_of_any inLeft size)⟩
  · exact ⟨intersect_wellFormed met, fun word => mem_intersect_iff leftWell rightWell met⟩
  · exact ⟨ofInterval_wellFormed low high, fun word => ofInterval_mem,
      fun bits holds word => mem_of_mem_ofInterval order holds⟩

/-- Two words of which the low bit is unknown and the sign bit known to differ, and the interval
that leads from the one over the sign boundary to the other. -/
theorem operations_describe_results_of_two :
    (⟨2, 1⟩ : KnownBits).WellFormed ∧ (⟨0x8000000000000002, 1⟩ : KnownBits).WellFormed ∧
      (3 : Word) ∈ (⟨2, 1⟩ : KnownBits) ∧
      (0x8000000000000002 : Word) ∈ (⟨0x8000000000000002, 1⟩ : KnownBits) ∧
      (mul ⟨2, 1⟩ ⟨0x8000000000000002, 1⟩).Describes 0x8000000000000006 ∧
      (intersect? ⟨2, 1⟩ ⟨0x8000000000000002, 1⟩ = none ↔
        ∀ word, ¬ (word ∈ (⟨2, 1⟩ : KnownBits) ∧
          word ∈ (⟨0x8000000000000002, 1⟩ : KnownBits))) ∧
      (3 : Word) ≤ 0x8000000000000002 ∧ (ofInterval 3 0x8000000000000002).WellFormed := by
  have leftWell : (⟨2, 1⟩ : KnownBits).WellFormed := by decide
  have rightWell : (⟨0x8000000000000002, 1⟩ : KnownBits).WellFormed := by decide
  have inLeft : (3 : Word) ∈ (⟨2, 1⟩ : KnownBits) := by decide
  have inRight : (0x8000000000000002 : Word) ∈ (⟨0x8000000000000002, 1⟩ : KnownBits) := by decide
  obtain ⟨joined, _, _, _, apart, interval⟩ := operations_describe_results leftWell rightWell
  exact ⟨leftWell, rightWell, inLeft, inRight, (joined _ inLeft _ inRight).2.2.1, apart, by decide,
    (interval _ _ (by decide)).1⟩

end PacketFilter.KnownBits
