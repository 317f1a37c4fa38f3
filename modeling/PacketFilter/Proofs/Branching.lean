import PacketFilter.Bounds.Branch
import PacketFilter.Proofs.Bounds

/-!
# Comparisons of bounds against comparisons of words

What `decide?` settles is what the comparison says of any members, and what
`refine?` leaves of the bounds still holds the members between which the
comparison holds.  A comparison of low halves is one of whole words where
`fitsHalf` says so.

Exclusion of a word and the tests of single bits are the only cases that do
more than move the end of an interval.
-/

namespace PacketFilter

namespace Comparison

/-- Exactly one of a comparison and its negation holds. -/
theorem holds_negate {width : Nat} (comparison : Comparison) (left right : BitVec width) :
    comparison.negate.holds left right = !comparison.holds left right := by
  cases comparison with
  | equal => rfl
  | differ => simp [negate, holds, bne]
  | above => simp [negate, holds, BitVec.ule_eq_not_ult]
  | atLeast => simp [negate, holds, BitVec.ule_eq_not_ult]
  | below => simp [negate, holds, BitVec.ule_eq_not_ult]
  | atMost => simp [negate, holds, BitVec.ule_eq_not_ult]
  | signedAbove => simp [negate, holds, BitVec.sle_eq_not_slt]
  | signedAtLeast => simp [negate, holds, BitVec.sle_eq_not_slt]
  | signedBelow => simp [negate, holds, BitVec.sle_eq_not_slt]
  | signedAtMost => simp [negate, holds, BitVec.sle_eq_not_slt]
  | sharesBit => simp [negate, holds, bne]
  | sharesNone => simp [negate, holds, bne]

end Comparison

namespace Bounds

/-! ## What is settled -/

/-- Bounds that decide whether words are equal do so for all their members. -/
theorem decideEqual_sound
    {left right : Bounds} {word word' : Word} {answer : Bool}
    (leftMember : word ∈ left) (rightMember : word' ∈ right)
    (settled : left.decideEqual? right = some answer) :
    (word == word') = answer := by
  unfold decideEqual? at settled
  split at settled
  case h_1 leftWord rightWord leftKnown rightKnown =>
    cases settled
    rw [eq_of_constant leftMember leftKnown, eq_of_constant rightMember rightKnown]
  case h_2 =>
    split at settled
    case isTrue disjoint =>
      cases settled
      rw [beq_eq_false_iff_ne]
      rintro rfl
      obtain ⟨bits, ⟨above, below⟩, signedAbove, signedBelow⟩ := mem_iff.mp leftMember
      obtain ⟨bits', ⟨above', below'⟩, signedAbove', signedBelow'⟩ := mem_iff.mp rightMember
      have common := KnownBits.intersect_isSome bits bits'
      simp only [areDisjoint, Bool.or_eq_true, decide_eq_true_eq, gt_iff_lt, BitVec.lt_def,
        BitVec.slt_iff_toInt_lt, Option.isNone_iff_eq_none] at disjoint
      rcases disjoint with (((order | order) | order) | order) | apart
      · omega
      · omega
      · omega
      · omega
      · rw [apart] at common
        cases common
    case isFalse => cases settled

/-- Intervals that do not overlap decide which word is greater. -/
theorem decideAbove_sound
    {left right : Bounds} {word word' : Word} {answer : Bool}
    (leftMember : word ∈ left) (rightMember : word' ∈ right)
    (settled : left.decideAbove? right = some answer) :
    word'.ult word = answer := by
  obtain ⟨_, ⟨above, below⟩, _⟩ := mem_iff.mp leftMember
  obtain ⟨_, ⟨above', below'⟩, _⟩ := mem_iff.mp rightMember
  unfold decideAbove? at settled
  simp only [gt_iff_lt, BitVec.lt_def, BitVec.le_def] at settled
  rw [BitVec.ult_eq_decide]
  split at settled
  · cases settled
    exact decide_eq_true (by omega)
  · split at settled
    · cases settled
      exact decide_eq_false (by omega)
    · cases settled

/-- As for the strict comparison, but the ends may meet. -/
theorem decideAtLeast_sound
    {left right : Bounds} {word word' : Word} {answer : Bool}
    (leftMember : word ∈ left) (rightMember : word' ∈ right)
    (settled : left.decideAtLeast? right = some answer) :
    word'.ule word = answer := by
  obtain ⟨_, ⟨above, below⟩, _⟩ := mem_iff.mp leftMember
  obtain ⟨_, ⟨above', below'⟩, _⟩ := mem_iff.mp rightMember
  unfold decideAtLeast? at settled
  simp only [ge_iff_le, BitVec.lt_def, BitVec.le_def] at settled
  rw [BitVec.ule_eq_decide]
  split at settled
  · cases settled
    exact decide_eq_true (by omega)
  · split at settled
    · cases settled
      exact decide_eq_false (by omega)
    · cases settled

/-- Signed intervals that do not overlap decide which word is greater with its sign. -/
theorem decideSignedAbove_sound
    {left right : Bounds} {word word' : Word} {answer : Bool}
    (leftMember : word ∈ left) (rightMember : word' ∈ right)
    (settled : left.decideSignedAbove? right = some answer) :
    word'.slt word = answer := by
  obtain ⟨_, _, above, below⟩ := mem_iff.mp leftMember
  obtain ⟨_, _, above', below'⟩ := mem_iff.mp rightMember
  unfold decideSignedAbove? at settled
  simp only [BitVec.slt_iff_toInt_lt, BitVec.sle_iff_toInt_le] at settled
  rw [BitVec.slt_eq_decide]
  split at settled
  · cases settled
    exact decide_eq_true (by omega)
  · split at settled
    · cases settled
      exact decide_eq_false (by omega)
    · cases settled

/-- As for the strict comparison with signs, but the ends may meet. -/
theorem decideSignedAtLeast_sound
    {left right : Bounds} {word word' : Word} {answer : Bool}
    (leftMember : word ∈ left) (rightMember : word' ∈ right)
    (settled : left.decideSignedAtLeast? right = some answer) :
    word'.sle word = answer := by
  obtain ⟨_, _, above, below⟩ := mem_iff.mp leftMember
  obtain ⟨_, _, above', below'⟩ := mem_iff.mp rightMember
  unfold decideSignedAtLeast? at settled
  simp only [BitVec.slt_iff_toInt_lt, BitVec.sle_iff_toInt_le] at settled
  rw [BitVec.sle_eq_decide]
  split at settled
  · cases settled
    exact decide_eq_true (by omega)
  · split at settled
    · cases settled
      exact decide_eq_false (by omega)
    · cases settled

/-- A known bit on both sides decides that one is shared, and no common possible bit that none
is. -/
theorem decideSharesBit_sound
    {left right : Bounds} {word word' : Word} {answer : Bool}
    (leftMember : word ∈ left) (rightMember : word' ∈ right)
    (settled : left.decideSharesBit? right = some answer) :
    (word &&& word' != 0) = answer := by
  unfold decideSharesBit? at settled
  have leftLow := KnownBits.value_covered leftMember.1
  have rightLow := KnownBits.value_covered rightMember.1
  have leftHigh := KnownBits.covered_unsignedMax leftMember.1
  have rightHigh := KnownBits.covered_unsignedMax rightMember.1
  split at settled
  case isTrue shared =>
    cases settled
    rw [bne_iff_ne]
    intro nothing
    apply shared
    apply BitVec.eq_of_getLsbD_eq
    intro index _
    have bit := congrArg (fun any : Word => any.getLsbD index) nothing
    simp only [BitVec.getLsbD_and] at bit ⊢
    cases leftSet : left.bits.value.getLsbD index with
    | false => simp
    | true =>
        cases rightSet : right.bits.value.getLsbD index with
        | false => simp
        | true => simp [leftLow index leftSet, rightLow index rightSet] at bit
  case isFalse =>
    split at settled
    case isTrue apart =>
      cases settled
      rw [bne_eq_false_iff_eq]
      apply BitVec.eq_of_getLsbD_eq
      intro index _
      have bit := congrArg (fun any : Word => any.getLsbD index) apart
      simp only [BitVec.getLsbD_and] at bit ⊢
      cases leftSet : word.getLsbD index with
      | false => simp
      | true =>
          cases rightSet : word'.getLsbD index with
          | false => simp
          | true => simp [leftHigh index leftSet, rightHigh index rightSet] at bit
    case isFalse => cases settled

/-- What the bounds settle is the outcome of the comparison on any members. -/
theorem decide_sound
    (comparison : Comparison) {left right : Bounds} {word word' : Word} {answer : Bool}
    (leftMember : word ∈ left) (rightMember : word' ∈ right)
    (settled : decide? comparison left right = some answer) :
    comparison.holds word word' = answer := by
  cases comparison with
  | equal => exact decideEqual_sound leftMember rightMember settled
  | differ =>
      obtain ⟨opposite, same, rfl⟩ := Option.map_eq_some_iff.mp settled
      exact congrArg (!·) (decideEqual_sound leftMember rightMember same)
  | above => exact decideAbove_sound leftMember rightMember settled
  | atLeast => exact decideAtLeast_sound leftMember rightMember settled
  | below => exact decideAbove_sound rightMember leftMember settled
  | atMost => exact decideAtLeast_sound rightMember leftMember settled
  | signedAbove => exact decideSignedAbove_sound leftMember rightMember settled
  | signedAtLeast => exact decideSignedAtLeast_sound leftMember rightMember settled
  | signedBelow => exact decideSignedAbove_sound rightMember leftMember settled
  | signedAtMost => exact decideSignedAtLeast_sound rightMember leftMember settled
  | sharesBit => exact decideSharesBit_sound leftMember rightMember settled
  | sharesNone =>
      obtain ⟨opposite, same, rfl⟩ := Option.map_eq_some_iff.mp settled
      rw [← decideSharesBit_sound leftMember rightMember same]
      simp [Comparison.holds, bne]

/-! ## Low halves -/

/-- A word below half of the 32-bit range reads alike in both widths. -/
theorem toInt_setWidth32 {word : Word} (small : word.toNat < 2 ^ 31) :
    (word.setWidth 32).toInt = word.toInt := by
  rw [BitVec.toInt_eq_toNat_cond, BitVec.toInt_eq_toNat_cond, toNat_setWidth32,
    Word.low32_of_short (by omega), if_pos (by omega), if_pos (by omega)]

/-- Where the bounds fit, comparing low halves is comparing whole words. -/
theorem holds_half_of_fitsHalf
    (comparison : Comparison) {left right : Bounds} {word word' : Word}
    (leftMember : word ∈ left) (rightMember : word' ∈ right)
    (leftFits : left.fitsHalf comparison = true) (rightFits : right.fitsHalf comparison = true) :
    comparison.holds (word.setWidth 32) (word'.setWidth 32) = comparison.holds word word' := by
  obtain ⟨_, ⟨_, below⟩, _⟩ := mem_iff.mp leftMember
  obtain ⟨_, ⟨_, below'⟩, _⟩ := mem_iff.mp rightMember
  unfold fitsHalf at leftFits rightFits
  cases signed : comparison.isSigned with
  | true =>
      simp only [signed, if_true, decide_eq_true_eq, BitVec.le_def] at leftFits rightFits
      rw [show (0x7fffffff : Word).toNat = 2 ^ 31 - 1 from rfl] at leftFits rightFits
      have small := @toInt_setWidth32 word (by omega)
      have small' := @toInt_setWidth32 word' (by omega)
      cases comparison <;> first
        | exact absurd signed (by decide)
        | simp only [Comparison.holds, BitVec.slt_eq_decide, BitVec.sle_eq_decide, small, small']
  | false =>
      simp only [signed, Bool.false_eq_true, if_false, decide_eq_true_eq, BitVec.le_def]
        at leftFits rightFits
      rw [show (0xffffffff : Word).toNat = 2 ^ 32 - 1 from rfl] at leftFits rightFits
      have small := toNat_setWidth32 word
      have small' := toNat_setWidth32 word'
      rw [Word.low32_of_short (by omega)] at small small'
      have same : (word.setWidth 32 == word'.setWidth 32) = (word == word') := by
        rw [Bool.eq_iff_iff, beq_iff_eq, beq_iff_eq, ← BitVec.toNat_inj, ← BitVec.toNat_inj,
          small, small']
      have shared :
          (word.setWidth 32 &&& word'.setWidth 32 == 0) = (word &&& word' == 0) := by
        rw [Bool.eq_iff_iff, beq_iff_eq, beq_iff_eq, ← BitVec.toNat_inj, ← BitVec.toNat_inj,
          BitVec.toNat_and, BitVec.toNat_and, small, small']
        rfl
      cases comparison <;> first
        | exact absurd signed (by decide)
        | simp only [Comparison.holds, BitVec.ult_eq_decide, BitVec.ule_eq_decide, bne, same,
            shared, small, small']

/-! ## What is left -/

/-- Where the word is the end of an interval, there are words left beyond it. -/
structure LeavesRoom (bounds : Bounds) (word : Word) : Prop where
  low : bounds.unsignedMin = word → word ≠ Word.allOnes
  high : bounds.unsignedMax = word → word ≠ 0
  signedLow : bounds.signedMin = word → word ≠ Word.signedGreatest
  signedHigh : bounds.signedMax = word → word ≠ Word.signedLeast

/-- With another member, no end that is the excluded word is the last of its range. -/
theorem leavesRoom_of_mem
    {bounds : Bounds} {word other : Word}
    (member : other ∈ bounds) (apart : other ≠ word) :
    bounds.LeavesRoom word := by
  obtain ⟨_, ⟨above, below⟩, signedAbove, signedBelow⟩ := mem_iff.mp member
  have apartNat : other.toNat ≠ word.toNat := fun same => apart (BitVec.eq_of_toNat_eq same)
  have apartInt : other.toInt ≠ word.toInt := fun same => apart (BitVec.eq_of_toInt_eq same)
  have bounded := other.isLt
  have floor := Word.toInt_signedLeast_le other
  have ceiling := Word.toInt_le_signedGreatest other
  constructor <;> rintro rfl last
  case low =>
    rw [last, show Word.allOnes.toNat = 2 ^ 64 - 1 from rfl] at above apartNat
    omega
  case high =>
    rw [last, show (0 : Word).toNat = 0 from rfl] at below apartNat
    omega
  case signedLow =>
    rw [last] at signedAbove apartInt
    omega
  case signedHigh =>
    rw [last] at signedBelow apartInt
    omega

/-- What is left of bounds without a word: each end that was the word has moved one step. -/
structure Excludes (bounds : Bounds) (word : Word) (narrowed : Bounds) : Prop where
  bits : narrowed.bits = bounds.bits
  low : narrowed.unsignedMin.toNat =
    bounds.unsignedMin.toNat + if bounds.unsignedMin = word then 1 else 0
  high : bounds.unsignedMax.toNat =
    narrowed.unsignedMax.toNat + if bounds.unsignedMax = word then 1 else 0
  signedLow : narrowed.signedMin.toInt =
    bounds.signedMin.toInt + if bounds.signedMin = word then 1 else 0
  signedHigh : bounds.signedMax.toInt =
    narrowed.signedMax.toInt + if bounds.signedMax = word then 1 else 0

/-- An end moves by one if it is the excluded word, and stays otherwise. -/
theorem moveEnd?_eq_some
    {step : Word → Word → Option Word} {word bound moved : Word}
    (moves : moveEnd? step word bound = some moved) :
    bound = word ∧ step bound 1 = some moved ∨ bound ≠ word ∧ moved = bound := by
  unfold moveEnd? at moves
  split at moves
  case isTrue reached => exact .inl ⟨reached, moves⟩
  case isFalse apart =>
    cases moves
    exact .inr ⟨apart, rfl⟩

theorem moveEnd?_of_room
    {step : Word → Word → Option Word} {word bound next : Word}
    (room : bound = word → step word 1 = some next) :
    ∃ moved, moveEnd? step word bound = some moved := by
  unfold moveEnd?
  split
  case isTrue reached => exact ⟨next, by rw [reached, room reached]⟩
  case isFalse => exact ⟨bound, rfl⟩

/-- What is left after excluding a word has the same bits, and its ends have moved by one at
most. -/
theorem excludes_of_exclude?
    {bounds narrowed : Bounds} {word : Word}
    (excluded : bounds.exclude? word = some (some narrowed)) :
    bounds.Excludes word narrowed := by
  unfold exclude? at excluded
  split at excluded
  case isTrue => cases excluded
  case isFalse =>
    simp only [Option.bind_eq_bind, Option.bind_eq_some_iff] at excluded
    obtain ⟨low, movesLow, high, movesHigh, signedLow, movesSignedLow, signedHigh, movesSignedHigh,
      made⟩ := excluded
    cases made
    have one : BitVec.toNat (1 : Word) = 1 := rfl
    have one' : BitVec.toInt (1 : Word) = 1 := rfl
    constructor
    case bits => rfl
    case low =>
      rcases moveEnd?_eq_some movesLow with ⟨reached, moved⟩ | ⟨apart, rfl⟩
      · rw [if_pos reached, Word.unsignedAdd_eq_some moved, one]
      · rw [if_neg apart, Nat.add_zero]
    case high =>
      rcases moveEnd?_eq_some movesHigh with ⟨reached, moved⟩ | ⟨apart, rfl⟩
      · obtain ⟨room, value⟩ := Word.unsignedSub_eq_some moved
        rw [one] at room value
        rw [if_pos reached]
        exact (Nat.sub_eq_iff_eq_add room).mp value.symm
      · rw [if_neg apart, Nat.add_zero]
    case signedLow =>
      rcases moveEnd?_eq_some movesSignedLow with ⟨reached, moved⟩ | ⟨apart, rfl⟩
      · rw [if_pos reached, Word.signedAdd_eq_some moved, one']
      · rw [if_neg apart, Int.add_zero]
    case signedHigh =>
      rcases moveEnd?_eq_some movesSignedHigh with ⟨reached, moved⟩ | ⟨apart, rfl⟩
      · rw [if_pos reached, Word.signedSub_eq_some moved, one', Int.sub_add_cancel]
      · rw [if_neg apart, Int.add_zero]

/-- Where there is room, no end leaves its range. -/
theorem exclude?_of_room
    {bounds : Bounds} {word : Word}
    (undecided : bounds.constant? ≠ some word) (room : bounds.LeavesRoom word) :
    ∃ narrowed, bounds.exclude? word = some (some narrowed) := by
  obtain ⟨low, movesLow⟩ := moveEnd?_of_room fun reached => Word.unsignedAdd?_one (room.low reached)
  obtain ⟨high, movesHigh⟩ :=
    moveEnd?_of_room fun reached => Word.unsignedSub?_one (room.high reached)
  obtain ⟨signedLow, movesSignedLow⟩ :=
    moveEnd?_of_room fun reached => Word.signedAdd?_one (room.signedLow reached)
  obtain ⟨signedHigh, movesSignedHigh⟩ :=
    moveEnd?_of_room fun reached => Word.signedSub?_one (room.signedHigh reached)
  rw [exclude?, if_neg undecided, movesLow, movesHigh, movesSignedLow, movesSignedHigh]
  exact ⟨_, rfl⟩

/-- An interval that has shrunk to the greatest word, which the bits do not show. -/
example : exclude? { unknown with unsignedMin := Word.allOnes } Word.allOnes = none := by
  decide

/-- Excluding another word keeps a member, and does not overflow as there is room for the member. -/
theorem exclude_mem
    {bounds : Bounds} {word other : Word}
    (member : word ∈ bounds) (different : word ≠ other) :
    ∃ narrowed, bounds.exclude? other = some (some narrowed) ∧ word ∈ narrowed := by
  have undecided : bounds.constant? ≠ some other :=
    fun known => different (eq_of_constant member known)
  obtain ⟨narrowed, excluded⟩ := exclude?_of_room undecided (leavesRoom_of_mem member different)
  refine ⟨narrowed, excluded, ?_⟩
  obtain ⟨bits, low, high, signedLow, signedHigh⟩ := excludes_of_exclude? excluded
  obtain ⟨inBits, ⟨above, below⟩, signedAbove, signedBelow⟩ := mem_iff.mp member
  have apart : word.toNat ≠ other.toNat := fun same => different (BitVec.eq_of_toNat_eq same)
  have apart' : word.toInt ≠ other.toInt := fun same => different (BitVec.eq_of_toInt_eq same)
  -- An end that moves was the excluded word, and the member is beyond it.
  refine mem_iff.mpr ⟨bits ▸ inBits, ⟨?_, ?_⟩, ?_, ?_⟩
  · split at low
    case isTrue reached => rw [reached] at above low; omega
    case isFalse => omega
  · split at high
    case isTrue reached => rw [reached] at below high; omega
    case isFalse => omega
  · split at signedLow
    case isTrue reached => rw [reached] at signedAbove signedLow; omega
    case isFalse => omega
  · split at signedHigh
    case isTrue reached => rw [reached] at signedBelow signedHigh; omega
    case isFalse => omega

theorem excludeConstant_mem
    {bounds other : Bounds} {word word' : Word}
    (member : word ∈ bounds) (otherMember : word' ∈ other) (different : word ≠ word') :
    ∃ narrowed, bounds.excludeConstant? other = some (some narrowed) ∧ word ∈ narrowed := by
  unfold excludeConstant?
  split
  case h_1 value known =>
    rw [← eq_of_constant otherMember known]
    exact exclude_mem member different
  case h_2 => exact ⟨bounds, rfl, member⟩

/-- A word within both bounds is within what they have in common. -/
theorem meet_mem
    {left right : Bounds} {word : Word}
    (leftMember : word ∈ left) (rightMember : word ∈ right) :
    ∃ common, left.meet? right = some common ∧ word ∈ common := by
  obtain ⟨bits, ⟨above, below⟩, signedAbove, signedBelow⟩ := mem_iff.mp leftMember
  obtain ⟨bits', ⟨above', below'⟩, signedAbove', signedBelow'⟩ := mem_iff.mp rightMember
  obtain ⟨common, met⟩ := Option.isSome_iff_exists.mp (KnownBits.intersect_isSome bits bits')
  have inCommon := KnownBits.intersect_mem bits bits' met
  obtain ⟨narrowed, settled, kept⟩ := @synchronize?_mem
    { bits := common
      unsignedMin := Word.unsignedMax left.unsignedMin right.unsignedMin
      unsignedMax := Word.unsignedMin left.unsignedMax right.unsignedMax
      signedMin := Word.signedMax left.signedMin right.signedMin
      signedMax := Word.signedMin left.signedMax right.signedMax } word <| by
    refine mem_iff.mpr ⟨inCommon, ⟨?_, ?_⟩, ?_, ?_⟩
    · rw [Word.toNat_unsignedMax]
      omega
    · rw [Word.toNat_unsignedMin]
      omega
    · rw [Word.toInt_signedMax]
      omega
    · rw [Word.toInt_signedMin]
      omega
  refine ⟨narrowed, ?_, kept⟩
  rw [meet?, met]
  exact settled

/-- Synchronising both operands loses neither word. -/
theorem synchronizeBoth_mem
    {left right : Bounds} {word word' : Word}
    (leftMember : word ∈ left) (rightMember : word' ∈ right) :
    ∃ narrowed, synchronizeBoth? left right = some narrowed ∧
      word ∈ narrowed.1 ∧ word' ∈ narrowed.2 := by
  obtain ⟨left', settled, kept⟩ := synchronize?_mem leftMember
  obtain ⟨right', settled', kept'⟩ := synchronize?_mem rightMember
  exact ⟨(left', right'), by rw [synchronizeBoth?, settled, settled']; rfl, kept, kept'⟩

/-- The stages that refined bounds went through when the operands differ. -/
theorem refineDiffer?_eq_some
    {left right : Bounds} {narrowed : Bounds × Bounds}
    (refined : left.refineDiffer? right = some (some narrowed)) :
    ∃ left', left.excludeConstant? right = some (some left') ∧
      ∃ right', right.excludeConstant? left' = some (some right') ∧
        synchronizeBoth? left' right' = some narrowed := by
  obtain ⟨left?, excluded, refined⟩ := Option.bind_eq_some_iff.mp refined
  cases left? with
  | none => cases refined
  | some left' =>
      obtain ⟨right?, excluded', refined⟩ := Option.bind_eq_some_iff.mp refined
      cases right? with
      | none => cases refined
      | some right' => exact ⟨left', excluded, right', excluded', Option.some.inj refined⟩

/-- Words that differ stay within the refined bounds, and the refinement does not overflow. -/
theorem refineDiffer_mem
    {left right : Bounds} {word word' : Word}
    (leftMember : word ∈ left) (rightMember : word' ∈ right) (different : word ≠ word') :
    ∃ narrowed, left.refineDiffer? right = some (some narrowed) ∧
      word ∈ narrowed.1 ∧ word' ∈ narrowed.2 := by
  obtain ⟨left', settled, kept⟩ := excludeConstant_mem leftMember rightMember different
  obtain ⟨right', settled', kept'⟩ := excludeConstant_mem rightMember kept different.symm
  obtain ⟨narrowed, both, members⟩ := synchronizeBoth_mem kept kept'
  refine ⟨narrowed, ?_, members⟩
  simp only [refineDiffer?, settled, settled', onward, Option.bind_eq_bind, Option.bind_some, both]

/-- A greater word and a lesser one stay within the refined bounds. -/
theorem refineAbove_mem
    {left right : Bounds} {word word' : Word}
    (leftMember : word ∈ left) (rightMember : word' ∈ right) (order : word'.toNat < word.toNat) :
    ∃ narrowed, left.refineAbove? right = some narrowed ∧
      word ∈ narrowed.1 ∧ word' ∈ narrowed.2 := by
  obtain ⟨bits, ⟨above, below⟩, signed⟩ := mem_iff.mp leftMember
  obtain ⟨bits', ⟨above', below'⟩, signed'⟩ := mem_iff.mp rightMember
  have bounded := word.isLt
  have floor : right.unsignedMin.unsignedAdd? 1 = some (right.unsignedMin + 1) := by
    rw [Word.unsignedAdd?, if_neg]
    simp only [BitVec.uaddOverflow, decide_eq_true_eq, show BitVec.toNat (1 : Word) = 1 from rfl]
    omega
  have ceiling : left.unsignedMax.unsignedSub? 1 = some (left.unsignedMax - 1) := by
    rw [Word.unsignedSub?, if_neg]
    rw [BitVec.lt_def, show BitVec.toNat (1 : Word) = 1 from rfl]
    omega
  have floorNat := Word.unsignedAdd_eq_some floor
  have ceilingNat := (Word.unsignedSub_eq_some ceiling).2
  rw [show BitVec.toNat (1 : Word) = 1 from rfl] at floorNat ceilingNat
  obtain ⟨narrowed, both, members⟩ := @synchronizeBoth_mem
    { left with
      unsignedMin := Word.unsignedMax left.unsignedMin (right.unsignedMin + 1) }
    { right with
      unsignedMax := Word.unsignedMin right.unsignedMax (left.unsignedMax - 1) } word word'
    (mem_iff.mpr ⟨bits, ⟨by rw [Word.toNat_unsignedMax]; omega, below⟩, signed⟩)
    (mem_iff.mpr ⟨bits', ⟨above', by rw [Word.toNat_unsignedMin]; omega⟩, signed'⟩)
  refine ⟨narrowed, ?_, members⟩
  simp only [refineAbove?, floor, ceiling, Option.bind_eq_bind, Option.bind_some, both]

theorem refineAtLeast_mem
    {left right : Bounds} {word word' : Word}
    (leftMember : word ∈ left) (rightMember : word' ∈ right) (order : word'.toNat ≤ word.toNat) :
    ∃ narrowed, left.refineAtLeast? right = some narrowed ∧
      word ∈ narrowed.1 ∧ word' ∈ narrowed.2 := by
  obtain ⟨bits, ⟨above, below⟩, signed⟩ := mem_iff.mp leftMember
  obtain ⟨bits', ⟨above', below'⟩, signed'⟩ := mem_iff.mp rightMember
  exact synchronizeBoth_mem
    (mem_iff.mpr ⟨bits, ⟨by rw [Word.toNat_unsignedMax]; omega, below⟩, signed⟩)
    (mem_iff.mpr ⟨bits', ⟨above', by rw [Word.toNat_unsignedMin]; omega⟩, signed'⟩)

theorem refineSignedAbove_mem
    {left right : Bounds} {word word' : Word}
    (leftMember : word ∈ left) (rightMember : word' ∈ right) (order : word'.toInt < word.toInt) :
    ∃ narrowed, left.refineSignedAbove? right = some narrowed ∧
      word ∈ narrowed.1 ∧ word' ∈ narrowed.2 := by
  obtain ⟨bits, unsigned, above, below⟩ := mem_iff.mp leftMember
  obtain ⟨bits', unsigned', above', below'⟩ := mem_iff.mp rightMember
  have wordRange := Word.toInt_cases word
  have wordRange' := Word.toInt_cases word'
  have one : BitVec.toInt (1 : Word) = 1 := by decide
  have minRange := Word.toInt_cases right.signedMin
  have maxRange := Word.toInt_cases left.signedMax
  have floor : right.signedMin.signedAdd? 1 = some (right.signedMin + 1) := by
    rw [Word.signedAdd?, if_neg]
    simp only [BitVec.saddOverflow, Bool.or_eq_true, decide_eq_true_eq, one]
    omega
  have ceiling : left.signedMax.signedSub? 1 = some (left.signedMax - 1) := by
    rw [Word.signedSub?, if_neg]
    simp only [BitVec.ssubOverflow, Bool.or_eq_true, decide_eq_true_eq, one]
    omega
  have floorInt := Word.signedAdd_eq_some floor
  have ceilingInt := Word.signedSub_eq_some ceiling
  rw [one] at floorInt ceilingInt
  obtain ⟨narrowed, both, members⟩ := @synchronizeBoth_mem
    { left with
      signedMin := Word.signedMax left.signedMin (right.signedMin + 1) }
    { right with
      signedMax := Word.signedMin right.signedMax (left.signedMax - 1) } word word'
    (mem_iff.mpr ⟨bits, unsigned, by rw [Word.toInt_signedMax]; omega, below⟩)
    (mem_iff.mpr ⟨bits', unsigned', above', by rw [Word.toInt_signedMin]; omega⟩)
  refine ⟨narrowed, ?_, members⟩
  simp only [refineSignedAbove?, floor, ceiling, Option.bind_eq_bind, Option.bind_some, both]

theorem refineSignedAtLeast_mem
    {left right : Bounds} {word word' : Word}
    (leftMember : word ∈ left) (rightMember : word' ∈ right) (order : word'.toInt ≤ word.toInt) :
    ∃ narrowed, left.refineSignedAtLeast? right = some narrowed ∧
      word ∈ narrowed.1 ∧ word' ∈ narrowed.2 := by
  obtain ⟨bits, unsigned, above, below⟩ := mem_iff.mp leftMember
  obtain ⟨bits', unsigned', above', below'⟩ := mem_iff.mp rightMember
  exact synchronizeBoth_mem
    (mem_iff.mpr ⟨bits, unsigned, by rw [Word.toInt_signedMax]; omega, below⟩)
    (mem_iff.mpr ⟨bits', unsigned', above', by rw [Word.toInt_signedMin]; omega⟩)

/-- A power of two has one bit. -/
theorem single_bit
    {word : Word} (power : word.isPowerOfTwo = true) :
    ∃ position, ∀ index, word.getLsbD index = true ↔ position = index := by
  simp only [Word.isPowerOfTwo, Bool.and_eq_true, bne_iff_ne, beq_iff_eq] at power
  obtain ⟨nonzero, apart⟩ := power
  have positive : word.toNat ≠ 0 := fun zero => nonzero (BitVec.eq_of_toNat_eq zero)
  have previous : (word - 1).toNat = word.toNat - 1 :=
    BitVec.toNat_sub_of_le (by rw [BitVec.le_def]; exact Nat.pos_of_ne_zero positive)
  have apartNat := congrArg BitVec.toNat apart
  rw [BitVec.toNat_and, previous] at apartNat
  obtain ⟨position, value⟩ :=
    Nat.ne_zero_and_sub_one_eq_zero_iff_isPowerOfTwo.mp ⟨positive, apartNat⟩
  refine ⟨position, fun index => ?_⟩
  rw [← BitVec.testBit_toNat, value, Nat.testBit_two_pow, decide_eq_true_eq]

/-- Words that share a bit stay within the refined bounds; the bit is known if there is only one to
share. -/
theorem refineSharesBit_mem
    {left right : Bounds} {word word' : Word}
    (leftMember : word ∈ left) (rightMember : word' ∈ right) (shared : word &&& word' ≠ 0) :
    ∃ narrowed, left.refineSharesBit? right = some narrowed ∧
      word ∈ narrowed.1 ∧ word' ∈ narrowed.2 := by
  unfold refineSharesBit?
  split
  case h_1 => exact synchronizeBoth_mem leftMember rightMember
  case h_2 value known =>
    have tested := eq_of_constant rightMember known
    subst tested
    split
    case isTrue power =>
      obtain ⟨position, single⟩ := single_bit power
      have set : word.getLsbD position = true := by
        cases bit : word.getLsbD position with
        | true => rfl
        | false =>
            refine absurd (BitVec.eq_of_getLsbD_eq fun index _ => ?_) shared
            rw [BitVec.getLsbD_and]
            cases tested : word'.getLsbD index with
            | false => simp
            | true => simp [← (single index).mp tested, bit]
      have agrees : word ∈ KnownBits.masked word' (~~~word') := by
        rw [KnownBits.mem_masked]
        intro index inside clear
        simp only [BitVec.getLsbD_not, inside, decide_true, Bool.true_and,
          Bool.not_eq_false'] at clear
        rw [clear, ← (single index).mp clear, set]
      obtain ⟨common, met⟩ := Option.isSome_iff_exists.mp
        (KnownBits.intersect_isSome leftMember.1 agrees)
      have inCommon := KnownBits.intersect_mem leftMember.1 agrees met
      rw [met]
      exact @synchronizeBoth_mem { left with bits := common } right word word'
        ⟨inCommon, leftMember.2⟩ rightMember
    case isFalse => exact synchronizeBoth_mem leftMember rightMember

/-- Words that share no bit stay within the refined bounds, where the bits of a constant become
zero. -/
theorem refineSharesNone_mem
    {left right : Bounds} {word word' : Word}
    (leftMember : word ∈ left) (rightMember : word' ∈ right) (apart : word &&& word' = 0) :
    ∃ narrowed, left.refineSharesNone? right = some narrowed ∧
      word ∈ narrowed.1 ∧ word' ∈ narrowed.2 := by
  unfold refineSharesNone?
  split
  case h_1 => exact synchronizeBoth_mem leftMember rightMember
  case h_2 value known =>
    have tested := eq_of_constant rightMember known
    subst tested
    have agrees : word ∈ KnownBits.masked 0 (~~~word') := by
      rw [KnownBits.mem_masked]
      intro index inside clear
      have bit := congrArg (fun any : Word => any.getLsbD index) apart
      simp only [BitVec.getLsbD_not, inside, decide_true, Bool.true_and,
        Bool.not_eq_false'] at clear
      simpa only [BitVec.getLsbD_and, clear, Bool.and_true] using bit
    obtain ⟨common, met⟩ := Option.isSome_iff_exists.mp
      (KnownBits.intersect_isSome leftMember.1 agrees)
    have inCommon := KnownBits.intersect_mem leftMember.1 agrees met
    rw [met]
    exact @synchronizeBoth_mem { left with bits := common } right word word'
      ⟨inCommon, leftMember.2⟩ rightMember

/-- What is known of exchanged operands, put back in order. -/
theorem swapped_mem
    {refined? : Option (Bounds × Bounds)} {word word' : Word}
    (refined : ∃ narrowed, refined? = some narrowed ∧ word' ∈ narrowed.1 ∧ word ∈ narrowed.2) :
    ∃ narrowed, refined?.map Prod.swap = some narrowed ∧ word ∈ narrowed.1 ∧
      word' ∈ narrowed.2 := by
  obtain ⟨narrowed, settled, members⟩ := refined
  exact ⟨narrowed.swap, by rw [settled]; rfl, members.symm⟩

/-- A refinement that excludes no word does not fail. -/
theorem unfailing_mem
    {refined? : Option (Bounds × Bounds)} {word word' : Word}
    (refined : ∃ narrowed, refined? = some narrowed ∧ word ∈ narrowed.1 ∧ word' ∈ narrowed.2) :
    ∃ narrowed, some refined? = some (some narrowed) ∧ word ∈ narrowed.1 ∧ word' ∈ narrowed.2 := by
  obtain ⟨narrowed, settled, members⟩ := refined
  exact ⟨narrowed, congrArg some settled, members⟩

/-- Members between which the comparison holds are left when the bounds are refined by it, which
does not overflow then. -/
theorem refine_mem
    (comparison : Comparison) {left right : Bounds} {word word' : Word}
    (leftMember : word ∈ left) (rightMember : word' ∈ right)
    (satisfied : comparison.holds word word' = true) :
    ∃ narrowed, refine? comparison left right = some (some narrowed) ∧
      word ∈ narrowed.1 ∧ word' ∈ narrowed.2 := by
  cases comparison with
  | equal =>
      have same : word = word' := by simpa [Comparison.holds] using satisfied
      subst same
      obtain ⟨common, met, kept⟩ := meet_mem leftMember rightMember
      exact ⟨(common, common), by rw [refine?, met]; rfl, kept, kept⟩
  | differ =>
      exact refineDiffer_mem leftMember rightMember (by simpa [Comparison.holds] using satisfied)
  | above =>
      exact unfailing_mem (refineAbove_mem leftMember rightMember
        (by simpa [Comparison.holds, BitVec.ult_eq_decide] using satisfied))
  | atLeast =>
      exact unfailing_mem (refineAtLeast_mem leftMember rightMember
        (by simpa [Comparison.holds, BitVec.ule_eq_decide] using satisfied))
  | below =>
      exact unfailing_mem (swapped_mem (refineAbove_mem rightMember leftMember
        (by simpa [Comparison.holds, BitVec.ult_eq_decide] using satisfied)))
  | atMost =>
      exact unfailing_mem (swapped_mem (refineAtLeast_mem rightMember leftMember
        (by simpa [Comparison.holds, BitVec.ule_eq_decide] using satisfied)))
  | signedAbove =>
      exact unfailing_mem (refineSignedAbove_mem leftMember rightMember
        (by simpa [Comparison.holds, BitVec.slt_eq_decide] using satisfied))
  | signedAtLeast =>
      exact unfailing_mem (refineSignedAtLeast_mem leftMember rightMember
        (by simpa [Comparison.holds, BitVec.sle_eq_decide] using satisfied))
  | signedBelow =>
      exact unfailing_mem (swapped_mem (refineSignedAbove_mem rightMember leftMember
        (by simpa [Comparison.holds, BitVec.slt_eq_decide] using satisfied)))
  | signedAtMost =>
      exact unfailing_mem (swapped_mem (refineSignedAtLeast_mem rightMember leftMember
        (by simpa [Comparison.holds, BitVec.sle_eq_decide] using satisfied)))
  | sharesBit =>
      exact unfailing_mem (refineSharesBit_mem leftMember rightMember
        (by simpa [Comparison.holds] using satisfied))
  | sharesNone =>
      exact unfailing_mem (refineSharesNone_mem leftMember rightMember
        (by simpa [Comparison.holds] using satisfied))

end Bounds

end PacketFilter
