import PacketFilter.Bounds.Arithmetic
import PacketFilter.Proofs.Narrowing

/-!
# Guarded arithmetic on bounds

The operations on bounds compute with words whose sums, differences and
products wrap, whose shifts lose bits, and whose quotients by zero are zero.
This module gives each operation a guarded form, which does the same work but
refuses, with `none`, as soon as one of these would happen: a sum, difference
or product that leaves its range, a shift by the width of a word or more, an
end of an interval that loses a bit when moved left, a quotient by zero.  What
an operation tests for itself, and what it means to wrap, stays as it is: the
sums of interval ends that it checks, and the words of a `KnownBits`.

A guarded operation is shown to give what the unguarded one gives.  For many
that holds of all bounds; where it rests on the intervals not being turned
round, or on a comparison made before, the lemma says so.  The refinements are
unguarded only in that they synchronise: `Bounds.exclude?` refuses by itself.
-/

namespace PacketFilter

namespace Word

variable {word left right : Word} {count : Nat}

/-- The product, when it does not leave the unsigned range. -/
def unsignedMul? (left right : Word) : Option Word :=
  if left.umulOverflow right then none else some (left * right)

/-- The quotient by anything but zero. -/
def quotient? (left right : Word) : Option Word :=
  if right = 0 then none else some (left.udiv right)

/-- The word moved left by less than its width. -/
def shiftLeft? (word : Word) (count : Nat) : Option Word :=
  if count < 64 then some (word <<< count) else none

/-- The word moved left by less than its width, when it loses no bit. -/
def exactShiftLeft? (word : Word) (count : Nat) : Option Word :=
  if count < 64 ∧ word.toNat * 2 ^ count < 2 ^ 64 then some (word <<< count) else none

/-- The word moved right by less than its width. -/
def shiftRight? (word : Word) (count : Nat) : Option Word :=
  if count < 64 then some (word >>> count) else none

/-- The word moved right by less than its width, repeating the sign bit. -/
def signedShiftRight? (word : Word) (count : Nat) : Option Word :=
  if count < 64 then some (word.sshiftRight count) else none

/-- The width of a word less its leading zeros, when there are no more of them. -/
def bitLength? (word : Word) : Option Nat :=
  if word.clz.toNat ≤ 64 then some (64 - word.clz.toNat) else none

/-- The power of two at `count`, less one. -/
def lowMask? (count : Nat) : Option Word := do
  let power ← exactShiftLeft? 1 count
  power.unsignedSub? 1

theorem unsignedMul?_of_halves
    (leftShort : left ≤ 0xffffffff) (rightShort : right ≤ 0xffffffff) :
    left.unsignedMul? right = some (left * right) := by
  rw [BitVec.le_def] at leftShort rightShort
  have product : left.toNat * right.toNat ≤ 0xffffffff * 0xffffffff :=
    Nat.mul_le_mul leftShort rightShort
  have fits : left.umulOverflow right = false := by
    simp only [BitVec.umulOverflow, decide_eq_false_iff_not]
    omega
  rw [unsignedMul?, fits, if_neg Bool.false_ne_true]

theorem bitLength?_eq (word : Word) : word.bitLength? = some word.bitLength := by
  have few : word.clz.toNat ≤ 64 := BitVec.clz_le
  rw [bitLength?, if_pos few, Option.some.injEq, bitLength]
  by_cases zero : word = 0
  case pos =>
    subst zero
    decide
  case neg =>
    have fewer : word.clz.toNat < 64 := BitVec.clz_lt_iff_ne_zero.mpr zero
    have nonzero : word.toNat ≠ 0 := fun none => zero (BitVec.eq_of_toNat_eq none)
    have top : word.toNat.log2 = 63 - word.clz.toNat := by
      rw [Nat.log2_eq_iff nonzero]
      refine ⟨BitVec.two_pow_sub_clz_le_toNat_of_ne_zero (by decide) zero, ?_⟩
      rw [show 63 - word.clz.toNat + 1 = 64 - word.clz.toNat by omega]
      exact BitVec.toNat_lt_two_pow_sub_clz
    rw [if_neg zero, top]
    omega

theorem exactShiftLeft?_of_short
    {width : Nat}
    (below : count < 64) (small : word.toNat < 2 ^ width) (short : count + width ≤ 64) :
    word.exactShiftLeft? count = some (word <<< count) := by
  have kept := (word <<< count).isLt
  rw [Bounds.toNat_shiftLeft_of_short small short] at kept
  exact if_pos ⟨below, kept⟩

theorem lowMask?_eq (short : count < 64) : lowMask? count = some (lowMask count) := by
  have shifted : exactShiftLeft? 1 count = some ((1 : Word) <<< count) :=
    @exactShiftLeft?_of_short 1 count 1 short (by decide) (by omega)
  have power : ((1 : Word) <<< count).toNat = 2 ^ count := by
    rw [@Bounds.toNat_shiftLeft_of_short 1 count 1 (by decide) (by omega)]
    exact Nat.one_mul _
  have positive : (1 : Word) ≤ (1 : Word) <<< count := by
    rw [BitVec.le_def, power]
    exact Nat.two_pow_pos count
  rw [lowMask?, shifted, Option.bind_eq_bind, Option.bind_some, unsignedSub?_of_le positive,
    Option.some.injEq]
  apply BitVec.eq_of_toNat_eq
  rw [BitVec.toNat_sub_of_le positive, power, toNat_lowMask (Nat.le_of_lt short)]
  rfl

end Word

namespace KnownBits

namespace Guarded

/-- The mask of the bits that differ is made once these are fewer than 64. -/
def ofInterval (low high : Word) : Option KnownBits :=
  if high < low then
    some unknown
  else do
    let width ← (low ^^^ high).bitLength?
    if 64 ≤ width then
      some unknown
    else
      let mask ← Word.lowMask? width
      some (masked low mask)

@[simp]
theorem ofInterval_eq (low high : Word) :
    ofInterval low high = some (KnownBits.ofInterval low high) := by
  unfold ofInterval KnownBits.ofInterval
  split
  case isTrue => rfl
  case isFalse =>
    simp only [Word.bitLength?_eq, Option.bind_eq_bind, Option.bind_some]
    split
    case isTrue => rfl
    case isFalse wide => rw [Word.lowMask?_eq (Nat.lt_of_not_le wide), Option.bind_some]

/-- The value and the mask, both moved left by no more than 63. -/
def shiftLeft (bits : KnownBits) (count : Nat) : Option KnownBits := do
  let value ← bits.value.shiftLeft? (min count 63)
  let mask ← bits.mask.shiftLeft? (min count 63)
  some ⟨value, mask⟩

/-- A count is less than the width once it counts as no more than 63. -/
theorem clamped_lt (count : Nat) : min count 63 < 64 :=
  Nat.lt_succ_of_le (Nat.min_le_right count 63)

@[simp]
theorem shiftLeft_eq (bits : KnownBits) (count : Nat) :
    shiftLeft bits count = some (bits.shiftLeft count) := by
  simp only [shiftLeft, Word.shiftLeft?, if_pos (clamped_lt count)]
  rfl

/-- The value and the mask, both moved right by no more than 63. -/
def shiftRight (bits : KnownBits) (count : Nat) : Option KnownBits := do
  let value ← bits.value.shiftRight? (min count 63)
  let mask ← bits.mask.shiftRight? (min count 63)
  some ⟨value, mask⟩

@[simp]
theorem shiftRight_eq (bits : KnownBits) (count : Nat) :
    shiftRight bits count = some (bits.shiftRight count) := by
  simp only [shiftRight, Word.shiftRight?, if_pos (clamped_lt count)]
  rfl

/-- The value and the mask, each repeating its own sign bit. -/
def signedShiftRight (bits : KnownBits) (count : Nat) : Option KnownBits := do
  let value ← bits.value.signedShiftRight? (min count 63)
  let mask ← bits.mask.signedShiftRight? (min count 63)
  some ⟨value, mask⟩

@[simp]
theorem signedShiftRight_eq (bits : KnownBits) (count : Nat) :
    signedShiftRight bits count = some (bits.signedShiftRight count) := by
  simp only [signedShiftRight, Word.signedShiftRight?, if_pos (clamped_lt count)]
  rfl

/-- The shifts by one go with the recursion; the sums are meant to wrap. -/
def mulUncertainty (multiplier multiplicand sum : KnownBits) : Nat → Option KnownBits
  | 0 => some sum
  | remaining + 1 =>
    if multiplier.value = 0 ∧ multiplier.mask = 0 then
      some sum
    else do
      let sum :=
        if multiplier.value &&& 1 ≠ 0 then
          sum.add (masked 0 multiplicand.mask)
        else if multiplier.mask &&& 1 ≠ 0 then
          sum.add (masked 0 (multiplicand.value ||| multiplicand.mask))
        else
          sum
      let multiplier ← shiftRight multiplier 1
      let multiplicand ← shiftLeft multiplicand 1
      mulUncertainty multiplier multiplicand sum remaining

theorem mulUncertainty_eq (multiplier multiplicand sum : KnownBits) (remaining : Nat) :
    mulUncertainty multiplier multiplicand sum remaining =
      some (KnownBits.mulUncertainty multiplier multiplicand sum remaining) := by
  induction remaining generalizing multiplier multiplicand sum with
  | zero => rfl
  | succ remaining rest =>
    rw [mulUncertainty, KnownBits.mulUncertainty]
    split
    case isTrue => rfl
    case isFalse =>
      simp only [shiftRight_eq, shiftLeft_eq, Option.bind_eq_bind, Option.bind_some, rest]

/-- The product of the known parts is meant to wrap, and so is the uncertainty added to it. -/
def mul (left right : KnownBits) : Option KnownBits :=
  if left.isConstant && right.isConstant then
    some (constant (left.value * right.value))
  else do
    let uncertainty ← mulUncertainty left right (constant 0) 64
    some ((constant (left.value * right.value)).add uncertainty)

@[simp]
theorem mul_eq (left right : KnownBits) : mul left right = some (left.mul right) := by
  unfold mul KnownBits.mul
  split
  case isTrue => rfl
  case isFalse => rw [mulUncertainty_eq, Option.bind_eq_bind, Option.bind_some]

/-- The mask is made only for less than eight bytes. -/
def truncate (bits : KnownBits) (size : Nat) : Option KnownBits :=
  if 8 ≤ size then
    some bits
  else do
    let mask ← Word.lowMask? (size * 8)
    some ⟨bits.value &&& mask, bits.mask &&& mask⟩

@[simp]
theorem truncate_eq (bits : KnownBits) (size : Nat) :
    truncate bits size = some (bits.truncate size) := by
  unfold truncate KnownBits.truncate
  split
  case isTrue => rfl
  case isFalse short =>
    rw [Word.lowMask?_eq (by omega)]
    rfl

end Guarded

end KnownBits

namespace Bounds

variable {bounds left right : Bounds} {word : Word}

namespace Guarded

/-! ## Synchronisation -/

/-- Of the three steps, only the common bits of an interval take shifts. -/
def synchronize (bounds : Bounds) : Option (Except Bounds Bounds) :=
  let byBits := bounds.narrowByBits
  if ¬ byBits.Sane then
    some (.error byBits)
  else
    let bySigns := byBits.narrowAcrossSigns
    if ¬ bySigns.Sane then
      some (.error bySigns)
    else do
      let interval ← KnownBits.Guarded.ofInterval bySigns.unsignedMin bySigns.unsignedMax
      match bySigns.bits.intersect? interval with
      | none => some (.error bySigns)
      | some bits =>
        let narrowed := { bySigns with bits := bits }.narrowByBits
        some (if narrowed.Sane then .ok narrowed else .error narrowed)

/-- Bounds are settled without an overflow. -/
@[simp]
theorem synchronize_eq (bounds : Bounds) :
    synchronize bounds = some bounds.synchronize := by
  unfold synchronize Bounds.synchronize
  dsimp only
  split
  case isTrue => rfl
  case isFalse =>
    split
    case isTrue => rfl
    case isFalse =>
      rw [KnownBits.Guarded.ofInterval_eq, Option.bind_eq_bind, Option.bind_some]
      cases KnownBits.intersect? _ _ <;> rfl

/-- The guarded synchronisation, with a contradiction as a result in its own right. -/
def synchronize? (bounds : Bounds) : Option (Option Bounds) := do
  let result ← synchronize bounds
  some result.toOption

@[simp]
theorem synchronize?_eq (bounds : Bounds) :
    synchronize? bounds = some bounds.synchronize? := by
  simp [synchronize?, Bounds.synchronize?]

/-- Nothing is known after a contradiction. -/
def synchronized (bounds : Bounds) : Option Bounds := do
  let result ← synchronize? bounds
  some (result.getD unknown)

@[simp]
theorem synchronized_eq (bounds : Bounds) :
    synchronized bounds = some bounds.synchronized := by
  simp [synchronized, Bounds.synchronized]

/-- The ends are given; only their common bits are computed. -/
def ofInterval (low high : Word) : Option Bounds := do
  let bits ← KnownBits.Guarded.ofInterval low high
  synchronized { unknown with bits := bits, unsignedMin := low, unsignedMax := high }

@[simp]
theorem ofInterval_eq (low high : Word) :
    ofInterval low high = some (Bounds.ofInterval low high) := by
  simp [ofInterval, Bounds.ofInterval]

/-- The greatest number of a width is computed for less than eight bytes. -/
def ofWidth (size : Nat) : Option Bounds :=
  if 8 ≤ size then
    some unknown
  else do
    let high ← Word.lowMask? (size * 8)
    ofInterval 0 high

@[simp]
theorem ofWidth_eq (size : Nat) : ofWidth size = some (Bounds.ofWidth size) := by
  unfold ofWidth Bounds.ofWidth
  split
  case isTrue => rfl
  case isFalse short =>
    rw [Word.lowMask?_eq (by omega), Option.bind_eq_bind, Option.bind_some, ofInterval_eq]

/-- Whatever the bits are, their extremes are the ends. -/
def ofBits (bits : KnownBits) : Option Bounds :=
  synchronized { unknown with bits := bits }

@[simp]
theorem ofBits_eq (bits : KnownBits) : ofBits bits = some (Bounds.ofBits bits) := by
  simp [ofBits, Bounds.ofBits]

/-! ## Arithmetic -/

/-- The sums of the signed ends are tested before they are used, those of the unsigned ends as
well. -/
def add (left right : Bounds) : Option Bounds := do
  let start ← ofBits (left.bits.add right.bits)
  let signed :=
    match left.signedMin.signedAdd? right.signedMin, left.signedMax.signedAdd? right.signedMax with
    | some low, some high => start.withSigned low high
    | _, _ => start.withAnySigned
  let unsigned :=
    match left.unsignedMin.unsignedAdd? right.unsignedMin,
        left.unsignedMax.unsignedAdd? right.unsignedMax with
    | some low, some high => signed.withUnsigned low high
    | _, _ => signed.withAnyUnsigned
  synchronized unsigned

theorem add_eq (left right : Bounds) : add left right = some (left.add right) := by
  simp only [add, ofBits_eq, Option.bind_eq_bind, Option.bind_some, synchronized_eq]
  rfl

/-- The differences of the signed ends are tested; those of the unsigned ends follow a
comparison. -/
def sub (left right : Bounds) : Option Bounds := do
  let start ← ofBits (left.bits.sub right.bits)
  let signed :=
    match left.signedMin.signedSub? right.signedMax, left.signedMax.signedSub? right.signedMin with
    | some low, some high => start.withSigned low high
    | _, _ => start.withAnySigned
  if left.unsignedMin < right.unsignedMax then
    synchronized signed.withAnyUnsigned
  else
    let low ← left.unsignedMin.unsignedSub? right.unsignedMax
    let high ← left.unsignedMax.unsignedSub? right.unsignedMin
    synchronized (signed.withUnsigned low high)

/-- The difference of bounds overflows nowhere, if the ends of both are in order. -/
theorem sub_eq (leftSane : left.Sane) (rightSane : right.Sane) :
    sub left right = some (left.sub right) := by
  simp only [sub, ofBits_eq, Option.bind_eq_bind, Option.bind_some, synchronized_eq, Bounds.sub]
  split
  case isTrue => rfl
  case isFalse order =>
    have lowOrder : right.unsignedMax ≤ left.unsignedMin := BitVec.not_lt.mp order
    have highOrder : right.unsignedMin ≤ left.unsignedMax :=
      BitVec.le_trans rightSane.1 (BitVec.le_trans lowOrder leftSane.1)
    rw [Word.unsignedSub?_of_le lowOrder, Word.unsignedSub?_of_le highOrder]
    rfl

/-- The unsigned ends are multiplied only where both operands fit into 32 bits. -/
def mul (left right : Bounds) : Option Bounds := do
  let bits ← KnownBits.Guarded.mul left.bits right.bits
  let start ← ofBits bits
  if left.unsignedMax ≤ 0xffffffff ∧ right.unsignedMax ≤ 0xffffffff then
    let low ← left.unsignedMin.unsignedMul? right.unsignedMin
    let high ← left.unsignedMax.unsignedMul? right.unsignedMax
    synchronized (start.withUnsigned low high).withAnySigned
  else
    some start

/-- The product of bounds overflows nowhere, if the ends of both are in order. -/
theorem mul_eq (leftSane : left.Sane) (rightSane : right.Sane) :
    mul left right = some (left.mul right) := by
  simp only [mul, KnownBits.Guarded.mul_eq, ofBits_eq, Option.bind_eq_bind, Option.bind_some,
    synchronized_eq, Bounds.mul]
  split
  case isTrue short =>
    rw [Word.unsignedMul?_of_halves (BitVec.le_trans leftSane.1 short.1)
        (BitVec.le_trans rightSane.1 short.2),
      Word.unsignedMul?_of_halves short.1 short.2]
    rfl
  case isFalse => rfl

/-- The divisors are the unsigned ends of the right operand, once zero is ruled out. -/
def div (left right : Bounds) : Option Bounds :=
  if right.constant? = some 0 then
    some (constant 0)
  else if right.unsignedMin = 0 then
    ofInterval 0 left.unsignedMax
  else do
    let low ← left.unsignedMin.quotient? right.unsignedMax
    let high ← left.unsignedMax.quotient? right.unsignedMin
    ofInterval low high

theorem div_eq (left : Bounds) (rightSane : right.Sane) :
    div left right = some (left.div right) := by
  simp only [div, ofInterval_eq, Bounds.div]
  split
  case isTrue => rfl
  case isFalse =>
    split
    case isTrue => rfl
    case isFalse positive =>
      have positive' : right.unsignedMax ≠ 0 := by
        intro zero
        exact positive (Word.eq_zero_of_le (zero ▸ rightSane.1))
      rw [Word.quotient?, Word.quotient?, if_neg positive, if_neg positive']
      rfl

/-- One less than the greatest divisor is computed where the least is not zero. -/
def mod (left right : Bounds) : Option Bounds :=
  if right.constant? = some 0 then
    some left
  else if 0 < right.unsignedMin ∧ left.unsignedMax < right.unsignedMin then
    some left
  else if right.unsignedMin = 0 then
    ofInterval 0 left.unsignedMax
  else do
    let most ← right.unsignedMax.unsignedSub? 1
    ofInterval 0 (Word.unsignedMin left.unsignedMax most)

theorem mod_eq (left : Bounds) (rightSane : right.Sane) :
    mod left right = some (left.mod right) := by
  simp only [mod, ofInterval_eq, Bounds.mod]
  split
  case isTrue => rfl
  case isFalse =>
    split
    case isTrue => rfl
    case isFalse =>
      split
      case isTrue => rfl
      case isFalse positive =>
        rw [Word.unsignedSub?_one fun zero => positive (Word.eq_zero_of_le (zero ▸ rightSane.1))]
        rfl

/-- There is nothing to guard but the synchronisations. -/
def and (left right : Bounds) : Option Bounds := do
  let bits := left.bits.and right.bits
  let start ← ofBits bits
  synchronized
    (start.withUnsigned bits.unsignedMin
      (Word.unsignedMin (Word.unsignedMin left.unsignedMax right.unsignedMax)
        bits.unsignedMax)).withAnySigned

theorem and_eq (left right : Bounds) : and left right = some (left.and right) := by
  simp only [and, ofBits_eq, Option.bind_eq_bind, Option.bind_some, synchronized_eq]
  rfl

/-- There is nothing to guard but the synchronisations. -/
def or (left right : Bounds) : Option Bounds := do
  let bits := left.bits.or right.bits
  let start ← ofBits bits
  synchronized
    (start.withUnsigned
      (Word.unsignedMax (Word.unsignedMax left.unsignedMin right.unsignedMin) bits.unsignedMin)
      bits.unsignedMax).withAnySigned

theorem or_eq (left right : Bounds) : or left right = some (left.or right) := by
  simp only [or, ofBits_eq, Option.bind_eq_bind, Option.bind_some, synchronized_eq]
  rfl

/-- The ends are moved only by counts below 64, and only where the greatest loses no bit. -/
def shiftLeft (left count : Bounds) : Option Bounds :=
  if 64 ≤ count.unsignedMax then
    some unknown
  else do
    let bits ←
      match count.constant? with
      | some shift => KnownBits.Guarded.shiftLeft left.bits shift.toNat
      | none => some KnownBits.unknown
    let start ← ofBits bits
    if count.unsignedMax.toNat + left.unsignedMax.bitLength ≤ 64 then
      let low ← left.unsignedMin.exactShiftLeft? count.unsignedMin.toNat
      let high ← left.unsignedMax.exactShiftLeft? count.unsignedMax.toNat
      synchronized (start.withUnsigned low high).withAnySigned
    else
      some start

/-- A count known not to exceed a word less than 64 is below the width. -/
theorem toNat_lt_of_not_le (short : ¬ (64 : Word) ≤ word) : word.toNat < 64 :=
  Nat.lt_of_not_le short

theorem shiftCount_eq (short : word.toNat < 64) : word.shiftCount = word.toNat :=
  Nat.mod_eq_of_lt short

theorem shiftLeft_eq (leftSane : left.Sane) (rightSane : right.Sane) :
    shiftLeft left right = some (left.shiftLeft right) := by
  unfold shiftLeft Bounds.shiftLeft
  split
  case isTrue => rfl
  case isFalse short =>
    have most := toNat_lt_of_not_le short
    have least : right.unsignedMin.toNat ≤ right.unsignedMax.toNat := rightSane.1
    have order : left.unsignedMin.toNat ≤ left.unsignedMax.toNat := leftSane.1
    have reached := KnownBits.lt_two_pow_bitLength left.unsignedMax
    rw [shiftCount_eq most, shiftCount_eq (least.trans_lt most)]
    cases right.constant? <;>
      simp only [KnownBits.Guarded.shiftLeft_eq, ofBits_eq, Option.bind_eq_bind, Option.bind_some]
    all_goals
      split
      case isTrue kept =>
        rw [Word.exactShiftLeft?_of_short (least.trans_lt most) (order.trans_lt reached)
            (by omega),
          Word.exactShiftLeft?_of_short most reached kept]
        simp only [Option.bind_some, synchronized_eq]
      case isFalse => rfl

/-- The ends are moved only by counts below 64. -/
def shiftRight (left count : Bounds) : Option Bounds :=
  if 64 ≤ count.unsignedMax then
    some unknown
  else do
    let bits ←
      match count.constant? with
      | some shift => KnownBits.Guarded.shiftRight left.bits shift.toNat
      | none => some KnownBits.unknown
    let start ← ofBits bits
    let low ← left.unsignedMin.shiftRight? count.unsignedMax.toNat
    let high ← left.unsignedMax.shiftRight? count.unsignedMin.toNat
    synchronized (start.withUnsigned low high).withAnySigned

theorem shiftRight_eq (left : Bounds) (rightSane : right.Sane) :
    shiftRight left right = some (left.shiftRight right) := by
  unfold shiftRight Bounds.shiftRight
  split
  case isTrue => rfl
  case isFalse short =>
    have most := toNat_lt_of_not_le short
    have least := Nat.lt_of_le_of_lt rightSane.1 most
    rw [shiftCount_eq most, shiftCount_eq least]
    cases right.constant? <;>
      simp only [KnownBits.Guarded.shiftRight_eq, ofBits_eq, Option.bind_eq_bind, Option.bind_some,
        Word.shiftRight?, if_pos most, if_pos least, synchronized_eq]

/-- The ends are moved only by a constant below 64. -/
def signedShiftRight (left count : Bounds) : Option Bounds :=
  match count.constant? with
  | none => some unknown
  | some shift =>
    if shift < 64 then do
      let bits ← KnownBits.Guarded.signedShiftRight left.bits shift.toNat
      let start ← ofBits bits
      let low ← left.signedMin.signedShiftRight? shift.toNat
      let high ← left.signedMax.signedShiftRight? shift.toNat
      synchronized (start.withSigned low high).withAnyUnsigned
    else
      some unknown

theorem signedShiftRight_eq (left right : Bounds) :
    signedShiftRight left right = some (left.signedShiftRight right) := by
  unfold signedShiftRight Bounds.signedShiftRight
  cases right.constant? with
  | none => rfl
  | some shift =>
      dsimp only
      split
      case isTrue short =>
        have below : shift.toNat < 64 := short
        simp only [KnownBits.Guarded.signedShiftRight_eq, ofBits_eq, Option.bind_eq_bind,
          Option.bind_some, Word.signedShiftRight?, if_pos below, synchronized_eq]
      case isFalse => rfl

def neg (bounds : Bounds) : Option Bounds :=
  sub (constant 0) bounds

theorem constant_sane (word : Word) : (constant word).Sane :=
  ⟨BitVec.le_refl word, BitVec.sle_iff_toInt_le.mpr le_rfl⟩

theorem neg_eq (sane : bounds.Sane) : neg bounds = some bounds.neg :=
  sub_eq (constant_sane 0) sane

def apply (operation : Arithmetic) (left right : Bounds) : Option Bounds :=
  match operation with
  | .add => add left right
  | .sub => sub left right
  | .mul => mul left right
  | .div => div left right
  | .or => or left right
  | .and => and left right
  | .shiftLeft => shiftLeft left right
  | .shiftRight => shiftRight left right
  | .neg => neg left
  | .mod => mod left right
  | .xor => ofBits (left.bits.xor right.bits)
  | .move => some right
  | .signedShiftRight => signedShiftRight left right

/-- No operation overflows on bounds whose ends are in order. -/
theorem apply_eq (operation : Arithmetic) (leftSane : left.Sane) (rightSane : right.Sane) :
    apply operation left right = some (Bounds.apply operation left right) := by
  cases operation with
  | add => exact add_eq left right
  | sub => exact sub_eq leftSane rightSane
  | mul => exact mul_eq leftSane rightSane
  | div => exact div_eq left rightSane
  | or => exact or_eq left right
  | and => exact and_eq left right
  | shiftLeft => exact shiftLeft_eq leftSane rightSane
  | shiftRight => exact shiftRight_eq left rightSane
  | neg => exact neg_eq leftSane
  | mod => exact mod_eq left rightSane
  | xor => exact ofBits_eq _
  | move => rfl
  | signedShiftRight => exact signedShiftRight_eq left right

/-- The guarded operation of a code; nothing is known after a code that stands for none. -/
def applyCode (code : UInt8) (left right : Bounds) : Option Bounds :=
  match Arithmetic.ofCode? code with
  | some operation => apply operation left right
  | none => some unknown

theorem applyCode_eq (code : UInt8) (leftSane : left.Sane) (rightSane : right.Sane) :
    applyCode code left right = some (Bounds.applyCode code left right) := by
  unfold applyCode Bounds.applyCode
  cases Arithmetic.ofCode? code with
  | none => rfl
  | some operation => exact apply_eq operation leftSane rightSane

/-- Bounds of more than 32 bits are cut by their known bits. -/
def truncate32 (bounds : Bounds) : Option Bounds :=
  match bounds.constant? with
  | some word => some (constant word.low32)
  | none =>
    if bounds.unsignedMax ≤ 0xffffffff then
      some bounds
    else
      synchronized
        { bits := bounds.bits.truncate32
          unsignedMin := 0
          unsignedMax := 0xffffffff
          signedMin := 0
          signedMax := 0xffffffff }

@[simp]
theorem truncate32_eq (bounds : Bounds) : truncate32 bounds = some bounds.truncate32 := by
  unfold truncate32 Bounds.truncate32
  cases bounds.constant? with
  | some word => rfl
  | none =>
      dsimp only
      split
      case isTrue => rfl
      case isFalse => exact synchronized_eq _

/-- The operands are cut first and the result last; shifts by 32 or more are set apart. -/
def apply32 (operation : Arithmetic) (left right : Bounds) : Option Bounds := do
  let low ← truncate32 left
  let operand ← truncate32 right
  match operation with
  | .shiftLeft | .shiftRight =>
    if 32 ≤ operand.unsignedMax then ofWidth 4 else (apply operation low operand).bind truncate32
  | .signedShiftRight =>
    if 32 ≤ operand.unsignedMax ∨ 0x7fffffff < low.unsignedMax then
      ofWidth 4
    else
      (shiftRight low operand).bind truncate32
  | _ => (apply operation low operand).bind truncate32

/-- The operation on low halves works with bounds that are in order whenever their truncations
are. -/
theorem apply32_eq
    (operation : Arithmetic)
    (leftSane : left.truncate32.Sane) (rightSane : right.truncate32.Sane) :
    apply32 operation left right = some (Bounds.apply32 operation left right) := by
  simp only [apply32, Bounds.apply32, truncate32_eq, ofWidth_eq, Option.bind_eq_bind,
    Option.bind_some, apply_eq _ leftSane rightSane, shiftRight_eq _ rightSane]
  cases operation with
  | shiftLeft | shiftRight | signedShiftRight =>
      dsimp only
      split <;> rfl
  | _ => rfl

/-- The guarded 32-bit operation of a code. -/
def apply32Code (code : UInt8) (left right : Bounds) : Option Bounds :=
  match Arithmetic.ofCode? code with
  | some operation => apply32 operation left right
  | none => truncate32 unknown

/-- No operation on the low halves overflows, if the ends of the halves are in order. -/
theorem apply32Code_eq
    (code : UInt8) (leftSane : left.truncate32.Sane) (rightSane : right.truncate32.Sane) :
    apply32Code code left right = some (Bounds.apply32Code code left right) := by
  unfold apply32Code Bounds.apply32Code
  cases Arithmetic.ofCode? code with
  | none => exact truncate32_eq unknown
  | some operation => exact apply32_eq operation leftSane rightSane

/-- Words that are not known are bounded by the width alone, or cut to it. -/
def convertOrder (bounds : Bounds) (order : ByteOrder) (width : Nat) : Option Bounds :=
  match order with
  | .big =>
    match bounds.constant? with
    | some word => some (constant (word.reverseBytes width))
    | none => ofWidth (width / 8)
  | .little =>
    if 64 ≤ width then
      some bounds
    else do
      let most ← Word.lowMask? width
      if bounds.unsignedMax ≤ most then
        some bounds
      else
        let bits ← KnownBits.Guarded.truncate bounds.bits (width / 8)
        ofBits bits

/-- A change of the byte order overflows nowhere. -/
theorem convertOrder_eq (bounds : Bounds) (order : ByteOrder) (width : Nat) :
    convertOrder bounds order width = some (bounds.convertOrder order width) := by
  cases order with
  | big =>
      simp only [convertOrder, Bounds.convertOrder, ofWidth_eq]
      cases bounds.constant? <;> rfl
  | little =>
      simp only [convertOrder, Bounds.convertOrder]
      split
      case isTrue => rfl
      case isFalse short =>
        rw [Word.lowMask?_eq (Nat.lt_of_not_le short)]
        simp only [KnownBits.Guarded.truncate_eq, ofBits_eq, Option.bind_eq_bind, Option.bind_some]
        split <;> rfl

/-! ## Refinement by a comparison -/

theorem onward_eq
    {α β : Type} {value? : Option α} {next : α → Option (Option β)} {next' : α → Option β}
    (same : ∀ value, next value = some (next' value)) :
    onward value? next = some (value?.bind next') := by
  cases value? with
  | none => rfl
  | some value => exact same value

/-- Both operands are synchronised, the left one first. -/
def synchronizeBoth? (left right : Bounds) : Option (Option (Bounds × Bounds)) := do
  let left? ← synchronize? left
  onward left? fun left => do
    let right? ← synchronize? right
    onward right? fun right => some (some (left, right))

theorem synchronizeBoth?_eq (left right : Bounds) :
    synchronizeBoth? left right = some (Bounds.synchronizeBoth? left right) := by
  rw [synchronizeBoth?, synchronize?_eq]
  refine onward_eq fun left => ?_
  rw [synchronize?_eq]
  exact onward_eq fun right => rfl

/-- The ends of the intersection are those of the operands. -/
def meet? (left right : Bounds) : Option (Option Bounds) :=
  onward (left.bits.intersect? right.bits) fun bits =>
    synchronize?
      { bits := bits
        unsignedMin := Word.unsignedMax left.unsignedMin right.unsignedMin
        unsignedMax := Word.unsignedMin left.unsignedMax right.unsignedMax
        signedMin := Word.signedMax left.signedMin right.signedMin
        signedMax := Word.signedMin left.signedMax right.signedMax }

theorem meet?_eq (left right : Bounds) : meet? left right = some (left.meet? right) :=
  onward_eq fun _ => synchronize?_eq _

/-- The ends that are excluded move by one, which is tested. -/
def refineDiffer? (left right : Bounds) : Option (Option (Bounds × Bounds)) := do
  let left? ← left.excludeConstant? right
  onward left? fun left => do
    let right? ← right.excludeConstant? left
    onward right? fun right => synchronizeBoth? left right

/-- Only the exclusion of a constant can leave the range, and both versions fail together there. -/
theorem refineDiffer?_eq (left right : Bounds) :
    refineDiffer? left right = left.refineDiffer? right := by
  simp only [refineDiffer?, Bounds.refineDiffer?, synchronizeBoth?_eq]

/-- The ends that are excluded move by one, which is tested. -/
def refineAbove? (left right : Bounds) : Option (Option (Bounds × Bounds)) :=
  onward (right.unsignedMin.unsignedAdd? 1) fun floor =>
    let left := { left with unsignedMin := Word.unsignedMax left.unsignedMin floor }
    onward (left.unsignedMax.unsignedSub? 1) fun ceiling =>
      synchronizeBoth? left
        { right with unsignedMax := Word.unsignedMin right.unsignedMax ceiling }

theorem refineAbove?_eq (left right : Bounds) :
    refineAbove? left right = some (left.refineAbove? right) :=
  onward_eq fun _ => onward_eq fun _ => synchronizeBoth?_eq _ _

/-- The ends are those of the operands. -/
def refineAtLeast? (left right : Bounds) : Option (Option (Bounds × Bounds)) :=
  synchronizeBoth?
    { left with unsignedMin := Word.unsignedMax left.unsignedMin right.unsignedMin }
    { right with unsignedMax := Word.unsignedMin right.unsignedMax left.unsignedMax }

theorem refineAtLeast?_eq (left right : Bounds) :
    refineAtLeast? left right = some (left.refineAtLeast? right) :=
  synchronizeBoth?_eq _ _

/-- The ends that are excluded move by one, which is tested. -/
def refineSignedAbove? (left right : Bounds) : Option (Option (Bounds × Bounds)) :=
  onward (right.signedMin.signedAdd? 1) fun floor =>
    let left := { left with signedMin := Word.signedMax left.signedMin floor }
    onward (left.signedMax.signedSub? 1) fun ceiling =>
      synchronizeBoth? left { right with signedMax := Word.signedMin right.signedMax ceiling }

theorem refineSignedAbove?_eq (left right : Bounds) :
    refineSignedAbove? left right = some (left.refineSignedAbove? right) :=
  onward_eq fun _ => onward_eq fun _ => synchronizeBoth?_eq _ _

/-- The ends are those of the operands. -/
def refineSignedAtLeast? (left right : Bounds) : Option (Option (Bounds × Bounds)) :=
  synchronizeBoth?
    { left with signedMin := Word.signedMax left.signedMin right.signedMin }
    { right with signedMax := Word.signedMin right.signedMax left.signedMax }

theorem refineSignedAtLeast?_eq (left right : Bounds) :
    refineSignedAtLeast? left right = some (left.refineSignedAtLeast? right) :=
  synchronizeBoth?_eq _ _

/-- A single bit of the constant becomes known. -/
def refineSharesBit? (left right : Bounds) : Option (Option (Bounds × Bounds)) :=
  match right.constant? with
  | none => synchronizeBoth? left right
  | some word =>
    if word.isPowerOfTwo then
      onward (left.bits.intersect? (KnownBits.masked word (~~~word))) fun bits =>
        synchronizeBoth? { left with bits := bits } right
    else
      synchronizeBoth? left right

theorem refineSharesBit?_eq (left right : Bounds) :
    refineSharesBit? left right = some (left.refineSharesBit? right) := by
  unfold refineSharesBit? Bounds.refineSharesBit?
  cases right.constant? with
  | none => exact synchronizeBoth?_eq left right
  | some word =>
      dsimp only
      split
      case isTrue => exact onward_eq fun _ => synchronizeBoth?_eq _ _
      case isFalse => exact synchronizeBoth?_eq left right

/-- The bits of the constant become known. -/
def refineSharesNone? (left right : Bounds) : Option (Option (Bounds × Bounds)) :=
  match right.constant? with
  | none => synchronizeBoth? left right
  | some word =>
    onward (left.bits.intersect? (KnownBits.masked 0 (~~~word))) fun bits =>
      synchronizeBoth? { left with bits := bits } right

theorem refineSharesNone?_eq (left right : Bounds) :
    refineSharesNone? left right = some (left.refineSharesNone? right) := by
  unfold refineSharesNone? Bounds.refineSharesNone?
  cases right.constant? with
  | none => exact synchronizeBoth?_eq left right
  | some word => exact onward_eq fun _ => synchronizeBoth?_eq _ _

/-- The guarded refinement for each comparison; those that point the other way swap the operands. -/
def refine? (comparison : Comparison) (left right : Bounds) : Option (Option (Bounds × Bounds)) :=
  match comparison with
  | .equal => (meet? left right).map fun common => common.map fun bounds => (bounds, bounds)
  | .differ => refineDiffer? left right
  | .above => refineAbove? left right
  | .atLeast => refineAtLeast? left right
  | .below => (refineAbove? right left).map fun narrowed => narrowed.map Prod.swap
  | .atMost => (refineAtLeast? right left).map fun narrowed => narrowed.map Prod.swap
  | .signedAbove => refineSignedAbove? left right
  | .signedAtLeast => refineSignedAtLeast? left right
  | .signedBelow => (refineSignedAbove? right left).map fun narrowed => narrowed.map Prod.swap
  | .signedAtMost => (refineSignedAtLeast? right left).map fun narrowed => narrowed.map Prod.swap
  | .sharesBit => refineSharesBit? left right
  | .sharesNone => refineSharesNone? left right

/-- The guarded refinement of a comparison fails just where the refinement of its bounds does. -/
theorem refine?_eq (comparison : Comparison) (left right : Bounds) :
    refine? comparison left right = Bounds.refine? comparison left right := by
  cases comparison with
  | equal => simp only [refine?, Bounds.refine?, meet?_eq, Option.map_some]
  | differ => exact refineDiffer?_eq left right
  | above => exact refineAbove?_eq left right
  | atLeast => exact refineAtLeast?_eq left right
  | below => simp only [refine?, Bounds.refine?, refineAbove?_eq, Option.map_some]
  | atMost => simp only [refine?, Bounds.refine?, refineAtLeast?_eq, Option.map_some]
  | signedAbove => exact refineSignedAbove?_eq left right
  | signedAtLeast => exact refineSignedAtLeast?_eq left right
  | signedBelow => simp only [refine?, Bounds.refine?, refineSignedAbove?_eq, Option.map_some]
  | signedAtMost => simp only [refine?, Bounds.refine?, refineSignedAtLeast?_eq, Option.map_some]
  | sharesBit => exact refineSharesBit?_eq left right
  | sharesNone => exact refineSharesNone?_eq left right

end Guarded

end Bounds

end PacketFilter
