import PacketFilter.Word

/-!
# Words of which some bits are known

A `KnownBits` describes a set of words by fixing some of their bits.  The
module gives the operations that carry such a description through word
arithmetic, bit logic, shifts and truncation, and the smallest description of
an interval.

A description is taken as it is: nothing here forces the value to be zero
where the mask is set, so an ill-formed description can be written down and
simply has no member.
-/

namespace PacketFilter

/-- A set of words: those that agree with `value` wherever `mask` is clear. -/
structure KnownBits where
  value : Word
  mask : Word
  deriving DecidableEq, Repr

namespace KnownBits

instance : Membership Word KnownBits where
  mem bits word := word &&& ~~~bits.mask = bits.value

instance (word : Word) (bits : KnownBits) : Decidable (word ∈ bits) :=
  inferInstanceAs (Decidable (word &&& ~~~bits.mask = bits.value))

theorem mem_def {word : Word} {bits : KnownBits} :
    word ∈ bits ↔ word &&& ~~~bits.mask = bits.value :=
  Iff.rfl

/-- No bit is both known to be set and unknown. -/
def WellFormed (bits : KnownBits) : Prop :=
  bits.value &&& bits.mask = 0

instance (bits : KnownBits) : Decidable bits.WellFormed :=
  inferInstanceAs (Decidable (bits.value &&& bits.mask = 0))

/-- The description that keeps `value` only where `mask` is clear. -/
def masked (value mask : Word) : KnownBits :=
  ⟨value &&& ~~~mask, mask⟩

/-- Every bit is known. -/
def constant (word : Word) : KnownBits :=
  ⟨word, 0⟩

/-- No bit is known. -/
def unknown : KnownBits :=
  ⟨0, Word.allOnes⟩

/-- The smallest description of the words from `low` to `high`: they share the bits above the
highest one in which the ends differ. -/
def ofInterval (low high : Word) : KnownBits :=
  if high < low then
    unknown
  else
    let width := (low ^^^ high).bitLength
    if 64 ≤ width then unknown else masked low (Word.lowMask width)

/-- No bit is left open. -/
def isConstant (bits : KnownBits) : Bool :=
  bits.mask == 0

/-- Every bit is left open. -/
def isUnknown (bits : KnownBits) : Bool :=
  bits.mask == Word.allOnes

/-- The least member in unsigned order. -/
def unsignedMin (bits : KnownBits) : Word :=
  bits.value

def unsignedMax (bits : KnownBits) : Word :=
  bits.value ||| bits.mask

/-- The least member in signed order. -/
def signedMin (bits : KnownBits) : Word :=
  bits.value ||| (bits.mask &&& Word.signedLeast)

def signedMax (bits : KnownBits) : Word :=
  bits.value ||| (bits.mask &&& Word.signedGreatest)

/-- The common members of two descriptions, or nothing when a bit known to both differs. -/
def intersect? (left right : KnownBits) : Option KnownBits :=
  if (left.value ^^^ right.value) &&& (~~~left.mask &&& ~~~right.mask) ≠ 0 then
    none
  else
    some (masked (left.value ||| right.value) (left.mask &&& right.mask))

/-- Both words of the description moved left; counts beyond 63 count as 63. -/
def shiftLeft (bits : KnownBits) (count : Nat) : KnownBits :=
  ⟨bits.value <<< min count 63, bits.mask <<< min count 63⟩

/-- Both words of the description moved right; counts beyond 63 count as 63. -/
def shiftRight (bits : KnownBits) (count : Nat) : KnownBits :=
  ⟨bits.value >>> min count 63, bits.mask >>> min count 63⟩

/-- Both words of the description moved right, repeating the sign bit; counts beyond 63 count as
63. -/
def signedShiftRight (bits : KnownBits) (count : Nat) : KnownBits :=
  ⟨bits.value.sshiftRight (min count 63), bits.mask.sshiftRight (min count 63)⟩

/-- A bit of the sum is known where both summands know it and no unknown carry reaches it. -/
def add (left right : KnownBits) : KnownBits :=
  let sum := left.value + right.value
  let carried := (left.mask + right.mask + sum) ^^^ sum
  masked sum (carried ||| left.mask ||| right.mask)

/-- A bit of the difference is known where both operands know it and no unknown borrow reaches
it. -/
def sub (left right : KnownBits) : KnownBits :=
  let difference := left.value - right.value
  let borrowed := (difference + left.mask) ^^^ (difference - right.mask)
  masked difference (borrowed ||| left.mask ||| right.mask)

/-- The unknown part of a product: one shifted copy of the multiplicand for every bit of the
multiplier that is set or unknown.  The count of remaining multiplier bits bounds the walk. -/
def mulUncertainty (multiplier multiplicand sum : KnownBits) : Nat → KnownBits
  | 0 => sum
  | remaining + 1 =>
    if multiplier.value = 0 ∧ multiplier.mask = 0 then
      sum
    else
      let sum :=
        if multiplier.value &&& 1 ≠ 0 then
          sum.add (masked 0 multiplicand.mask)
        else if multiplier.mask &&& 1 ≠ 0 then
          sum.add (masked 0 (multiplicand.value ||| multiplicand.mask))
        else
          sum
      mulUncertainty (multiplier.shiftRight 1) (multiplicand.shiftLeft 1) sum remaining

/-- The product of the known values, blurred by `mulUncertainty`. -/
def mul (left right : KnownBits) : KnownBits :=
  if left.isConstant && right.isConstant then
    constant (left.value * right.value)
  else
    (constant (left.value * right.value)).add (mulUncertainty left right (constant 0) 64)

/-- Bitwise conjunction: a bit is known to be clear as soon as one operand clears it. -/
def and (left right : KnownBits) : KnownBits :=
  let value := left.value &&& right.value
  ⟨value, left.unsignedMax &&& right.unsignedMax &&& ~~~value⟩

/-- Bitwise disjunction: a bit is known to be set as soon as one operand sets it. -/
def or (left right : KnownBits) : KnownBits :=
  let value := left.value ||| right.value
  ⟨value, (left.mask ||| right.mask) &&& ~~~value⟩

/-- Bitwise difference: a bit is known where both operands know it. -/
def xor (left right : KnownBits) : KnownBits :=
  masked (left.value ^^^ right.value) (left.mask ||| right.mask)

/-- Both words of the description cut to their low 32 bits. -/
def truncate32 (bits : KnownBits) : KnownBits :=
  ⟨bits.value.low32, bits.mask.low32⟩

/-- Both words of the description cut to their low `size` bytes. -/
def truncate (bits : KnownBits) (size : Nat) : KnownBits :=
  if 8 ≤ size then
    bits
  else
    ⟨bits.value.lowBits (size * 8), bits.mask.lowBits (size * 8)⟩

end KnownBits

end PacketFilter
