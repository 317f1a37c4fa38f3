/-!
# Words and byte strings

Registers, addresses and tracked values are 64-bit words.  This module fixes
that type, the signed and unsigned orders used to compare words, and the
little-endian correspondence between a word and its bytes.

What a word means to a program (a scalar, an address) is left to the modules
that use it.
-/

namespace PacketFilter

/-- The value of a register. -/
abbrev Word := BitVec 64

/-- A byte string: packet data, a map key, a map value. -/
abbrev Bytes := Array UInt8

/-- The order in which the bytes of a number are laid out. -/
inductive ByteOrder where
  | little
  | big
  deriving DecidableEq, Repr

namespace Word

/-- The word with every bit set, which is also the largest unsigned word. -/
def allOnes : Word := BitVec.allOnes 64

/-- The least word in signed order. -/
def signedLeast : Word := BitVec.intMin 64

/-- The greatest word in signed order. -/
def signedGreatest : Word := BitVec.intMax 64

/-- The smaller word, without signs. -/
def unsignedMin (left right : Word) : Word :=
  if left ≤ right then left else right

def unsignedMax (left right : Word) : Word :=
  if left ≤ right then right else left

/-- The smaller word, with signs. -/
def signedMin (left right : Word) : Word :=
  if left.sle right then left else right

def signedMax (left right : Word) : Word :=
  if left.sle right then right else left

/-- The sum, when it does not leave the unsigned range. -/
def unsignedAdd? (left right : Word) : Option Word :=
  if left.uaddOverflow right then none else some (left + right)

/-- The sum, when it does not leave the signed range. -/
def signedAdd? (left right : Word) : Option Word :=
  if left.saddOverflow right then none else some (left + right)

/-- The difference, when it does not leave the unsigned range. -/
def unsignedSub? (left right : Word) : Option Word :=
  if left < right then none else some (left - right)

/-- The difference, when it does not leave the signed range. -/
def signedSub? (left right : Word) : Option Word :=
  if left.ssubOverflow right then none else some (left - right)

/-- The word read as a signed number is not below zero. -/
def isNonNegative (word : Word) : Bool :=
  !word.msb

/-- How many low bits are needed to write the word. -/
def bitLength (word : Word) : Nat :=
  if word = 0 then 0 else word.toNat.log2 + 1

/-- The low `count` bits set. -/
def lowMask (count : Nat) : Word :=
  ~~~(allOnes <<< count)

/-- The word cut to its low `count` bits. -/
def lowBits (word : Word) (count : Nat) : Word :=
  word &&& lowMask count

/-- The zero-extended low half. -/
def low32 (word : Word) : Word :=
  word &&& 0xffffffff

/-- A shift count, taken modulo the width of a word. -/
def shiftCount (word : Word) : Nat :=
  word.toNat % 64

/-- Exactly one bit is set. -/
def isPowerOfTwo (word : Word) : Bool :=
  word != 0 && (word &&& (word - 1)) == 0

/-- The immediate of an instruction, sign-extended. -/
def ofImmediate (immediate : Int32) : Word :=
  BitVec.ofInt 64 immediate.toInt

/-- The immediate of an instruction, zero-extended from 32 bits. -/
def ofImmediate32 (immediate : Int32) : Word :=
  immediate.toBitVec.zeroExtend 64

/-- The signed number that a sum kept in a word comes to. -/
def wrapSigned (number : Int) : Int :=
  (BitVec.ofInt 64 number).toInt

/-- The number whose bytes, lowest first, are those of the list. -/
def ofBytes : List UInt8 → Word
  | [] => 0
  | byte :: rest => ofBytes rest <<< 8 ||| byte.toBitVec.zeroExtend 64

/-- The low `size` bytes of the word, lowest first. -/
def toBytes (word : Word) : Nat → List UInt8
  | 0 => []
  | size + 1 => UInt8.ofBitVec (word.setWidth 8) :: toBytes (word >>> 8) size

/-- The low `bits` bits with their bytes in reverse order; every width other than 16 and 32 is the
whole word. -/
def reverseBytes (word : Word) (bits : Nat) : Word :=
  let size := if bits = 16 then 2 else if bits = 32 then 4 else 8
  ofBytes (word.toBytes size).reverse

end Word

end PacketFilter
