import PacketFilter.Arithmetic
import PacketFilter.Bounds.Basic

/-!
# Arithmetic on bounds

For every arithmetic operation, bounds that admit its result on any members of
the operands' bounds.  Each interval is computed exactly where the operation
cannot leave it and forgotten otherwise; the known bits are computed on their
own and the result is synchronised.

The 32-bit operations run on the zero-extended low halves.
-/

namespace PacketFilter

namespace Bounds

/-- Sums, by interval arithmetic where neither end wraps. -/
def add (left right : Bounds) : Bounds :=
  let start := ofBits (left.bits.add right.bits)
  let signed :=
    match left.signedMin.signedAdd? right.signedMin, left.signedMax.signedAdd? right.signedMax with
    | some low, some high => start.withSigned low high
    | _, _ => start.withAnySigned
  let unsigned :=
    match left.unsignedMin.unsignedAdd? right.unsignedMin,
        left.unsignedMax.unsignedAdd? right.unsignedMax with
    | some low, some high => signed.withUnsigned low high
    | _, _ => signed.withAnyUnsigned
  unsigned.synchronized

/-- Differences, by interval arithmetic where neither end wraps. -/
def sub (left right : Bounds) : Bounds :=
  let start := ofBits (left.bits.sub right.bits)
  let signed :=
    match left.signedMin.signedSub? right.signedMax, left.signedMax.signedSub? right.signedMin with
    | some low, some high => start.withSigned low high
    | _, _ => start.withAnySigned
  let unsigned :=
    if left.unsignedMin < right.unsignedMax then
      signed.withAnyUnsigned
    else
      signed.withUnsigned (left.unsignedMin - right.unsignedMax)
        (left.unsignedMax - right.unsignedMin)
  unsigned.synchronized

/-- Products; the unsigned interval is kept when both factors fit in 32 bits. -/
def mul (left right : Bounds) : Bounds :=
  let start := ofBits (left.bits.mul right.bits)
  if left.unsignedMax ≤ 0xffffffff ∧ right.unsignedMax ≤ 0xffffffff then
    (start.withUnsigned (left.unsignedMin * right.unsignedMin)
      (left.unsignedMax * right.unsignedMax)).withAnySigned.synchronized
  else
    start

/-- Unsigned quotients, where a quotient by zero is zero. -/
def div (left right : Bounds) : Bounds :=
  if right.constant? = some 0 then
    constant 0
  else if right.unsignedMin = 0 then
    ofInterval 0 left.unsignedMax
  else
    ofInterval (left.unsignedMin.udiv right.unsignedMax) (left.unsignedMax.udiv right.unsignedMin)

/-- Unsigned remainders, where a remainder by zero is the dividend. -/
def mod (left right : Bounds) : Bounds :=
  if right.constant? = some 0 then
    left
  else if 0 < right.unsignedMin ∧ left.unsignedMax < right.unsignedMin then
    left
  else if right.unsignedMin = 0 then
    ofInterval 0 left.unsignedMax
  else
    ofInterval 0 (Word.unsignedMin left.unsignedMax (right.unsignedMax - 1))

/-- Bitwise conjunction never exceeds either operand. -/
def and (left right : Bounds) : Bounds :=
  let bits := left.bits.and right.bits
  ((ofBits bits).withUnsigned bits.unsignedMin
    (Word.unsignedMin (Word.unsignedMin left.unsignedMax right.unsignedMax)
      bits.unsignedMax)).withAnySigned.synchronized

/-- Bitwise disjunction never falls below either operand. -/
def or (left right : Bounds) : Bounds :=
  let bits := left.bits.or right.bits
  ((ofBits bits).withUnsigned
    (Word.unsignedMax (Word.unsignedMax left.unsignedMin right.unsignedMin) bits.unsignedMin)
    bits.unsignedMax).withAnySigned.synchronized

/-- Bitwise difference, by known bits alone. -/
def xor (left right : Bounds) : Bounds :=
  ofBits (left.bits.xor right.bits)

/-- Left shifts by less than the width; the unsigned interval is kept when no set bit is lost. -/
def shiftLeft (left count : Bounds) : Bounds :=
  if 64 ≤ count.unsignedMax then
    unknown
  else
    let start := ofBits <|
      match count.constant? with
      | some shift => left.bits.shiftLeft shift.toNat
      | none => KnownBits.unknown
    if count.unsignedMax.toNat + left.unsignedMax.bitLength ≤ 64 then
      (start.withUnsigned (left.unsignedMin <<< count.unsignedMin.shiftCount)
        (left.unsignedMax <<< count.unsignedMax.shiftCount)).withAnySigned.synchronized
    else
      start

/-- Logical right shifts by less than the width. -/
def shiftRight (left count : Bounds) : Bounds :=
  if 64 ≤ count.unsignedMax then
    unknown
  else
    let start := ofBits <|
      match count.constant? with
      | some shift => left.bits.shiftRight shift.toNat
      | none => KnownBits.unknown
    (start.withUnsigned (left.unsignedMin >>> count.unsignedMax.shiftCount)
      (left.unsignedMax >>> count.unsignedMin.shiftCount)).withAnySigned.synchronized

/-- Arithmetic right shifts by a known count below the width. -/
def signedShiftRight (left count : Bounds) : Bounds :=
  match count.constant? with
  | none => unknown
  | some shift =>
    if shift < 64 then
      ((ofBits (left.bits.signedShiftRight shift.toNat)).withSigned
        (left.signedMin.sshiftRight shift.toNat)
        (left.signedMax.sshiftRight shift.toNat)).withAnyUnsigned.synchronized
    else
      unknown

/-- Two's complement negation. -/
def neg (bounds : Bounds) : Bounds :=
  (constant 0).sub bounds

/-- The bounds of a 64-bit operation. -/
def apply (operation : Arithmetic) (left right : Bounds) : Bounds :=
  match operation with
  | .add => left.add right
  | .sub => left.sub right
  | .mul => left.mul right
  | .div => left.div right
  | .or => left.or right
  | .and => left.and right
  | .shiftLeft => left.shiftLeft right
  | .shiftRight => left.shiftRight right
  | .neg => left.neg
  | .mod => left.mod right
  | .xor => left.xor right
  | .move => right
  | .signedShiftRight => left.signedShiftRight right

/-- The bounds of the 64-bit operation with the given number; an unassigned number gives nothing
away. -/
def applyCode (code : UInt8) (left right : Bounds) : Bounds :=
  match Arithmetic.ofCode? code with
  | some operation => apply operation left right
  | none => unknown

/-- The zero-extended low half. -/
def truncate32 (bounds : Bounds) : Bounds :=
  match bounds.constant? with
  | some word => constant word.low32
  | none =>
    if bounds.unsignedMax ≤ 0xffffffff then
      bounds
    else
      ({ bits := bounds.bits.truncate32
         unsignedMin := 0
         unsignedMax := 0xffffffff
         signedMin := 0
         signedMax := 0xffffffff } : Bounds).synchronized

/--
The bounds of a 32-bit operation.  Shifts whose count may reach the width, and
arithmetic right shifts of a half that may be negative, keep nothing but the
width.
-/
def apply32 (operation : Arithmetic) (left right : Bounds) : Bounds :=
  let low := left.truncate32
  let operand := right.truncate32
  match operation with
  | .shiftLeft | .shiftRight =>
    if 32 ≤ operand.unsignedMax then ofWidth 4 else (apply operation low operand).truncate32
  | .signedShiftRight =>
    if 32 ≤ operand.unsignedMax ∨ 0x7fffffff < low.unsignedMax then
      ofWidth 4
    else
      (low.shiftRight operand).truncate32
  | _ => (apply operation low operand).truncate32

/-- The bounds of the 32-bit operation with the given number; an unassigned number gives away no
more than the width. -/
def apply32Code (code : UInt8) (left right : Bounds) : Bounds :=
  match Arithmetic.ofCode? code with
  | some operation => apply32 operation left right
  | none => unknown.truncate32

/-- The low `width` bits, with their bytes reversed when the order is big-endian. -/
def convertOrder (bounds : Bounds) (order : ByteOrder) (width : Nat) : Bounds :=
  match order with
  | .big =>
    match bounds.constant? with
    | some word => constant (word.reverseBytes width)
    | none => ofWidth (width / 8)
  | .little =>
    if 64 ≤ width then
      bounds
    else if bounds.unsignedMax ≤ Word.lowMask width then
      bounds
    else
      ofBits (bounds.bits.truncate (width / 8))

end Bounds

end PacketFilter
