import PacketFilter.Word

/-!
# Arithmetic operations

The operations of an arithmetic instruction and what each computes on two bit
strings of one width.  Nothing here fails: a quotient by zero is zero, a
remainder by zero is the dividend, and a shift count is taken modulo the
width.
-/

namespace PacketFilter

/-- The operation of an arithmetic instruction. -/
inductive Arithmetic where
  | add
  | sub
  | mul
  | div
  | or
  | and
  | shiftLeft
  | shiftRight
  | neg
  | mod
  | xor
  | move
  | signedShiftRight
  deriving DecidableEq, Repr

namespace Arithmetic

/-- The result of the operation on a destination and a source. -/
def apply {width : Nat} (operation : Arithmetic) (left right : BitVec width) : BitVec width :=
  match operation with
  | add => left + right
  | sub => left - right
  | mul => left * right
  | div => left.udiv right
  | or => left ||| right
  | and => left &&& right
  | shiftLeft => left <<< (right.toNat % width)
  | shiftRight => left >>> (right.toNat % width)
  | neg => -left
  | mod => left.umod right
  | xor => left ^^^ right
  | move => right
  | signedShiftRight => left.sshiftRight (right.toNat % width)

/-- The operation on the low halves of two words, zero-extended. -/
def apply32 (operation : Arithmetic) (left right : Word) : Word :=
  (operation.apply (left.setWidth 32) (right.setWidth 32)).zeroExtend 64

/-- The number an instruction names the operation by. -/
def code : Arithmetic → UInt8
  | add => 0x00
  | sub => 0x10
  | mul => 0x20
  | div => 0x30
  | or => 0x40
  | and => 0x50
  | shiftLeft => 0x60
  | shiftRight => 0x70
  | neg => 0x80
  | mod => 0x90
  | xor => 0xa0
  | move => 0xb0
  | signedShiftRight => 0xc0

/-- Every operation, in the order of the codes. -/
def all : List Arithmetic :=
  [add, sub, mul, div, or, and, shiftLeft, shiftRight, neg, mod, xor, move, signedShiftRight]

/-- The operation an instruction names by the given number. -/
def ofCode? (code : UInt8) : Option Arithmetic :=
  all.find? fun operation => operation.code == code

/-- The verb a rejection uses for the operation. -/
def verb : Arithmetic → String
  | add => "add"
  | sub => "sub"
  | mul => "mul"
  | div => "div"
  | or => "or"
  | and => "and"
  | shiftLeft => "lsh"
  | shiftRight => "rsh"
  | mod => "mod"
  | xor => "xor"
  | signedShiftRight => "arsh"
  | neg | move => "op"

/-- The operation that goes by the given verb. -/
def ofVerb? (verb : String) : Option Arithmetic :=
  all.find? fun operation => operation.verb == verb

end Arithmetic

end PacketFilter
