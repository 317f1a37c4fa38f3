import PacketFilter.Arithmetic
import PacketFilter.Comparison

/-!
# Encoded instructions

An instruction slot as programs carry it: an opcode byte, two register
numbers, an offset and an immediate.  The opcode is read through its fields:
a family in the low three bits and, depending on the family, a size and a mode
or an operation and an operand selector.

Any five numbers are a slot.  Which slots mean something is said by
`PacketFilter.Instruction.Operation`, and which programs are well formed by
`PacketFilter.ControlFlow.Structure`.
-/

namespace PacketFilter

/-- One instruction slot. -/
structure Instruction where
  code : UInt8
  destination : UInt8
  source : UInt8
  offset : Int16
  immediate : Int32
  deriving DecidableEq, Repr, Inhabited

/-- A program body: the slots in address order. -/
abbrev Code := Array Instruction

/-- The eight families of instructions. -/
inductive Family where
  | wideLoad
  | load
  | storeImmediate
  | storeRegister
  | arithmetic32
  | jump
  | jump32
  | arithmetic
  deriving DecidableEq, Repr

namespace Family

/-- The number of the family in the low bits of an opcode. -/
def code : Family → UInt8
  | wideLoad => 0
  | load => 1
  | storeImmediate => 2
  | storeRegister => 3
  | arithmetic32 => 4
  | jump => 5
  | jump32 => 6
  | arithmetic => 7

/-- The family with the given number; only the low three bits count. -/
def ofCode (code : UInt8) : Family :=
  match (code &&& 7).toNat with
  | 0 => wideLoad
  | 1 => load
  | 2 => storeImmediate
  | 3 => storeRegister
  | 4 => arithmetic32
  | 5 => jump
  | 6 => jump32
  | _ => arithmetic

end Family

/-- The width of a memory access. -/
inductive AccessSize where
  | byte
  | half
  | word
  | double
  deriving DecidableEq, Repr

namespace AccessSize

def bytes : AccessSize → Nat
  | byte => 1
  | half => 2
  | word => 4
  | double => 8

/-- The size as listings write it. -/
def name : AccessSize → String
  | byte => "u8"
  | half => "u16"
  | word => "u32"
  | double => "u64"

/-- The size field of an opcode. -/
def code : AccessSize → UInt8
  | word => 0x00
  | half => 0x08
  | byte => 0x10
  | double => 0x18

/-- The size selected by the two size bits of an opcode. -/
def ofCode (code : UInt8) : AccessSize :=
  match (code &&& 0x18).toNat with
  | 0x00 => word
  | 0x08 => half
  | 0x10 => byte
  | _ => double

end AccessSize

/-! ## Opcode fields that have no type of their own -/

namespace Opcode

/-- Plain memory access. -/
def memoryMode : UInt8 := 0x60
/-- Sign-extending memory access. -/
def signExtendingMode : UInt8 := 0x80
/-- Atomic memory access. -/
def atomicMode : UInt8 := 0xc0
/-- The operand is a register rather than the immediate. -/
def registerOperand : UInt8 := 0x08
/-- Byte order conversion. -/
def convertOrder : UInt8 := 0xd0
/-- Unconditional jump. -/
def jumpAlways : UInt8 := 0x00
/-- Helper call. -/
def call : UInt8 := 0x80
/-- Program exit. -/
def exit : UInt8 := 0x90
/-- The whole opcode of a two-slot load of a 64-bit immediate. -/
def wideLoad : UInt8 := 0x18

end Opcode

namespace Instruction

/-- The family that the opcode belongs to. -/
def family (instruction : Instruction) : Family :=
  Family.ofCode instruction.code

/-- The size bits. -/
def sizeField (instruction : Instruction) : UInt8 :=
  instruction.code &&& 0x18

/-- How much memory a load or a store accesses, by its opcode. -/
def accessSize (instruction : Instruction) : AccessSize :=
  AccessSize.ofCode instruction.code

/-- The mode bits of a memory access. -/
def modeField (instruction : Instruction) : UInt8 :=
  instruction.code &&& 0xe0

/-- The operation bits of an arithmetic instruction or a jump. -/
def operationField (instruction : Instruction) : UInt8 :=
  instruction.code &&& 0xf0

/-- The operand selector. -/
def operandField (instruction : Instruction) : UInt8 :=
  instruction.code &&& 0x08

/-- The second operand is a register and not the immediate. -/
def hasRegisterOperand (instruction : Instruction) : Bool :=
  instruction.operandField == Opcode.registerOperand

/-- The first slot of a two-slot load. -/
def isWideLoad (instruction : Instruction) : Bool :=
  instruction.code == Opcode.wideLoad

/-- The opcode is of one of the two families of jumps; calls and exits are of the first. -/
def isJumpFamily (instruction : Instruction) : Bool :=
  instruction.family == .jump || instruction.family == .jump32

/-- In the families of jumps, everything but the jump that is always taken, calls and exits. -/
def isConditionalJump (instruction : Instruction) : Bool :=
  instruction.isJumpFamily && instruction.operationField != Opcode.jumpAlways &&
    instruction.operationField != Opcode.call && instruction.operationField != Opcode.exit

/-- A jump that is always taken; the 32-bit family has none. -/
def isJumpAlways (instruction : Instruction) : Bool :=
  instruction.family == .jump && instruction.operationField == Opcode.jumpAlways

/-- A call of a helper; the 32-bit family has none. -/
def isCall (instruction : Instruction) : Bool :=
  instruction.family == .jump && instruction.operationField == Opcode.call

/-- The end of a run; the 32-bit family has none. -/
def isExit (instruction : Instruction) : Bool :=
  instruction.family == .jump && instruction.operationField == Opcode.exit

/-- A store whose mode makes it an atomic operation. -/
def isAtomic (instruction : Instruction) : Bool :=
  instruction.family == .storeRegister && instruction.modeField == Opcode.atomicMode

/-- A jump of either kind. -/
def isJump (instruction : Instruction) : Bool :=
  instruction.isJumpAlways || instruction.isConditionalJump

/-- How many slots the instruction that starts here takes. -/
def span (instruction : Instruction) : Nat :=
  if instruction.isWideLoad then 2 else 1

theorem span_pos (instruction : Instruction) : 0 < instruction.span := by
  unfold span
  split <;> decide

/-- Slots numbered as jumps number them: the signed position a jump at `position` names. -/
def jumpDestination (instruction : Instruction) (position : Nat) : Int :=
  position + 1 + instruction.offset.toInt

/-- Where a jump at `position` lands, when that is inside a program of `length` slots. -/
def jumpTarget? (instruction : Instruction) (position length : Nat) : Option Nat :=
  let destination := instruction.jumpDestination position
  if 0 ≤ destination ∧ destination < length then some destination.toNat else none

end Instruction

namespace Code

/-- The slots at which an instruction starts when the program is read from `position` on. -/
def startsFrom (code : Code) (position : Nat) : List Nat :=
  if inside : position < code.size then
    position :: startsFrom code (position + code[position].span)
  else
    []
termination_by code.size - position
decreasing_by
  have := code[position].span_pos
  omega

/-- The slots at which an instruction starts, in address order; the others are second halves of
two-slot loads. -/
def starts (code : Code) : List Nat :=
  code.startsFrom 0

end Code

end PacketFilter
