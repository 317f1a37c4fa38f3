import PacketFilter.Instruction.Atomic
import PacketFilter.Instruction.Basic

/-!
# Decoded instructions

What an instruction slot asks for, with register numbers, operands and
operations in types of their own.  `Code.operation?` reads the operation that
starts at a slot.  It demands no more than the machine needs to carry the
operation out; fields that the operation does not use are not looked at.
-/

namespace PacketFilter

/-- A register number. -/
abbrev RegisterName := Fin 11

namespace RegisterName

/-- The register of results and exit codes. -/
def result : RegisterName := 0
/-- The register that holds the context pointer at entry, and the first argument of a call. -/
def context : RegisterName := 1
/-- The read-only register that points just past the stack frame. -/
def frame : RegisterName := 10

/-- The first argument of a helper call. -/
def first : RegisterName := 1
/-- The second argument of a helper call. -/
def second : RegisterName := 2
/-- The third argument of a helper call. -/
def third : RegisterName := 3
/-- The fourth argument of a helper call. -/
def fourth : RegisterName := 4

/-- The arguments of a helper call, in order. -/
def arguments : List RegisterName := [1, 2, 3, 4, 5]

/-- The registers whose contents do not survive a helper call. -/
def callerSaved : List RegisterName := [0, 1, 2, 3, 4, 5]

/-- The register of a number; there are eleven. -/
def ofNumber? (number : UInt8) : Option RegisterName :=
  if inside : number.toNat < 11 then some ⟨number.toNat, inside⟩ else none

end RegisterName

/-- A value for every register. -/
abbrev RegisterFile (α : Type) := Vector α 11

namespace RegisterFile

variable {α : Type}

/-- The same value in every register. -/
def fill (value : α) : RegisterFile α :=
  Vector.replicate 11 value

/-- The contents of a register. -/
def read (file : RegisterFile α) (name : RegisterName) : α :=
  file.get name

/-- The registers with one of them replaced. -/
def write (file : RegisterFile α) (name : RegisterName) (value : α) : RegisterFile α :=
  file.set name.val value

end RegisterFile

/-- Whether an operation works on whole registers or on their low halves. -/
inductive Width where
  | whole
  | half
  deriving DecidableEq, Repr

/-- The second operand of an operation. -/
inductive Operand where
  | register (name : RegisterName)
  | immediate (value : Int32)
  deriving DecidableEq, Repr

/-- A decoded instruction. -/
inductive Operation where
  | compute (width : Width) (arithmetic : Arithmetic) (destination : RegisterName)
      (operand : Operand)
  | convertOrder (order : ByteOrder) (bits : Nat) (destination : RegisterName)
  | load (size : AccessSize) (destination base : RegisterName) (offset : Int)
  | store (size : AccessSize) (base : RegisterName) (offset : Int) (value : Operand)
  | atomic (operation : AtomicOperation) (size : AccessSize) (base source : RegisterName)
      (offset : Int)
  | loadConstant (destination : RegisterName) (value : Word)
  | loadMap (destination : RegisterName) (index : Int32)
  | jump
  | branch (width : Width) (comparison : Comparison) (left : RegisterName) (right : Operand)
  | call (helper : Int32)
  | exit
  deriving DecidableEq, Repr

namespace Instruction

/-- The operand that the selector bit chooses. -/
def operand (instruction : Instruction) (source : RegisterName) : Operand :=
  if instruction.hasRegisterOperand then .register source else .immediate instruction.immediate

/-- The marker, in the source register of a two-slot load, of a map handle. -/
def mapHandleMarker : UInt8 := 1

/-- The number spread over the immediates of two slots, low half first. -/
def wideImmediate (first second : Instruction) : Word :=
  Word.ofImmediate32 second.immediate <<< 32 ||| Word.ofImmediate32 first.immediate

/-- An order conversion of 16, 32 or 64 bits. -/
def convertOrder? (instruction : Instruction) (destination : RegisterName) : Option Operation :=
  let order := if instruction.hasRegisterOperand then ByteOrder.big else ByteOrder.little
  if instruction.immediate = 16 then some (.convertOrder order 16 destination)
  else if instruction.immediate = 32 then some (.convertOrder order 32 destination)
  else if instruction.immediate = 64 then some (.convertOrder order 64 destination)
  else none

/-- The arithmetic operation that the fields spell out, once its registers are known. -/
def arithmetic? (instruction : Instruction) (width : Width) (destination source : RegisterName) :
    Option Operation :=
  (Arithmetic.ofCode? instruction.operationField).map fun arithmetic =>
    .compute width arithmetic destination (instruction.operand source)

/-- The conditional jump that the fields spell out, once its registers are known. -/
def branch? (instruction : Instruction) (width : Width) (destination source : RegisterName) :
    Option Operation :=
  (Comparison.ofCode? instruction.operationField).map fun comparison =>
    .branch width comparison destination (instruction.operand source)

/--
The operation that a slot and the one after it encode.  The second slot counts
only for two-slot loads, which need one.
-/
def decode? (instruction : Instruction) (next? : Option Instruction) : Option Operation := do
  let destination ← RegisterName.ofNumber? instruction.destination
  let source ← RegisterName.ofNumber? instruction.source
  let offset := instruction.offset.toInt
  match instruction.family with
  | .arithmetic => instruction.arithmetic? .whole destination source
  | .arithmetic32 =>
    if instruction.operationField = Opcode.convertOrder then
      instruction.convertOrder? destination
    else
      instruction.arithmetic? .half destination source
  | .load => some (.load instruction.accessSize destination source offset)
  | .storeImmediate =>
    some (.store instruction.accessSize destination offset (.immediate instruction.immediate))
  | .storeRegister =>
    if instruction.modeField = Opcode.atomicMode then
      (AtomicOperation.ofImmediate? instruction.immediate).map fun operation =>
        .atomic operation instruction.accessSize destination source offset
    else
      some (.store instruction.accessSize destination offset (.register source))
  | .wideLoad =>
    if instruction.isWideLoad then
      next?.map fun next =>
        if instruction.source = mapHandleMarker then
          .loadMap destination instruction.immediate
        else
          .loadConstant destination (wideImmediate instruction next)
    else
      none
  | .jump =>
    if instruction.isExit then some .exit
    else if instruction.isCall then some (.call instruction.immediate)
    else if instruction.isJumpAlways then some .jump
    else instruction.branch? .whole destination source
  | .jump32 => instruction.branch? .half destination source

end Instruction

/-- The operation that starts at a slot; nothing when there is no slot or it encodes none. -/
def Code.operation? (code : Code) (position : Nat) : Option Operation := do
  let instruction ← code[position]?
  instruction.decode? code[position + 1]?

end PacketFilter
