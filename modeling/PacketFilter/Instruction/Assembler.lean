import PacketFilter.Instruction.Operation

/-!
# Assembling programs

An assembly in progress collects slots, labels and the jumps that wait for a
label.  `finish` puts the distances in.  A misused label is remembered, not
acted upon, so that assembling goes on and the first misuse is what `finish`
reports.

A label is a number; nothing keeps one assembly from being handed the label of
another, and such a label is unknown here or names a label of this assembly.
-/

namespace PacketFilter

/-- Why an assembly did not come to a program. -/
inductive AssemblyError where
  | unboundLabel (label : Nat)
  | duplicateLabel (label : Nat)
  /-- The distance does not fit in 16 bits. -/
  | jumpTooFar (position destination : Nat)
  deriving DecidableEq, Repr

namespace AssemblyError

def label : AssemblyError → String
  | unboundLabel _ => "UnboundLabel"
  | duplicateLabel _ => "DuplicateLabel"
  | jumpTooFar .. => "JumpOutOfRange"

/-- The error as one line. -/
def message : AssemblyError → String
  | unboundLabel label => s!"unbound label {label}"
  | duplicateLabel label => s!"label {label} bound twice"
  | jumpTooFar position destination => s!"jump from {position} to {destination} out of range"

end AssemblyError

/-- A program being put together. -/
structure Assembly where
  code : Code := #[]
  /-- Where each label created so far is bound. -/
  labels : Array (Option Nat) := #[]
  /-- The jumps to be resolved, with their labels, in the order they were written. -/
  waiting : Array (Nat × Nat) := #[]
  /-- The first misuse of a label. -/
  misuse? : Option AssemblyError := none
  deriving Repr, Inhabited

namespace Assembly

/-- A program without slots or labels. -/
def empty : Assembly :=
  {}

/-- A fresh label, bound to nothing yet. -/
def newLabel (assembly : Assembly) : Nat × Assembly :=
  (assembly.labels.size, { assembly with labels := assembly.labels.push none })

/-- Remember a misuse unless there was one before. -/
def complain (assembly : Assembly) (error : AssemblyError) : Assembly :=
  { assembly with misuse? := some (assembly.misuse?.getD error) }

/-- Bind a label to the slot that comes next. -/
def bind (assembly : Assembly) (label : Nat) : Assembly :=
  match assembly.labels[label]? with
  | some none =>
    { assembly with labels := assembly.labels.setIfInBounds label (some assembly.code.size) }
  | some (some _) => assembly.complain (.duplicateLabel label)
  | none => assembly.complain (.unboundLabel label)

/-- Add one slot. -/
def slot (assembly : Assembly) (instruction : Instruction) : Assembly :=
  { assembly with code := assembly.code.push instruction }

/-- Add one slot given by its fields. -/
def emit (assembly : Assembly) (code destination source : UInt8) (offset : Int16)
    (immediate : Int32) : Assembly :=
  assembly.slot ⟨code, destination, source, offset, immediate⟩

/-- Add a jump whose distance is to lead to the label. -/
def emitJump (assembly : Assembly) (code destination source : UInt8) (immediate : Int32)
    (label : Nat) : Assembly :=
  let waiting := assembly.waiting.push (assembly.code.size, label)
  { assembly with waiting := waiting }.emit code destination source 0 immediate

/-- The distance a jump has to carry to get from its slot to another. -/
def distance (position destination : Nat) : Int :=
  (destination : Int) - position - 1

/-- Put the distance of one waiting jump into its slot. -/
def resolve (labels : Array (Option Nat)) (code : Code) (jump : Nat × Nat) :
    Except AssemblyError Code :=
  match (labels[jump.2]?).join with
  | none => .error (.unboundLabel jump.2)
  | some destination =>
    let offset := distance jump.1 destination
    if -0x8000 ≤ offset ∧ offset < 0x8000 then
      .ok (code.modify jump.1 fun instruction =>
        { instruction with offset := Int16.ofInt offset })
    else
      .error (.jumpTooFar jump.1 destination)

/-- The program with every jump resolved, or the first thing that went wrong. -/
def finish (assembly : Assembly) : Except AssemblyError Code :=
  match assembly.misuse? with
  | some error => .error error
  | none => assembly.waiting.toList.foldlM (resolve assembly.labels) assembly.code

/-! ## Arithmetic -/

/-- A 64-bit operation on a register and a constant, by its code. -/
def arithmeticImmediate (assembly : Assembly) (operation destination : UInt8)
    (immediate : Int32) : Assembly :=
  assembly.emit (Family.arithmetic.code ||| operation) destination 0 0 immediate

/-- A 64-bit operation on two registers, by its code. -/
def arithmeticRegister (assembly : Assembly) (operation destination source : UInt8) : Assembly :=
  assembly.emit (Family.arithmetic.code ||| operation ||| Opcode.registerOperand)
    destination source 0 0

/-- A 32-bit operation on a register and a constant, by its code. -/
def arithmetic32Immediate (assembly : Assembly) (operation destination : UInt8)
    (immediate : Int32) : Assembly :=
  assembly.emit (Family.arithmetic32.code ||| operation) destination 0 0 immediate

/-- A 32-bit operation on two registers, by its code. -/
def arithmetic32Register (assembly : Assembly) (operation destination source : UInt8) :
    Assembly :=
  assembly.emit (Family.arithmetic32.code ||| operation ||| Opcode.registerOperand)
    destination source 0 0

/-- An arithmetic operation with an immediate operand. -/
def withImmediate (assembly : Assembly) (operation : Arithmetic) (destination : UInt8)
    (immediate : Int32) : Assembly :=
  assembly.arithmeticImmediate operation.code destination immediate

/-- An arithmetic operation with a register operand. -/
def withRegister (assembly : Assembly) (operation : Arithmetic) (destination source : UInt8) :
    Assembly :=
  assembly.arithmeticRegister operation.code destination source

/-- Put a constant into a register, sign-extended. -/
def moveImmediate (assembly : Assembly) (destination : UInt8) (immediate : Int32) : Assembly :=
  assembly.withImmediate .move destination immediate

/-- Copy a register as a whole. -/
def moveRegister (assembly : Assembly) (destination source : UInt8) : Assembly :=
  assembly.withRegister .move destination source

/-- Replace a register by its negative. -/
def negate (assembly : Assembly) (destination : UInt8) : Assembly :=
  assembly.withImmediate .neg destination 0

/-- Convert the low `bits` of a register between host and network order. -/
def convertOrder (assembly : Assembly) (order : ByteOrder) (destination : UInt8)
    (bits : Int32) : Assembly :=
  let selector := match order with
    | .big => Opcode.registerOperand
    | .little => 0
  assembly.emit (Family.arithmetic32.code ||| Opcode.convertOrder ||| selector) destination 0 0 bits

/-! ## Memory -/

/-- Load a 64-bit immediate. -/
def loadConstant (assembly : Assembly) (destination : UInt8) (value : Word) : Assembly :=
  (assembly.emit Opcode.wideLoad destination 0 0 (Int32.ofBitVec (value.setWidth 32))).emit
    0 0 0 0 (Int32.ofBitVec ((value >>> 32).setWidth 32))

/-- Load the handle of a declared map. -/
def loadMap (assembly : Assembly) (destination : UInt8) (index : Int32) : Assembly :=
  (assembly.emit Opcode.wideLoad destination Instruction.mapHandleMarker 0 index).emit 0 0 0 0 0

/-- Load from where the source register points, moved by the offset. -/
def load (assembly : Assembly) (size destination source : UInt8) (offset : Int16) : Assembly :=
  assembly.emit (Family.load.code ||| Opcode.memoryMode ||| size) destination source offset 0

/-- Store a register to where the destination register points, moved by the offset. -/
def storeRegister (assembly : Assembly) (size destination source : UInt8) (offset : Int16) :
    Assembly :=
  assembly.emit (Family.storeRegister.code ||| Opcode.memoryMode ||| size) destination source
    offset 0

/-- Store a constant to where the destination register points, moved by the offset. -/
def storeImmediate (assembly : Assembly) (size destination : UInt8) (offset : Int16)
    (immediate : Int32) : Assembly :=
  assembly.emit (Family.storeImmediate.code ||| Opcode.memoryMode ||| size) destination 0 offset
    immediate

/-- An atomic operation on the memory behind the destination register, by its number. -/
def atomic (assembly : Assembly) (size : UInt8) (operation : Int32) (destination source : UInt8)
    (offset : Int16) : Assembly :=
  assembly.emit (Family.storeRegister.code ||| Opcode.atomicMode ||| size) destination source
    offset operation

/-! ## Control flow -/

/-- Go to the label in any case. -/
def jump (assembly : Assembly) (label : Nat) : Assembly :=
  assembly.emitJump Family.jump.code 0 0 0 label

/-- Go to the label if a register compares with a constant, by the code of the comparison. -/
def branchImmediate (assembly : Assembly) (operation destination : UInt8) (immediate : Int32)
    (label : Nat) : Assembly :=
  assembly.emitJump (Family.jump.code ||| operation) destination 0 immediate label

/-- Go to the label if two registers compare, by the code of the comparison. -/
def branchRegister (assembly : Assembly) (operation destination source : UInt8) (label : Nat) :
    Assembly :=
  assembly.emitJump (Family.jump.code ||| operation ||| Opcode.registerOperand) destination source
    0 label

/-- Go to the label if the low half of a register compares with a constant. -/
def branch32Immediate (assembly : Assembly) (operation destination : UInt8) (immediate : Int32)
    (label : Nat) : Assembly :=
  assembly.emitJump (Family.jump32.code ||| operation) destination 0 immediate label

/-- Go to the label if the low halves of two registers compare. -/
def branch32Register (assembly : Assembly) (operation destination source : UInt8)
    (label : Nat) : Assembly :=
  assembly.emitJump (Family.jump32.code ||| operation ||| Opcode.registerOperand) destination
    source 0 label

/-- Jump if the comparison with an immediate holds. -/
def jumpIf (assembly : Assembly) (comparison : Comparison) (destination : UInt8)
    (immediate : Int32) (label : Nat) : Assembly :=
  assembly.branchImmediate (comparison.code?.getD 0) destination immediate label

/-- Jump if the comparison with a register holds. -/
def jumpIfRegister (assembly : Assembly) (comparison : Comparison) (destination source : UInt8)
    (label : Nat) : Assembly :=
  assembly.branchRegister (comparison.code?.getD 0) destination source label

/-- Call the helper of a number. -/
def call (assembly : Assembly) (helper : Int32) : Assembly :=
  assembly.emit (Family.jump.code ||| Opcode.call) 0 0 0 helper

/-- End the run with the verdict in the result register. -/
def exit (assembly : Assembly) : Assembly :=
  assembly.emit (Family.jump.code ||| Opcode.exit) 0 0 0 0

/-- Leave with the given verdict code. -/
def leaveWith (assembly : Assembly) (code : Int32) : Assembly :=
  (assembly.moveImmediate 0 code).exit

end Assembly

end PacketFilter
