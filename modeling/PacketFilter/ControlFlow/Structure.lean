import PacketFilter.ControlFlow.Graph
import PacketFilter.Instruction.Operation
import PacketFilter.Rejection

/-!
# Well-formed programs

The demands a program must meet before its meaning is looked at: every slot
encodes a supported operation and leaves its unused fields zero, every jump
lands on an instruction, and control never runs past the end.
-/

namespace PacketFilter

/-- What is wrong, when anything is. -/
abbrev Complaint := Option RejectionCause

namespace Instruction

/-- The fields an arithmetic instruction does not use are zero. -/
def arithmeticReserved? (instruction : Instruction) : Complaint :=
  if instruction.hasRegisterOperand ∧ instruction.operationField ≠ Opcode.convertOrder then
    if instruction.immediate ≠ 0 then some .arithmeticReserved else none
  else if instruction.source ≠ 0 then
    some .arithmeticReserved
  else
    none

/-- The operation of an arithmetic instruction and the demands of its own on the operand. -/
def arithmeticOperation? (instruction : Instruction) : Complaint :=
  let isWhole := instruction.family == .arithmetic
  match Arithmetic.ofCode? instruction.operationField with
  | some .shiftLeft | some .shiftRight | some .signedShiftRight =>
    let width : Int := if isWhole then 64 else 32
    let count := instruction.immediate.toInt
    if !instruction.hasRegisterOperand && !(0 ≤ count && count < width) then
      some (.invalidShift instruction.immediate)
    else
      none
  | some .neg =>
    if instruction.hasRegisterOperand || instruction.source != 0 then
      some .negationReserved
    else
      none
  | some _ => none
  | none =>
    if instruction.operationField = Opcode.convertOrder then
      if isWhole then
        some .unconditionalSwap
      else if [16, 32, 64].contains instruction.immediate then
        none
      else
        some (.invalidOrderWidth instruction.immediate)
    else
      some (.invalidArithmetic instruction.operationField)

/-- What is wrong with an arithmetic instruction: first its offset, then its operation, then the
fields that the operation does not use. -/
def arithmeticProblem? (instruction : Instruction) : Complaint :=
  if instruction.offset ≠ 0 then
    some .arithmeticOffset
  else
    instruction.arithmeticOperation? <|> instruction.arithmeticReserved?

/-- What is wrong with a conditional jump: its comparison is unknown, or it names a source register
beside its immediate. -/
def branchProblem? (instruction : Instruction) : Complaint :=
  match Comparison.ofCode? instruction.operationField with
  | some _ =>
    if !instruction.hasRegisterOperand && instruction.source != 0 then
      some .branchReserved
    else
      none
  | none => some (.invalidJump instruction.operationField)

/-- What is wrong with an instruction of the jump family, by what it does there; each uses other
fields. -/
def jumpProblem? (instruction : Instruction) : Complaint :=
  if instruction.isJumpAlways then
    if instruction.hasRegisterOperand || instruction.source != 0 ||
        instruction.destination != 0 || instruction.immediate != 0 then
      some .jumpReserved
    else
      none
  else if instruction.isCall then
    if instruction.source = 0 then none
    else if instruction.source = 1 then some .subprogramCall
    else some .foreignCall
  else if instruction.isExit then
    if instruction.source != 0 || instruction.destination != 0 ||
        instruction.immediate != 0 || instruction.offset != 0 then
      some .exitReserved
    else
      none
  else
    instruction.branchProblem?

/-- What is wrong with an atomic operation: its width comes first, then its operation. -/
def atomicProblem? (instruction : Instruction) : Complaint :=
  if instruction.accessSize ≠ .word ∧ instruction.accessSize ≠ .double then
    some .atomicWidth
  else if (AtomicOperation.ofImmediate? instruction.immediate).isSome then
    none
  else
    some (.invalidAtomic instruction.immediate)

/-- What is wrong with a load or a store, by its mode. -/
def memoryProblem? (instruction : Instruction) : Complaint :=
  if instruction.modeField = Opcode.memoryMode then
    none
  else if instruction.family = .load ∧ instruction.modeField = Opcode.signExtendingMode then
    some .signExtendingLoad
  else if instruction.isAtomic then
    instruction.atomicProblem?
  else
    some (.invalidMemoryMode instruction.modeField)

/-- A two-slot load needs a second slot that carries nothing but its immediate. -/
def wideLoadProblem? (instruction : Instruction) (next? : Option Instruction) : Complaint :=
  if !instruction.isWideLoad then
    some .packetLoad
  else
    match next? with
    | none => some .incompleteWideLoad
    | some next =>
      if next.code != 0 || next.destination != 0 || next.source != 0 || next.offset != 0 then
        some .invalidWideLoadHalf
      else if instruction.source ≠ 0 ∧ instruction.source ≠ mapHandleMarker then
        some (.unknownWideLoad instruction.source)
      else if instruction.offset ≠ 0 then
        some .wideLoadReserved
      else
        none

/-- The instruction overwrites its destination register. -/
def writesDestination (instruction : Instruction) : Bool :=
  match instruction.family with
  | .arithmetic | .arithmetic32 | .load => true
  | _ => instruction.isWideLoad

/-- What is wrong with the instruction by itself. -/
def problem? (instruction : Instruction) (next? : Option Instruction) : Complaint :=
  if 11 ≤ instruction.destination ∨ 11 ≤ instruction.source then
    some .invalidRegister
  else if instruction.writesDestination ∧ instruction.destination = 10 then
    some .frameRegisterWritten
  else
    match instruction.family with
    | .wideLoad => instruction.wideLoadProblem? next?
    | .arithmetic | .arithmetic32 => instruction.arithmeticProblem?
    | .jump | .jump32 => instruction.jumpProblem?
    | .load | .storeImmediate | .storeRegister => instruction.memoryProblem?

end Instruction

namespace Code

/-- What is wrong with the instruction that starts at a slot, taken by itself. -/
def problemAt? (code : Code) (position : Nat) : Complaint := do
  let instruction ← code[position]?
  instruction.problem? code[position + 1]?

/-- What is wrong with the target of the jump at a slot. -/
def targetProblemAt? (code : Code) (starts : Array Bool) (position : Nat) : Complaint := do
  let instruction ← code[position]?
  guard instruction.isJump
  match instruction.jumpTarget? position code.size with
  | none => some (.jumpOutOfRange instruction.offset.toInt)
  | some target => if starts[target]?.getD false then none else some .jumpIntoWideLoad

/-- The first slot with a complaint. -/
def firstProblem? (positions : List Nat) (problemAt? : Nat → Complaint) : Option Rejection :=
  positions.findSome? fun position => (problemAt? position).map (Rejection.atSlot position)

/-- Every slot of a program of acceptable length is well formed, and so is every jump target. -/
def checkStructure (code : Code) (limit : Nat) : Except Rejection Unit :=
  if code.isEmpty then
    .error (.ofProgram .emptyProgram)
  else if limit < code.size then
    .error (.ofProgram (.programTooLong code.size limit))
  else
    match firstProblem? code.starts code.problemAt? <|>
        firstProblem? code.starts (code.targetProblemAt? (Graph.marks code.size code.starts)) with
    | some rejection => .error rejection
    | none => .ok ()

/-- Whether control could pass from the instruction at a slot to a slot past the end. -/
def runsOffAt (code : Code) (position : Nat) : Bool :=
  match code[position]? with
  | none => false
  | some instruction =>
    !instruction.isExit && !instruction.isJumpAlways &&
      code.size ≤ position + instruction.span

/-- No reachable instruction lets control run past the end. -/
def checkFallThrough (code : Code) (graph : Graph) : Except Rejection Unit :=
  match graph.reachable.find? code.runsOffAt with
  | some position => .error (.atSlot position .missingExit)
  | none => .ok ()

end Code

end PacketFilter
