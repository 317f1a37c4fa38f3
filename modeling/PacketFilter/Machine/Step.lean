import PacketFilter.AttachPoint
import PacketFilter.Digest
import PacketFilter.Helper
import PacketFilter.Instruction.Operation
import PacketFilter.Machine.Memory
import PacketFilter.Verdict

/-!
# Steps of the machine

What one instruction does to the registers and the memory of a run.  The
machine trusts nobody: every access is checked against its region, and what
cannot be carried out ends the run with a fault that leaves the machine as it
was when the fault was found.
-/

namespace PacketFilter

/-- What a clock reads, by how many instructions a run has begun. -/
abbrev Clock := Nat → Word

/-- A clock that reads the same throughout. -/
def Clock.still (time : Word) : Clock :=
  fun _ => time

/-- What stays the same during a run. -/
structure Setup where
  code : Code
  /-- The maps of the program, in the order of its bindings. -/
  maps : List MapId
  attach : AttachPoint
  clock : Clock
  budget : Nat

/-- A machine in the middle of a run. -/
structure Machine where
  registers : RegisterFile Word
  position : Nat := 0
  /-- How many instructions have been begun. -/
  steps : Nat := 0
  memory : Memory
  /-- The target of the last redirection asked for. -/
  redirectTarget? : Option Nat := none
  deriving Repr

/-- Something that a machine does, and that may fail half-way. -/
abbrev Execution := ExceptT Fault (StateM Machine)

namespace Machine

/-- The word in a register. -/
def register (machine : Machine) (name : RegisterName) : Word :=
  machine.registers.read name

/-- Replace the word in a register. -/
def setRegister (machine : Machine) (name : RegisterName) (value : Word) : Machine :=
  { machine with registers := machine.registers.write name value }

/-- At entry the first argument is the context and the frame register points past the stack. -/
def start (memory : Memory) : Machine :=
  let blank : Machine := { registers := .fill 0, memory }
  (blank.setRegister .context Memory.contextPointer).setRegister .frame memory.framePointer

/-- The word that an operand stands for; immediates are sign-extended. -/
def operand (machine : Machine) : Operand → Word
  | .register name => machine.register name
  | .immediate value => Word.ofImmediate value

end Machine

namespace Execution

/-- The word in a register, which every machine has. -/
def read (name : RegisterName) : Execution Word := do
  return (← get).register name

/-- Put a word into a register. -/
def write (name : RegisterName) (value : Word) : Execution Unit :=
  modify fun machine => machine.setRegister name value

/-- The word that an operand stands for. -/
def operand (operand : Operand) : Execution Word := do
  return (← get).operand operand

/-- The instruction cannot be carried out. -/
def refuse {α : Type} : Execution α := do
  throw (.invalidInstruction (← get).position)

/-- The access does not lie in its region. -/
def violation {α : Type} (address : Word) (size : Nat) : Execution α := do
  throw (.outOfBounds (← get).position address size)

/-- Go on with another memory. -/
def setMemory (memory : Memory) : Execution Unit :=
  modify fun machine => { machine with memory }

/-! ## Memory -/

/-- Load a word, or end the run where no region has the bytes. -/
def load (address : Word) (size : Nat) : Execution Word := do
  match (← get).memory.load? address size with
  | some value => return value
  | none => violation address size

/-- Store a word, or end the run where no region takes the bytes. -/
def store (address : Word) (size : Nat) (value : Word) : Execution Unit := do
  match (← get).memory.store? address size value with
  | some memory => setMemory memory
  | none => violation address size

/-- Replace an integer in memory by a function of it; the old integer. -/
def update (address : Word) (size : Nat) (change : Word → Word) : Execution Word := do
  match (← get).memory.update? address size change with
  | some (old, memory) =>
    setMemory memory
    return old
  | none => violation address size

/-- The bytes behind a pointer that a helper was given. -/
def readBytes (address : Word) (size : Nat) : Execution Bytes := do
  match (← get).memory.read? address size with
  | some bytes => return bytes
  | none => violation address size

/-- Perform an operation on the store of maps. -/
def onStore {α : Type} (action : StoreAction α) : Execution (Except MapError α) := do
  let memory := (← get).memory
  let (result, store) := action.run memory.store
  setMemory { memory with store }
  return result

/-! ## Helpers -/

/-- The map that a handle stands for. -/
def mapOf (setup : Setup) (handle : Word) : Execution (MapId × Map) := do
  if RegionAddress.region handle ≠ RegionAddress.mapHandle then
    violation handle 0
  else
    match setup.maps[RegionAddress.offset handle]? with
    | none => violation handle 0
    | some id =>
      match (← get).memory.store.map? id with
      | none => violation handle 0
      | some map => return (id, map)

/-- What a helper returns for the outcome of an operation on a map. -/
def codeOf : Except MapError Unit → Word
  | .ok () => 0
  | .error error => BitVec.ofInt 64 error.code

/-- What a helper returns for a mode that does not exist. -/
def invalidModeCode : Word :=
  BitVec.ofInt 64 (-22)

/-- Hand out a region for the cell under a key; zero if there is none. -/
def callMapLookup (setup : Setup) : Execution Word := do
  let (id, map) ← mapOf setup (← read .first)
  let key ← readBytes (← read .second) map.schema.keySize
  let worker := (← get).memory.metadata.worker
  match ← onStore (Store.onMap id (Map.lookupCell key worker)) with
  | .ok (some number) =>
    match (← get).memory.addMapValue? ⟨id, number⟩ with
    | some (address, memory) =>
      setMemory memory
      return address
    | none => return 0
  | _ => return 0

/-- Put a value under a key; the result is zero or the code of an error. -/
def callMapUpdate (setup : Setup) : Execution Word := do
  let (id, map) ← mapOf setup (← read .first)
  let key ← readBytes (← read .second) map.schema.keySize
  let value ← readBytes (← read .third) map.schema.valueSize
  match UpdateMode.ofCode? (← read .fourth) with
  | none => return invalidModeCode
  | some mode =>
    let worker := (← get).memory.metadata.worker
    return codeOf (← onStore (Store.onMap id (Map.updateFromWorker key value mode worker)))

/-- Remove a key; the result is zero or the code of an error. -/
def callMapDelete (setup : Setup) : Execution Word := do
  let (id, map) ← mapOf setup (← read .first)
  let key ← readBytes (← read .second) map.schema.keySize
  return codeOf (← onStore (Store.onMap id (Map.delete key)))

/-- The helper may not be called here. -/
def disallow {α : Type} (helper : Helper) : Execution α := do
  throw (.disallowedCall (← get).position (Int32.ofNat helper.number))

/-- Keep the low half of the first argument as the target, and return the verdict to leave with;
flags are answered with the verdict for errors. -/
def callRedirect (setup : Setup) : Execution Word := do
  if !setup.attach.allowsRedirect then
    disallow .redirect
  else if (← read .second) ≠ 0 then
    return BitVec.ofNat 64 Verdict.error.code
  else
    let target := (← read .first).low32.toNat
    modify fun machine => { machine with redirectTarget? := some target }
    return BitVec.ofNat 64 (Verdict.redirect target).code

/-- The digest of some bytes in memory; how many there may be is limited. -/
def callDigest : Execution Word := do
  let address ← read .first
  let size := (← read .second).toNat
  if size = 0 ∨ Helper.digestLimit < size then
    violation address size
  else
    let bytes ← readBytes address size
    return (Digest.ofBytes bytes.toList).toBitVec.zeroExtend 64

/-- The ring buffer that a handle stands for. -/
def ringOf (setup : Setup) (helper : Helper) (handle : Word) : Execution MapId := do
  let (id, map) ← mapOf setup handle
  if map.ring?.isSome then return id else disallow helper

/-- Copy a record into a ring; the result is zero or a code. -/
def callRingOutput (setup : Setup) : Execution Word := do
  let id ← ringOf setup .ringOutput (← read .first)
  let data ← readBytes (← read .second) (← read .third).toNat
  let memory := (← get).memory
  let (result?, store) := memory.store.onRing id fun ring => ring.output? data
  setMemory { memory with store }
  return if result?.join.isSome then 0 else codeOf (.error .ringFull)

/-- Hand out a region for a new record in a ring; zero if there is no room. -/
def callRingReserve (setup : Setup) : Execution Word := do
  let id ← ringOf setup .ringReserve (← read .first)
  let size := (← read .second).toNat
  let memory := (← get).memory
  let (result?, store) := memory.store.onRing id fun ring => ring.reserve size
  let memory := { memory with store }
  match result?.join with
  | none =>
    setMemory memory
    return 0
  | some reservation =>
    let (address?, memory) := memory.addRecord ⟨id, reservation⟩
    setMemory memory
    return address?.getD 0

/-- Submit or discard the record that starts at an address. -/
def callRingComplete (isDiscarded : Bool) : Execution Word := do
  let address ← read .first
  match (← get).memory.release? address with
  | none => violation address 0
  | some (record, memory) =>
    setMemory (memory.complete record isDiscarded)
    return 0

/-- Carry out a helper call; what it returns.  The argument registers keep their values. -/
def call (setup : Setup) : Helper → Execution Word
  | .mapLookup => callMapLookup setup
  | .mapUpdate => callMapUpdate setup
  | .mapDelete => callMapDelete setup
  | .currentTime => return setup.clock (← get).steps
  | .redirect => callRedirect setup
  | .digest => callDigest
  | .ringOutput => callRingOutput setup
  | .ringReserve => callRingReserve setup
  | .ringSubmit => callRingComplete false
  | .ringDiscard => callRingComplete true
  | .workerNumber => return BitVec.ofNat 64 (← get).memory.metadata.worker

/-! ## Operations -/

/-- Move on to a position. -/
def moveTo (position : Nat) : Execution Unit :=
  modify fun machine => { machine with position }

/-- Move on to where the jump at this position leads. -/
def jump (setup : Setup) (instruction : Instruction) : Execution Unit := do
  match instruction.jumpTarget? (← get).position setup.code.size with
  | some target => moveTo target
  | none => refuse

/-- The result of an operation; of 32 bits it fills the register up with zeros. -/
def evaluate (width : Width) (arithmetic : Arithmetic) (left right : Word) : Word :=
  match width with
  | .whole => arithmetic.apply left right
  | .half => arithmetic.apply32 left right

/-- Whether two words compare, as a whole or in their low halves. -/
def holds (width : Width) (comparison : Comparison) (left right : Word) : Bool :=
  match width with
  | .whole => comparison.holds left right
  | .half => comparison.holds (left.setWidth 32) (right.setWidth 32)

/-- The low bytes of a word in the given order, the others zero. -/
def convertOrder (order : ByteOrder) (bits : Nat) (value : Word) : Word :=
  match order with
  | .little => value.lowBits bits
  | .big => value.reverseBytes bits

/-- What an atomic operation leaves in memory. -/
def replacement (operation : AtomicOperation) (operand expected old : Word) : Word :=
  match operation with
  | .combine combination _ => combination.apply old operand
  | .exchange => operand
  | .compareExchange => if old = expected then operand else old

/-- Carry out an atomic operation and hand the old value back to whom it asks for. -/
def atomic (operation : AtomicOperation) (size : AccessSize) (base source : RegisterName)
    (offset : Int) : Execution Unit := do
  let bits := size.bytes * 8
  let operand := (← read source).lowBits bits
  let expected := (← read RegisterName.result).lowBits bits
  let address := (← read base) + BitVec.ofInt 64 offset
  let old ← update address size.bytes (replacement operation operand expected)
  match operation with
  | .combine _ fetches => if fetches then write source old
  | .exchange => write source old
  | .compareExchange => write RegisterName.result old

/-- Carry out the operation of an instruction; the code in the result register at an exit. -/
def perform (setup : Setup) (instruction : Instruction) (operation : Operation) :
    Execution (Option Word) := do
  let following := (← get).position + instruction.span
  match operation with
  | .exit => return some (← read RegisterName.result)
  | .jump =>
    jump setup instruction
    return none
  | .branch width comparison left right =>
    if holds width comparison (← read left) (← operand right) then
      jump setup instruction
    else
      moveTo following
    return none
  | .compute width arithmetic destination right =>
    write destination (evaluate width arithmetic (← read destination) (← operand right))
  | .convertOrder order bits destination =>
    write destination (convertOrder order bits (← read destination))
  | .load size destination base offset =>
    write destination (← load ((← read base) + BitVec.ofInt 64 offset) size.bytes)
  | .store size base offset value =>
    store ((← read base) + BitVec.ofInt 64 offset) size.bytes (← operand value)
  | .atomic operation size base source offset => atomic operation size base source offset
  | .loadConstant destination value => write destination value
  | .loadMap destination index =>
    write destination
      (RegionAddress.make RegionAddress.mapHandle (BitVec.ofInt 32 index.toInt).toNat)
  | .call immediate =>
    match Helper.ofImmediate? immediate with
    | some helper => write RegisterName.result (← call setup helper)
    | none => throw (.disallowedCall (← get).position immediate)
  moveTo following
  return none

/-- One step: the instruction at the current position. -/
def step (setup : Setup) : Execution (Option Word) := do
  modify fun machine => { machine with steps := machine.steps + 1 }
  let position := (← get).position
  match setup.code[position]?, setup.code.operation? position with
  | some instruction, some operation => perform setup instruction operation
  | _, _ => refuse

end Execution

end PacketFilter
