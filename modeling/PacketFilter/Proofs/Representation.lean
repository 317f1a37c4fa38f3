import PacketFilter.Abstract.State
import PacketFilter.Machine.Run
import PacketFilter.Proofs.Address
import PacketFilter.Proofs.Bounds
import PacketFilter.Proofs.Maps
import PacketFilter.Verifier.Compute

/-!
# What an abstract state says of a machine

The verifier names unknown quantities by identities: the variable part of a
packet pointer, the base of a map value, the base of a reserved record.  A
valuation gives a word to every identity, and under a valuation an abstract
state describes machines: every register and every spilled slot holds what its
abstract value says, every byte of the frame is as it is tracked, and the
references of the state are the records that are open.

The description is of two machines at once that differ in nothing but the
bytes of the stack that the state does not know to be written.  The second
machine is given by its stack alone.  A statement about one machine takes the
two to be the same.

`Memory.Sound` collects what every memory of a run satisfies, whatever the
state says.
-/

namespace PacketFilter

/-- What stays the same during a run of a verified program. -/
structure Scene where
  setting : Setting
  /-- The maps of the program, in the order of its bindings. -/
  maps : List MapId
  /-- The packet as it was handed in. -/
  packet : Bytes
  stackSize : Nat

namespace Scene

/-- The offset that the frame register has in the stack. -/
def frameEnd (scene : Scene) : Nat :=
  scene.stackSize % 2 ^ 32

/-- The stack holds a whole frame. -/
def HoldsFrame (scene : Scene) : Prop :=
  StackFrame.size ≤ scene.frameEnd

/-- An access that misses the stack cannot fall into the packet. -/
def Roomy (scene : Scene) : Prop :=
  scene.HoldsFrame ∨ scene.packet.size + StackFrame.size ≤ 2 ^ 32

/-- The byte of the frame is one of the stack. -/
def Covers (scene : Scene) (byte : Nat) : Prop :=
  StackFrame.size ≤ scene.frameEnd + byte

/-- Where a byte of the frame is in the stack. -/
def position (scene : Scene) (byte : Nat) : Nat :=
  scene.frameEnd + byte - StackFrame.size

end Scene

/-- The numbers in the metadata fit the fields of the context. -/
structure Metadata.Fits (metadata : Metadata) : Prop where
  interface : metadata.interface < 2 ^ 32
  queue : metadata.queue < 2 ^ 32
  worker : metadata.worker < 2 ^ 32

namespace Memory

/-- The word is the base of a region that has been handed out. -/
def PointsTo (memory : Memory) (word : Word) (region : Region) : Prop :=
  ∃ index, word = RegionAddress.make (RegionAddress.firstDynamic + index) 0 ∧
    memory.regions[index]? = some region

/-- The word is the base of a record that is open. -/
def Opens (memory : Memory) (word : Word) (number : Nat) : Prop :=
  memory.PointsTo word (.record number) ∧ (memory.record? number).isSome = true

/-- What holds of the memory throughout a run. -/
structure Sound (scene : Scene) (memory : Memory) : Prop where
  packetSize : memory.packet.size = scene.packet.size
  packetKept : scene.setting.attach.allowsPacketWrite = false → memory.packet = scene.packet
  scratchSize : memory.scratch.size = ContextField.scratch.size
  metadata : memory.metadata.Fits
  stackSize : memory.stack.size = scene.stackSize
  store : memory.store.WellFormed
  maps : ∀ (index : Nat) (schema : Schema), scene.setting.schema? index = some schema →
    ∃ id map, scene.maps[index]? = some id ∧ memory.store.map? id = some map ∧
      map.schema = schema
  regions : RegionAddress.firstDynamic + memory.regions.size ≤ RegionAddress.mapHandle
  /-- A region of a map value leads to a cell. -/
  cells : ∀ id : CellId, Region.mapValue id ∈ memory.regions →
    ∃ map, memory.store.map? id.map = some map ∧ id.number < map.cells.size
  /-- A region of a record leads to one that has been reserved. -/
  numbers : ∀ number : Nat, Region.record number ∈ memory.regions →
    number < memory.records.size
  /-- An open record is in the ring of a map and fits its slots. -/
  records : ∀ (number : Nat) (record : OpenRecord), memory.record? number = some record →
    ∃ map, memory.store.map? record.map = some map ∧ map.schema.kind = .ringBuffer ∧
      record.reservation.length ≤ map.schema.valueSize

/-- The memory with another stack. -/
def withStack (memory : Memory) (stack : Bytes) : Memory :=
  { memory with stack }

end Memory

def Machine.withStack (machine : Machine) (stack : Bytes) : Machine :=
  { machine with memory := machine.memory.withStack stack }

/-- How the identities of an abstract state are to be read. -/
structure Interpretation where
  scene : Scene
  memory : Memory
  valuation : Nat → Word
  /-- The references of the state. -/
  references : List Nat

namespace Interpretation

/-- The word is as far from the base that its identity stands for as the value says; while it may
be null, it is that base. -/
structure Points (reading : Interpretation) (value : AbstractValue) (word : Word) : Prop where
  identity : value.identity ≠ 0
  place : ∃ change ∈ value.bounds,
    word = reading.valuation value.identity + BitVec.ofInt 64 value.offset + change ∧
      (value.mayBeNull = true → value.offset = 0 ∧ change = 0)
  nonNull : value.mayBeNull = false → reading.valuation value.identity ≠ 0

/-- The base, unless it is null, is that of a value of the declared map. -/
def IsMapValue (reading : Interpretation) (value : AbstractValue) : Prop :=
  reading.valuation value.identity ≠ 0 →
    ∃ id : CellId, reading.memory.PointsTo (reading.valuation value.identity) (.mapValue id) ∧
      reading.scene.maps[value.mapIndex]? = some id.map

/-- The base, unless it is null, is that of an open record which the state refers to and which has
the size that is known. -/
def IsRecord (reading : Interpretation) (value : AbstractValue) : Prop :=
  reading.valuation value.identity ≠ 0 →
    value.identity ∈ reading.references ∧
      ∃ number record,
        reading.memory.PointsTo (reading.valuation value.identity) (.record number) ∧
          reading.memory.record? number = some record ∧
            value.size ≤ record.reservation.length

/-- The variable part of a packet pointer is the word of its identity; a range counts from it,
unless it is out of all proportion. -/
structure IsPacket (reading : Interpretation) (value : AbstractValue) (word : Word) : Prop where
  place : word = RegionAddress.make RegionAddress.packet 0 +
    BitVec.ofInt 64 value.offset + reading.valuation value.identity
  change : reading.valuation value.identity ∈ value.bounds
  range : 0 < value.range → (reading.valuation value.identity).toNat ≤ packetOffsetLimit →
    (reading.valuation value.identity).toNat + value.range ≤ reading.scene.packet.size

/-- What the kind of a value says of a word. -/
def Matches (reading : Interpretation) (value : AbstractValue) (word : Word) : Prop :=
  match value.kind with
  | .uninitialized => True
  | .scalar => word ∈ value.bounds
  | .context => word = Memory.contextPointer + BitVec.ofInt 64 value.offset
  | .stack => word = reading.memory.framePointer + BitVec.ofInt 64 value.offset
  | .packet => reading.IsPacket value word
  | .packetEnd => word = reading.memory.packetEnd
  | .mapHandle =>
    word = RegionAddress.make RegionAddress.mapHandle value.mapIndex ∧ value.mapIndex < 2 ^ 32
  | .mapValue => value.reference = 0 ∧ reading.Points value word ∧ reading.IsMapValue value
  | .record =>
    value.reference = value.identity ∧ reading.Points value word ∧ reading.IsRecord value

/-- The abstract value describes the word. -/
structure Describes (reading : Interpretation) (value : AbstractValue) (word : Word) : Prop where
  byKind : reading.Matches value word
  /-- Only what lookups and reservations return may be null. -/
  nullable : value.mayBeNull = true → value.kind = .mapValue ∨ value.kind = .record
  /-- Pointers are not moved far. -/
  near : value.offset.natAbs < pointerOffsetLimit

/-- What is tracked of the frame describes the stack; a second stack agrees with it wherever the
frame has been written. -/
structure FrameHolds (reading : Interpretation) (frame : StackFrame) (twin : Bytes) : Prop where
  size : twin.size = reading.memory.stack.size
  written : ∀ byte < StackFrame.size, reading.scene.Covers byte →
    frame.byteAt byte ≠ .unwritten →
      reading.memory.stack[reading.scene.position byte]? = twin[reading.scene.position byte]?
  zeros : ∀ byte < StackFrame.size, reading.scene.Covers byte → frame.byteAt byte = .zero →
    reading.memory.stack[reading.scene.position byte]? = some 0
  /-- A spilled register is found in its slot. -/
  spills : ∀ (first : Nat) (value : AbstractValue), first + 8 ≤ StackFrame.size → first % 8 = 0 →
    reading.scene.Covers first → (frame.slotOf first).spill? = some value →
      reading.Describes value
        (Word.ofBytes (Bytes.slice reading.memory.stack (reading.scene.position first) 8))
  /-- A slot that holds a register is written all over. -/
  whole : ∀ byte < StackFrame.size, (frame.slotOf byte).spill? ≠ none →
    frame.byteAt byte ≠ .unwritten

/-- The references are the records that are open, each under a name of its own; one that stands for
null has not been settled. -/
structure Tracks (reading : Interpretation) : Prop where
  nodup : reading.references.Nodup
  opened : ∀ reference ∈ reading.references, reading.valuation reference ≠ 0 →
    ∃ number, reading.memory.Opens (reading.valuation reference) number
  known : ∀ number : Nat, (reading.memory.record? number).isSome = true →
    ∃ reference ∈ reading.references,
      reading.memory.Opens (reading.valuation reference) number
  distinct : ∀ first ∈ reading.references, ∀ second ∈ reading.references, ∀ number : Nat,
    reading.memory.Opens (reading.valuation first) number →
      reading.memory.Opens (reading.valuation second) number → first = second

end Interpretation

namespace AbstractState

/-- How the identities of the state are to be read in a memory. -/
def reading (state : AbstractState) (scene : Scene) (valuation : Nat → Word) (memory : Memory) :
    Interpretation :=
  ⟨scene, memory, valuation, state.references⟩

/-- Under the valuation the state describes the machine, and the machine with the other stack. -/
structure Represents (state : AbstractState) (scene : Scene) (valuation : Nat → Word)
    (machine : Machine) (twin : Bytes) : Prop where
  sound : machine.memory.Sound scene
  zero : valuation 0 = 0
  registers : ∀ name : RegisterName,
    (state.reading scene valuation machine.memory).Describes (state.register name)
      (machine.register name)
  frame : (state.reading scene valuation machine.memory).FrameHolds state.stack twin
  tracks : (state.reading scene valuation machine.memory).Tracks

end AbstractState

end PacketFilter
