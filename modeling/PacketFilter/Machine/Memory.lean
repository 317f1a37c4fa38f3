import PacketFilter.Context
import PacketFilter.Machine.Address
import PacketFilter.Map.Store

/-!
# The memory of a run

What a running program can reach: the context, the packet, its stack, and the
map values and reserved records it has been given.  Each is a region of its
own, and an access has to lie in the region that its address names; there is
no other way to fail.  Integers are little-endian.
-/

namespace PacketFilter

/-- Where a packet came from and who handles it. -/
structure Metadata where
  interface : Nat := 0
  queue : Nat := 0
  worker : Nat := 0
  deriving DecidableEq, Repr

/-- A region handed out during a run. -/
inductive Region where
  | mapValue (cell : CellId)
  /-- A reserved record, by its number among those of the run. -/
  | record (number : Nat)
  deriving DecidableEq, Repr

/-- A record that a run has reserved. -/
structure OpenRecord where
  map : MapId
  reservation : Reservation
  deriving DecidableEq, Repr

/-- The memory of a run. -/
structure Memory where
  packet : Bytes
  /-- The part of the context that programs may write. -/
  scratch : Bytes
  metadata : Metadata
  stack : Bytes
  /-- The regions handed out, in order. -/
  regions : Array Region := #[]
  /-- The records reserved, in order; nothing where one has been released. -/
  records : Array (Option OpenRecord) := #[]
  store : Store
  deriving Repr

namespace Memory

/-- The address of the context. -/
def contextPointer : Word :=
  RegionAddress.make RegionAddress.context 0

/-- The address just past the stack. -/
def framePointer (memory : Memory) : Word :=
  RegionAddress.make RegionAddress.stack memory.stack.size

/-- The address just past the packet. -/
def packetEnd (memory : Memory) : Word :=
  RegionAddress.make RegionAddress.packet (min memory.packet.size 0xffffffff)

/-- The low bytes of a word as a store of any length lays them out: after the eighth they start
over. -/
def layOut (value : Word) (length : Nat) : List UInt8 :=
  (List.range length).map fun index =>
    UInt8.ofBitVec ((value >>> (index % 8 * 8)).setWidth 8)

/-- Store the low bytes of a word in a stretch, which has to lie in the byte string. -/
def putWord? (bytes : Bytes) (offset length : Nat) (value : Word) : Option Bytes :=
  if Bytes.covers bytes offset length then
    some (Bytes.overwrite bytes offset (layOut value length))
  else
    none

/-- The region of a number, if it has been handed out. -/
def region? (memory : Memory) (number : Nat) : Option Region :=
  if number < RegionAddress.firstDynamic then
    none
  else
    memory.regions[number - RegionAddress.firstDynamic]?

/-- The record of a number, if it has not been released. -/
def record? (memory : Memory) (number : Nat) : Option OpenRecord :=
  (memory.records[number]?).join

/-- The slot of an open record, for an access that lies in the record. -/
def recordCell? (memory : Memory) (number offset length : Nat) : Option (OpenRecord × Cell) := do
  let record ← memory.record? number
  if record.reservation.length < offset + length then
    none
  else
    let ring ← memory.store.ring? record.map
    return (record, ring.cell record.reservation.position)

/-- Put the slot of an open record back. -/
def setRecordCell (memory : Memory) (record : OpenRecord) (cell : Cell) : Memory :=
  { memory with
    store := memory.store.modifyRing record.map fun ring =>
      ring.setCell record.reservation.position cell }

/-- Replace a cell of a map; the regions that lead to it see the change. -/
def setMapCell (memory : Memory) (id : CellId) (cell : Cell) : Memory :=
  { memory with store := memory.store.setCell id cell }

/-- Where an access to the context falls in its scratch area. -/
def scratchOffset? (offset : Nat) : Option Nat :=
  if offset < ContextField.scratch.offset then none else some (offset - ContextField.scratch.offset)

/-- Load from the context: a whole field, or any part of the scratch area. -/
def loadContext? (memory : Memory) (offset length : Nat) : Option Word :=
  if offset = ContextField.packetStart.offset ∧ length = 8 then
    some (RegionAddress.make RegionAddress.packet 0)
  else if offset = ContextField.packetEnd.offset ∧ length = 8 then
    some memory.packetEnd
  else if offset = ContextField.interface.offset ∧ length = 4 then
    some (BitVec.ofNat 64 memory.metadata.interface)
  else if offset = ContextField.queue.offset ∧ length = 4 then
    some (BitVec.ofNat 64 memory.metadata.queue)
  else do
    let offset ← scratchOffset? offset
    let bytes ← Bytes.read? memory.scratch offset length
    return Word.ofBytes bytes

/-- Load an integer. -/
def load? (memory : Memory) (address : Word) (length : Nat) : Option Word :=
  let offset := RegionAddress.offset address
  let region := RegionAddress.region address
  if region = RegionAddress.context then
    memory.loadContext? offset length
  else if region = RegionAddress.packet then
    (Bytes.read? memory.packet offset length).map Word.ofBytes
  else if region = RegionAddress.stack then
    (Bytes.read? memory.stack offset length).map Word.ofBytes
  else
    match memory.region? region with
    | some (.mapValue cell) => (memory.store.cell? cell).bind (·.load? offset length)
    | some (.record number) =>
      (memory.recordCell? number offset length).bind (·.2.load? offset length)
    | none => none

/-- Store the low bytes of a word. -/
def store? (memory : Memory) (address : Word) (length : Nat) (value : Word) : Option Memory :=
  let offset := RegionAddress.offset address
  let region := RegionAddress.region address
  if region = RegionAddress.context then do
    let offset ← scratchOffset? offset
    let scratch ← putWord? memory.scratch offset length value
    return { memory with scratch }
  else if region = RegionAddress.packet then do
    let packet ← putWord? memory.packet offset length value
    return { memory with packet }
  else if region = RegionAddress.stack then do
    let stack ← putWord? memory.stack offset length value
    return { memory with stack }
  else
    match memory.region? region with
    | some (.mapValue id) => do
      let cell ← memory.store.cell? id
      let cell ← cell.store? offset length value
      return memory.setMapCell id cell
    | some (.record number) => do
      let (record, cell) ← memory.recordCell? number offset length
      let cell ← cell.store? offset length value
      return memory.setRecordCell record cell
    | none => none

/-- Replace an integer on the stack or in a map value by a function of it; also the old one. -/
def update? (memory : Memory) (address : Word) (length : Nat) (change : Word → Word) :
    Option (Word × Memory) :=
  let offset := RegionAddress.offset address
  let region := RegionAddress.region address
  if region = RegionAddress.stack then do
    let bytes ← Bytes.read? memory.stack offset length
    let old := Word.ofBytes bytes
    let stack ← putWord? memory.stack offset length (change old)
    return (old, { memory with stack })
  else
    match memory.region? region with
    | some (.mapValue id) => do
      let cell ← memory.store.cell? id
      let (old, cell) ← cell.update? offset length change
      return (old, memory.setMapCell id cell)
    | _ => none

/-- Read bytes for a helper, from anywhere but the context. -/
def read? (memory : Memory) (address : Word) (length : Nat) : Option Bytes :=
  let offset := RegionAddress.offset address
  let region := RegionAddress.region address
  List.toArray <$>
    if region = RegionAddress.packet then
      Bytes.read? memory.packet offset length
    else if region = RegionAddress.stack then
      Bytes.read? memory.stack offset length
    else
      match memory.region? region with
      | some (.mapValue id) => (memory.store.cell? id).bind (·.read? offset length)
      | some (.record number) =>
        (memory.recordCell? number offset length).bind (·.2.read? offset length)
      | none => none

/-- Hand out a region, unless the numbers have run out. -/
def addRegion? (memory : Memory) (region : Region) : Option (Word × Memory) :=
  let number := RegionAddress.firstDynamic + memory.regions.size
  if number < RegionAddress.mapHandle then
    some (RegionAddress.make number 0, { memory with regions := memory.regions.push region })
  else
    none

/-- Hand out a map value. -/
def addMapValue? (memory : Memory) (cell : CellId) : Option (Word × Memory) :=
  memory.addRegion? (.mapValue cell)

/-- Submit or discard a record in its ring. -/
def complete (memory : Memory) (record : OpenRecord) (isDiscarded : Bool) : Memory :=
  { memory with
    store := memory.store.modifyRing record.map fun ring =>
      ring.complete record.reservation.position isDiscarded }

/-- Hand out a reserved record; when the numbers have run out it is discarded. -/
def addRecord (memory : Memory) (record : OpenRecord) : Option Word × Memory :=
  let opened := { memory with records := memory.records.push (some record) }
  match opened.addRegion? (.record memory.records.size) with
  | some (address, opened) => (some address, opened)
  | none => (none, memory.complete record true)

/-- Take back the open record that starts at an address. -/
def release? (memory : Memory) (address : Word) : Option (OpenRecord × Memory) :=
  if RegionAddress.offset address ≠ 0 then
    none
  else
    match memory.region? (RegionAddress.region address) with
    | some (.record number) => do
      let record ← memory.record? number
      return (record, { memory with records := memory.records.setIfInBounds number none })
    | _ => none

/-- The records that have not been released. -/
def openRecords (memory : Memory) : List OpenRecord :=
  memory.records.toList.filterMap id

/-- Discard every record that has not been released. -/
def discardOpen (memory : Memory) : Memory :=
  { memory.openRecords.foldl (fun memory record => memory.complete record true) memory with
    records := memory.records.map fun _ => none }

end Memory

end PacketFilter
