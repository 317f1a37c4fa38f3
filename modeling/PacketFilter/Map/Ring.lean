import PacketFilter.Map.Cell

/-!
# Ring buffers

A queue of records in a fixed number of slots.  A writer claims the next
position, fills its slot at leisure and then submits or discards it; the
reader takes records in the order of their positions and waits for a position
that is still open.

Each slot carries a sequence number.  It equals a position while the slot is
free for that position, and is one greater once the record there is complete;
taking the record sets it one lap further.
-/

namespace PacketFilter

/-- One slot of a ring. -/
structure RingSlot where
  sequence : Nat
  length : Nat := 0
  isDiscarded : Bool := false
  cell : Cell
  deriving DecidableEq, Repr, Inhabited

/-- A queue of records. -/
structure Ring where
  recordSize : Nat
  slots : Array RingSlot
  /-- The next position to be claimed. -/
  tail : Nat := 0
  /-- The next position to be read. -/
  head : Nat := 0
  /-- How many claims found no free slot. -/
  refused : Nat := 0
  deriving DecidableEq, Repr

/-- A claimed record. -/
structure Reservation where
  position : Nat
  length : Nat
  deriving DecidableEq, Repr

namespace Ring

/-- An empty ring. -/
def create (recordSize slots : Nat) : Ring :=
  let cell := Cell.zeroed recordSize
  { recordSize
    slots := (List.range slots).toArray.map fun sequence => { sequence, cell } }

/-- How many records the ring has room for. -/
def capacity (ring : Ring) : Nat :=
  ring.slots.size

/-- Records claimed and not yet read. -/
def pending (ring : Ring) : Nat :=
  ring.tail - ring.head

/-- The slot of a position. -/
def slot (ring : Ring) (position : Nat) : RingSlot :=
  ring.slots[position % ring.capacity]?.getD default

/-- Change the slot that a position falls into. -/
def modifySlot (ring : Ring) (position : Nat) (change : RingSlot → RingSlot) : Ring :=
  { ring with slots := ring.slots.modify (position % ring.capacity) change }

/-- Claim the next position for a record of the given length, whose bytes are zero at first.  A
length that no record can have is not counted as refused. -/
def reserve (ring : Ring) (length : Nat) : Option Reservation × Ring :=
  let sequence := (ring.slot ring.tail).sequence
  if length = 0 ∨ ring.recordSize < length then
    (none, ring)
  else if sequence = ring.tail then
    let claimed := ring.modifySlot ring.tail fun slot =>
      { slot with length, cell := ⟨Bytes.overwrite slot.cell.bytes 0 (List.replicate length 0)⟩ }
    (some ⟨ring.tail, length⟩, { claimed with tail := ring.tail + 1 })
  else if sequence < ring.tail then
    (none, { ring with refused := ring.refused + 1 })
  else
    (none, ring)

/-- The memory of a claimed record: the whole slot, of which the first bytes are published. -/
def cell (ring : Ring) (position : Nat) : Cell :=
  (ring.slot position).cell

/-- Replace the bytes of a record that has been reserved. -/
def setCell (ring : Ring) (position : Nat) (cell : Cell) : Ring :=
  ring.modifySlot position fun slot => { slot with cell }

/-- Write into a claimed record. -/
def write? (ring : Ring) (reservation : Reservation) (offset : Nat) (data : Bytes) :
    Option Ring :=
  if reservation.length < offset + data.size then
    none
  else
    ((ring.cell reservation.position).write? offset data.toList).map
      (ring.setCell reservation.position ·)

/-- Complete a claimed record, to be read or to be skipped. -/
def complete (ring : Ring) (position : Nat) (isDiscarded : Bool) : Ring :=
  ring.modifySlot position fun slot => { slot with isDiscarded, sequence := position + 1 }

/-- Give a reserved record to the consumer. -/
def submit (ring : Ring) (position : Nat) : Ring :=
  ring.complete position false

/-- Give up a reserved record; the consumer will step over it. -/
def discard (ring : Ring) (position : Nat) : Ring :=
  ring.complete position true

/-- Free the slot at the head for the next lap. -/
def release (ring : Ring) : Ring :=
  { ring.modifySlot ring.head fun slot => { slot with sequence := ring.head + ring.capacity } with
    head := ring.head + 1 }

/-- Take the next record, skipping at most `laps` discarded ones. -/
def pollWithin : Nat → Ring → Option Bytes × Ring
  | 0, ring => (none, ring)
  | skips + 1, ring =>
    let slot := ring.slot ring.head
    if slot.sequence ≠ ring.head + 1 then
      (none, ring)
    else if slot.isDiscarded then
      pollWithin skips ring.release
    else
      (some (Bytes.slice slot.cell.bytes 0 slot.length).toArray, ring.release)

/-- Take the next record.  A slot that has been freed is not complete before it is claimed again,
so no slot is met twice. -/
def poll (ring : Ring) : Option Bytes × Ring :=
  ring.pollWithin ring.capacity

/-- Take at most so many records. -/
def takeRecords : Nat → Ring → List Bytes × Ring
  | 0, ring => ([], ring)
  | count + 1, ring =>
    match ring.poll with
    | (none, ring) => ([], ring)
    | (some record, ring) =>
      let (records, ring) := ring.takeRecords count
      (record :: records, ring)

/-- Take all records up to the first open position. -/
def drain (ring : Ring) : List Bytes × Ring :=
  ring.takeRecords ring.capacity

/-- Queue a copy of the data. -/
def output? (ring : Ring) (data : Bytes) : Option Reservation × Ring :=
  match ring.reserve data.size with
  | (none, ring) => (none, ring)
  | (some reservation, ring) =>
    let written := (ring.write? reservation 0 data).getD ring
    (some reservation, written.submit reservation.position)

end Ring

end PacketFilter
