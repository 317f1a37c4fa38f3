import PacketFilter.Bytes

/-!
# Cells

A cell holds the bytes of one value.  Programs load from it, store into it and
update it in place, in pieces of at most eight bytes; the control plane reads
and writes whole stretches.  Integers are little-endian.

A cell is made of words of eight bytes.  An access whose offset is a multiple
of its size is served by a single word: where the size does not divide eight,
what lies past the end of that word reads as zero and is not written.
-/

namespace PacketFilter

/-- The bytes of one value. -/
structure Cell where
  bytes : Bytes
  deriving DecidableEq, Repr, Inhabited

namespace Cell

/-- A value of zeros. -/
def zeroed (size : Nat) : Cell :=
  ⟨Array.replicate size 0⟩

/-- How many bytes the value has. -/
def size (cell : Cell) : Nat :=
  cell.bytes.size

/-- The access lies in the cell. -/
def covers (cell : Cell) (offset length : Nat) : Bool :=
  Bytes.covers cell.bytes offset length

/-- The access is served by a single word. -/
def isLane (offset length : Nat) : Bool :=
  length ≠ 0 && length ≤ 8 && offset % length == 0

/-- How many bytes an access touches: those of a lane end with its word. -/
def reach (offset length : Nat) : Nat :=
  if isLane offset length then min length (8 - offset % 8) else length

/-- The integer that an access which lies in the cell finds there. -/
def integerAt (cell : Cell) (offset length : Nat) : Word :=
  Word.ofBytes (Bytes.slice cell.bytes offset (reach offset length))

/-- The cell with the low bytes of an integer stored where an access reaches. -/
def withInteger (cell : Cell) (offset length : Nat) (value : Word) : Cell :=
  ⟨Bytes.overwrite cell.bytes offset (value.toBytes (reach offset length))⟩

/-- Load an integer. -/
def load? (cell : Cell) (offset length : Nat) : Option Word :=
  if cell.covers offset length && length ≤ 8 then
    some (cell.integerAt offset length)
  else
    none

/-- Store the low bytes of an integer. -/
def store? (cell : Cell) (offset length : Nat) (value : Word) : Option Cell :=
  if cell.covers offset length && length ≤ 8 then
    some (cell.withInteger offset length value)
  else
    none

/-- Replace a lane by a function of it; also the old integer. -/
def update? (cell : Cell) (offset length : Nat) (change : Word → Word) : Option (Word × Cell) :=
  if cell.covers offset length && isLane offset length then
    let old := cell.integerAt offset length
    some (old, cell.withInteger offset length (change old))
  else
    none

/-- Read a stretch of bytes. -/
def read? (cell : Cell) (offset length : Nat) : Option (List UInt8) :=
  Bytes.read? cell.bytes offset length

/-- Write a stretch of bytes. -/
def write? (cell : Cell) (offset : Nat) (data : List UInt8) : Option Cell :=
  (Bytes.write? cell.bytes offset data).map Cell.mk

end Cell

end PacketFilter
