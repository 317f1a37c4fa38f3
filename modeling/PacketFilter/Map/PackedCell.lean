import PacketFilter.Map.Cell

/-!
# Packed cells

How the bytes of a cell are kept: eight to a word, the first of them in the
lowest bits, the last word filled up with zeros.  An access whose offset is a
multiple of its size looks at one word only, through a shift and a mask; any
other goes byte by byte.  Stretches are read word by word, and written so where
a whole word is covered.

The bytes that a packed cell stands for are `unpacked`.
-/

namespace PacketFilter

/-- The bytes of one value, packed into words. -/
structure PackedCell (size : Nat) where
  words : Vector Word ((size + 7) / 8)
  deriving DecidableEq, Repr

namespace PackedCell

variable {size : Nat}

/-- A cell of zeros. -/
def zeroed (size : Nat) : PackedCell size :=
  ⟨Vector.replicate _ 0⟩

/-! ## Words -/

/-- Every byte of the value has a word. -/
theorem word_lt {index : Nat} (inside : index < size) : index / 8 < (size + 7) / 8 := by
  omega

/-- The word that a byte is in. -/
def word (cell : PackedCell size) (index : Nat) (inside : index < size) : Word :=
  cell.words.get ⟨index / 8, word_lt inside⟩

/-- Replace the word that holds a byte. -/
def setWord (cell : PackedCell size) (index : Nat) (inside : index < size) (word : Word) :
    PackedCell size :=
  ⟨cell.words.set (index / 8) word (word_lt inside)⟩

/-- How many bits of its word lie below a byte. -/
def shift (index : Nat) : Nat :=
  index % 8 * 8

/-- The bits of an integer of so many bytes. -/
def mask (length : Nat) : Word :=
  if length = 8 then Word.allOnes else ((1 : Word) <<< (length * 8)) - 1

/-- The word with other bits where the shifted mask has ones. -/
def splice (word : Word) (shift : Nat) (mask value : Word) : Word :=
  (word &&& ~~~(mask <<< shift)) ||| (value <<< shift)

/-- The part of one word that an access looks at. -/
def lane (cell : PackedCell size) (offset length : Nat) (inside : offset < size) : Word :=
  (cell.word offset inside >>> shift offset) &&& mask length

/-- Replace a lane of the word that holds its first byte; what would lie in the next word is
lost. -/
def setLane (cell : PackedCell size) (offset length : Nat) (inside : offset < size)
    (value : Word) : PackedCell size :=
  cell.setWord offset inside
    (splice (cell.word offset inside) (shift offset) (mask length) (value &&& mask length))

/-! ## Bytes -/

/-- The byte at an index. -/
def byte (cell : PackedCell size) (index : Nat) (inside : index < size) : UInt8 :=
  UInt8.ofBitVec ((cell.word index inside >>> shift index).setWidth 8)

/-- Replace the byte at an index. -/
def setByte (cell : PackedCell size) (index : Nat) (inside : index < size) (byte : UInt8) :
    PackedCell size :=
  cell.setWord index inside
    (splice (cell.word index inside) (shift index) 0xff (byte.toBitVec.zeroExtend 64))

/-- The integer that so many bytes make up. -/
def gather (cell : PackedCell size) :
    (offset length : Nat) → (inside : offset + length ≤ size) → Word
  | _, 0, _ => 0
  | offset, length + 1, inside =>
    cell.gather (offset + 1) length (by omega) <<< 8 |||
      (cell.byte offset (by omega)).toBitVec.zeroExtend 64

/-- The cell with the low bytes of an integer put in one by one. -/
def scatter (cell : PackedCell size) :
    (offset length : Nat) → (inside : offset + length ≤ size) → Word → PackedCell size
  | _, 0, _, _ => cell
  | offset, length + 1, inside, value =>
    (cell.setByte offset (by omega) (UInt8.ofBitVec (value.setWidth 8))).scatter (offset + 1) length
      (by omega) (value >>> 8)

/-! ## Accesses -/

/-- A lane starts inside the value. -/
theorem lane_inside {offset length : Nat} (lane : Cell.isLane offset length)
    (inside : offset + length ≤ size) : offset < size := by
  have some : length ≠ 0 := by
    rintro rfl
    cases lane
  omega

/-- Load an integer. -/
def load? (cell : PackedCell size) (offset length : Nat) : Option Word :=
  if inside : offset + length ≤ size ∧ length ≤ 8 then
    if lane : Cell.isLane offset length then
      some (cell.lane offset length (lane_inside lane inside.1))
    else
      some (cell.gather offset length inside.1)
  else
    none

/-- Store the low bytes of an integer. -/
def store? (cell : PackedCell size) (offset length : Nat) (value : Word) :
    Option (PackedCell size) :=
  if inside : offset + length ≤ size ∧ length ≤ 8 then
    if lane : Cell.isLane offset length then
      if length = 8 then
        some (cell.setWord offset (lane_inside lane inside.1) value)
      else
        some (cell.setLane offset length (lane_inside lane inside.1) value)
    else
      some (cell.scatter offset length inside.1 value)
  else
    none

/-- Replace a lane by a function of it; also the old integer. -/
def update? (cell : PackedCell size) (offset length : Nat) (change : Word → Word) :
    Option (Word × PackedCell size) :=
  if inside : offset + length ≤ size ∧ Cell.isLane offset length then
    let old := cell.lane offset length (lane_inside inside.2 inside.1)
    some (old, cell.setLane offset length (lane_inside inside.2 inside.1) (change old))
  else
    none

/-! ## Stretches -/

/-- The word that a byte is in, which need not be looked up if it is the one looked up last. -/
def fetch (cell : PackedCell size) (index : Nat) (inside : index < size) :
    Option (Nat × Word) → Word
  | some (last, word) => if last = index / 8 then word else cell.word index inside
  | none => cell.word index inside

/-- The bytes from an offset on, with the word that was looked up last. -/
def readFrom (cell : PackedCell size) :
    (offset length : Nat) → (inside : offset + length ≤ size) → Option (Nat × Word) → List UInt8
  | _, 0, _, _ => []
  | offset, length + 1, inside, last? =>
    let word := cell.fetch offset (by omega) last?
    UInt8.ofBitVec ((word >>> shift offset).setWidth 8) ::
      cell.readFrom (offset + 1) length (by omega) (some (offset / 8, word))

/-- The cell with bytes put in from an offset on, whole words at once. -/
def writeFrom (cell : PackedCell size) (offset : Nat) (data : List UInt8)
    (inside : offset + data.length ≤ size) : PackedCell size :=
  if whole : offset % 8 = 0 ∧ 8 ≤ data.length then
    (cell.setWord offset (by omega) (Word.ofBytes (data.take 8))).writeFrom (offset + 8)
      (data.drop 8) (by rw [List.length_drop]; omega)
  else
    match data, inside with
    | [], _ => cell
    | byte :: rest, inside =>
      (cell.setByte offset (by rw [List.length_cons] at inside; omega) byte).writeFrom (offset + 1)
        rest (by rw [List.length_cons] at inside; omega)
  termination_by data.length
  decreasing_by
    · rw [List.length_drop]
      omega
    · exact Nat.lt_succ_self _

/-- Read a stretch of bytes. -/
def read? (cell : PackedCell size) (offset length : Nat) : Option (List UInt8) :=
  if inside : offset + length ≤ size then some (cell.readFrom offset length inside none) else none

/-- Write a stretch of bytes. -/
def write? (cell : PackedCell size) (offset : Nat) (data : List UInt8) :
    Option (PackedCell size) :=
  if inside : offset + data.length ≤ size then some (cell.writeFrom offset data inside) else none

/-- All bytes of the value. -/
def toBytes (cell : PackedCell size) : List UInt8 :=
  cell.readFrom 0 size (by omega) none

/-- A cell with the given bytes. -/
def ofBytes (bytes : Bytes) : PackedCell bytes.size :=
  (zeroed bytes.size).writeFrom 0 bytes.toList (by rw [Array.length_toList]; omega)

/-- The cell that is kept so. -/
def unpacked (cell : PackedCell size) : Cell :=
  ⟨Array.ofFn fun index : Fin size => cell.byte index index.isLt⟩

end PackedCell

end PacketFilter
