/-!
# Byte digests

A 32-bit digest of a byte string: the bytes are folded into an accumulator by
exclusive or and multiplication, and the accumulator is then scrambled so that
a change of one byte reaches every bit of the result.  A seed may be mixed into
the start of the fold.
-/

namespace PacketFilter.Digest

/-- Spread every bit of a 32-bit number over the whole result. -/
def scramble (word : UInt32) : UInt32 :=
  let word := word ^^^ (word >>> 16)
  let word := word * 0x85ebca6b
  let word := word ^^^ (word >>> 13)
  let word := word * 0xc2b2ae35
  word ^^^ (word >>> 16)

/-- The accumulator before any byte. -/
def start : UInt32 :=
  0x811c9dc5

/-- Fold one byte into the accumulator. -/
def absorb (accumulator : UInt32) (byte : UInt8) : UInt32 :=
  (accumulator ^^^ byte.toUInt32) * 0x01000193

/-- The digest of a byte string. -/
def ofBytes (data : List UInt8) : UInt32 :=
  scramble (data.foldl absorb start)

/-- The digest of a byte string under a seed. -/
def ofSeededBytes (seed : UInt32) (data : List UInt8) : UInt32 :=
  scramble (data.foldl absorb (start ^^^ scramble seed))

end PacketFilter.Digest
