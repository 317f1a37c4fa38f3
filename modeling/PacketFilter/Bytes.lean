import PacketFilter.Word

/-!
# Stretches of byte strings

Reading and writing a stretch of a byte string, which has to lie inside it.
Writing never changes the length.
-/

namespace PacketFilter.Bytes

/-- The stretch lies in the byte string. -/
def covers (bytes : Bytes) (offset length : Nat) : Bool :=
  offset + length ≤ bytes.size

/-- The bytes of a stretch, as far as there are any. -/
def slice (bytes : Bytes) (offset length : Nat) : List UInt8 :=
  (bytes.extract offset (offset + length)).toList

/-- Replace the bytes from an offset on, as far as there are any. -/
def overwrite (bytes : Bytes) (offset : Nat) : List UInt8 → Bytes
  | [] => bytes
  | byte :: rest => overwrite (bytes.setIfInBounds offset byte) (offset + 1) rest

/-- Read a stretch. -/
def read? (bytes : Bytes) (offset length : Nat) : Option (List UInt8) :=
  if covers bytes offset length then some (slice bytes offset length) else none

/-- Write a stretch. -/
def write? (bytes : Bytes) (offset : Nat) (data : List UInt8) : Option Bytes :=
  if covers bytes offset data.length then some (overwrite bytes offset data) else none

end PacketFilter.Bytes
