import PacketFilter.Word

/-!
# Layouts

How values of a type are laid out in the fixed number of bytes of a map key or
a map value.
-/

namespace PacketFilter

/-- How values of a type are laid out in bytes. -/
structure Layout (α : Type) where
  size : Nat
  encode : α → Bytes
  /-- Read a value back, if there are bytes enough and they are one. -/
  decode? : Bytes → Option α

namespace Layout

/-- Little-endian integers of at most eight bytes. -/
def word (size : Nat) : Layout Word where
  size
  encode value := (value.toBytes size).toArray
  decode? bytes := if bytes.size = size then some (Word.ofBytes bytes.toList) else none

/-- Byte strings of one length. -/
def bytes (size : Nat) : Layout Bytes where
  size
  encode value := value
  decode? bytes := if bytes.size = size then some bytes else none

end Layout

end PacketFilter
