/-!
# Network addresses

Four-byte addresses, written as four decimal numbers with dots between them.
-/

namespace PacketFilter

/-- A network address, most significant byte first. -/
structure Address where
  first : UInt8
  second : UInt8
  third : UInt8
  fourth : UInt8
  deriving DecidableEq, Repr, Inhabited

namespace Address

/-- The four bytes, as they lie in a packet. -/
def toList (address : Address) : List UInt8 :=
  [address.first, address.second, address.third, address.fourth]

/-- The address that four bytes make. -/
def ofList? : List UInt8 → Option Address
  | [first, second, third, fourth] => some ⟨first, second, third, fourth⟩
  | _ => none

/-- The address in decimal, with dots. -/
def text (address : Address) : String :=
  ".".intercalate (address.toList.map fun byte => toString byte.toNat)

/-- Read a number below 256, written as shortly as it can be. -/
def byteOfText? (text : String) : Option UInt8 := do
  let number ← text.toNat?
  if number < 256 ∧ toString number = text then some (UInt8.ofNat number) else none

/-- Read an address of four decimal numbers. -/
def ofText? (text : String) : Option Address := do
  ofList? (← (text.splitOn ".").mapM byteOfText?)

/-- An address with a port behind a colon. -/
def textWithPort (address : Address) (port : UInt16) : String :=
  s!"{address.text}:{port.toNat}"

end Address

end PacketFilter
