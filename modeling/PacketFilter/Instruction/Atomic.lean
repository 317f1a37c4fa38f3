import PacketFilter.Word

/-!
# Atomic operations

The read-modify-write operations an instruction can apply to memory, as its
immediate encodes them.
-/

namespace PacketFilter

/-- How an atomic operation combines the old value with its operand. -/
inductive Combination where
  | add
  | or
  | and
  | xor
  deriving DecidableEq, Repr

namespace Combination

/-- The word that is left in memory. -/
def apply (combination : Combination) (old operand : Word) : Word :=
  match combination with
  | add => old + operand
  | or => old ||| operand
  | and => old &&& operand
  | xor => old ^^^ operand

/-- The number of the combination in an immediate, without the bit for fetching. -/
def code : Combination → Int32
  | add => 0x00
  | or => 0x40
  | and => 0x50
  | xor => 0xa0

/-- The combination in listings. -/
def name : Combination → String
  | add => "add"
  | or => "or"
  | and => "and"
  | xor => "xor"

/-- Every combination, in the order of the codes. -/
def all : List Combination :=
  [add, or, and, xor]

/-- The combination with the number, if there is one. -/
def ofCode? (code : Int32) : Option Combination :=
  all.find? fun combination => combination.code == code

end Combination

/-- A read-modify-write operation. -/
inductive AtomicOperation where
  /-- Combine with the operand; the old value is handed back when `fetches`. -/
  | combine (combination : Combination) (fetches : Bool)
  /-- Replace by the operand and hand back the old value. -/
  | exchange
  /-- Replace by the operand if the old value is the expected one, and hand back the old value. -/
  | compareExchange
  deriving DecidableEq, Repr

namespace AtomicOperation

/-- The immediate bit that asks for the old value. -/
def fetchBit : Int32 := 0x01

/-- The immediate of an exchange; it always fetches. -/
def exchangeCode : Int32 := 0xe1

/-- The immediate of a comparison with exchange; it always fetches. -/
def compareExchangeCode : Int32 := 0xf1

/-- The old value is wanted. -/
def fetches (immediate : Int32) : Bool :=
  immediate &&& fetchBit != 0

/-- The operation an immediate encodes. -/
def ofImmediate? (immediate : Int32) : Option AtomicOperation :=
  if immediate = exchangeCode then
    some exchange
  else if immediate = compareExchangeCode then
    some compareExchange
  else
    (Combination.ofCode? (immediate &&& ~~~fetchBit)).map (combine · (fetches immediate))

/-- The name of the operation whose immediate ends in the given low byte; exchanges are told by
the whole immediate. -/
def nameOf (immediate : Int32) : String :=
  if immediate = exchangeCode then
    "xchg"
  else if immediate = compareExchangeCode then
    "cmpxchg"
  else
    match Combination.ofCode? (immediate &&& ~~~fetchBit &&& 0xff) with
    | some combination => (if fetches immediate then "fetch_" else "") ++ combination.name
    | none => "unknown"

/-- The operation in listings. -/
def name : AtomicOperation → String
  | combine combination fetches => (if fetches then "fetch_" else "") ++ combination.name
  | exchange => "xchg"
  | compareExchange => "cmpxchg"

end AtomicOperation

end PacketFilter
