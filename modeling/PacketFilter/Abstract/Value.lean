import PacketFilter.Abstract.Kind
import PacketFilter.Bounds.Basic

/-!
# Abstract values

What the verifier knows about the contents of one register or one spilled
stack slot: a kind and, depending on the kind, bounds, a fixed offset, an
identity shared by copies, and the region a pointer leads into.

The record is flat, so that a value with leftover fields can be written down;
the constructors below build the values that occur.
-/

namespace PacketFilter

/-- What is known about one register or spilled slot. -/
structure AbstractValue where
  kind : ValueKind
  /-- The pointer may be null until it is checked. -/
  mayBeNull : Bool := false
  /-- The memory behind the pointer may only be read. -/
  readOnly : Bool := false
  /-- The fixed part of a pointer's offset. -/
  offset : Int := 0
  /-- The scalar, or the variable part of a pointer's offset. -/
  bounds : Bounds := .unknown
  /-- Shared by copies of one pointer; zero for none.  Packet pointers of one identity share their
  range, nullable pointers of one identity are checked together. -/
  identity : Nat := 0
  /-- The reserved record that the pointer stands for; zero for none. -/
  reference : Nat := 0
  /-- The declared map of a handle or of a pointer to a map value. -/
  mapIndex : Nat := 0
  /-- How many bytes from the base of a packet pointer are known to be there. -/
  range : Nat := 0
  /-- The size of the record behind a pointer. -/
  size : Nat := 0
  deriving DecidableEq, Repr

/-- The coarse view of an abstract value. -/
inductive ValueSummary where
  | unknown
  | interval (low high : Word)
  | packetPointer (offset : Int) (range : Nat)
  | mapValuePointer (mapIndex : Nat) (offset : Int)
  | pointer (kind : ValueKind)
  | invalid
  deriving DecidableEq, Repr

namespace AbstractValue

/-- A register that nothing has been put into. -/
def uninitialized : AbstractValue :=
  { kind := .uninitialized }

instance : Inhabited AbstractValue :=
  ⟨uninitialized⟩

/-- A number within the given bounds. -/
def scalar (bounds : Bounds) : AbstractValue :=
  { kind := .scalar, bounds }

/-- A number of which nothing is known. -/
def unknownScalar : AbstractValue :=
  scalar .unknown

/-- A number that is known. -/
def constant (word : Word) : AbstractValue :=
  scalar (.constant word)

/-- A pointer of the given kind to the start of what it points to. -/
def pointer (kind : ValueKind) : AbstractValue :=
  { kind, bounds := .constant 0 }

/-- The pointer that a program starts with. -/
def context : AbstractValue :=
  pointer .context

/-- The end of the stack frame, moved by a fixed offset. -/
def stack (offset : Int) : AbstractValue :=
  { pointer .stack with offset }

/-- The first byte of the packet, before any range has been proved for it. -/
def packet : AbstractValue :=
  pointer .packet

/-- The place just past the packet, which is compared with and never followed. -/
def packetEnd : AbstractValue :=
  pointer .packetEnd

/-- A declared map, as helpers take it. -/
def mapHandle (mapIndex : Nat) : AbstractValue :=
  { pointer .mapHandle with mapIndex }

/-- What a map lookup returns, before it is checked. -/
def mapValueOrNull (mapIndex identity : Nat) : AbstractValue :=
  { pointer .mapValue with mayBeNull := true, mapIndex, identity }

/-- What a reservation returns, before it is checked. -/
def recordOrNull (size reference : Nat) : AbstractValue :=
  { pointer .record with mayBeNull := true, size, identity := reference, reference }

/-- Something has been put here, so that it may be read. -/
def isInitialized (value : AbstractValue) : Bool :=
  value.kind != .uninitialized

/-- The value is a number; its bounds are then all that is known about it. -/
def isScalar (value : AbstractValue) : Bool :=
  value.kind == .scalar

/-- The value leads into a region or stands for a map. -/
def isPointer (value : AbstractValue) : Bool :=
  value.kind.isPointer

/-- The constant, when the value is a scalar known to be one. -/
def constant? (value : AbstractValue) : Option Word :=
  if value.isScalar then value.bounds.constant? else none

/-- The value is a number and its bounds leave one word. -/
def isConstant (value : AbstractValue) : Bool :=
  value.isScalar && value.bounds.isConstant

/-- What is left of the value once identities, references and most of the bounds are forgotten. -/
def summary (value : AbstractValue) : ValueSummary :=
  match value.kind with
  | .uninitialized => .invalid
  | .scalar =>
    if value.bounds.unsignedMin = 0 ∧ value.bounds.unsignedMax = Word.allOnes then .unknown
    else .interval value.bounds.unsignedMin value.bounds.unsignedMax
  | .packet => .packetPointer value.offset value.range
  | .mapValue => .mapValuePointer value.mapIndex value.offset
  | kind => .pointer kind

end AbstractValue

end PacketFilter
