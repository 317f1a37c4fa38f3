import PacketFilter.Abstract.Value

/-!
# Abstract stack frames

What the verifier knows about the 512 bytes below the frame register, byte by
byte.  Storing a whole register at an aligned place keeps all that is known
about it; any other store into such a slot breaks it up into plain bytes.

Offsets are counted from the frame register, so every byte of the frame has a
negative one.
-/

namespace PacketFilter

/-- What is known about one byte of the stack. -/
inductive StackByte where
  /-- Never written. -/
  | unwritten
  | data
  | zero
  /-- Part of a spilled register. -/
  | spilled
  deriving DecidableEq, Repr, Inhabited

/-- Eight aligned bytes of the stack. -/
structure StackSlot where
  /-- The bytes, lowest address first. -/
  bytes : Vector StackByte 8
  /-- The register that was stored here as a whole. -/
  spill? : Option AbstractValue
  deriving DecidableEq, Repr

instance : Inhabited StackSlot :=
  ⟨⟨Vector.replicate 8 .unwritten, none⟩⟩

/-- Why a stack access cannot be allowed. -/
inductive StackError where
  /-- The access does not lie in the frame. -/
  | outOfBounds
  /-- The byte at this offset is read before it is written. -/
  | uninitialized (offset : Int)
  /-- Some, but not all, bytes of a spilled pointer are accessed at this offset. -/
  | pointerBytes (offset : Int)
  deriving DecidableEq, Repr

/-- The stack frame of a program: sixty-four slots, lowest address first. -/
structure StackFrame where
  slots : Vector StackSlot 64
  deriving DecidableEq, Repr

namespace StackFrame

/-- The size of a frame in bytes. -/
def size : Nat := 512

/-- A frame in which nothing has been written. -/
def fresh : StackFrame :=
  ⟨Vector.replicate 64 default⟩

/-- The number of the first byte of an access, counted from the lowest address, when the access
lies in the frame.  Where the access ends is kept in a signed word. -/
def firstByte? (offset : Int) (length : Nat) : Option Nat :=
  let first := offset + size
  if 0 ≤ offset ∨ first < 0 ∨ (size : Int) < Word.wrapSigned (first + length) ∨ length = 0 then
    none
  else
    some first.toNat

/-- The offset of a byte from the frame register. -/
def offsetOf (byte : Nat) : Int :=
  (byte : Int) - size

/-- The slot that holds a byte. -/
def slotOf (frame : StackFrame) (byte : Nat) : StackSlot :=
  frame.slots[byte / 8]?.getD default

/-- What is known about a byte. -/
def byteAt (frame : StackFrame) (byte : Nat) : StackByte :=
  (frame.slotOf byte).bytes[byte % 8]?.getD .unwritten

/-- The bytes of an access, as far as the frame goes.  Where the access ends is kept in a word. -/
def bytesFrom (first length : Nat) : List Nat :=
  let stop : Word := BitVec.ofNat 64 (first + length)
  List.range' first (min stop.toNat size - first)

end StackFrame

namespace StackSlot

/-- Forget the spilled register and keep its bytes as data. -/
def breakUp (slot : StackSlot) : StackSlot :=
  match slot.spill? with
  | none => slot
  | some _ =>
    ⟨slot.bytes.map fun byte => if byte = .spilled then .data else byte, none⟩

/-- The slot holds a spilled pointer. -/
def holdsPointer (slot : StackSlot) : Bool :=
  slot.spill?.any AbstractValue.isPointer

end StackSlot

namespace StackFrame

/-- Overwrite one byte, breaking up the register spilled over it. -/
def setByte (frame : StackFrame) (content : StackByte) (byte : Nat) : StackFrame :=
  let slot := (frame.slotOf byte).breakUp
  let slot := { slot with bytes := slot.bytes.setIfInBounds (byte % 8) content }
  ⟨frame.slots.setIfInBounds (byte / 8) slot⟩

/-- Overwrite the bytes of an access. -/
def fill (frame : StackFrame) (first length : Nat) (content : StackByte) : StackFrame :=
  (bytesFrom first length).foldl (fun frame byte => frame.setByte content byte) frame

/-- Keep a whole register in an aligned slot. -/
def spill (frame : StackFrame) (first : Nat) (value : AbstractValue) : StackFrame :=
  ⟨frame.slots.setIfInBounds (first / 8) ⟨Vector.replicate 8 .spilled, some value⟩⟩

/-- The access covers one aligned slot. -/
def isWholeSlot (first length : Nat) : Bool :=
  length == 8 && first % 8 == 0

/-- Store the low bytes of a register; only a whole slot can take a pointer. -/
def write (frame : StackFrame) (offset : Int) (length : Nat) (value : AbstractValue) :
    Except StackError StackFrame :=
  match firstByte? offset length with
  | none => .error .outOfBounds
  | some first =>
    if isWholeSlot first length then
      .ok (frame.spill first value)
    else if value.isPointer then
      .error (.pointerBytes offset)
    else
      .ok (frame.fill first length (if value.constant? = some 0 then .zero else .data))

/-- Store bytes of which nothing is known. -/
def writeData (frame : StackFrame) (offset : Int) (length : Nat) : Except StackError StackFrame :=
  match firstByte? offset length with
  | none => .error .outOfBounds
  | some first => .ok (frame.fill first length .data)

/-- Why a byte cannot be loaded as part of a scalar, if so; a spilled pointer is reported at the
offset of the whole access. -/
def loadProblem? (frame : StackFrame) (offset : Int) (byte : Nat) : Option StackError :=
  match frame.byteAt byte with
  | .unwritten => some (.uninitialized (offsetOf byte))
  | .spilled => if (frame.slotOf byte).holdsPointer then some (.pointerBytes offset) else none
  | .data | .zero => none

/-- Load bytes that are not one spilled register. -/
def readBytes (frame : StackFrame) (offset : Int) (first length : Nat) :
    Except StackError AbstractValue :=
  let bytes := bytesFrom first length
  match bytes.findSome? (frame.loadProblem? offset) with
  | some error => .error error
  | none =>
    if bytes.all fun byte => frame.byteAt byte == .zero then
      .ok (.constant 0)
    else
      .ok (.scalar (.ofWidth length))

/-- Load from the frame; loading a whole slot gives back the register spilled there. -/
def read (frame : StackFrame) (offset : Int) (length : Nat) : Except StackError AbstractValue :=
  match firstByte? offset length with
  | none => .error .outOfBounds
  | some first =>
    match (if isWholeSlot first length then (frame.slotOf first).spill? else none) with
    | some value => .ok value
    | none => frame.readBytes offset first length

/-- Why a byte cannot be handed to a helper, if so. -/
def helperProblem? (frame : StackFrame) (byte : Nat) : Option StackError :=
  match frame.byteAt byte with
  | .unwritten => some (.uninitialized (offsetOf byte))
  | .spilled =>
    if (frame.slotOf byte).holdsPointer then some (.pointerBytes (offsetOf byte)) else none
  | .data | .zero => none

/-- The bytes may be read by a helper: all are written and none belongs to a pointer. -/
def checkReadable (frame : StackFrame) (offset : Int) (length : Nat) : Except StackError Unit :=
  match firstByte? offset length with
  | none => .error .outOfBounds
  | some first =>
    match (bytesFrom first length).findSome? frame.helperProblem? with
    | some error => .error error
    | none => .ok ()

/-- The spilled registers, lowest address first. -/
def spills (frame : StackFrame) : List AbstractValue :=
  frame.slots.toList.filterMap StackSlot.spill?

/-- Change every spilled register. -/
def mapSpills (change : AbstractValue → AbstractValue) (frame : StackFrame) : StackFrame :=
  ⟨frame.slots.map fun slot => { slot with spill? := slot.spill?.map change }⟩

/-- Break up the slots whose spilled register meets the condition. -/
def breakUpWhere (condition : AbstractValue → Bool) (frame : StackFrame) : StackFrame :=
  ⟨frame.slots.map fun slot => if slot.spill?.any condition then slot.breakUp else slot⟩

end StackFrame

end PacketFilter
