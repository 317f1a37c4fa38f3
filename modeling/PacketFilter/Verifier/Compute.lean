import PacketFilter.Bounds.Arithmetic
import PacketFilter.Verifier.Focus

/-!
# Checking arithmetic

Scalars are computed with by their bounds.  A pointer takes part only in
64-bit sums with scalars and differences from scalars, and the distance of two
packet pointers is a scalar.
-/

namespace PacketFilter

/-- Fixed offsets of pointers stay below this. -/
def pointerOffsetLimit : Nat := 0x20000000

/-- A constant added to a pointer, or subtracted from it. -/
def movePointer (operation : Arithmetic) (pointer : AbstractValue) (constant : Word) :
    Checked AbstractValue := do
  let delta := constant.toInt
  let offset := if operation = .add then pointer.offset + delta else pointer.offset - delta
  demand (offset.natAbs < pointerOffsetLimit) (.pointerOffset delta)
  return { pointer with offset }

/-- A variable scalar added to a packet pointer, which becomes a pointer of its own. -/
def advancePacket (focus : Focus) (operation : Arithmetic) (pointer scalar : AbstractValue) :
    Checked (AbstractValue × Focus) := do
  demand (operation = .add) .packetVariableSub
  let greatest := scalar.bounds.unsignedMax.toNat
  demand (scalar.bounds.isNonNegative ∧ greatest ≤ packetOffsetLimit)
    (.packetVariableRange scalar.bounds.signedMin.toInt greatest)
  let (identity, focus) := focus.freshIdentity
  let bounds := pointer.bounds.add scalar.bounds
  return ({ pointer with bounds, identity, range := 0 }, focus)

/-- A variable scalar added to a pointer, or subtracted from it. -/
def moveByVariable (focus : Focus) (operation : Arithmetic) (pointer scalar : AbstractValue) :
    Checked (AbstractValue × Focus) :=
  match pointer.kind with
  | .packet => advancePacket focus operation pointer scalar
  | .mapValue | .record =>
    let bounds :=
      if operation = .add then pointer.bounds.add scalar.bounds
      else pointer.bounds.sub scalar.bounds
    .ok ({ pointer with bounds }, focus)
  | kind => .error (.variableOffset kind)

/-- The distance of two packet pointers, or of one from the end of the packet. -/
def subtractPointers (operation : Arithmetic) (left right : AbstractValue) :
    Checked AbstractValue := do
  demand (operation = .sub ∧ right.kind = .packet ∧
    (left.kind = .packet ∨ left.kind = .packetEnd))
    (.pointerPair operation left.kind right.kind)
  return .unknownScalar

/-- A pointer that may be moved at all. -/
def checkMovable (pointer : AbstractValue) : Checked Unit := do
  demand (!pointer.mayBeNull) (.nullableArithmetic pointer.kind)
  demand (pointer.kind ≠ .packetEnd ∧ pointer.kind ≠ .mapHandle) (.fixedPointer pointer.kind)

/-- A scalar added to a pointer, or subtracted from it. -/
def offsetPointer (focus : Focus) (operation : Arithmetic) (pointer scalar : AbstractValue) :
    Checked (AbstractValue × Focus) := do
  demand (operation = .add ∨ operation = .sub) (.pointerOp operation pointer.kind)
  checkMovable pointer
  match scalar.bounds.constant? with
  | some constant =>
    let moved ← movePointer operation pointer constant
    return (moved, focus)
  | none => moveByVariable focus operation pointer scalar

/-- Arithmetic in which at least one operand is a pointer. -/
def computeWithPointer (focus : Focus) (operation : Arithmetic) (left right : AbstractValue) :
    Checked (AbstractValue × Focus) := do
  if left.isPointer ∧ right.isPointer then
    let distance ← subtractPointers operation left right
    return (distance, focus)
  else if left.isPointer then
    offsetPointer focus operation left right
  else
    demand (operation = .add) (.scalarOpPointer operation)
    offsetPointer focus operation right left

/-- The value of an operand; immediates are sign-extended. -/
def Focus.operand (focus : Focus) : Operand → Checked AbstractValue
  | .register name => focus.read name
  | .immediate value => .ok (.constant (Word.ofImmediate value))

/-- A negation, which pointers do not have. -/
def checkNegate (focus : Focus) (width : Width) (destination : RegisterName) : Checked Focus := do
  let value ← focus.read destination
  demand value.isScalar (.pointerOperand destination.val)
  let bounds := match width with
    | .whole => value.bounds.neg
    | .half => Bounds.apply32 .neg value.bounds (.constant 0)
  return focus.write destination (.scalar bounds)

/-- A move, which copies pointers only as a whole. -/
def checkMove (focus : Focus) (width : Width) (destination : RegisterName) (operand : Operand) :
    Checked Focus := do
  match operand, width with
  | .register source, .whole =>
    let value ← focus.read source
    return focus.write destination value
  | .register source, .half =>
    let value ← focus.read source
    demand (!value.isPointer) (.partialPointerCopy source.val)
    return focus.write destination (.scalar value.bounds.truncate32)
  | .immediate value, .whole => return focus.write destination (.constant (Word.ofImmediate value))
  | .immediate value, .half =>
    return focus.write destination (.constant (Word.ofImmediate32 value))

/-- An operation on two operands. -/
def checkBinary (focus : Focus) (width : Width) (operation : Arithmetic)
    (destination : RegisterName) (operand : Operand) : Checked Focus := do
  let left ← focus.read destination
  let right ← focus.operand operand
  if left.isPointer ∨ right.isPointer then
    demand (width = .whole) .pointerArithmetic32
    let (value, focus) ← computeWithPointer focus operation left right
    return focus.write destination value
  else
    let bounds := match width with
      | .whole => Bounds.apply operation left.bounds right.bounds
      | .half => Bounds.apply32 operation left.bounds right.bounds
    return focus.write destination (.scalar bounds)

def checkCompute (focus : Focus) (width : Width) (operation : Arithmetic)
    (destination : RegisterName) (operand : Operand) : Checked Focus :=
  match operation with
  | .neg => checkNegate focus width destination
  | .move => checkMove focus width destination operand
  | _ => checkBinary focus width operation destination operand

/-- A change of byte order, which pointers do not have. -/
def checkConvertOrder (focus : Focus) (order : ByteOrder) (bits : Nat)
    (destination : RegisterName) : Checked Focus := do
  let value ← focus.read destination
  demand value.isScalar (.pointerOperand destination.val)
  return focus.write destination (.scalar (value.bounds.convertOrder order bits))

end PacketFilter
