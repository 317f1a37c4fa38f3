import PacketFilter.Verifier.Focus

/-!
# Checking atomic operations

Atomic operations work on four or eight aligned bytes of a map value or of the
stack, and only on scalars.
-/

namespace PacketFilter

/-- The registers that the operation combines with memory hold scalars. -/
def checkAtomicOperands (focus : Focus) (operation : AtomicOperation) (source : RegisterName) :
    Checked Unit := do
  let operand ← focus.read source
  demand operand.isScalar (.atomicOperand operation source.val)
  if operation = .compareExchange then
    let expected ← focus.read RegisterName.result
    demand expected.isScalar .comparandNotScalar

/-- Every address the pointer may stand for is a multiple of the size. -/
def checkAligned (pointer : AbstractValue) (offset : Int) (size : Nat) : Checked Unit := do
  let fixed := pointer.offset + offset
  let variableBits := pointer.bounds.bits.unsignedMax
  demand (fixed % size = 0 ∧ variableBits &&& BitVec.ofNat 64 (size - 1) = 0)
    (.misalignedAtomic fixed size)

/-- An atomic operation on bytes of the stack, which afterwards hold data. -/
def checkStackAtomic (focus : Focus) (offset : Int) (size : Nat) : Checked Focus := do
  let old ← liftStack offset size (focus.state.stack.read offset size)
  demand (!old.isPointer) (.atomicSpilledPointer offset)
  let stack ← liftStack offset size (focus.state.stack.writeData offset size)
  return focus.withStack stack

/-- The memory that the operation works on. -/
def checkAtomicTarget (setting : Setting) (focus : Focus) (pointer : AbstractValue)
    (offset : Int) (size : Nat) : Checked Focus := do
  match pointer.kind with
  | .stack => checkStackAtomic focus (pointer.offset + offset) size
  | .mapValue =>
    let schema ← setting.schemaOf pointer.mapIndex
    checkRegionAccess pointer offset size schema.valueSize
    return focus
  | kind => throw (.atomicTarget kind)

/-- The register that receives the old value, if any does. -/
def AtomicOperation.receiver? (operation : AtomicOperation) (source : RegisterName) :
    Option RegisterName :=
  match operation with
  | .combine _ fetches => if fetches then some source else none
  | .exchange => some source
  | .compareExchange => some RegisterName.result

def checkAtomic (setting : Setting) (focus : Focus) (operation : AtomicOperation)
    (size : AccessSize) (base source : RegisterName) (offset : Int) : Checked Focus := do
  let pointer ← focus.read base
  checkAtomicOperands focus operation source
  demand (!pointer.mayBeNull) (.nullableAtomic pointer.kind)
  checkAligned pointer offset size.bytes
  let focus ← checkAtomicTarget setting focus pointer offset size.bytes
  match operation.receiver? source with
  | some receiver => return focus.write receiver (.scalar (.ofWidth size.bytes))
  | none => return focus

end PacketFilter
