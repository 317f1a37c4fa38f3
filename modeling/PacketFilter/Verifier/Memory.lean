import PacketFilter.Verifier.Focus

/-!
# Checking loads and stores

Every access goes through a pointer, and the kind of the pointer decides what
is demanded of it.  Pointers can be stored on the stack alone; everything else
takes scalars.
-/

namespace PacketFilter

/-- The value that an access gives or takes: the stored one, or whatever the width allows. -/
def accessed (stored? : Option AbstractValue) (size : Nat) : AbstractValue :=
  stored?.getD (.scalar (.ofWidth size))

/-- A load from the stack frame or a store into it. -/
def checkStackAccess (focus : Focus) (offset : Int) (size : Nat)
    (stored? : Option AbstractValue) : Checked (AbstractValue × Focus) := do
  let focus' := focus.touchStack offset
  match stored? with
  | some value =>
    let stack ← liftStack offset size (focus.state.stack.write offset size value)
    return (value, focus'.withStack stack)
  | none =>
    let value ← liftStack offset size (focus.state.stack.read offset size)
    return (value, focus')

/-- A pointer may be stored only on the stack. -/
def checkStorable (pointer : AbstractValue) : Option AbstractValue → Checked Unit
  | some value =>
    demand (value.isPointer → pointer.kind = .stack) (.pointerStore value.kind pointer.kind)
  | none => .ok ()

/--
An access of `size` bytes at an offset from a pointer.  The result is the
value stored, or what is known of the value loaded.
-/
def checkAccess (setting : Setting) (focus : Focus) (pointer : AbstractValue) (offset : Int)
    (size : Nat) (stored? : Option AbstractValue) : Checked (AbstractValue × Focus) := do
  demand (!pointer.mayBeNull) (.nullableAccess pointer.kind)
  checkStorable pointer stored?
  match pointer.kind with
  | .context =>
    demand pointer.bounds.isConstant .variableContextOffset
    let value ← checkContextAccess (pointer.offset + offset) size stored?
    return (value, focus)
  | .stack => checkStackAccess focus (pointer.offset + offset) size stored?
  | .packet =>
    demand (stored?.isSome → setting.attach.allowsPacketWrite) (.packetWrite setting.attach)
    checkPacketAccess pointer offset size
    return (accessed stored? size, focus)
  | .mapValue =>
    let schema ← setting.schemaOf pointer.mapIndex
    checkRegionAccess pointer offset size schema.valueSize
    return (accessed stored? size, focus)
  | .record =>
    checkRegionAccess pointer offset size pointer.size
    return (accessed stored? size, focus)
  | .uninitialized => throw .uninitializedAccess
  | .scalar | .packetEnd | .mapHandle => throw (.invalidAccess pointer.kind)

/-- A load: the base is a pointer, the access is allowed, and the destination takes what is known of
the bytes. -/
def checkLoad (setting : Setting) (focus : Focus) (size : AccessSize)
    (destination base : RegisterName) (offset : Int) : Checked Focus := do
  let pointer ← focus.read base
  let (value, focus) ← checkAccess setting focus pointer offset size.bytes none
  return focus.write destination value

/-- The value that a store puts into memory; an immediate is cut to the width of the access. -/
def storedValue (focus : Focus) (size : AccessSize) : Operand → Checked AbstractValue
  | .register name => focus.read name
  | .immediate value => .ok (.constant ((Word.ofImmediate value).lowBits (size.bytes * 8)))

/-- A store: the base is a pointer, and the access is allowed for what is stored. -/
def checkStore (setting : Setting) (focus : Focus) (size : AccessSize) (base : RegisterName)
    (offset : Int) (operand : Operand) : Checked Focus := do
  let pointer ← focus.read base
  let value ← storedValue focus size operand
  let (_, focus) ← checkAccess setting focus pointer offset size.bytes (some value)
  return focus

/-- A load of a map handle, which has to be declared. -/
def checkLoadMap (setting : Setting) (focus : Focus) (destination : RegisterName)
    (index : Int32) : Checked Focus := do
  let mapIndex := index.toBitVec.toNat
  demand (setting.schema? mapIndex).isSome (.mapNotDeclared index.toInt)
  return focus.write destination (.mapHandle mapIndex)

end PacketFilter
