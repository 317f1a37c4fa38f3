import PacketFilter.Verifier.Focus

/-!
# Checking helper calls

A call is checked argument by argument against the prototype of the helper.
The map given first decides how much memory the key and value arguments must
cover.  After the call the result register holds what the prototype says, and
the other caller-saved registers hold nothing.
-/

namespace PacketFilter

/-- The helper that a call names, when programs attached here may call it. -/
def permittedHelper (attach : AttachPoint) (immediate : Int32) : Checked Helper :=
  match Helper.ofImmediate? immediate with
  | none => .error (.unknownHelper immediate.toInt)
  | some helper => do
    demand (helper = .redirect → attach.allowsRedirect) (.helperNotAllowed helper attach)
    return helper

/-- What has been learnt from the arguments looked at so far. -/
structure CallArguments where
  /-- The map, with its number. -/
  map? : Option (Nat × Schema) := none
  /-- Memory whose size is still to come, with the number of its register. -/
  memory? : Option (Nat × AbstractValue) := none
  constantSize : Nat := 0
  /-- The record to be released; zero for none. -/
  released : Nat := 0

/-- The bytes behind a pointer may be read by a helper. -/
def checkHelperMemory (setting : Setting) (focus : Focus) (register : Nat)
    (pointer : AbstractValue) (size : Nat) : Checked Unit := do
  demand (!pointer.mayBeNull) (.nullableMemory register pointer.kind)
  match pointer.kind with
  | .stack =>
    liftStack pointer.offset size (focus.state.stack.checkReadable pointer.offset size)
  | .packet => checkPacketAccess pointer 0 size
  | .mapValue =>
    let schema ← setting.schemaOf pointer.mapIndex
    checkRegionAccess pointer 0 size schema.valueSize
  | .record => checkRegionAccess pointer 0 size pointer.size
  | kind => throw (.notMemory register kind)

/-- The largest size that a size argument may have. -/
def sizeLimit (helper : Helper) (map? : Option (Nat × Schema)) : Nat :=
  match helper with
  | .digest => Helper.digestLimit
  | _ => (map?.map fun map => map.2.valueSize).getD 0

/-- The map that a key or value argument belongs to. -/
def requiredSchema (arguments : CallArguments) (register : Nat) : Checked Schema :=
  match arguments.map? with
  | some map => .ok map.2
  | none => .error (.mapArgumentMissing register)

/-- A declared map of a kind that the helper takes; later arguments are checked against its
schema. -/
def checkMapHandle (setting : Setting) (helper : Helper) (register : Nat)
    (value : AbstractValue) (arguments : CallArguments) : Checked CallArguments := do
  demand (value.kind = .mapHandle) (.notMapHandle register value.kind)
  let schema ← setting.schemaOf value.mapIndex
  demand (schema.kind ∈ helper.prototype.mapKinds) (.mapKindRefused schema.kind helper)
  return { arguments with map? := some (value.mapIndex, schema) }

/-- A constant size, which also settles how much of an earlier memory argument is read. -/
def checkConstantSize (setting : Setting) (focus : Focus) (helper : Helper) (register : Nat)
    (value : AbstractValue) (arguments : CallArguments) : Checked CallArguments := do
  let limit := sizeLimit helper arguments.map?
  match value.constant? with
  | none => throw (.sizeNotConstant register helper)
  | some word =>
    let size := word.toNat
    demand (1 ≤ size ∧ size ≤ limit) (.sizeOutOfRange register size limit helper)
    if let some (memoryRegister, pointer) := arguments.memory? then
      checkHelperMemory setting focus memoryRegister pointer size
    return { arguments with constantSize := size }

/-- The start of a record that is known to be there. -/
def checkRecord (register : Nat) (value : AbstractValue) (arguments : CallArguments) :
    Checked CallArguments := do
  demand (value.kind = .record ∧ !value.mayBeNull ∧ value.reference ≠ 0 ∧ value.offset = 0 ∧
    value.bounds.constant? = some 0) (.notRecord register value.kind)
  return { arguments with released := value.reference }

/-- One argument that the helper uses. -/
def checkUsedArgument (setting : Setting) (focus : Focus) (helper : Helper)
    (rule : ArgumentRule) (register : Nat) (value : AbstractValue) (arguments : CallArguments) :
    Checked CallArguments := do
  match rule with
  | .unused => return arguments
  | .mapHandle => checkMapHandle setting helper register value arguments
  | .mapKey =>
    let schema ← requiredSchema arguments register
    checkHelperMemory setting focus register value schema.keySize
    return arguments
  | .mapValue =>
    let schema ← requiredSchema arguments register
    checkHelperMemory setting focus register value schema.valueSize
    return arguments
  | .memory => return { arguments with memory? := some (register, value) }
  | .constantSize => checkConstantSize setting focus helper register value arguments
  | .anyScalar =>
    demand value.isScalar (.notScalar register value.kind)
    return arguments
  | .updateMode =>
    demand (value.isScalar ∧ value.constant?.all (· ≤ 2)) (.invalidUpdateMode register)
    return arguments
  | .zero =>
    demand (value.constant? = some 0) (.flagsNotZero register)
    return arguments
  | .record => checkRecord register value arguments

/-- One argument, which is looked at only if the helper uses it. -/
def checkArgument (setting : Setting) (focus : Focus) (helper : Helper)
    (arguments : CallArguments) (slot : ArgumentRule × RegisterName) : Checked CallArguments := do
  if slot.1 = .unused then
    return arguments
  else
    let value ← focus.read slot.2
    checkUsedArgument setting focus helper slot.1 slot.2.val value arguments

/-- Release the record that the call gives up. -/
def releaseRecord (focus : Focus) (reference : Nat) : Checked Focus :=
  if reference = 0 then
    .ok focus
  else
    match focus.state.release? reference with
    | some state => .ok { focus with state }
    | none => .error (.releasedTwice reference)

/-- What the call leaves in the result register. -/
def callResult (focus : Focus) (rule : ResultRule) (arguments : CallArguments) :
    AbstractValue × Focus :=
  match rule with
  | .anyScalar => (.unknownScalar, focus)
  | .scalar32 => (.scalar (.ofWidth 4), focus)
  | .redirectVerdict => (.scalar (.ofInterval 0 4), focus)
  | .zero => (.constant 0, focus)
  | .mapValueOrNull =>
    let (identity, focus) := focus.freshIdentity
    (.mapValueOrNull ((arguments.map?.map Prod.fst).getD 0) identity, focus)
  | .recordOrNull =>
    let (identity, focus) := focus.freshIdentity
    (.recordOrNull arguments.constantSize identity,
      { focus with state := focus.state.acquire identity })

def checkCall (setting : Setting) (focus : Focus) (immediate : Int32) : Checked Focus := do
  let helper ← permittedHelper setting.attach immediate
  let focus := { focus with helperCalls := focus.helperCalls + 1 }
  let slots := helper.prototype.arguments.zip RegisterName.arguments
  let arguments ← slots.foldlM (checkArgument setting focus helper) {}
  let focus ← releaseRecord focus arguments.released
  let (result, focus) := callResult focus helper.prototype.result arguments
  let focus := { focus with state := focus.state.forgetCallerSaved }
  return focus.write RegisterName.result result

end PacketFilter
