import PacketFilter.Proofs.Checked
import PacketFilter.Verifier.Transfer

/-!
# Passed checks, case by case

For every check of an operation, the ways in which it comes out well: the
demands that were met on the way, and the value and the focus that it leaves.
The checks are taken apart here alone; what holds of all that they let through
is shown by cases of these.
-/

namespace PacketFilter

/-! ## The ways to pass -/

/-- The ways in which a field of the context is accessed: pointers are loaded whole, and scalars
are stored where the field allows it. -/
inductive ContextField.Grants (field : ContextField) (offset : Int) (size : Nat) :
    Option AbstractValue → AbstractValue → Prop where
  | load (whole : field.isPointer = true → offset = field.offset ∧ size = 8) :
      Grants field offset size none (field.loaded size)
  | store {value : AbstractValue} (writable : field.isWritable = true)
      (scalar : value.isScalar = true) :
      Grants field offset size (some value) value

namespace Focus

/-- The ways in which an access is let through, by what the pointer leads to. -/
inductive Grants (setting : Setting) (focus : Focus) (pointer : AbstractValue) (offset : Int)
    (size : Nat) : Option AbstractValue → AbstractValue → Focus → Prop where
  | context {stored? : Option AbstractValue} {value : AbstractValue}
      (isContext : pointer.kind = .context)
      (lies : checkContextAccess (pointer.offset + offset) size stored? = .ok value) :
      Grants setting focus pointer offset size stored? value focus
  | spill {value : AbstractValue} {frame : StackFrame} (isStack : pointer.kind = .stack)
      (writes : focus.state.stack.write (pointer.offset + offset) size value = .ok frame) :
      Grants setting focus pointer offset size (some value) value
        ((focus.touchStack (pointer.offset + offset)).withStack frame)
  | fill {value : AbstractValue} (isStack : pointer.kind = .stack)
      (reads : focus.state.stack.read (pointer.offset + offset) size = .ok value) :
      Grants setting focus pointer offset size none value
        (focus.touchStack (pointer.offset + offset))
  | packet {stored? : Option AbstractValue} (isPacket : pointer.kind = .packet)
      (allowed : stored?.isSome = true → setting.attach.allowsPacketWrite = true)
      (lies : checkPacketAccess pointer offset size = .ok ()) :
      Grants setting focus pointer offset size stored? (accessed stored? size) focus
  | mapValue {stored? : Option AbstractValue} {schema : Schema}
      (isMapValue : pointer.kind = .mapValue)
      (declared : setting.schema? pointer.mapIndex = some schema)
      (lies : checkRegionAccess pointer offset size schema.valueSize = .ok ()) :
      Grants setting focus pointer offset size stored? (accessed stored? size) focus
  | record {stored? : Option AbstractValue} (isRecord : pointer.kind = .record)
      (lies : checkRegionAccess pointer offset size pointer.size = .ok ()) :
      Grants setting focus pointer offset size stored? (accessed stored? size) focus

/-- The ways in which an atomic operation is given its memory. -/
inductive Targets (setting : Setting) (focus : Focus) (pointer : AbstractValue) (offset : Int)
    (size : Nat) : Focus → Prop where
  | stack {old : AbstractValue} {frame : StackFrame} (isStack : pointer.kind = .stack)
      (reads : focus.state.stack.read (pointer.offset + offset) size = .ok old)
      (writes : focus.state.stack.writeData (pointer.offset + offset) size = .ok frame) :
      Targets setting focus pointer offset size (focus.withStack frame)
  | mapValue {schema : Schema} (isMapValue : pointer.kind = .mapValue)
      (declared : setting.schema? pointer.mapIndex = some schema)
      (lies : checkRegionAccess pointer offset size schema.valueSize = .ok ()) :
      Targets setting focus pointer offset size focus

/-- What was demanded of an atomic operation; `updated` is the focus once its memory has
changed. -/
structure Exchanges (setting : Setting) (focus : Focus) (operation : AtomicOperation)
    (size : AccessSize) (base source : RegisterName) (offset : Int) (updated : Focus) : Prop where
  operands : checkAtomicOperands focus operation source = .ok ()
  present : (focus.state.register base).mayBeNull = false
  aligned : checkAligned (focus.state.register base) offset size.bytes = .ok ()
  targets : focus.Targets setting (focus.state.register base) offset size.bytes updated

/-- The ways in which a pointer is moved by a scalar. -/
inductive Moves (focus : Focus) (operation : Arithmetic) (pointer scalar : AbstractValue) :
    AbstractValue → Focus → Prop where
  | fixed {constant : Word} {moved : AbstractValue}
      (known : scalar.bounds.constant? = some constant)
      (moves : movePointer operation pointer constant = .ok moved) :
      Moves focus operation pointer scalar moved focus
  | packet (isPacket : pointer.kind = .packet) (added : operation = .add) :
      Moves focus operation pointer scalar
        { pointer with
          bounds := pointer.bounds.add scalar.bounds, identity := focus.lastIdentity + 1
          range := 0 }
        { focus with lastIdentity := focus.lastIdentity + 1 }
  | region (isRegion : pointer.kind = .mapValue ∨ pointer.kind = .record) :
      Moves focus operation pointer scalar
        { pointer with
          bounds := if operation = .add then pointer.bounds.add scalar.bounds
            else pointer.bounds.sub scalar.bounds }
        focus

/-- What was demanded of a pointer that a scalar moves, and where it goes. -/
structure Offsets (focus : Focus) (operation : Arithmetic) (pointer scalar value : AbstractValue)
    (focus' : Focus) : Prop where
  either : operation = .add ∨ operation = .sub
  present : pointer.mayBeNull = false
  movable : pointer.kind ≠ .packetEnd ∧ pointer.kind ≠ .mapHandle
  moves : focus.Moves operation pointer scalar value focus'

/-- The ways in which pointers take part in arithmetic. -/
inductive Combines (focus : Focus) (left right : AbstractValue) :
    Arithmetic → AbstractValue → Focus → Prop where
  | distance : Combines focus left right .sub .unknownScalar focus
  | left {operation : Arithmetic} {value : AbstractValue} {focus' : Focus}
      (isPointer : left.isPointer = true) (plain : right.isPointer = false)
      (offsets : focus.Offsets operation left right value focus') :
      Combines focus left right operation value focus'
  | right {value : AbstractValue} {focus' : Focus} (plain : left.isPointer = false)
      (isPointer : right.isPointer = true)
      (offsets : focus.Offsets .add right left value focus') :
      Combines focus left right .add value focus'

/-- The ways in which an arithmetic instruction gives its destination a value. -/
inductive Computes (focus : Focus) (destination : RegisterName) :
    Width → Arithmetic → Operand → Focus → Prop where
  | negation {operand : Operand} (scalar : (focus.state.register destination).isScalar = true) :
      Computes focus destination .whole .neg operand
        (focus.write destination (.scalar (focus.state.register destination).bounds.neg))
  | negation32 {operand : Operand} (scalar : (focus.state.register destination).isScalar = true) :
      Computes focus destination .half .neg operand
        (focus.write destination
          (.scalar (Bounds.apply32 .neg (focus.state.register destination).bounds (.constant 0))))
  | copy {source : RegisterName} :
      Computes focus destination .whole .move (.register source)
        (focus.write destination (focus.state.register source))
  | truncation {source : RegisterName}
      (known : (focus.state.register source).kind ≠ .uninitialized)
      (plain : (focus.state.register source).isPointer = false) :
      Computes focus destination .half .move (.register source)
        (focus.write destination (.scalar (focus.state.register source).bounds.truncate32))
  | constant {immediate : Int32} :
      Computes focus destination .whole .move (.immediate immediate)
        (focus.write destination (.constant (Word.ofImmediate immediate)))
  | constant32 {immediate : Int32} :
      Computes focus destination .half .move (.immediate immediate)
        (focus.write destination (.constant (Word.ofImmediate32 immediate)))
  | scalars {operation : Arithmetic} {operand : Operand} {right : AbstractValue}
      (known : (focus.state.register destination).kind ≠ .uninitialized)
      (found : focus.operand operand = .ok right)
      (plain : (focus.state.register destination).isPointer = false ∧ right.isPointer = false) :
      Computes focus destination .whole operation operand
        (focus.write destination
          (.scalar
            (Bounds.apply operation (focus.state.register destination).bounds right.bounds)))
  | scalars32 {operation : Arithmetic} {operand : Operand} {right : AbstractValue}
      (known : (focus.state.register destination).kind ≠ .uninitialized)
      (found : focus.operand operand = .ok right)
      (plain : (focus.state.register destination).isPointer = false ∧ right.isPointer = false) :
      Computes focus destination .half operation operand
        (focus.write destination
          (.scalar
            (Bounds.apply32 operation (focus.state.register destination).bounds right.bounds)))
  | pointers {operation : Arithmetic} {operand : Operand} {right value : AbstractValue}
      {focus' : Focus}
      (known : (focus.state.register destination).kind ≠ .uninitialized)
      (found : focus.operand operand = .ok right)
      (combines : focus.Combines (focus.state.register destination) right operation value focus') :
      Computes focus destination .whole operation operand (focus'.write destination value)

/-- The ways in which a branch finds the states on its edges. -/
inductive Branches (focus : Focus) (width : Width) (comparison : Comparison) (left : RegisterName)
    (right : Operand) : Edges → Prop where
  | scalars {value : AbstractValue} {edges : Edges}
      (compared : comparand focus width comparison right = .ok value)
      (leftScalar : (focus.state.register left).isScalar = true)
      (rightScalar : value.isScalar = true)
      (found : scalarEdges? focus.state width comparison left right
        (focus.state.register left).bounds value.bounds = some edges) :
      Branches focus width comparison left right edges
  | nullCheck {value : AbstractValue} {edges : Edges}
      (compared : comparand focus width comparison right = .ok value)
      (pointer : ¬ ((focus.state.register left).isScalar = true ∧ value.isScalar = true))
      (checked : nullCheckEdges? focus.state comparison (focus.state.register left) value =
        some edges) :
      Branches focus width comparison left right edges
  | packetEnd {value : AbstractValue} {oriented : Comparison}
      (compared : comparand focus width comparison right = .ok value) (whole : width = .whole)
      (found : packetEndComparison? (focus.state.register left) value comparison = some oriented) :
      Branches focus width comparison left right
        (packetEdges focus.state oriented (focus.state.register left) value)
  | pointers : Branches focus width comparison left right (.unchanged focus.state)

/-- The ways in which a call gives up a record, if it gives up one. -/
inductive Releases (focus : Focus) : Nat → Focus → Prop where
  | none : Releases focus 0 focus
  | one {reference : Nat} {state : AbstractState} (stands : reference ≠ 0)
      (released : focus.state.release? reference = some state) :
      Releases focus reference { focus with state }

/-- The focus once a call has been counted. -/
def counted (focus : Focus) : Focus :=
  { focus with helperCalls := focus.helperCalls + 1 }

/-- What was demanded of a call, and what is known before the caller-saved registers are
forgotten. -/
structure Calls (setting : Setting) (focus : Focus) (immediate : Int32) (helper : Helper)
    (arguments : CallArguments) (released : Focus) (value : AbstractValue) (after : Focus) :
    Prop where
  named : Helper.ofImmediate? immediate = some helper
  permitted : helper = .redirect → setting.attach.allowsRedirect = true
  accepts : (helper.prototype.arguments.zip RegisterName.arguments).foldlM
    (checkArgument setting focus.counted helper) {} = .ok arguments
  releases : focus.counted.Releases arguments.released released
  called : callResult released helper.prototype.result arguments = (value, after)

end Focus

section

variable {setting : Setting} {focus focus' : Focus} {value pointer : AbstractValue} {offset : Int}

/-! ## Memory -/

/-- A context access that passes lies in one field, and has the value of that field. -/
theorem checkContextAccess_eq_ok
    {size : Nat} {stored? : Option AbstractValue}
    (passed : checkContextAccess offset size stored? = .ok value) :
    ∃ field, ContextField.atOffset? offset = some field ∧
      Word.wrapSigned (offset + size) ≤ field.limit ∧ field.Grants offset size stored? value := by
  simp only [checkContextAccess, demand_bind_eq_ok] at passed
  have passed := passed.2
  split at passed
  case h_1 => cases passed
  case h_2 field found =>
    rw [demand_bind_eq_ok] at passed
    rcases passed with ⟨stop, passed⟩
    refine ⟨field, found, stop, ?_⟩
    cases stored? with
    | none =>
        simp only [checkContextLoad, demand_bind_eq_ok] at passed
        rcases passed with ⟨whole, made⟩
        cases made
        exact .load whole
    | some source =>
        simp only [checkContextStore, demand_bind_eq_ok] at passed
        rcases passed with ⟨writable, scalar, made⟩
        cases made
        exact .store writable scalar

/-- A store to the frame passes just when the frame takes its value. -/
theorem checkStackAccess_some_eq_ok
    {size : Nat} {source : AbstractValue} :
    checkStackAccess focus offset size (some source) = .ok (value, focus') ↔
      ∃ frame, focus.state.stack.write offset size source = .ok frame ∧
        source = value ∧ (focus.touchStack offset).withStack frame = focus' := by
  simp only [checkStackAccess, Checked.bind_eq_ok, liftStack_eq_ok, Checked.pure_eq_ok,
    Prod.mk.injEq]

/-- A load from the frame passes just when the frame has a value there. -/
theorem checkStackAccess_none_eq_ok
    {size : Nat} :
    checkStackAccess focus offset size none = .ok (value, focus') ↔
      focus.state.stack.read offset size = .ok value ∧ focus.touchStack offset = focus' := by
  simp only [checkStackAccess, Checked.bind_eq_ok, liftStack_eq_ok, Checked.pure_eq_ok,
    Prod.mk.injEq]
  constructor
  · rintro ⟨_, reads, rfl, same⟩
    exact ⟨reads, same⟩
  · rintro ⟨reads, same⟩
    exact ⟨value, reads, rfl, same⟩

/-- An atomic operation on the frame passes just over data, which it overwrites. -/
theorem checkStackAtomic_eq_ok
    {size : Nat} :
    checkStackAtomic focus offset size = .ok focus' ↔
      ∃ old, focus.state.stack.read offset size = .ok old ∧ old.isPointer = false ∧
        ∃ frame, focus.state.stack.writeData offset size = .ok frame ∧
          focus.withStack frame = focus' := by
  simp only [checkStackAtomic, Checked.bind_eq_ok, demand_eq_ok, liftStack_eq_ok,
    Checked.pure_eq_ok, Bool.not_eq_true', exists_const]

/-- An access that passes was granted by the kind of its pointer, which cannot be null. -/
theorem grants_of_checkAccess
    {size : Nat} {stored? : Option AbstractValue}
    (passed : checkAccess setting focus pointer offset size stored? = .ok (value, focus')) :
    pointer.mayBeNull = false ∧ focus.Grants setting pointer offset size stored? value focus' := by
  simp only [checkAccess, demand_bind_eq_ok, Bool.not_eq_true'] at passed
  rcases passed with ⟨present, passed⟩
  rcases Checked.bind_eq_ok.mp passed with ⟨_, _, passed⟩
  refine ⟨present, ?_⟩
  split at passed
  case h_1 isContext =>
    rw [demand_bind_eq_ok] at passed
    rcases Checked.bind_eq_ok.mp passed.2 with ⟨found, lies, made⟩
    cases made
    exact .context isContext lies
  case h_2 isStack =>
    cases stored? with
    | some source =>
        rcases checkStackAccess_some_eq_ok.mp passed with ⟨frame, writes, rfl, rfl⟩
        exact .spill isStack writes
    | none =>
        rcases checkStackAccess_none_eq_ok.mp passed with ⟨reads, rfl⟩
        exact .fill isStack reads
  case h_3 isPacket =>
    rw [demand_bind_eq_ok] at passed
    rcases passed with ⟨allowed, passed⟩
    rcases Checked.bind_eq_ok.mp passed with ⟨_, lies, made⟩
    cases made
    exact .packet isPacket allowed lies
  case h_4 isMapValue =>
    rcases Checked.bind_eq_ok.mp passed with ⟨schema, declared, passed⟩
    rcases Checked.bind_eq_ok.mp passed with ⟨_, lies, made⟩
    cases made
    exact .mapValue isMapValue (Setting.schemaOf_eq_ok.mp declared) lies
  case h_5 isRecord =>
    rcases Checked.bind_eq_ok.mp passed with ⟨_, lies, made⟩
    cases made
    exact .record isRecord lies
  case h_6 => cases passed
  case h_7 => cases passed
  case h_8 => cases passed
  case h_9 => cases passed

/-- A load that passes puts into its destination what the access granted. -/
theorem grants_of_checkLoad
    {size : AccessSize} {destination base : RegisterName}
    (passed : checkLoad setting focus size destination base offset = .ok focus') :
    ∃ value accessed, (focus.state.register base).mayBeNull = false ∧
      focus.Grants setting (focus.state.register base) offset size.bytes none value accessed ∧
        focus' = accessed.write destination value := by
  simp only [checkLoad] at passed
  rcases Checked.bind_eq_ok.mp passed with ⟨pointer, reads, passed⟩
  rcases Checked.bind_eq_ok.mp passed with ⟨⟨value, accessed⟩, accesses, made⟩
  cases made
  rcases Focus.read_eq_ok.mp reads with ⟨rfl, _⟩
  rcases grants_of_checkAccess accesses with ⟨present, grants⟩
  exact ⟨value, accessed, present, grants, rfl⟩

/-- A store that passes was granted for the value of its operand. -/
theorem grants_of_checkStore
    {size : AccessSize} {base : RegisterName} {operand : Operand}
    (passed : checkStore setting focus size base offset operand = .ok focus') :
    ∃ value answer, storedValue focus size operand = .ok value ∧
      (focus.state.register base).mayBeNull = false ∧
        focus.Grants setting (focus.state.register base) offset size.bytes (some value) answer
          focus' := by
  simp only [checkStore] at passed
  rcases Checked.bind_eq_ok.mp passed with ⟨pointer, reads, passed⟩
  rcases Checked.bind_eq_ok.mp passed with ⟨value, stores, passed⟩
  rcases Checked.bind_eq_ok.mp passed with ⟨⟨answer, accessed⟩, accesses, made⟩
  cases made
  rcases Focus.read_eq_ok.mp reads with ⟨rfl, _⟩
  rcases grants_of_checkAccess accesses with ⟨present, grants⟩
  exact ⟨value, answer, stores, present, grants⟩

/-- An atomic operation that passes has a target on the stack or in a map value. -/
theorem targets_of_checkAtomicTarget
    {size : Nat}
    (passed : checkAtomicTarget setting focus pointer offset size = .ok focus') :
    focus.Targets setting pointer offset size focus' := by
  simp only [checkAtomicTarget] at passed
  split at passed
  case h_1 isStack =>
    rcases checkStackAtomic_eq_ok.mp passed with ⟨old, reads, _, frame, writes, rfl⟩
    exact .stack isStack reads writes
  case h_2 isMapValue =>
    rcases Checked.bind_eq_ok.mp passed with ⟨schema, declared, passed⟩
    rcases Checked.bind_eq_ok.mp passed with ⟨_, lies, made⟩
    cases made
    exact .mapValue isMapValue (Setting.schemaOf_eq_ok.mp declared) lies
  case h_3 => cases passed

theorem exchanges_of_checkAtomic
    {operation : AtomicOperation} {size : AccessSize} {base source : RegisterName}
    (passed : checkAtomic setting focus operation size base source offset = .ok focus') :
    ∃ updated, focus.Exchanges setting operation size base source offset updated ∧
      focus' = match operation.receiver? source with
        | some receiver => updated.write receiver (.scalar (.ofWidth size.bytes))
        | none => updated := by
  simp only [checkAtomic] at passed
  rcases Checked.bind_eq_ok.mp passed with ⟨pointer, reads, passed⟩
  rcases Checked.bind_eq_ok.mp passed with ⟨_, operands, passed⟩
  rw [demand_bind_eq_ok, Bool.not_eq_true'] at passed
  rcases passed with ⟨present, passed⟩
  rcases Checked.bind_eq_ok.mp passed with ⟨_, aligned, passed⟩
  rcases Checked.bind_eq_ok.mp passed with ⟨updated, targets, made⟩
  rcases Focus.read_eq_ok.mp reads with ⟨rfl, _⟩
  refine ⟨updated, ⟨operands, present, aligned, targets_of_checkAtomicTarget targets⟩, ?_⟩
  cases receives : operation.receiver? source with
  | none =>
      rw [receives] at made
      cases made
      rfl
  | some receiver =>
      rw [receives] at made
      cases made
      rfl

theorem checkLoadMap_eq_ok
    {destination : RegisterName} {index : Int32}
    (passed : checkLoadMap setting focus destination index = .ok focus') :
    focus' = focus.write destination (.mapHandle index.toBitVec.toNat) := by
  simp only [checkLoadMap, demand_bind_eq_ok] at passed
  cases passed.2
  rfl

/-! ## Arithmetic -/

/-- A pointer that may be moved goes by a constant, or by bounds in a packet or a region. -/
theorem offsets_of_offsetPointer
    {operation : Arithmetic} {scalar : AbstractValue}
    (passed : offsetPointer focus operation pointer scalar = .ok (value, focus')) :
    focus.Offsets operation pointer scalar value focus' := by
  simp only [offsetPointer, demand_bind_eq_ok] at passed
  rcases passed with ⟨either, passed⟩
  rcases Checked.bind_eq_ok.mp passed with ⟨_, movable, passed⟩
  simp only [checkMovable, demand_bind_eq_ok, demand_eq_ok, Bool.not_eq_true'] at movable
  refine ⟨either, movable.1, movable.2, ?_⟩
  split at passed
  case h_1 constant known =>
    rcases Checked.bind_eq_ok.mp passed with ⟨moved, moves, made⟩
    cases made
    exact .fixed known moves
  case h_2 =>
    simp only [moveByVariable] at passed
    split at passed
    case h_1 isPacket =>
      simp only [advancePacket, demand_bind_eq_ok, Focus.freshIdentity] at passed
      rcases passed with ⟨added, _, made⟩
      cases made
      exact .packet isPacket added
    case h_2 isMapValue =>
      cases passed
      exact .region (.inl isMapValue)
    case h_3 isRecord =>
      cases passed
      exact .region (.inr isRecord)
    case h_4 => cases passed

/-- Arithmetic with a pointer that passes moves the pointer, or subtracts two of one kind. -/
theorem combines_of_computeWithPointer
    {operation : Arithmetic} {left right : AbstractValue}
    (either : left.isPointer = true ∨ right.isPointer = true)
    (passed : computeWithPointer focus operation left right = .ok (value, focus')) :
    focus.Combines left right operation value focus' := by
  simp only [computeWithPointer] at passed
  split at passed
  case isTrue =>
    rcases Checked.bind_eq_ok.mp passed with ⟨distance, subtracts, made⟩
    cases made
    simp only [subtractPointers, demand_bind_eq_ok] at subtracts
    rcases subtracts with ⟨⟨rfl, _⟩, made⟩
    cases made
    exact .distance
  case isFalse notBoth =>
    split at passed
    case isTrue isPointer =>
      exact .left isPointer (by simpa [isPointer] using notBoth) (offsets_of_offsetPointer passed)
    case isFalse notLeft =>
      rw [demand_bind_eq_ok] at passed
      rcases passed with ⟨rfl, passed⟩
      exact .right (by simpa using notLeft) (either.resolve_left notLeft)
        (offsets_of_offsetPointer passed)

section

variable {width : Width} {operation : Arithmetic} {destination : RegisterName} {operand : Operand}

theorem computes_of_checkNegate
    (passed : checkNegate focus width destination = .ok focus') :
    focus.Computes destination width .neg operand focus' := by
  simp only [checkNegate] at passed
  rcases Checked.bind_eq_ok.mp passed with ⟨value, reads, passed⟩
  rw [demand_bind_eq_ok] at passed
  rcases passed with ⟨scalar, made⟩
  rcases Focus.read_eq_ok.mp reads with ⟨rfl, _⟩
  cases width with
  | whole =>
      cases made
      exact .negation scalar
  | half =>
      cases made
      exact .negation32 scalar

theorem computes_of_checkMove
    (passed : checkMove focus width destination operand = .ok focus') :
    focus.Computes destination width .move operand focus' := by
  simp only [checkMove] at passed
  split at passed
  case h_1 source =>
    rcases Checked.bind_eq_ok.mp passed with ⟨value, reads, made⟩
    cases made
    rcases Focus.read_eq_ok.mp reads with ⟨rfl, _⟩
    exact .copy
  case h_2 source =>
    rcases Checked.bind_eq_ok.mp passed with ⟨value, reads, passed⟩
    rw [demand_bind_eq_ok] at passed
    rcases passed with ⟨plain, made⟩
    cases made
    rcases Focus.read_eq_ok.mp reads with ⟨rfl, known⟩
    exact .truncation known (by simpa using plain)
  case h_3 =>
    cases passed
    exact .constant
  case h_4 =>
    cases passed
    exact .constant32

theorem computes_of_checkBinary
    (passed : checkBinary focus width operation destination operand = .ok focus') :
    focus.Computes destination width operation operand focus' := by
  simp only [checkBinary] at passed
  rcases Checked.bind_eq_ok.mp passed with ⟨left, reads, rest⟩
  rcases Checked.bind_eq_ok.mp rest with ⟨right, found, last⟩
  clear passed rest
  rcases Focus.read_eq_ok.mp reads with ⟨rfl, known⟩
  split at last
  case isTrue either =>
    rw [demand_bind_eq_ok] at last
    rcases last with ⟨rfl, last⟩
    rcases Checked.bind_eq_ok.mp last with ⟨⟨value, after⟩, computes, made⟩
    cases made
    exact .pointers known found (combines_of_computeWithPointer either computes)
  case isFalse neither =>
    rw [not_or, Bool.not_eq_true, Bool.not_eq_true] at neither
    cases width with
    | whole =>
        cases last
        exact .scalars known found neither
    | half =>
        cases last
        exact .scalars32 known found neither

/-- Arithmetic that passes is a move, a negation or an operation on two operands. -/
theorem computes_of_checkCompute
    (passed : checkCompute focus width operation destination operand = .ok focus') :
    focus.Computes destination width operation operand focus' := by
  simp only [checkCompute] at passed
  split at passed
  case h_1 => exact computes_of_checkNegate passed
  case h_2 => exact computes_of_checkMove passed
  case h_3 => exact computes_of_checkBinary passed

end

theorem checkConvertOrder_eq_ok
    {order : ByteOrder} {bits : Nat} {destination : RegisterName}
    (passed : checkConvertOrder focus order bits destination = .ok focus') :
    (focus.state.register destination).isScalar = true ∧
      focus' = focus.write destination
        (.scalar ((focus.state.register destination).bounds.convertOrder order bits)) := by
  simp only [checkConvertOrder] at passed
  rcases Checked.bind_eq_ok.mp passed with ⟨value, reads, passed⟩
  rw [demand_bind_eq_ok] at passed
  rcases passed with ⟨scalar, made⟩
  cases made
  rcases Focus.read_eq_ok.mp reads with ⟨rfl, _⟩
  exact ⟨scalar, rfl⟩

/-! ## Branches -/

/-- The state on an edge of a comparison of scalars: as it was, or with what the comparison leaves
of the operands' bounds. -/
inductive AbstractState.Refines (state : AbstractState) (comparison : Comparison)
    (left : RegisterName) (right : Operand) (leftBounds rightBounds : Bounds) :
    AbstractState → Prop where
  | unchanged : Refines state comparison left right leftBounds rightBounds state
  | refined {narrowed : Bounds × Bounds}
      (left' : Bounds.refine? comparison leftBounds rightBounds = some (some narrowed)) :
      Refines state comparison left right leftBounds rightBounds
        (state.setOperandBounds left right narrowed)

/-- An edge that a branch leaves open has the bounds refined by its comparison. -/
theorem refines_of_refinedEdge
    {state : AbstractState} {comparison : Comparison} {left : RegisterName} {right : Operand}
    {leftBounds rightBounds : Bounds} {edge? : Option AbstractState}
    (found : refinedEdge? state comparison left right leftBounds rightBounds = some edge?) :
    ∀ edge ∈ edge?, state.Refines comparison left right leftBounds rightBounds edge := by
  rintro edge isEdge
  rcases Option.map_eq_some_iff.mp found with ⟨narrowed?, refined, rfl⟩
  rcases Option.map_eq_some_iff.mp isEdge with ⟨narrowed, rfl, rfl⟩
  exact .refined refined

/-- On the edge that is taken the comparison holds, and on the other one its negation does. -/
theorem refines_of_scalarEdges
    {state : AbstractState} {width : Width} {comparison : Comparison} {left : RegisterName}
    {right : Operand} {leftBounds rightBounds : Bounds} {edges : Edges}
    (found : scalarEdges? state width comparison left right leftBounds rightBounds = some edges) :
    (∀ edge ∈ edges.taken?, state.Refines comparison left right leftBounds rightBounds edge) ∧
      ∀ edge ∈ edges.fall?,
        state.Refines comparison.negate left right leftBounds rightBounds edge := by
  unfold scalarEdges? at found
  split at found
  case isTrue =>
    cases found
    exact ⟨by rintro _ ⟨⟩; exact .unchanged, by rintro _ ⟨⟩; exact .unchanged⟩
  case isFalse =>
    split at found
    case h_1 =>
      cases found
      exact ⟨by rintro _ ⟨⟩; exact .unchanged, by rintro _ ⟨⟩⟩
    case h_2 =>
      cases found
      exact ⟨by rintro _ ⟨⟩, by rintro _ ⟨⟩; exact .unchanged⟩
    case h_3 =>
      rcases Option.bind_eq_some_iff.mp found with ⟨taken?, taken, found⟩
      rcases Option.bind_eq_some_iff.mp found with ⟨fall?, fall, found⟩
      cases found
      exact ⟨refines_of_refinedEdge taken, refines_of_refinedEdge fall⟩

/-- A branch that passes checks for null, compares with the packet's end or compares scalars. -/
theorem branches_of_checkBranch
    {width : Width} {comparison : Comparison} {left : RegisterName} {right : Operand}
    {edges : Edges}
    (passed : checkBranch focus width comparison left right = .ok edges) :
    focus.Branches width comparison left right edges := by
  simp only [checkBranch] at passed
  rcases Checked.bind_eq_ok.mp passed with ⟨leftValue, reads, passed⟩
  rcases Checked.bind_eq_ok.mp passed with ⟨rightValue, compared, passed⟩
  rcases Focus.read_eq_ok.mp reads with ⟨rfl, _⟩
  split at passed
  case isTrue scalars =>
    split at passed
    case h_1 found =>
      cases passed
      exact .scalars compared scalars.1 scalars.2 found
    case h_2 => cases passed
  case isFalse pointer =>
    simp only [pointerEdges] at passed
    split at passed
    case h_1 checked =>
      cases passed
      exact .nullCheck compared pointer checked
    case h_2 =>
      split at passed
      case h_1 found =>
        rw [demand_bind_eq_ok] at passed
        rcases passed with ⟨whole, made⟩
        cases made
        exact .packetEnd compared whole found
      case h_2 =>
        rw [demand_bind_eq_ok] at passed
        cases passed.2
        exact .pointers

/-! ## Calls -/

/-- A record that is released was held. -/
theorem releases_of_releaseRecord
    {reference : Nat}
    (passed : releaseRecord focus reference = .ok focus') :
    focus.Releases reference focus' := by
  simp only [releaseRecord] at passed
  split at passed
  case isTrue none =>
    cases passed
    subst none
    exact .none
  case isFalse stands =>
    split at passed
    case h_1 released =>
      cases passed
      exact .one stands released
    case h_2 => cases passed

/-- A release of a reference that is not zero takes it out of the state. -/
theorem Focus.Releases.given
    {reference : Nat}
    (releases : focus.Releases reference focus') (stands : reference ≠ 0) :
    ∃ state, focus.state.release? reference = some state ∧ focus' = { focus with state } := by
  cases releases with
  | none => exact absurd rfl stands
  | one _ released => exact ⟨_, released, rfl⟩

/-- A helper that is permitted is known, and may be called at this attachment point. -/
theorem permittedHelper_eq_ok
    {attach : AttachPoint} {immediate : Int32} {helper : Helper}
    (passed : permittedHelper attach immediate = .ok helper) :
    Helper.ofImmediate? immediate = some helper ∧
      (helper = .redirect → attach.allowsRedirect = true) := by
  simp only [permittedHelper] at passed
  split at passed
  case h_1 => cases passed
  case h_2 named =>
    rw [demand_bind_eq_ok] at passed
    rcases passed with ⟨permitted, made⟩
    cases made
    exact ⟨named, permitted⟩

/-- A call that passes has accepted arguments, releases what they give up and forgets the caller's
registers. -/
theorem calls_of_checkCall
    {immediate : Int32}
    (passed : checkCall setting focus immediate = .ok focus') :
    ∃ helper arguments released value after,
      focus.Calls setting immediate helper arguments released value after ∧
        focus' = Focus.write { after with state := after.state.forgetCallerSaved }
          RegisterName.result value := by
  simp only [checkCall] at passed
  rcases Checked.bind_eq_ok.mp passed with ⟨helper, permitted, passed⟩
  rcases Checked.bind_eq_ok.mp passed with ⟨arguments, accepts, passed⟩
  rcases Checked.bind_eq_ok.mp passed with ⟨released, releases, made⟩
  rcases permittedHelper_eq_ok permitted with ⟨named, permitted⟩
  rcases called : callResult released helper.prototype.result arguments with ⟨value, after⟩
  rw [called] at made
  cases made
  exact ⟨helper, arguments, released, value, after,
    ⟨named, permitted, accepts, releases_of_releaseRecord releases, called⟩, rfl⟩

end

end PacketFilter
