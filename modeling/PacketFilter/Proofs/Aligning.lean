import PacketFilter.Proofs.Agreement
import PacketFilter.Verifier.Transfer

/-!
# Checks on states that correspond

No check looks at an identity but to compare it with another one.  So every
check is carried out alike on states that correspond, and hands out as many
identities on either.
-/

namespace PacketFilter

/-! ## Frames -/

namespace StackFrame.Corresponds

variable {relates : Nat → Nat → Prop} {frame frame' : StackFrame} {value value' : AbstractValue}

/-- Corresponding values are stored alike: both frames take them, or both refuse. -/
theorem write
    (corresponds : frame.Corresponds relates frame') (values : value.Corresponds relates value')
    (offset : Int) (length : Nat) :
    Agree (· = ·) (Corresponds relates) (frame.write offset length value)
      (frame'.write offset length value') := by
  rw [StackFrame.write, StackFrame.write, values.isPointer, values.constant?]
  cases firstByte? offset length with
  | none => exact .failed rfl
  | some first =>
      refine related_ite Iff.rfl (fun _ => .passed (corresponds.spill values first)) fun _ => ?_
      refine related_ite Iff.rfl (fun _ => .failed rfl) fun _ => .passed ?_
      exact corresponds.fill first length _

theorem writeData
    (corresponds : frame.Corresponds relates frame') (offset : Int) (length : Nat) :
    Agree (· = ·) (Corresponds relates) (frame.writeData offset length)
      (frame'.writeData offset length) := by
  rw [StackFrame.writeData, StackFrame.writeData]
  cases firstByte? offset length with
  | none => exact .failed rfl
  | some first => exact .passed (corresponds.fill first length .data)

/-- Whether a byte may be loaded depends on kinds, which correspond, and not on identities. -/
theorem loadProblem?
    (corresponds : frame.Corresponds relates frame') (offset : Int) :
    frame'.loadProblem? offset = frame.loadProblem? offset := by
  funext byte
  rw [StackFrame.loadProblem?, StackFrame.loadProblem?, corresponds.byteAt,
    (corresponds byte).holdsPointer]

theorem helperProblem? (corresponds : frame.Corresponds relates frame') :
    frame'.helperProblem? = frame.helperProblem? := by
  funext byte
  rw [StackFrame.helperProblem?, StackFrame.helperProblem?, corresponds.byteAt,
    (corresponds byte).holdsPointer]

theorem readBytes
    (corresponds : frame.Corresponds relates frame') (zero : relates 0 0) (offset : Int)
    (first length : Nat) :
    Agree (· = ·) (AbstractValue.Corresponds relates) (frame.readBytes offset first length)
      (frame'.readBytes offset first length) := by
  simp only [StackFrame.readBytes, corresponds.loadProblem?, corresponds.byteAt]
  split
  · exact .failed rfl
  · exact related_ite Iff.rfl (fun _ => .passed (.scalar zero _)) fun _ => .passed (.scalar zero _)

/-- A load gives corresponding values from corresponding frames. -/
theorem read
    (corresponds : frame.Corresponds relates frame') (zero : relates 0 0) (offset : Int)
    (length : Nat) :
    Agree (· = ·) (AbstractValue.Corresponds relates) (frame.read offset length)
      (frame'.read offset length) := by
  rw [StackFrame.read, StackFrame.read]
  cases firstByte? offset length with
  | none => exact .failed rfl
  | some first =>
      have spills : Option.Rel (AbstractValue.Corresponds relates)
          (if isWholeSlot first length then (frame.slotOf first).spill? else none)
          (if isWholeSlot first length then (frame'.slotOf first).spill? else none) :=
        related_ite Iff.rfl (fun _ => (corresponds first).spills) fun _ => .none
      dsimp only
      generalize (if isWholeSlot first length then (frame.slotOf first).spill? else none) = spill?
        at spills ⊢
      generalize (if isWholeSlot first length then (frame'.slotOf first).spill? else none) = spill?'
        at spills ⊢
      cases spills with
      | some values => exact .passed values
      | none => exact corresponds.readBytes zero offset first length

theorem checkReadable
    (corresponds : frame.Corresponds relates frame') (offset : Int) (length : Nat) :
    frame'.checkReadable offset length = frame.checkReadable offset length := by
  rw [StackFrame.checkReadable, StackFrame.checkReadable, corresponds.helperProblem?]

end StackFrame.Corresponds

/-- What a frame refuses is turned away for one reason, at whatever offset. -/
theorem liftStack_agree
    {α β : Type} {related : α → β → Prop} {result : Except StackError α}
    {result' : Except StackError β} (agree : Agree (· = ·) related result result') (offset : Int)
    (size : Nat) :
    Checked.Agree related (liftStack offset size result) (liftStack offset size result') := by
  cases agree with
  | passed same => exact .passed same
  | failed same => exact .failed (congrArg (fun error => (error.cause offset size).reason) same)

/-! ## Registers and operands -/

variable {alignment : Alignment} {setting : Setting} {focus focus' : Focus}
variable {pointer pointer' value value' : AbstractValue}

namespace Focus.Aligned

theorem read (aligned : focus.Aligned alignment focus') (name : RegisterName) :
    Checked.Agree (AbstractValue.Corresponds alignment.relates) (focus.read name)
      (focus'.read name) := by
  have values := aligned.state.registers name
  refine .demand_bind ?_ rfl fun _ => .passed values
  rw [AbstractValue.isInitialized, AbstractValue.isInitialized, values.kind]

theorem write
    (aligned : focus.Aligned alignment focus') (name : RegisterName)
    (values : value.Corresponds alignment.relates value') :
    (focus.write name value).Aligned alignment (focus'.write name value') :=
  ⟨aligned.state.setRegister name values, aligned.last, aligned.last'⟩

theorem scalar (aligned : focus.Aligned alignment focus') (name : RegisterName) (bounds : Bounds) :
    (focus.write name (.scalar bounds)).Aligned alignment (focus'.write name (.scalar bounds)) :=
  aligned.write name (.scalar alignment.zero bounds)

theorem further (aligned : focus.Aligned alignment focus') :
    focus.AlignedFurther alignment focus' :=
  ⟨alignment, .refl alignment, aligned⟩

theorem yields
    (aligned : focus.Aligned alignment focus')
    (values : value.Corresponds alignment.relates value') :
    alignment.Yields (value, focus) (value', focus') :=
  ⟨alignment, .refl alignment, values, aligned⟩

/-- Both paths hand out their next identity. -/
theorem freshIdentity (aligned : focus.Aligned alignment focus') :
    alignment.fresh.relates focus.freshIdentity.1 focus'.freshIdentity.1 ∧
      focus.freshIdentity.2.Aligned alignment.fresh focus'.freshIdentity.2 := by
  have last : focus.lastIdentity + 1 = alignment.last + 1 := congrArg (· + 1) aligned.last
  have last' : focus'.lastIdentity + 1 = alignment.last' + 1 := congrArg (· + 1) aligned.last'
  exact ⟨.inr ⟨last, last'⟩, aligned.state.mono alignment.extends_fresh.relates, last, last'⟩

theorem operand (aligned : focus.Aligned alignment focus') (operand : Operand) :
    Checked.Agree (AbstractValue.Corresponds alignment.relates) (focus.operand operand)
      (focus'.operand operand) := by
  cases operand with
  | register name => exact aligned.read name
  | immediate constant => exact .passed (.scalar alignment.zero _)

/-- The values stored correspond, as they come from registers or are the same constant. -/
theorem storedValue
    (aligned : focus.Aligned alignment focus') (size : AccessSize) (operand : Operand) :
    Checked.Agree (AbstractValue.Corresponds alignment.relates)
      (PacketFilter.storedValue focus size operand)
      (PacketFilter.storedValue focus' size operand) := by
  cases operand with
  | register name => exact aligned.read name
  | immediate constant => exact .passed (.scalar alignment.zero _)

end Focus.Aligned

theorem Alignment.Yields.write
    {made made' : AbstractValue × Focus} (yields : alignment.Yields made made')
    (name : RegisterName) :
    (made.2.write name made.1).AlignedFurther alignment (made'.2.write name made'.1) := by
  rcases yields with ⟨after, further, values, aligned⟩
  exact ⟨after, further, aligned.write name values⟩

theorem Alignment.Yields.further
    {made made' : AbstractValue × Focus} (yields : alignment.Yields made made') :
    made.2.AlignedFurther alignment made'.2 := by
  rcases yields with ⟨after, further, _, aligned⟩
  exact ⟨after, further, aligned⟩

/-! ## Accesses -/

/-- Identities play no part in the check of an access to a region. -/
theorem checkRegionAccess_eq
    {relates : Nat → Nat → Prop} (pointers : pointer.Corresponds relates pointer') (offset : Int)
    (size limit : Nat) :
    checkRegionAccess pointer' offset size limit = checkRegionAccess pointer offset size limit := by
  simp only [checkRegionAccess, pointers.kind, pointers.offset, pointers.bounds]

/-- The range belongs to the value, so corresponding pointers have the same. -/
theorem checkPacketAccess_eq
    {relates : Nat → Nat → Prop} (pointers : pointer.Corresponds relates pointer') (offset : Int)
    (size : Nat) :
    checkPacketAccess pointer' offset size = checkPacketAccess pointer offset size := by
  simp only [checkPacketAccess, pointers.offset, pointers.bounds, pointers.range]

theorem checkStorable_eq
    {relates : Nat → Nat → Prop} (pointers : pointer.Corresponds relates pointer')
    {stored? stored?' : Option AbstractValue}
    (stored : Option.Rel (AbstractValue.Corresponds relates) stored? stored?') :
    checkStorable pointer' stored?' = checkStorable pointer stored? := by
  cases stored with
  | some values => simp only [checkStorable, values.isPointer, values.kind, pointers.kind]
  | none => rfl

/-- The context is accessed alike; a pointer that is loaded has no identity. -/
theorem checkContextAccess_agree
    {relates : Nat → Nat → Prop} (zero : relates 0 0) (offset : Int) (size : Nat)
    {stored? stored?' : Option AbstractValue}
    (stored : Option.Rel (AbstractValue.Corresponds relates) stored? stored?') :
    Checked.Agree (AbstractValue.Corresponds relates) (checkContextAccess offset size stored?)
      (checkContextAccess offset size stored?') := by
  refine .demand_bind Iff.rfl rfl fun _ => ?_
  cases ContextField.atOffset? offset with
  | none => exact .failed rfl
  | some field =>
      refine .demand_bind Iff.rfl rfl fun _ => ?_
      cases stored with
      | some values =>
          refine .demand_bind Iff.rfl rfl fun _ => ?_
          refine .demand_bind ?_ rfl fun _ => .passed values
          rw [values.isScalar]
      | none =>
          refine .demand_bind Iff.rfl rfl fun _ => .passed ?_
          cases field <;> exact .plain zero rfl rfl

theorem accessed_corresponds
    {relates : Nat → Nat → Prop} (zero : relates 0 0) (size : Nat)
    {stored? stored?' : Option AbstractValue}
    (stored : Option.Rel (AbstractValue.Corresponds relates) stored? stored?') :
    (accessed stored? size).Corresponds relates (accessed stored?' size) := by
  cases stored with
  | some values => exact values
  | none => exact .scalar zero _

namespace Focus.Aligned

theorem checkStackAccess
    (aligned : focus.Aligned alignment focus') (offset : Int) (size : Nat)
    {stored? stored?' : Option AbstractValue}
    (stored : Option.Rel (AbstractValue.Corresponds alignment.relates) stored? stored?') :
    Checked.Agree alignment.Yields (PacketFilter.checkStackAccess focus offset size stored?)
      (PacketFilter.checkStackAccess focus' offset size stored?') := by
  cases stored with
  | some values =>
      have written := aligned.state.stack.write values offset size
      refine .bind (liftStack_agree written offset size) fun frame frame' frames => .passed ?_
      exact yields ⟨aligned.state.withStack frames, aligned.last, aligned.last'⟩ values
  | none =>
      have read := aligned.state.stack.read alignment.zero offset size
      refine .bind (liftStack_agree read offset size) fun value value' values => .passed ?_
      exact yields ⟨aligned.state, aligned.last, aligned.last'⟩ values

/-- Every kind of memory lets the same accesses through, and gives corresponding values. -/
theorem checkAccess
    (aligned : focus.Aligned alignment focus')
    (pointers : pointer.Corresponds alignment.relates pointer') (offset : Int) (size : Nat)
    {stored? stored?' : Option AbstractValue}
    (stored : Option.Rel (AbstractValue.Corresponds alignment.relates) stored? stored?') :
    Checked.Agree alignment.Yields
      (PacketFilter.checkAccess setting focus pointer offset size stored?)
      (PacketFilter.checkAccess setting focus' pointer' offset size stored?') := by
  have accessed := accessed_corresponds alignment.zero size stored
  have present : stored?.isSome = stored?'.isSome := by cases stored <;> rfl
  rw [PacketFilter.checkAccess, PacketFilter.checkAccess, ← pointers.kind, ← pointers.offset,
    ← pointers.bounds, ← pointers.mayBeNull, ← pointers.mapIndex, ← pointers.size, ← present]
  refine .demand_bind Iff.rfl rfl fun _ => .bind_eq (checkStorable_eq pointers stored) fun _ => ?_
  cases pointer.kind with
  | context =>
      refine .demand_bind Iff.rfl rfl fun _ => ?_
      exact .bind (checkContextAccess_agree alignment.zero _ size stored)
        fun _ _ values => .passed (aligned.yields values)
  | stack => exact aligned.checkStackAccess _ size stored
  | packet =>
      refine .demand_bind Iff.rfl rfl fun _ => ?_
      exact .bind_eq (checkPacketAccess_eq pointers offset size) fun _ =>
        .passed (aligned.yields accessed)
  | mapValue =>
      refine .bind_eq rfl fun schema => ?_
      exact .bind_eq (checkRegionAccess_eq pointers offset size _) fun _ =>
        .passed (aligned.yields accessed)
  | record =>
      exact .bind_eq (checkRegionAccess_eq pointers offset size _) fun _ =>
        .passed (aligned.yields accessed)
  | uninitialized => exact .failed rfl
  | scalar => exact .failed rfl
  | packetEnd => exact .failed rfl
  | mapHandle => exact .failed rfl

/-- Loads pass on both sides or on neither, and what they leave corresponds. -/
theorem checkLoad
    (aligned : focus.Aligned alignment focus') (size : AccessSize)
    (destination base : RegisterName) (offset : Int) :
    Checked.Agree (AlignedFurther alignment)
      (PacketFilter.checkLoad setting focus size destination base offset)
      (PacketFilter.checkLoad setting focus' size destination base offset) := by
  refine .bind (aligned.read base) fun pointer pointer' pointers => ?_
  refine .bind (aligned.checkAccess pointers offset size.bytes .none) fun made made' yields => ?_
  exact .passed (yields.write destination)

theorem checkStore
    (aligned : focus.Aligned alignment focus') (size : AccessSize) (base : RegisterName)
    (offset : Int) (operand : Operand) :
    Checked.Agree (AlignedFurther alignment)
      (PacketFilter.checkStore setting focus size base offset operand)
      (PacketFilter.checkStore setting focus' size base offset operand) := by
  refine .bind (aligned.read base) fun pointer pointer' pointers => ?_
  refine .bind (aligned.storedValue size operand) fun value value' values => ?_
  refine .bind (aligned.checkAccess pointers offset size.bytes (.some values))
    fun made made' yields => ?_
  exact .passed yields.further

theorem checkLoadMap
    (aligned : focus.Aligned alignment focus') (destination : RegisterName) (index : Int32) :
    Checked.Agree (AlignedFurther alignment)
      (PacketFilter.checkLoadMap setting focus destination index)
      (PacketFilter.checkLoadMap setting focus' destination index) := by
  refine .demand_bind Iff.rfl rfl fun _ => .passed ?_
  exact further (aligned.write destination (.plain alignment.zero rfl rfl))

/-! ## Atomic operations -/

theorem checkAtomicOperands
    (aligned : focus.Aligned alignment focus') (operation : AtomicOperation)
    (source : RegisterName) :
    Checked.Agree (fun _ _ => True) (PacketFilter.checkAtomicOperands focus operation source)
      (PacketFilter.checkAtomicOperands focus' operation source) := by
  refine .bind (aligned.read source) fun operand operand' operands => ?_
  refine .demand_bind (by rw [operands.isScalar]) rfl fun _ => ?_
  refine related_ite Iff.rfl (fun _ => ?_) fun _ => .passed trivial
  refine .bind (aligned.read RegisterName.result) fun expected expected' same => ?_
  exact .demand (by rw [same.isScalar]) rfl

theorem checkAtomicTarget
    (aligned : focus.Aligned alignment focus')
    (pointers : pointer.Corresponds alignment.relates pointer') (offset : Int) (size : Nat) :
    Checked.Agree (Aligned alignment)
      (PacketFilter.checkAtomicTarget setting focus pointer offset size)
      (PacketFilter.checkAtomicTarget setting focus' pointer' offset size) := by
  rw [PacketFilter.checkAtomicTarget, PacketFilter.checkAtomicTarget, ← pointers.kind,
    ← pointers.offset, ← pointers.mapIndex]
  cases pointer.kind with
  | stack =>
      have stack := aligned.state.stack
      refine .bind (liftStack_agree (stack.read alignment.zero _ size) _ size)
        fun old old' olds => ?_
      refine .demand_bind (by rw [olds.isPointer]) rfl fun _ => ?_
      refine .bind (liftStack_agree (stack.writeData _ size) _ size) fun _ _ frames => .passed ?_
      exact ⟨aligned.state.withStack frames, aligned.last, aligned.last'⟩
  | mapValue =>
      refine .bind_eq rfl fun schema => ?_
      exact .bind_eq (checkRegionAccess_eq pointers offset size _) fun _ => .passed aligned
  | uninitialized => exact .failed rfl
  | scalar => exact .failed rfl
  | context => exact .failed rfl
  | packet => exact .failed rfl
  | packetEnd => exact .failed rfl
  | mapHandle => exact .failed rfl
  | record => exact .failed rfl

theorem checkAtomic
    (aligned : focus.Aligned alignment focus') (operation : AtomicOperation) (size : AccessSize)
    (base source : RegisterName) (offset : Int) :
    Checked.Agree (AlignedFurther alignment)
      (PacketFilter.checkAtomic setting focus operation size base source offset)
      (PacketFilter.checkAtomic setting focus' operation size base source offset) := by
  refine .bind (aligned.read base) fun pointer pointer' pointers => ?_
  refine .bind (aligned.checkAtomicOperands operation source) fun _ _ _ => ?_
  refine .demand_bind (by rw [pointers.mayBeNull]) rfl fun _ => ?_
  refine .bind_eq ?_ fun _ => ?_
  · simp only [checkAligned, pointers.offset, pointers.bounds]
  · refine .bind (aligned.checkAtomicTarget pointers offset size.bytes) fun _ _ aligned' => ?_
    cases operation.receiver? source with
    | none => exact .passed aligned'.further
    | some receiver => exact .passed (aligned'.scalar receiver _).further

end Focus.Aligned

/-! ## Arithmetic -/

/-- A constant moves corresponding pointers alike. -/
theorem movePointer_agree
    {relates : Nat → Nat → Prop} (operation : Arithmetic)
    (pointers : pointer.Corresponds relates pointer') (constant : Word) :
    Checked.Agree (AbstractValue.Corresponds relates) (movePointer operation pointer constant)
      (movePointer operation pointer' constant) := by
  rw [movePointer, movePointer, ← pointers.offset]
  exact .demand_bind Iff.rfl rfl fun _ => .passed { pointers with offset := rfl }

namespace Focus.Aligned

/-- The pointers that come out have fresh identities on both sides, which go together from then
on. -/
theorem advancePacket
    (aligned : focus.Aligned alignment focus') (operation : Arithmetic)
    (pointers : pointer.Corresponds alignment.relates pointer')
    (values : value.Corresponds alignment.relates value') :
    Checked.Agree alignment.Yields (PacketFilter.advancePacket focus operation pointer value)
      (PacketFilter.advancePacket focus' operation pointer' value') := by
  rw [PacketFilter.advancePacket, PacketFilter.advancePacket, ← values.bounds, ← pointers.bounds]
  refine .demand_bind Iff.rfl rfl fun _ => .demand_bind Iff.rfl rfl fun _ => .passed ?_
  rcases aligned.freshIdentity with ⟨related, fresh⟩
  refine ⟨alignment.fresh, alignment.extends_fresh, ?_, fresh⟩
  have mono := pointers.mono alignment.extends_fresh.relates
  exact { mono with bounds := rfl, range := rfl, identity := related }

theorem moveByVariable
    (aligned : focus.Aligned alignment focus') (operation : Arithmetic)
    (pointers : pointer.Corresponds alignment.relates pointer')
    (values : value.Corresponds alignment.relates value') :
    Checked.Agree alignment.Yields (PacketFilter.moveByVariable focus operation pointer value)
      (PacketFilter.moveByVariable focus' operation pointer' value') := by
  rw [PacketFilter.moveByVariable, PacketFilter.moveByVariable, ← pointers.kind, ← pointers.bounds,
    ← values.bounds]
  cases pointer.kind with
  | packet => exact aligned.advancePacket operation pointers values
  | mapValue => exact .passed (aligned.yields { pointers with kind := rfl, bounds := rfl })
  | record => exact .passed (aligned.yields { pointers with kind := rfl, bounds := rfl })
  | uninitialized => exact .failed rfl
  | scalar => exact .failed rfl
  | context => exact .failed rfl
  | stack => exact .failed rfl
  | packetEnd => exact .failed rfl
  | mapHandle => exact .failed rfl

theorem offsetPointer
    (aligned : focus.Aligned alignment focus') (operation : Arithmetic)
    (pointers : pointer.Corresponds alignment.relates pointer')
    (values : value.Corresponds alignment.relates value') :
    Checked.Agree alignment.Yields (PacketFilter.offsetPointer focus operation pointer value)
      (PacketFilter.offsetPointer focus' operation pointer' value') := by
  refine .demand_bind Iff.rfl (by rw [pointers.kind]) fun _ => .bind_eq ?_ fun _ => ?_
  · simp only [checkMovable, pointers.mayBeNull, pointers.kind]
  · rw [← values.bounds]
    cases value.bounds.constant? with
    | some constant =>
        exact .bind (movePointer_agree operation pointers constant) fun _ _ moved =>
          .passed (aligned.yields moved)
    | none => exact aligned.moveByVariable operation pointers values

/-- Arithmetic with pointers is let through on both sides or on neither. -/
theorem computeWithPointer
    (aligned : focus.Aligned alignment focus') (operation : Arithmetic)
    (lefts : pointer.Corresponds alignment.relates pointer')
    (rights : value.Corresponds alignment.relates value') :
    Checked.Agree alignment.Yields (PacketFilter.computeWithPointer focus operation pointer value)
      (PacketFilter.computeWithPointer focus' operation pointer' value') := by
  rw [PacketFilter.computeWithPointer, PacketFilter.computeWithPointer, ← lefts.isPointer,
    ← rights.isPointer]
  refine related_ite Iff.rfl (fun _ => ?_) fun _ => related_ite Iff.rfl (fun _ => ?_) fun _ => ?_
  · rw [subtractPointers, subtractPointers, ← lefts.kind, ← rights.kind]
    refine .bind (.demand_bind Iff.rfl rfl fun _ => .passed ?_) fun _ _ distances =>
      .passed (aligned.yields distances)
    exact .scalar alignment.zero _
  · exact aligned.offsetPointer operation lefts rights
  · exact .demand_bind Iff.rfl rfl fun _ => aligned.offsetPointer operation rights lefts

theorem checkBinary
    (aligned : focus.Aligned alignment focus') (width : Width) (operation : Arithmetic)
    (destination : RegisterName) (operand : Operand) :
    Checked.Agree (AlignedFurther alignment)
      (PacketFilter.checkBinary focus width operation destination operand)
      (PacketFilter.checkBinary focus' width operation destination operand) := by
  refine .bind (aligned.read destination) fun left left' lefts => ?_
  refine .bind (aligned.operand operand) fun right right' rights => ?_
  refine related_ite (by rw [lefts.isPointer, rights.isPointer]) (fun _ => ?_) fun _ => ?_
  · refine .demand_bind Iff.rfl rfl fun _ => ?_
    refine .bind (aligned.computeWithPointer operation lefts rights) fun made made' yields => ?_
    exact .passed (yields.write destination)
  · rw [← lefts.bounds, ← rights.bounds]
    exact .passed (aligned.scalar destination _).further

theorem checkMove
    (aligned : focus.Aligned alignment focus') (width : Width) (destination : RegisterName)
    (operand : Operand) :
    Checked.Agree (AlignedFurther alignment)
      (PacketFilter.checkMove focus width destination operand)
      (PacketFilter.checkMove focus' width destination operand) := by
  cases operand with
  | immediate constant =>
      cases width with
      | whole => exact .passed (aligned.scalar destination _).further
      | half => exact .passed (aligned.scalar destination _).further
  | register source =>
      cases width with
      | whole =>
          exact .bind (aligned.read source) fun _ _ values =>
            .passed (aligned.write destination values).further
      | half =>
          refine .bind (aligned.read source) fun value value' values => ?_
          refine .demand_bind (by rw [values.isPointer]) rfl fun _ => .passed ?_
          rw [← values.bounds]
          exact (aligned.scalar destination _).further

/-- Arithmetic keeps the sides aligned, with one more pair of identities at most. -/
theorem checkCompute
    (aligned : focus.Aligned alignment focus') (width : Width) (operation : Arithmetic)
    (destination : RegisterName) (operand : Operand) :
    Checked.Agree (AlignedFurther alignment)
      (PacketFilter.checkCompute focus width operation destination operand)
      (PacketFilter.checkCompute focus' width operation destination operand) := by
  have binary := aligned.checkBinary width operation destination operand
  cases operation with
  | neg =>
      refine .bind (aligned.read destination) fun value value' values => ?_
      refine .demand_bind (by rw [values.isScalar]) rfl fun _ => .passed ?_
      rw [← values.bounds]
      exact (aligned.scalar destination _).further
  | move => exact aligned.checkMove width destination operand
  | _ => exact binary

theorem checkConvertOrder
    (aligned : focus.Aligned alignment focus') (order : ByteOrder) (bits : Nat)
    (destination : RegisterName) :
    Checked.Agree (AlignedFurther alignment)
      (PacketFilter.checkConvertOrder focus order bits destination)
      (PacketFilter.checkConvertOrder focus' order bits destination) := by
  refine .bind (aligned.read destination) fun value value' values => ?_
  refine .demand_bind (by rw [values.isScalar]) rfl fun _ => .passed ?_
  rw [← values.bounds]
  exact (aligned.scalar destination _).further

end Focus.Aligned

/-! ## Branches -/

/-- The states on both edges correspond, and no run goes where none goes. -/
structure Edges.Corresponds (relates : Nat → Nat → Prop) (edges edges' : Edges) : Prop where
  taken : Option.Rel (AbstractState.Corresponds relates) edges.taken? edges'.taken?
  fall : Option.Rel (AbstractState.Corresponds relates) edges.fall? edges'.fall?

namespace AbstractState.Corresponds

variable {relates : Nat → Nat → Prop} {state state' : AbstractState}

theorem unchanged (states : state.Corresponds relates state') :
    (Edges.unchanged state).Corresponds relates (.unchanged state') :=
  ⟨.some states, .some states⟩

theorem setBounds
    (states : state.Corresponds relates state') (name : RegisterName) (bounds : Bounds) :
    (state.setBounds name bounds).Corresponds relates (state'.setBounds name bounds) :=
  states.setRegister name { states.registers name with bounds := rfl }

theorem setOperandBounds
    (states : state.Corresponds relates state') (left : RegisterName) (right : Operand)
    (bounds : Bounds × Bounds) :
    (state.setOperandBounds left right bounds).Corresponds relates
      (state'.setOperandBounds left right bounds) := by
  cases right with
  | register name => exact (states.setBounds left bounds.1).setBounds name bounds.2
  | immediate constant => exact states.setBounds left bounds.1

/-- The bounds are the same on both sides, so an edge is there on both or on neither. -/
theorem refinedEdge
    (states : state.Corresponds relates state') (comparison : Comparison) (left : RegisterName)
    (right : Operand) (leftBounds rightBounds : Bounds) :
    Option.Rel (Option.Rel (Corresponds relates))
      (refinedEdge? state comparison left right leftBounds rightBounds)
      (refinedEdge? state' comparison left right leftBounds rightBounds) := by
  rw [refinedEdge?, refinedEdge?]
  cases Bounds.refine? comparison leftBounds rightBounds with
  | none => exact .none
  | some narrowed? =>
      cases narrowed? with
      | none => exact .some .none
      | some narrowed => exact .some (.some (states.setOperandBounds left right narrowed))

/-- A comparison of scalars has corresponding edges, or overflows on both sides. -/
theorem scalarEdges
    (states : state.Corresponds relates state') (width : Width) (comparison : Comparison)
    (left : RegisterName) (right : Operand) (leftBounds rightBounds : Bounds) :
    Option.Rel (Edges.Corresponds relates)
      (scalarEdges? state width comparison left right leftBounds rightBounds)
      (scalarEdges? state' width comparison left right leftBounds rightBounds) := by
  refine related_ite Iff.rfl (fun _ => .some states.unchanged) fun _ => ?_
  cases Bounds.decide? comparison leftBounds rightBounds with
  | none =>
      have taken := states.refinedEdge comparison left right leftBounds rightBounds
      have fall := states.refinedEdge comparison.negate left right leftBounds rightBounds
      simp only [Option.bind_eq_bind]
      generalize refinedEdge? state comparison left right leftBounds rightBounds = taken? at *
      generalize refinedEdge? state' comparison left right leftBounds rightBounds = taken?' at *
      cases taken with
      | none => exact .none
      | some taken =>
          generalize refinedEdge? state comparison.negate left right leftBounds rightBounds =
            fall? at *
          generalize refinedEdge? state' comparison.negate left right leftBounds rightBounds =
            fall?' at *
          cases fall with
          | none => exact .none
          | some fall => exact .some ⟨taken, fall⟩
  | some holds =>
      cases holds with
      | true => exact .some ⟨.some states, .none⟩
      | false => exact .some ⟨.none, .some states⟩

/-- The range shown is granted to the copies of pointers that correspond. -/
theorem packetEdges
    (oneToOne : Relator.BiUnique relates) (states : state.Corresponds relates state')
    (comparison : Comparison) (lefts : pointer.Corresponds relates pointer')
    (rights : value.Corresponds relates value') :
    (PacketFilter.packetEdges state comparison pointer value).Corresponds relates
      (PacketFilter.packetEdges state' comparison pointer' value') := by
  have pointers : (if pointer.kind = .packet then pointer else value).Corresponds relates
      (if pointer'.kind = .packet then pointer' else value') :=
    related_ite (by rw [lefts.kind]) (fun _ => lefts) fun _ => rights
  exact ⟨.some (states.learnRange oneToOne pointers comparison),
    .some (states.learnRange oneToOne pointers comparison.negate)⟩

/-- The identities of the pointers go together, so the same copies are settled on both sides. -/
theorem nullCheckEdges
    (zero : relates 0 0) (oneToOne : Relator.BiUnique relates)
    (states : state.Corresponds relates state') (comparison : Comparison)
    (lefts : pointer.Corresponds relates pointer') (rights : value.Corresponds relates value') :
    Option.Rel (Edges.Corresponds relates) (nullCheckEdges? state comparison pointer value)
      (nullCheckEdges? state' comparison pointer' value') := by
  have pointers : Option.Rel (AbstractValue.Corresponds relates) (nullChecked? pointer value)
      (nullChecked? pointer' value') := by
    refine related_ite (by rw [lefts.mayBeNull, rights.constant?]) (fun _ => .some lefts)
      fun _ => related_ite (by rw [rights.mayBeNull, lefts.constant?]) (fun _ => .some rights)
        fun _ => .none
  rw [nullCheckEdges?, nullCheckEdges?]
  generalize nullChecked? pointer value = pointer? at pointers ⊢
  generalize nullChecked? pointer' value' = pointer?' at pointers ⊢
  cases pointers with
  | none => exact .none
  | some same =>
      have isNull := states.settleNull zero oneToOne same true
      have isThere := states.settleNull zero oneToOne same false
      cases comparison with
      | equal => exact .some ⟨.some isNull, .some isThere⟩
      | differ => exact .some ⟨.some isThere, .some isNull⟩
      | _ => exact .none

end AbstractState.Corresponds

namespace Focus.Aligned

theorem comparand
    (aligned : focus.Aligned alignment focus') (width : Width) (comparison : Comparison)
    (operand : Operand) :
    Checked.Agree (AbstractValue.Corresponds alignment.relates)
      (PacketFilter.comparand focus width comparison operand)
      (PacketFilter.comparand focus' width comparison operand) := by
  cases operand with
  | register name => exact aligned.read name
  | immediate constant =>
      exact related_ite Iff.rfl (fun _ => .passed (.scalar alignment.zero _))
        fun _ => .passed (.scalar alignment.zero _)

theorem pointerEdges
    (aligned : focus.Aligned alignment focus') (width : Width) (comparison : Comparison)
    (name : RegisterName) (lefts : pointer.Corresponds alignment.relates pointer')
    (rights : value.Corresponds alignment.relates value') :
    Checked.Agree (Edges.Corresponds alignment.relates)
      (PacketFilter.pointerEdges focus.state width comparison name pointer value)
      (PacketFilter.pointerEdges focus'.state width comparison name pointer' value') := by
  have null :=
    aligned.state.nullCheckEdges alignment.zero alignment.oneToOne comparison lefts rights
  have compared : packetEndComparison? pointer' value' comparison =
      packetEndComparison? pointer value comparison := by
    simp only [packetEndComparison?, lefts.kind, rights.kind]
  rw [PacketFilter.pointerEdges, PacketFilter.pointerEdges, compared]
  generalize nullCheckEdges? focus.state comparison pointer value = edges? at null ⊢
  generalize nullCheckEdges? focus'.state comparison pointer' value' = edges?' at null ⊢
  cases null with
  | some edges => exact .passed edges
  | none =>
      dsimp only
      cases packetEndComparison? pointer value comparison with
      | some oriented =>
          exact .demand_bind Iff.rfl rfl fun _ =>
            .passed (aligned.state.packetEdges alignment.oneToOne oriented lefts rights)
      | none =>
          refine .demand_bind ?_ rfl fun _ => .passed aligned.state.unchanged
          rw [lefts.isPointer, rights.isPointer, lefts.kind, rights.kind, lefts.mayBeNull]

/-- Branches pass on both sides or on neither, and corresponding edges come out. -/
theorem checkBranch
    (aligned : focus.Aligned alignment focus') (width : Width) (comparison : Comparison)
    (left : RegisterName) (right : Operand) :
    Checked.Agree (Edges.Corresponds alignment.relates)
      (PacketFilter.checkBranch focus width comparison left right)
      (PacketFilter.checkBranch focus' width comparison left right) := by
  refine .bind (aligned.read left) fun leftValue leftValue' lefts => ?_
  refine .bind (aligned.comparand width comparison right) fun rightValue rightValue' rights => ?_
  refine related_ite (by rw [lefts.isScalar, rights.isScalar]) (fun _ => ?_) fun _ => ?_
  · rw [← lefts.bounds, ← rights.bounds]
    have edges := aligned.state.scalarEdges width comparison left right leftValue.bounds
      rightValue.bounds
    generalize scalarEdges? focus.state width comparison left right leftValue.bounds
      rightValue.bounds = edges? at edges ⊢
    generalize scalarEdges? focus'.state width comparison left right leftValue.bounds
      rightValue.bounds = edges?' at edges ⊢
    cases edges with
    | none => exact .failed rfl
    | some edges => exact .passed edges
  · exact aligned.pointerEdges width comparison left lefts rights

end Focus.Aligned

/-! ## Calls -/

/-- What has been learnt from the arguments corresponds. -/
structure CallArguments.Corresponds (relates : Nat → Nat → Prop)
    (arguments arguments' : CallArguments) : Prop where
  map : arguments.map? = arguments'.map?
  memory : Option.Rel (fun memory memory' : Nat × AbstractValue => memory.1 = memory'.1 ∧
    memory.2.Corresponds relates memory'.2) arguments.memory? arguments'.memory?
  constantSize : arguments.constantSize = arguments'.constantSize
  released : relates arguments.released arguments'.released

namespace Focus.Aligned

variable {arguments arguments' : CallArguments}

theorem checkHelperMemory
    (aligned : focus.Aligned alignment focus') (register : Nat)
    (pointers : pointer.Corresponds alignment.relates pointer') (size : Nat) :
    PacketFilter.checkHelperMemory setting focus' register pointer' size =
      PacketFilter.checkHelperMemory setting focus register pointer size := by
  simp only [PacketFilter.checkHelperMemory, pointers.mayBeNull, pointers.kind, pointers.offset,
    pointers.mapIndex, pointers.size, aligned.state.stack.checkReadable,
    checkPacketAccess_eq pointers, checkRegionAccess_eq pointers]

/-- The size is a constant on both sides, and the memory it measures corresponds. -/
theorem checkConstantSize
    (aligned : focus.Aligned alignment focus') (helper : Helper) (register : Nat)
    (values : value.Corresponds alignment.relates value')
    (same : arguments.Corresponds alignment.relates arguments') :
    Checked.Agree (CallArguments.Corresponds alignment.relates)
      (PacketFilter.checkConstantSize setting focus helper register value arguments)
      (PacketFilter.checkConstantSize setting focus' helper register value' arguments') := by
  rw [PacketFilter.checkConstantSize, PacketFilter.checkConstantSize, values.constant?, ← same.map]
  cases value.constant? with
  | none => exact .failed rfl
  | some word =>
      refine .demand_bind Iff.rfl rfl fun _ => ?_
      have memory := same.memory
      generalize arguments.memory? = memory? at memory ⊢
      generalize arguments'.memory? = memory?' at memory ⊢
      cases memory with
      | none => exact .passed { same with map := rfl, memory := .none, constantSize := rfl }
      | some both =>
          rcases both with ⟨sameRegister, pointers⟩
          refine .bind_eq ?_ fun _ => .passed ?_
          · rw [← sameRegister]
            exact aligned.checkHelperMemory _ pointers _
          · exact { same with
              map := rfl
              memory := .some ⟨sameRegister, pointers⟩
              constantSize := rfl }

theorem checkUsedArgument
    (aligned : focus.Aligned alignment focus') (helper : Helper) (rule : ArgumentRule)
    (register : Nat) (values : value.Corresponds alignment.relates value')
    (same : arguments.Corresponds alignment.relates arguments') :
    Checked.Agree (CallArguments.Corresponds alignment.relates)
      (PacketFilter.checkUsedArgument setting focus helper rule register value arguments)
      (PacketFilter.checkUsedArgument setting focus' helper rule register value' arguments') := by
  have schemas : requiredSchema arguments' register = requiredSchema arguments register := by
    rw [requiredSchema, requiredSchema, same.map]
  cases rule with
  | unused => exact .passed same
  | mapHandle =>
      refine .demand_bind (by rw [values.kind]) (by rw [values.kind]) fun _ => ?_
      refine .bind_eq (by rw [values.mapIndex]) fun schema => ?_
      refine .demand_bind Iff.rfl rfl fun _ => .passed { same with map := ?_ }
      rw [values.mapIndex]
  | mapKey =>
      refine .bind_eq schemas fun schema => ?_
      exact .bind_eq (aligned.checkHelperMemory register values _) fun _ => .passed same
  | mapValue =>
      refine .bind_eq schemas fun schema => ?_
      exact .bind_eq (aligned.checkHelperMemory register values _) fun _ => .passed same
  | memory => exact .passed { same with memory := .some ⟨rfl, values⟩ }
  | constantSize => exact aligned.checkConstantSize helper register values same
  | anyScalar => exact .demand_bind (by rw [values.isScalar]) rfl fun _ => .passed same
  | updateMode =>
      exact .demand_bind (by rw [values.isScalar, values.constant?]) rfl fun _ => .passed same
  | zero => exact .demand_bind (by rw [values.constant?]) rfl fun _ => .passed same
  | record =>
      have named : value.reference = 0 ↔ value'.reference = 0 :=
        Relator.rel_eq alignment.oneToOne values.reference alignment.zero
      refine .demand_bind ?_ rfl fun _ => .passed { same with released := values.reference }
      rw [values.kind, values.mayBeNull, values.offset, values.bounds, ne_eq, ne_eq, named]

theorem checkArgument
    (aligned : focus.Aligned alignment focus') (helper : Helper)
    (same : arguments.Corresponds alignment.relates arguments')
    (slot : ArgumentRule × RegisterName) :
    Checked.Agree (CallArguments.Corresponds alignment.relates)
      (PacketFilter.checkArgument setting focus helper arguments slot)
      (PacketFilter.checkArgument setting focus' helper arguments' slot) := by
  refine related_ite Iff.rfl (fun _ => .passed same) fun _ => ?_
  refine .bind (aligned.read slot.2) fun value value' values => ?_
  exact aligned.checkUsedArgument helper slot.1 slot.2.val values same

/-- The arguments are checked one after another, and what is gathered from them corresponds. -/
theorem checkArguments
    (aligned : focus.Aligned alignment focus') (helper : Helper)
    (slots : List (ArgumentRule × RegisterName)) :
    ∀ {arguments arguments' : CallArguments},
      arguments.Corresponds alignment.relates arguments' →
        Checked.Agree (CallArguments.Corresponds alignment.relates)
          (slots.foldlM (PacketFilter.checkArgument setting focus helper) arguments)
          (slots.foldlM (PacketFilter.checkArgument setting focus' helper) arguments') := by
  induction slots with
  | nil => exact fun same => .passed same
  | cons slot rest continues =>
      intro arguments arguments' same
      rw [List.foldlM_cons, List.foldlM_cons]
      exact .bind (aligned.checkArgument helper same slot) fun _ _ same' => continues same'

/-- The references that are released go together. -/
theorem releaseRecord
    (aligned : focus.Aligned alignment focus') {reference reference' : Nat}
    (related : alignment.relates reference reference') :
    Checked.Agree (Aligned alignment) (PacketFilter.releaseRecord focus reference)
      (PacketFilter.releaseRecord focus' reference') := by
  refine related_ite (Relator.rel_eq alignment.oneToOne related alignment.zero)
    (fun _ => .passed aligned) fun _ => ?_
  have released := aligned.state.release alignment.zero alignment.oneToOne related
  generalize focus.state.release? reference = state? at released ⊢
  generalize focus'.state.release? reference' = state?' at released ⊢
  cases released with
  | none => exact .failed rfl
  | some states => exact .passed ⟨states, aligned.last, aligned.last'⟩

/-- A result that is a pointer has a fresh identity on both sides. -/
theorem callResult
    (aligned : focus.Aligned alignment focus') (rule : ResultRule)
    (same : arguments.Corresponds alignment.relates arguments') :
    alignment.Yields (PacketFilter.callResult focus rule arguments)
      (PacketFilter.callResult focus' rule arguments') := by
  rcases aligned.freshIdentity with ⟨related, fresh⟩
  have plain : alignment.fresh.relates 0 0 := alignment.fresh.zero
  cases rule with
  | anyScalar => exact aligned.yields (.scalar alignment.zero _)
  | scalar32 => exact aligned.yields (.scalar alignment.zero _)
  | redirectVerdict => exact aligned.yields (.scalar alignment.zero _)
  | zero => exact aligned.yields (.scalar alignment.zero _)
  | mapValueOrNull =>
      refine ⟨alignment.fresh, alignment.extends_fresh, ?_, fresh⟩
      rw [PacketFilter.callResult, PacketFilter.callResult, ← same.map]
      exact ⟨rfl, rfl, rfl, rfl, rfl, rfl, rfl, rfl, related, plain⟩
  | recordOrNull =>
      refine ⟨alignment.fresh, alignment.extends_fresh, ?_, fresh.state.acquire related, fresh.last,
        fresh.last'⟩
      exact ⟨rfl, rfl, rfl, rfl, rfl, rfl, rfl, same.constantSize, related, related⟩

/-- Calls pass on both sides or on neither, and what they leave corresponds. -/
theorem checkCall
    (aligned : focus.Aligned alignment focus') (immediate : Int32) :
    Checked.Agree (AlignedFurther alignment) (PacketFilter.checkCall setting focus immediate)
      (PacketFilter.checkCall setting focus' immediate) := by
  have counted : Aligned alignment { focus with helperCalls := focus.helperCalls + 1 }
      { focus' with helperCalls := focus'.helperCalls + 1 } :=
    ⟨aligned.state, aligned.last, aligned.last'⟩
  have empty : CallArguments.Corresponds alignment.relates {} {} :=
    ⟨rfl, .none, rfl, alignment.zero⟩
  refine .bind_eq rfl fun helper => ?_
  refine .bind (counted.checkArguments helper _ empty) fun arguments arguments' same => ?_
  refine .bind (counted.releaseRecord same.released) fun released released' aligned' => .passed ?_
  rcases aligned'.callResult helper.prototype.result same with ⟨after, further, values, made⟩
  exact ⟨after, further, made.state.forgetCallerSaved after.zero |>.setRegister _ values, made.last,
    made.last'⟩

end Focus.Aligned

/-! ## Operations -/

/-- The records held go together, so both may exit or neither. -/
theorem AbstractState.Corresponds.checkExit
    {relates : Nat → Nat → Prop} {state state' : AbstractState}
    (states : state.Corresponds relates state') (attach : AttachPoint) :
    Checked.Agree (fun _ _ => True) (PacketFilter.checkExit state attach)
      (PacketFilter.checkExit state' attach) := by
  have results := states.registers RegisterName.result
  have held := states.references
  rw [PacketFilter.checkExit, PacketFilter.checkExit]
  generalize state.references = references at held ⊢
  generalize state'.references = references' at held ⊢
  cases held with
  | cons _ _ => exact .failed rfl
  | nil =>
      refine .demand_bind ?_ rfl fun _ => ?_
      · rw [AbstractValue.isInitialized, AbstractValue.isInitialized, results.kind]
      · refine .demand_bind (by rw [results.isScalar]) rfl fun _ => ?_
        exact .demand (by rw [results.bounds]) rfl

/-- Both ways go on alike. -/
inductive Course.Corresponds (relates : Nat → Nat → Prop) : Course → Course → Prop
  | next : Corresponds relates .next .next
  | jump : Corresponds relates .jump .jump
  | exit : Corresponds relates .exit .exit
  | branch {edges edges' : Edges} (same : edges.Corresponds relates edges') :
      Corresponds relates (.branch edges.taken? edges.fall?) (.branch edges'.taken? edges'.fall?)

/-- What an operation leaves on both paths corresponds. -/
def Focus.TransfersFurther (alignment : Alignment) (made made' : Focus × Course) : Prop :=
  ∃ after, alignment.Extends after ∧ made.1.Aligned after made'.1 ∧
    made.2.Corresponds after.relates made'.2

/-- An operation is carried out alike on states that correspond. -/
theorem Focus.Aligned.transfer
    (aligned : focus.Aligned alignment focus') (operation : Operation) :
    Checked.Agree (Focus.TransfersFurther alignment) (PacketFilter.transfer setting focus operation)
      (PacketFilter.transfer setting focus' operation) := by
  have next {made made' : Focus} (further : made.AlignedFurther alignment made') :
      Focus.TransfersFurther alignment (made, .next) (made', .next) := by
    rcases further with ⟨after, further, same⟩
    exact ⟨after, further, same, .next⟩
  cases operation with
  | compute width arithmetic destination operand =>
      exact .bind (aligned.checkCompute width arithmetic destination operand) fun _ _ same =>
        .passed (next same)
  | convertOrder order bits destination =>
      exact .bind (aligned.checkConvertOrder order bits destination) fun _ _ same =>
        .passed (next same)
  | load size destination base offset =>
      exact .bind (aligned.checkLoad size destination base offset) fun _ _ same =>
        .passed (next same)
  | store size base offset operand =>
      exact .bind (aligned.checkStore size base offset operand) fun _ _ same =>
        .passed (next same)
  | atomic operation size base source offset =>
      exact .bind (aligned.checkAtomic operation size base source offset) fun _ _ same =>
        .passed (next same)
  | loadConstant destination constant =>
      exact .passed (next (aligned.scalar destination _).further)
  | loadMap destination index =>
      exact .bind (aligned.checkLoadMap destination index) fun _ _ same => .passed (next same)
  | jump => exact .passed ⟨alignment, .refl alignment, aligned, .jump⟩
  | branch width comparison left right =>
      exact .bind (aligned.checkBranch width comparison left right) fun _ _ same =>
        .passed ⟨alignment, .refl alignment, aligned, .branch same⟩
  | call helper => exact .bind (aligned.checkCall helper) fun _ _ same => .passed (next same)
  | exit =>
      exact .bind (aligned.state.checkExit setting.attach) fun _ _ _ =>
        .passed ⟨alignment, .refl alignment, aligned, .exit⟩

end PacketFilter
