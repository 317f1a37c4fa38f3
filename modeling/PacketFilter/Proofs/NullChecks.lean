import PacketFilter.Proofs.Coherence
import PacketFilter.Proofs.Forking
import PacketFilter.Proofs.Narrowing

/-!
# Tests for null

A nullable pointer that is compared with zero is settled on both edges of the
branch.  Here that is set against what a machine does whose copies of the
pointer all hold one word: which edge it takes, and what becomes of each copy
there, in a register or in a slot of the frame.

Nothing else is asked of the machine or of the state.  A test of the low half
tells apart no more than the low half does: the base of every region has zeros
there, so that it is taken for null.
-/

namespace PacketFilter

namespace AbstractValue

/-- The value is settled together with the pointer. -/
def IsCopyOf (value pointer : AbstractValue) : Prop :=
  value.identity = pointer.identity ∧ value.mayBeNull = true

instance (value pointer : AbstractValue) : Decidable (value.IsCopyOf pointer) :=
  inferInstanceAs
    (Decidable (value.identity = pointer.identity ∧ value.mayBeNull = true))

/-- A copy has become what its word is: zero, or a pointer that is not null. -/
def Resolves (value : AbstractValue) (word : Word) (settled : AbstractValue) : Prop :=
  if word = 0 then settled = .constant 0 else settled = { value with mayBeNull := false }

/-- A null check leaves every value alone that is no copy of its pointer. -/
theorem settle_of_not_copy
    {pointer value : AbstractValue}
    (other : ¬ value.IsCopyOf pointer) (isNull : Bool) :
    value.settle pointer.identity isNull = value := by
  apply if_pos
  by_cases same : value.identity = pointer.identity
  · exact .inr (by simpa [IsCopyOf, same] using other)
  · exact .inl same

/-- A copy of the pointer becomes what the word that was tested says. -/
theorem resolves_settle
    {pointer value : AbstractValue}
    (copy : value.IsCopyOf pointer) (word : Word) :
    value.Resolves word (value.settle pointer.identity (word == 0)) := by
  have settled (isNull : Bool) : value.settle pointer.identity isNull =
      if isNull then .constant 0 else { value with mayBeNull := false } :=
    if_neg (by simp [copy.1, copy.2])
  rw [settled, Resolves]
  by_cases null : word = 0
  · rw [if_pos null, if_pos (beq_iff_eq.mpr null)]
  · rw [if_neg null, if_neg (by simpa using null)]

end AbstractValue

namespace AbstractState

variable {state : AbstractState} {pointer : AbstractValue}

section

variable (identified : pointer.identity ≠ 0)
include identified

theorem register_settleNull (isNull : Bool) (name : RegisterName) :
    (state.settleNull pointer isNull).register name =
      (state.register name).settle pointer.identity isNull := by
  rw [settleNull_eq isNull identified]
  split <;> exact state.register_mapValues _ name

theorem stack_settleNull (isNull : Bool) :
    (state.settleNull pointer isNull).stack =
      state.stack.mapSpills (AbstractValue.settle pointer.identity isNull) := by
  rw [settleNull_eq isNull identified]
  split <;> rfl

/-- On the edge of a null record its reference is given up. -/
theorem references_settleNull (isNull : Bool) :
    (state.settleNull pointer isNull).references =
      if isNull ∧ pointer.reference ≠ 0 then
        state.references.filter (· != pointer.reference)
      else state.references := by
  rw [settleNull_eq isNull identified]
  split <;> rfl

end

/-- Where the machine keeps a byte of the frame. -/
def frameAddress (memory : Memory) (byte : Nat) : Word :=
  memory.framePointer + BitVec.ofInt 64 (StackFrame.offsetOf byte)

/-- All copies of the pointer hold one word, and what is known to be zero is. -/
structure HoldsCopies (state : AbstractState) (pointer : AbstractValue) (machine : Machine)
    (word : Word) : Prop where
  zeros : ∀ name, (state.register name).constant? = some 0 → machine.register name = 0
  registers : ∀ name, (state.register name).IsCopyOf pointer → machine.register name = word
  spills : ∀ (first : Nat) (value : AbstractValue), first + 8 ≤ StackFrame.size → first % 8 = 0 →
    (state.stack.slotOf first).spill? = some value → value.IsCopyOf pointer →
      machine.memory.load? (frameAddress machine.memory first) 8 = some word

/-- Every copy of the pointer has become what the machine holds in its place, its reference is
dropped only when the word is null, and all else is as before. -/
structure Settles (state : AbstractState) (pointer : AbstractValue) (machine : Machine)
    (word : Word) (edge : AbstractState) : Prop where
  registers : ∀ name, (state.register name).IsCopyOf pointer →
    (state.register name).Resolves (machine.register name) (edge.register name)
  otherRegisters : ∀ name, ¬ (state.register name).IsCopyOf pointer →
    edge.register name = state.register name
  spills : ∀ (first : Nat) (value : AbstractValue), first + 8 ≤ StackFrame.size → first % 8 = 0 →
    (state.stack.slotOf first).spill? = some value → value.IsCopyOf pointer →
      ∃ held settled, machine.memory.load? (frameAddress machine.memory first) 8 = some held ∧
        (edge.stack.slotOf first).spill? = some settled ∧ value.Resolves held settled
  otherSpills : ∀ byte < StackFrame.size,
    (∀ value, (state.stack.slotOf byte).spill? = some value → ¬ value.IsCopyOf pointer) →
      edge.stack.slotOf byte = state.stack.slotOf byte
  bytes : ∀ byte < StackFrame.size, edge.stack.byteAt byte = state.stack.byteAt byte
  references : edge.references =
    if word = 0 ∧ pointer.reference ≠ 0 then
      state.references.filter (· != pointer.reference)
    else state.references

/-- The edge of the test on which the pointer is null, or is not, settles its copies for a machine
in which it is so. -/
theorem settles_settleNull
    {machine : Machine} {word : Word}
    (identified : pointer.identity ≠ 0) (holds : state.HoldsCopies pointer machine word) :
    state.Settles pointer machine word (state.settleNull pointer (word == 0)) := by
  constructor
  case registers =>
    intro name copy
    rw [register_settleNull identified, holds.registers name copy]
    exact AbstractValue.resolves_settle copy word
  case otherRegisters =>
    intro name other
    rw [register_settleNull identified]
    exact AbstractValue.settle_of_not_copy other _
  case spills =>
    intro first value inside aligned spilled copy
    refine ⟨word, _, holds.spills first value inside aligned spilled copy, ?_,
      AbstractValue.resolves_settle copy word⟩
    rw [stack_settleNull identified, state.stack.slotOf_mapSpills _ (by omega), spilled]
    rfl
  case otherSpills =>
    intro byte inside others
    rw [stack_settleNull identified, state.stack.slotOf_mapSpills _ inside]
    cases spilled : (state.stack.slotOf byte).spill? with
    | none => rw [Option.map_none, ← spilled]
    | some value =>
        rw [Option.map_some, AbstractValue.settle_of_not_copy (others value spilled), ← spilled]
  case bytes =>
    intro byte inside
    rw [stack_settleNull identified, state.stack.byteAt_mapSpills _ inside]
  case references =>
    rw [references_settleNull identified]
    simp only [beq_iff_eq]

end AbstractState

/-- The branch is taken for a test of the pointer for null. -/
def Focus.ChecksNull (focus : Focus) (width : Width) (comparison : Comparison)
    (left : RegisterName) (right : Operand) (pointer : AbstractValue) : Prop :=
  ∃ leftValue rightValue, focus.read left = .ok leftValue ∧
    comparand focus width comparison right = .ok rightValue ∧
      ¬ (leftValue.isScalar ∧ rightValue.isScalar) ∧
        nullChecked? leftValue rightValue = some pointer ∧
          (comparison = .equal ∨ comparison = .differ)

section

variable {focus : Focus} {width : Width} {comparison : Comparison}
variable {left : RegisterName} {right : Operand} {pointer : AbstractValue}
variable {machine : Machine} {word : Word}

/-- A null check passes, and its edges settle the pointer both ways. -/
theorem Focus.ChecksNull.checkBranch
    (checks : focus.ChecksNull width comparison left right pointer) :
    ∃ edges, PacketFilter.checkBranch focus width comparison left right = .ok edges ∧
      edges.followed? (comparison == .equal) = some (focus.state.settleNull pointer true) ∧
        edges.followed? (comparison == .differ) = some (focus.state.settleNull pointer false) := by
  rcases checks with ⟨leftValue, rightValue, reads, compared, pointers, checked, equality⟩
  have branch : PacketFilter.checkBranch focus width comparison left right =
      pointerEdges focus.state width comparison left leftValue rightValue := by
    rw [PacketFilter.checkBranch, reads, compared]
    exact if_neg pointers
  rw [branch, pointerEdges, nullCheckEdges?, checked]
  rcases equality with rfl | rfl
  · exact ⟨_, rfl, rfl, rfl⟩
  · exact ⟨_, rfl, rfl, rfl⟩

/-- An equality with zero comes out as it does for the whole word, when that is looked at or when
there is nothing to be seen. -/
theorem holds_zero
    (equality : comparison = .equal ∨ comparison = .differ) (seen : width = .whole ∨ word = 0) :
    Execution.holds width comparison word 0 =
      if word = 0 then comparison == .equal else comparison == .differ := by
  by_cases null : word = 0
  · rw [null]
    rcases equality with rfl | rfl <;> cases width <;> decide
  · rw [if_neg null, seen.resolve_right null]
    rcases equality with rfl | rfl
    · exact beq_false_of_ne null
    · exact bne_iff_ne.mpr null

/-- An equality, or a difference, does not depend on the order of its sides. -/
theorem holds_comm_of_equality
    (equality : comparison = .equal ∨ comparison = .differ) (first second : Word) :
    Execution.holds width comparison first second =
      Execution.holds width comparison second first := by
  rcases equality with rfl | rfl
  · cases width <;> exact Bool.beq_comm
  · cases width <;> simp only [Execution.holds, Comparison.holds, bne_comm]

/-- The branch comes out as for null just where the pointer is null. -/
theorem Focus.ChecksNull.holds_eq
    (checks : focus.ChecksNull width comparison left right pointer)
    (holds : focus.state.HoldsCopies pointer machine word) (seen : width = .whole ∨ word = 0) :
    Execution.holds width comparison (machine.register left) (machine.operand right) =
      if word = 0 then comparison == .equal else comparison == .differ := by
  rcases checks with ⟨leftValue, rightValue, reads, compared, pointers, checked, equality⟩
  rcases Focus.read_eq_ok.mp reads with ⟨rfl, _⟩
  rcases nullChecked_eq_some checked with ⟨nullable, ⟨rfl, zero⟩ | ⟨rfl, zero⟩⟩
  · rw [holds.registers left ⟨rfl, nullable⟩]
    cases right with
    | register name =>
        rcases Focus.read_eq_ok.mp compared with ⟨rfl, _⟩
        rw [show machine.operand (.register name) = 0 from holds.zeros name zero]
        exact holds_zero equality seen
    | immediate constant =>
        rcases comparand_immediate focus width comparison constant with ⟨word', compared', same, _⟩
        cases compared'.symm.trans compared
        have isZero : word' = 0 := by
          have known := Bounds.constant?_constant word'
          exact Option.some.inj (known.symm.trans zero)
        rw [show machine.operand (.immediate constant) = Word.ofImmediate constant from rfl, same,
          isZero]
        exact holds_zero equality seen
  · rw [holds.zeros left zero]
    cases right with
    | register name =>
        rcases Focus.read_eq_ok.mp compared with ⟨rfl, _⟩
        rw [show machine.operand (.register name) = word from
          holds.registers name ⟨rfl, nullable⟩, holds_comm_of_equality equality]
        exact holds_zero equality seen
    | immediate constant =>
        rcases comparand_immediate focus width comparison constant with ⟨word', compared', _, _⟩
        cases compared'.symm.trans compared
        cases nullable

/--
A test for null is let through.  A machine takes the edge of the null pointer
if the pointer is null and the other edge if it is not, and the edge that it
takes settles every copy of the pointer as what the machine holds there.  Where
low halves are compared, this is so of a null pointer alone.
-/
theorem nullCheck_settles
    (checks : focus.ChecksNull width comparison left right pointer)
    (identified : pointer.identity ≠ 0)
    (holds : focus.state.HoldsCopies pointer machine word) (seen : width = .whole ∨ word = 0) :
    ∃ edges isNull isThere, checkBranch focus width comparison left right = .ok edges ∧
      edges.followed? (comparison == .equal) = some isNull ∧
        edges.followed? (comparison == .differ) = some isThere ∧
          if word = 0 then
            Execution.holds width comparison (machine.register left) (machine.operand right) =
                (comparison == .equal) ∧
              focus.state.Settles pointer machine word isNull
          else
            Execution.holds width comparison (machine.register left) (machine.operand right) =
                (comparison == .differ) ∧
              focus.state.Settles pointer machine word isThere := by
  rcases checks.checkBranch with ⟨edges, passed, null, there⟩
  have comesOut := checks.holds_eq holds seen
  have settles := AbstractState.settles_settleNull identified holds
  refine ⟨edges, _, _, passed, null, there, ?_⟩
  split
  case isTrue isNull =>
    rw [if_pos isNull] at comesOut
    rw [beq_iff_eq.mpr isNull] at settles
    exact ⟨comesOut, settles⟩
  case isFalse isThere =>
    rw [if_neg isThere] at comesOut
    rw [beq_false_of_ne isThere] at settles
    exact ⟨comesOut, settles⟩

end

/-- A record has been asked for; a copy of the pointer lies at the top of the frame. -/
def askedFocus : Focus where
  state :=
    { AbstractState.entry.setRegister .result (.recordOrNull 8 1) with
      stack := StackFrame.fresh.spill 504 (.recordOrNull 8 1)
      references := [1] }
  lastIdentity := 1

/-- The record has been given, in the first region that is handed out. -/
def givenMachine : Machine :=
  (Machine.start
    { packet := #[]
      scratch := #[]
      metadata := {}
      stack := (Array.replicate 512 0).setIfInBounds 508 4
      regions := #[.record 0]
      records := #[some ⟨0, ⟨0, 8⟩⟩]
      store := {} }).setRegister .result (RegionAddress.make RegionAddress.firstDynamic 0)

theorem givenMachine_holdsCopies :
    askedFocus.state.HoldsCopies (.recordOrNull 8 1) givenMachine
      (RegionAddress.make RegionAddress.firstDynamic 0) := by
  have registers : ∀ name : RegisterName,
      ((askedFocus.state.register name).constant? = some 0 → givenMachine.register name = 0) ∧
        ((askedFocus.state.register name).IsCopyOf (.recordOrNull 8 1) →
          givenMachine.register name = RegionAddress.make RegionAddress.firstDynamic 0) := by
    decide +kernel
  have spills : ∀ first < StackFrame.size, first % 8 = 0 →
      ∀ value ∈ (askedFocus.state.stack.slotOf first).spill?,
        givenMachine.memory.load?
            (AbstractState.frameAddress givenMachine.memory first) 8 =
          some (RegionAddress.make RegionAddress.firstDynamic 0) := by
    decide +kernel
  exact ⟨fun name => (registers name).1, fun name => (registers name).2,
    fun first value inside aligned spilled _ => spills first (by omega) aligned value spilled⟩

/-- The record is there, and both copies of the pointer become pointers to it. -/
theorem nullCheck_settles_given :
    ∃ isThere : AbstractState,
      (checkBranch askedFocus .whole .differ .result (.immediate 0)).toOption.bind
        (·.followed? true) =
          some isThere ∧
        Execution.holds .whole .differ (givenMachine.register .result)
            (givenMachine.operand (.immediate 0)) = true ∧
          askedFocus.state.Settles (.recordOrNull 8 1) givenMachine
            (RegionAddress.make RegionAddress.firstDynamic 0) isThere := by
  rcases @nullCheck_settles askedFocus .whole .differ .result (.immediate 0) (.recordOrNull 8 1)
      givenMachine (RegionAddress.make RegionAddress.firstDynamic 0)
      ⟨_, _, rfl, rfl, by decide, by decide,
        .inr rfl⟩ (by decide) givenMachine_holdsCopies (.inl rfl)
    with ⟨edges, _, isThere, passed, _, there, settles⟩
  rw [if_neg (by decide)] at settles
  exact ⟨isThere, by rw [passed]; exact there, settles⟩

/-- Compared by its low half, the pointer to the record takes the edge where it is null, on which
it is zero and the record is not held. -/
theorem nullCheck_half_misses_given :
    (∃ number, givenMachine.memory.Opens (givenMachine.register .result) number) ∧
      askedFocus.ChecksNull .half .equal .result (.immediate 0) (.recordOrNull 8 1) ∧
        ∃ edge : AbstractState,
          (checkBranch askedFocus .half .equal .result (.immediate 0)).toOption.bind
              (·.followed? (Execution.holds .half .equal (givenMachine.register .result)
                (givenMachine.operand (.immediate 0)))) = some edge ∧
            edge.register .result = .constant 0 ∧ edge.references = [] ∧
              ¬ askedFocus.state.Settles (.recordOrNull 8 1) givenMachine
                (givenMachine.register .result) edge := by
  refine ⟨⟨0, ⟨0, by decide +kernel, by decide +kernel⟩, by decide +kernel⟩,
    ⟨_, _, rfl, rfl, by decide, by decide, .inl rfl⟩, _, rfl, by decide +kernel, by decide +kernel,
    fun settles => ?_⟩
  have held := settles.references
  revert held
  decide +kernel

end PacketFilter
