import PacketFilter.Proofs.Calling
import PacketFilter.Proofs.Loading
import PacketFilter.Proofs.Updating
import PacketFilter.Verifier.Walk

/-!
# Single instructions

An instruction that the verifier let through either leads a described machine
along one of the edges of the check, to a machine that the state of the edge
describes, or ends the program with a verdict, or fails for a reason that can
be named: the stack holds no frame, or the instruction loads a part of a field
of the context that can only be loaded whole.
-/

namespace PacketFilter

/-- Where an instruction leads, and what is known there. -/
def Course.leads (course : Course) (state : AbstractState) (instruction : Instruction)
    (position length : Nat) : List (Nat × AbstractState) :=
  match course, instruction.jumpTarget? position length with
  | .next, _ => [(position + instruction.span, state)]
  | .exit, _ => []
  | .jump, some target => [(target, state)]
  | .branch taken? fall?, some target =>
    (taken?.map fun taken => (target, taken)).toList ++
      (fall?.map fun fall => (position + 1, fall)).toList
  | .jump, none | .branch _ _, none => []

/-- The load takes a part of a field of the context that can only be loaded whole. -/
def Focus.loadsPart (focus : Focus) : Operation → Bool
  | .load size _ base offset => takesPart (focus.state.register base) offset size.bytes
  | _ => false

/-- What an action comes to with either stack, when it may lead to the given places and may fail
with an excuse. -/
inductive Comes (scene : Scene) (machine : Machine) (twin : Bytes)
    (action : Execution (Option Word)) (places : List (Nat × AbstractState)) (excuse : Prop) :
    Prop
  | moves (state : AbstractState) (valuation : Nat → Word) (machine' : Machine) (twin' : Bytes)
      (returns : action.Returns machine twin none machine' twin')
      (listed : (machine'.position, state) ∈ places)
      (represents : state.Represents scene valuation machine' twin')
  | exits (code : Word) (returns : action.Returns machine twin (some code) machine twin)
      (closed : ∀ number, machine.memory.record? number = none)
      (least : scene.setting.attach.verdictRange.1 ≤ code.toNat)
      (greatest : code.toNat ≤ scene.setting.attach.verdictRange.2)
  | fails (fails : action.Fails machine twin) (excused : excuse)

/-! ## Decoded instructions -/

/-- The numbers of the operation are in the range of their fields. -/
def Operation.InRange : Operation → Prop
  | .load _ _ _ offset => offset.natAbs < pointerOffsetLimit
  | .store _ _ offset _ => offset.natAbs < pointerOffsetLimit
  | .convertOrder _ bits _ => bits = 16 ∨ bits = 32 ∨ bits = 64
  | _ => True

namespace Instruction

variable {instruction : Instruction} {next? : Option Instruction} {operation : Operation}

theorem offset_near (instruction : Instruction) :
    instruction.offset.toInt.natAbs < pointerOffsetLimit := by
  have least := instruction.offset.le_toInt
  have most := instruction.offset.toInt_lt
  have limit : pointerOffsetLimit = 0x20000000 := rfl
  omega

theorem arithmetic_inRange
    {width : Width} {destination source : RegisterName}
    (decoded : instruction.arithmetic? width destination source = some operation) :
    operation.InRange := by
  rcases Option.map_eq_some_iff.mp decoded with ⟨arithmetic, _, rfl⟩
  trivial

theorem branch_inRange
    {width : Width} {destination source : RegisterName}
    (decoded : instruction.branch? width destination source = some operation) :
    operation.InRange := by
  rcases Option.map_eq_some_iff.mp decoded with ⟨comparison, _, rfl⟩
  trivial

theorem convertOrder_inRange
    {destination : RegisterName}
    (decoded : instruction.convertOrder? destination = some operation) :
    operation.InRange := by
  simp only [convertOrder?] at decoded
  split at decoded
  case isTrue =>
    cases decoded
    exact .inl rfl
  case isFalse =>
    split at decoded
    case isTrue =>
      cases decoded
      exact .inr (.inl rfl)
    case isFalse =>
      split at decoded
      case isTrue =>
        cases decoded
        exact .inr (.inr rfl)
      case isFalse => cases decoded

theorem decode_inRange
    (decoded : instruction.decode? next? = some operation) :
    operation.InRange := by
  simp only [decode?] at decoded
  rcases Option.bind_eq_some_iff.mp decoded with ⟨destination, _, decoded⟩
  rcases Option.bind_eq_some_iff.mp decoded with ⟨source, _, decoded⟩
  split at decoded
  case h_1 => exact arithmetic_inRange decoded
  case h_2 =>
    split at decoded
    case isTrue => exact convertOrder_inRange decoded
    case isFalse => exact arithmetic_inRange decoded
  case h_3 =>
    cases decoded
    exact instruction.offset_near
  case h_4 =>
    cases decoded
    exact instruction.offset_near
  case h_5 =>
    split at decoded
    case isTrue =>
      rcases Option.map_eq_some_iff.mp decoded with ⟨atomic, _, rfl⟩
      trivial
    case isFalse =>
      cases decoded
      exact instruction.offset_near
  case h_6 =>
    split at decoded
    case isTrue =>
      rcases Option.map_eq_some_iff.mp decoded with ⟨next, _, rfl⟩
      split <;> trivial
    case isFalse => cases decoded
  case h_7 =>
    split at decoded
    case isTrue =>
      cases decoded
      trivial
    case isFalse =>
      split at decoded
      case isTrue =>
        cases decoded
        trivial
      case isFalse =>
        split at decoded
        case isTrue =>
          cases decoded
          trivial
        case isFalse => exact branch_inRange decoded
  case h_8 => exact branch_inRange decoded

/-- A branch takes one slot. -/
theorem span_of_branch
    {width : Width} {comparison : Comparison} {left : RegisterName} {right : Operand}
    (decoded : instruction.decode? next? = some (.branch width comparison left right)) :
    instruction.span = 1 := by
  rw [span, if_neg]
  intro wide
  have family : instruction.family = .wideLoad := by
    rw [isWideLoad, beq_iff_eq] at wide
    rw [Instruction.family, wide]
    rfl
  simp only [decode?] at decoded
  rcases Option.bind_eq_some_iff.mp decoded with ⟨destination, _, decoded⟩
  rcases Option.bind_eq_some_iff.mp decoded with ⟨source, _, decoded⟩
  rw [family, if_pos wide] at decoded
  rcases Option.map_eq_some_iff.mp decoded with ⟨next, _, decoded⟩
  split at decoded <;> cases decoded

end Instruction

/-! ## Instructions that go on to the next -/

/-- Do something and move on to the next instruction. -/
def Execution.onward (instruction : Instruction) (action : Execution Unit) :
    Execution (Option Word) := do
  let following := (← get).position + instruction.span
  action
  moveTo following
  return none

/-- What an instruction does before it moves on. -/
def Execution.effect (setup : Setup) : Operation → Execution Unit
  | .compute width arithmetic destination right => do
    write destination (evaluate width arithmetic (← read destination) (← operand right))
  | .convertOrder order bits destination => do
    write destination (convertOrder order bits (← read destination))
  | .load size destination base offset => do
    write destination (← load ((← read base) + BitVec.ofInt 64 offset) size.bytes)
  | .store size base offset value => do
    store ((← read base) + BitVec.ofInt 64 offset) size.bytes (← operand value)
  | .atomic operation size base source offset => atomic operation size base source offset
  | .loadConstant destination value => write destination value
  | .loadMap destination index =>
    write destination
      (RegionAddress.make RegionAddress.mapHandle (BitVec.ofInt 32 index.toInt).toNat)
  | .call immediate => do
    match Helper.ofImmediate? immediate with
    | some helper => write RegisterName.result (← call setup helper)
    | none => throw (.disallowedCall (← get).position immediate)
  | .jump | .branch .. | .exit => pure ()

/-- The instruction moves on to the one after it. -/
def Operation.isStraight : Operation → Bool
  | .jump | .branch .. | .exit => false
  | _ => true

theorem Execution.perform_straight
    {operation : Operation}
    (setup : Setup) (instruction : Instruction) (straight : operation.isStraight = true) :
    perform setup instruction operation = onward instruction (effect setup operation) := by
  cases operation with
  | call immediate =>
      simp only [perform, onward, effect]
      cases Helper.ofImmediate? immediate <;> simp only [bind_assoc]
  | jump => cases straight
  | branch width comparison left right => cases straight
  | exit => cases straight
  | _ => simp only [perform, onward, effect, bind_assoc]

section

variable {scene : Scene} {valuation : Nat → Word} {machine machine' : Machine}
variable {twin twin' : Bytes} {state : AbstractState} {instruction : Instruction}
variable {action : Execution Unit} {excuse : Prop} {length : Nat}

theorem comes_onward
    (returns : action.Returns machine twin () machine' twin')
    (represents : state.Represents scene valuation machine' twin') :
    Comes scene machine twin (Execution.onward instruction action)
      (Course.next.leads state instruction machine.position length) excuse := by
  refine .moves state valuation { machine' with position := machine.position + instruction.span }
    twin' ⟨?_, ?_⟩ (List.mem_singleton.mpr rfl) (represents.moved rfl rfl)
  · simp only [Execution.onward, Stateful.run_bind, Stateful.run_get, returns.here,
      Execution.run_moveTo, Stateful.run_pure]
  · simp only [Execution.onward, Stateful.run_bind, Stateful.run_get, returns.there,
      Execution.run_moveTo, Stateful.run_pure]
    rfl

theorem comes_failing
    {places : List (Nat × AbstractState)}
    (fails : action.Fails machine twin) (excused : excuse) :
    Comes scene machine twin (Execution.onward instruction action) places excuse := by
  rcases fails with ⟨address, size, here, there⟩
  refine .fails ⟨address, size, ?_, ?_⟩ excused
  · simp only [Execution.onward, Stateful.run_bind, Stateful.run_get, here]
  · simp only [Execution.onward, Stateful.run_bind, Stateful.run_get, there]

end

section

variable {scene : Scene} {valuation : Nat → Word} {machine : Machine} {twin : Bytes}
variable {focus focus' : Focus} {setup : Setup} {instruction : Instruction} {excuse : Prop}
variable {destination base source : RegisterName} {size : AccessSize} {offset : Int}
variable {length : Nat}

/-- An instruction that gives one register a word. -/
theorem comes_assigning
    {action : Execution Unit} {word : Word}
    (represents : focus.state.Represents scene valuation machine twin)
    (within : focus.state.Within focus.lastIdentity)
    (assigns : Assigns focus focus' scene valuation machine.memory destination word)
    (returns : action.Returns machine twin () (machine.setRegister destination word) twin) :
    Comes scene machine twin (Execution.onward instruction action)
      (Course.next.leads focus'.state instruction machine.position length) excuse := by
  rcases assigns with ⟨value, made, valuation', agree, describes⟩
  apply comes_onward returns
  rw [made]
  exact (represents.revalue within agree).setRegister destination describes

theorem compute_comes
    {width : Width} {arithmetic : Arithmetic} {operand : Operand}
    (represents : focus.state.Represents scene valuation machine twin)
    (within : focus.state.Within focus.lastIdentity)
    (passed : checkCompute focus width arithmetic destination operand = .ok focus') :
    Comes scene machine twin
      (Execution.onward instruction
        (Execution.effect setup (.compute width arithmetic destination operand)))
      (Course.next.leads focus'.state instruction machine.position length) excuse := by
  apply comes_assigning represents within
    (compute_sound represents within (computes_of_checkCompute passed))
  cases operand <;> exact ⟨rfl, rfl⟩

theorem loadMap_comes
    {index : Int32}
    (represents : focus.state.Represents scene valuation machine twin)
    (within : focus.state.Within focus.lastIdentity)
    (passed : checkLoadMap scene.setting focus destination index = .ok focus') :
    Comes scene machine twin
      (Execution.onward instruction (Execution.effect setup (.loadMap destination index)))
      (Course.next.leads focus'.state instruction machine.position length) excuse := by
  cases checkLoadMap_eq_ok passed
  have short := index.toBitVec.isLt
  have named : (BitVec.ofInt 32 index.toInt).toNat = index.toBitVec.toNat := by
    rw [Int32.toInt, BitVec.ofInt_toInt]
  refine comes_assigning represents within ⟨_, rfl, finds_of_describes ?_⟩ ⟨rfl, rfl⟩
  rw [named]
  exact ⟨⟨rfl, short⟩, fun absurdity => Bool.noConfusion absurdity,
    show (0 : Int).natAbs < pointerOffsetLimit by decide⟩

theorem load_comes
    (represents : focus.state.Represents scene valuation machine twin) (roomy : scene.Roomy)
    (within : focus.state.Within focus.lastIdentity) (near : offset.natAbs < pointerOffsetLimit)
    (passed : checkLoad scene.setting focus size destination base offset = .ok focus') :
    Comes scene machine twin
      (Execution.onward instruction
        (Execution.effect setup (.load size destination base offset)))
      (Course.next.leads focus'.state instruction machine.position length)
      (¬ scene.HoldsFrame ∨ focus.loadsPart (.load size destination base offset) = true) := by
  rcases grants_of_checkLoad passed with ⟨value, accessed, present, grants, rfl⟩
  rcases load_sound represents roomy (represents.registers base) size.bytes_pos size.bytes_le near
    present grants with ⟨unchanged, ⟨word, here, there, describes⟩ | ⟨here, there, excused⟩⟩
  · have assigns : Assigns focus (accessed.write destination value) scene valuation machine.memory
        destination word :=
      ⟨value, by rw [Focus.write, unchanged], finds_of_describes describes⟩
    refine comes_assigning represents within assigns ⟨?_, ?_⟩
    · simp only [Execution.effect, Stateful.run_bind, Execution.run_read, Execution.run_load,
        Execution.run_write]
      rw [show machine.memory.load? _ _ = _ from here]
    · simp only [Execution.effect, Stateful.run_bind, Execution.run_read, Execution.run_load,
        Execution.run_write, Machine.withStack_register, Machine.withStack_memory]
      rw [show (machine.memory.withStack twin).load? _ _ = _ from there]
      rfl
  · refine comes_failing ⟨machine.register base + BitVec.ofInt 64 offset, size.bytes, ?_, ?_⟩
      excused
    · simp only [Execution.effect, Stateful.run_bind, Execution.run_read, Execution.run_load, here]
    · simp only [Execution.effect, Stateful.run_bind, Execution.run_read, Execution.run_load,
        Machine.withStack_register, Machine.withStack_memory, there]
      rfl

/-- The value stored describes a word that has the same low bytes as the one the machine stores. -/
theorem storedValue_sound
    {operand : Operand} {value : AbstractValue}
    (represents : focus.state.Represents scene valuation machine twin)
    (found : storedValue focus size operand = .ok value) :
    ∃ stored, (focus.state.reading scene valuation machine.memory).Describes value stored ∧
      Memory.layOut stored size.bytes = Memory.layOut (machine.operand operand) size.bytes := by
  cases operand with
  | register name =>
      rcases Focus.read_eq_ok.mp found with ⟨rfl, _⟩
      exact ⟨machine.register name, represents.registers name, rfl⟩
  | immediate immediate =>
      cases found
      exact ⟨_, Interpretation.describes_constant _ _,
        Memory.layOut_lowBits _ size.bytes_le⟩

theorem store_comes
    {operand : Operand}
    (represents : focus.state.Represents scene valuation machine twin) (roomy : scene.Roomy)
    (near : offset.natAbs < pointerOffsetLimit)
    (passed : checkStore scene.setting focus size base offset operand = .ok focus') :
    Comes scene machine twin
      (Execution.onward instruction (Execution.effect setup (.store size base offset operand)))
      (Course.next.leads focus'.state instruction machine.position length)
      (¬ scene.HoldsFrame ∨ excuse) := by
  rcases grants_of_checkStore passed with ⟨value, answer, values, present, grants⟩
  rcases storedValue_sound represents values with ⟨stored, described, same⟩
  rcases store_sound represents roomy (represents.registers base) described same size.bytes_pos
    size.bytes_le near present grants with
    ⟨memory', twin', here, there, represents', _⟩ | ⟨here, there, missing⟩
  · refine comes_onward ⟨?_, ?_⟩ represents'
    · simp only [Execution.effect, Stateful.run_bind, Execution.run_read, Execution.run_operand,
        Execution.run_store, here]
    · simp only [Execution.effect, Stateful.run_bind, Execution.run_read, Execution.run_operand,
        Execution.run_store, Machine.withStack_register, Machine.withStack_operand,
        Machine.withStack_memory, there]
      rfl
  · refine comes_failing ⟨machine.register base + BitVec.ofInt 64 offset, size.bytes, ?_, ?_⟩
      (.inl missing)
    · simp only [Execution.effect, Stateful.run_bind, Execution.run_read, Execution.run_operand,
        Execution.run_store, here]
    · simp only [Execution.effect, Stateful.run_bind, Execution.run_read, Execution.run_operand,
        Execution.run_store, Machine.withStack_register, Machine.withStack_operand,
        Machine.withStack_memory, there]
      rfl

/-- What an atomic operation does once it has found the old integer. -/
theorem run_atomic
    {operation : AtomicOperation} {old : Word} {memory' : Memory} (machine : Machine)
    (updated : machine.memory.update? (machine.register base + BitVec.ofInt 64 offset) size.bytes
      (Execution.replacement operation ((machine.register source).lowBits (size.bytes * 8))
        ((machine.register RegisterName.result).lowBits (size.bytes * 8))) = some (old, memory')) :
    (Execution.atomic operation size base source offset).run machine =
      (.ok (), match operation.receiver? source with
        | some receiver => { machine with memory := memory' }.setRegister receiver old
        | none => { machine with memory := memory' }) := by
  simp only [Execution.atomic, Stateful.run_bind, Execution.run_read, Execution.run_update, updated]
  cases operation with
  | combine combination fetches => cases fetches <;> rfl
  | exchange => rfl
  | compareExchange => rfl

theorem atomic_comes
    {operation : AtomicOperation}
    (represents : focus.state.Represents scene valuation machine twin) (roomy : scene.Roomy)
    (passed : checkAtomic scene.setting focus operation size base source offset = .ok focus') :
    Comes scene machine twin
      (Execution.onward instruction
        (Execution.effect setup (.atomic operation size base source offset)))
      (Course.next.leads focus'.state instruction machine.position length)
      (¬ scene.HoldsFrame ∨ excuse) := by
  rcases exchanges_of_checkAtomic passed with ⟨updated, exchanges, rfl⟩
  let change := Execution.replacement operation
    ((machine.register source).lowBits (size.bytes * 8))
    ((machine.register RegisterName.result).lowBits (size.bytes * 8))
  rcases update_sound change represents roomy (represents.registers base) exchanges.present
      exchanges.aligned exchanges.targets with
    ⟨old, memory', twin', here, there, bounded, represents', _⟩ | ⟨here, there, missing⟩
  · have runs := run_atomic machine here
    have runs' := run_atomic (machine.withStack twin) there
    cases receives : operation.receiver? source with
    | none =>
        rw [receives] at runs runs'
        exact comes_onward ⟨runs, runs'⟩ represents'
    | some receiver =>
        rw [receives] at runs runs'
        exact comes_onward ⟨runs, runs'⟩
          (represents'.setRegister receiver
            (Interpretation.describes_scalar (Bounds.ofWidth_mem bounded)))
  · refine comes_failing ⟨machine.register base + BitVec.ofInt 64 offset, size.bytes, ?_, ?_⟩
      (.inl missing)
    · simp only [Execution.effect, Execution.atomic, Stateful.run_bind, Execution.run_read,
        Execution.run_update]
      rw [show machine.memory.update? _ _ _ = none from here]
    · simp only [Execution.effect, Execution.atomic, Stateful.run_bind, Execution.run_read,
        Execution.run_update, Machine.withStack_register, Machine.withStack_memory]
      rw [show (machine.memory.withStack twin).update? _ _ _ = none from there]
      rfl

theorem call_comes
    {immediate : Int32}
    (represents : focus.state.Represents scene valuation machine twin) (roomy : scene.Roomy)
    (within : focus.state.Within focus.lastIdentity) (maps : setup.maps = scene.maps)
    (attach : setup.attach = scene.setting.attach)
    (passed : checkCall scene.setting focus immediate = .ok focus') :
    Comes scene machine twin
      (Execution.onward instruction (Execution.effect setup (.call immediate)))
      (Course.next.leads focus'.state instruction machine.position length)
      (¬ scene.HoldsFrame ∨ excuse) := by
  rcases checkCall_sound represents roomy within maps attach passed with
    ⟨helper, isHelper, ⟨fails, missing⟩ | ⟨valuation', result, machine', returns, represents'⟩⟩
  · rcases fails with ⟨address, bytes, here, there⟩
    refine comes_failing ⟨address, bytes, ?_, ?_⟩ (.inl missing)
    · simp only [Execution.effect, isHelper, Stateful.run_bind, here]
    · simp only [Execution.effect, isHelper, Stateful.run_bind, there]
  · refine comes_onward ⟨?_, ?_⟩ represents'
    · simp only [Execution.effect, isHelper, Stateful.run_bind, returns.here, Execution.run_write]
    · simp only [Execution.effect, isHelper, Stateful.run_bind, returns.there, Execution.run_write]
      rfl

/-! ## Jumps, branches and exits -/

/-- The jump that the course takes, if it takes one, lands in the program. -/
def Course.Lands (course : Course) (target? : Option Nat) : Prop :=
  match course with
  | .jump | .branch .. => target?.isSome = true
  | _ => True

theorem jump_comes
    (represents : focus.state.Represents scene valuation machine twin)
    (lands : Course.jump.Lands (instruction.jumpTarget? machine.position setup.code.size)) :
    Comes scene machine twin (Execution.perform setup instruction .jump)
      (Course.jump.leads focus.state instruction machine.position setup.code.size) excuse := by
  rcases Option.isSome_iff_exists.mp lands with ⟨target, there⟩
  have run (machine' : Machine) (same : machine'.position = machine.position) :
      (Execution.perform setup instruction .jump).run machine' =
        (.ok none, { machine' with position := target }) := by
    simp only [Execution.perform, Execution.jump, Stateful.run_bind, Stateful.run_get, same, there,
      Execution.run_moveTo, Stateful.run_pure]
  refine .moves focus.state valuation { machine with position := target } twin
    ⟨run machine rfl, run (machine.withStack twin) rfl⟩ ?_ (represents.moved rfl rfl)
  simp only [Course.leads, there, List.mem_singleton]

theorem branch_comes
    {width : Width} {comparison : Comparison} {left : RegisterName} {right : Operand}
    {edges : Edges}
    (represents : focus.state.Represents scene valuation machine twin)
    (single : instruction.span = 1)
    (whole : focus.testsHalf (.branch width comparison left right) = false)
    (lands : (Course.branch edges.taken? edges.fall?).Lands
      (instruction.jumpTarget? machine.position setup.code.size))
    (passed : checkBranch focus width comparison left right = .ok edges) :
    Comes scene machine twin
      (Execution.perform setup instruction (.branch width comparison left right))
      ((Course.branch edges.taken? edges.fall?).leads focus.state instruction machine.position
        setup.code.size) excuse := by
  rcases Option.isSome_iff_exists.mp lands with ⟨target, there⟩
  have run (machine' : Machine) (same : machine'.position = machine.position) :
      (Execution.perform setup instruction (.branch width comparison left right)).run machine' =
        (.ok none, { machine' with
          position :=
            if Execution.holds width comparison (machine'.register left) (machine'.operand right)
            then target else machine.position + 1 }) := by
    simp only [Execution.perform, Execution.jump, Stateful.run_bind, Stateful.run_get,
      Execution.run_read, Execution.run_operand, Stateful.run_ite, same, there,
      Execution.run_moveTo, Stateful.run_pure, single]
    split <;> rfl
  have runs := run machine rfl
  have runs' := run (machine.withStack twin) rfl
  rw [Machine.withStack_operand, Machine.withStack_register] at runs'
  rcases branch_sound represents whole passed with ⟨edge, taken, represents'⟩
  refine .moves edge valuation _ twin ⟨runs, runs'⟩ ?_ (represents'.moved rfl rfl)
  simp only [Course.leads, there, List.mem_append, Option.mem_toList]
  split at taken
  case isTrue holds =>
    rw [if_pos holds]
    exact .inl (Option.mem_map_of_mem _ taken)
  case isFalse fails =>
    rw [if_neg fails]
    exact .inr (Option.mem_map_of_mem _ taken)

theorem exit_comes
    (represents : focus.state.Represents scene valuation machine twin)
    (passed : checkExit focus.state scene.setting.attach = .ok ()) :
    Comes scene machine twin (Execution.perform setup instruction .exit)
      (Course.exit.leads focus.state instruction machine.position length) excuse := by
  simp only [checkExit] at passed
  split at passed
  case h_1 => cases passed
  case h_2 absent =>
    simp only [demand_bind_eq_ok, demand_eq_ok] at passed
    rcases passed with ⟨_, scalar, ⟨least, _⟩, _, greatest⟩
    have member := Bounds.mem_iff.mp (represents.mem_scalar (beq_iff_eq.mp scalar))
    have noReferences : focus.state.references = [] := by
      rw [← List.head?_eq_none_iff, Option.eq_none_iff_forall_ne_some]
      exact absent
    refine .exits (machine.register RegisterName.result) ⟨rfl, rfl⟩ ?_
      (least.trans member.2.1.1) (member.2.1.2.trans greatest)
    intro number
    rw [← Option.not_isSome_iff_eq_none]
    intro isOpen
    rcases represents.tracks.known number isOpen with ⟨reference, held, _⟩
    change reference ∈ focus.state.references at held
    rw [noReferences] at held
    cases held

end

/-- An instruction that was let through. -/
theorem perform_comes
    {scene : Scene} {valuation : Nat → Word} {machine : Machine} {twin : Bytes}
    {focus focus' : Focus} {setup : Setup} {instruction : Instruction} {next? : Option Instruction}
    {operation : Operation} {course : Course}
    (represents : focus.state.Represents scene valuation machine twin) (roomy : scene.Roomy)
    (within : focus.state.Within focus.lastIdentity) (maps : setup.maps = scene.maps)
    (attach : setup.attach = scene.setting.attach)
    (decoded : instruction.decode? next? = some operation)
    (whole : focus.testsHalf operation = false)
    (passed : transfer scene.setting focus operation = .ok (focus', course))
    (lands : course.Lands (instruction.jumpTarget? machine.position setup.code.size)) :
    Comes scene machine twin (Execution.perform setup instruction operation)
      (course.leads focus'.state instruction machine.position setup.code.size)
      (¬ scene.HoldsFrame ∨ focus.loadsPart operation = true) := by
  have inRange := Instruction.decode_inRange decoded
  cases operation with
  | compute width arithmetic destination operand =>
      rcases Checked.bind_eq_ok.mp passed with ⟨after, computes, made⟩
      cases made
      rw [Execution.perform_straight setup instruction rfl]
      exact compute_comes represents within computes
  | convertOrder order bits destination =>
      rcases Checked.bind_eq_ok.mp passed with ⟨after, converts, made⟩
      cases made
      rw [Execution.perform_straight setup instruction rfl]
      exact comes_assigning represents within (convertOrder_sound represents inRange converts)
        ⟨rfl, rfl⟩
  | load size destination base offset =>
      rcases Checked.bind_eq_ok.mp passed with ⟨after, loads, made⟩
      cases made
      rw [Execution.perform_straight setup instruction rfl]
      exact load_comes represents roomy within inRange loads
  | store size base offset operand =>
      rcases Checked.bind_eq_ok.mp passed with ⟨after, stores, made⟩
      cases made
      rw [Execution.perform_straight setup instruction rfl]
      exact store_comes represents roomy inRange stores
  | atomic operation size base source offset =>
      rcases Checked.bind_eq_ok.mp passed with ⟨after, updates, made⟩
      cases made
      rw [Execution.perform_straight setup instruction rfl]
      exact atomic_comes represents roomy updates
  | loadConstant destination word =>
      cases passed
      rw [Execution.perform_straight setup instruction rfl]
      exact comes_assigning represents within
        ⟨.constant word, rfl, finds_of_describes (Interpretation.describes_constant _ word)⟩
        ⟨rfl, rfl⟩
  | loadMap destination index =>
      rcases Checked.bind_eq_ok.mp passed with ⟨after, loads, made⟩
      cases made
      rw [Execution.perform_straight setup instruction rfl]
      exact loadMap_comes represents within loads
  | jump =>
      cases passed
      exact jump_comes represents lands
  | branch width comparison left right =>
      rcases Checked.bind_eq_ok.mp passed with ⟨edges, branches, made⟩
      cases made
      exact branch_comes represents (Instruction.span_of_branch decoded) whole lands branches
  | call immediate =>
      rcases Checked.bind_eq_ok.mp passed with ⟨after, calls, made⟩
      cases made
      rw [Execution.perform_straight setup instruction rfl]
      exact call_comes represents roomy within maps attach calls
  | exit =>
      rcases Checked.bind_eq_ok.mp passed with ⟨_, exits, made⟩
      cases made
      exact exit_comes represents exits

end PacketFilter
