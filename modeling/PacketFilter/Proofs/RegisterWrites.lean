import PacketFilter.ControlFlow.Loop
import PacketFilter.Proofs.ControlSafety
import PacketFilter.Proofs.HelperCalls

/-!
# Register writes

An instruction changes one register or none, and the fields of its slot tell
which one.  Adding a constant to a whole register, or subtracting one, never
fails: every machine that comes to such an instruction changes its register by
the constant and goes on.
-/

namespace PacketFilter

/-- The register whose contents an operation may replace. -/
def Operation.changed? : Operation → Option RegisterName
  | .atomic operation _ _ source _ => operation.receiver? source
  | .call _ => some RegisterName.result
  | operation => operation.overwritten?

/-! ## Actions that spare a register -/

namespace Execution

variable {α β : Type} {action : Execution α} {next : α → Execution β} {name other : RegisterName}

/-- Whatever comes of the action, the register is what it was. -/
def Spares (name : RegisterName) (action : Execution α) : Prop :=
  ∀ machine, (action.run machine).2.register name = machine.register name

theorem SparesRegisters.spares (all : action.SparesRegisters) : action.Spares name := by
  intro machine
  rw [Machine.register, all machine]
  rfl

theorem Spares.bind
    (first : action.Spares name) (later : ∀ result, (next result).Spares name) :
    (action >>= next).Spares name := by
  intro machine
  have spares := first machine
  rw [Stateful.run_bind]
  generalize action.run machine = ran at spares ⊢
  rcases ran with ⟨fault | result, after⟩
  · exact spares
  · exact (later result after).trans spares

theorem spares_write (apart : other ≠ name) (value : Word) : (write other value).Spares name := by
  intro machine
  rw [run_write, Machine.register_setRegister, if_neg apart]

theorem spares_operand (right : Operand) : (operand right).SparesRegisters :=
  fun _ => rfl

theorem spares_load (address : Word) (size : Nat) : (load address size).SparesRegisters := by
  intro machine
  rw [run_load]
  cases machine.memory.load? address size <;> rfl

theorem spares_store (address : Word) (size : Nat) (value : Word) :
    (store address size value).SparesRegisters := by
  intro machine
  rw [run_store]
  cases machine.memory.store? address size value <;> rfl

theorem spares_update (address : Word) (size : Nat) (change : Word → Word) :
    (update address size change).SparesRegisters := by
  intro machine
  rw [run_update]
  cases machine.memory.update? address size change <;> rfl

theorem spares_atomic
    {operation : AtomicOperation} {source : RegisterName}
    (apart : operation.receiver? source ≠ some name) (size : AccessSize) (base : RegisterName)
    (offset : Int) : (atomic operation size base source offset).Spares name := by
  refine (spares_read source).spares.bind fun operand => ?_
  refine (spares_read .result).spares.bind fun expected => ?_
  refine (spares_read base).spares.bind fun address => ?_
  refine (spares_update _ _ _).spares.bind fun old => ?_
  cases operation with
  | combine combination fetches =>
      cases fetches with
      | true => exact spares_write (fun same => apart (congrArg some same)) old
      | false => exact (spares_pure ()).spares
  | exchange => exact spares_write (fun same => apart (congrArg some same)) old
  | compareExchange => exact spares_write (fun same => apart (congrArg some same)) old

variable (setup : Setup) {operation : Operation}

theorem spares_effect (apart : operation.changed? ≠ some name) :
    (effect setup operation).Spares name := by
  have writes {destination : RegisterName} (only : operation.changed? = some destination)
      (value : Word) : (write destination value).Spares name :=
    spares_write (fun same => apart (only.trans (congrArg some same))) value
  cases operation with
  | compute width arithmetic destination right =>
      refine (spares_read destination).spares.bind fun left => ?_
      exact (spares_operand right).spares.bind fun right => writes rfl _
  | convertOrder order bits destination =>
      exact (spares_read destination).spares.bind fun value => writes rfl _
  | load size destination base offset =>
      refine (spares_read base).spares.bind fun address => ?_
      exact (spares_load _ _).spares.bind fun value => writes rfl value
  | store size base offset value =>
      refine (spares_read base).spares.bind fun address => ?_
      exact (spares_operand value).spares.bind fun value => (spares_store _ _ value).spares
  | atomic operation size base source offset => exact spares_atomic apart size base offset
  | loadConstant destination value => exact writes rfl value
  | loadMap destination index => exact writes rfl _
  | call immediate =>
      simp only [effect]
      split
      case h_1 helper _ =>
        exact (spares_call setup helper).spares.bind fun result => writes rfl result
      case h_2 => exact fun machine => rfl
  | jump | branch | exit => exact (spares_pure ()).spares

theorem spares_moveTo (position : Nat) : (moveTo position).SparesRegisters :=
  fun _ => rfl

theorem spares_jump (instruction : Instruction) : (jump setup instruction).SparesRegisters := by
  refine spares_get.bind fun machine => ?_
  split
  · exact spares_moveTo _
  · exact fun _ => rfl

theorem spares_perform (instruction : Instruction) (apart : operation.changed? ≠ some name) :
    (perform setup instruction operation).Spares name := by
  by_cases straight : operation.isStraight = true
  · intro machine
    have spares := spares_effect setup apart machine
    rw [perform_straight setup instruction straight, run_onward]
    generalize (effect setup operation).run machine = ran at spares ⊢
    rcases ran with ⟨fault | done, after⟩ <;> exact spares
  · refine SparesRegisters.spares (spares_get.bind fun machine => ?_)
    cases operation with
    | jump => exact (spares_jump setup instruction).bind fun _ => spares_pure none
    | branch width comparison left right =>
        refine (spares_read left).bind fun left => (spares_operand right).bind fun right => ?_
        split
        · exact (spares_jump setup instruction).bind fun _ => spares_pure none
        · exact (spares_moveTo _).bind fun _ => spares_pure none
    | exit => exact (spares_read _).bind fun code => spares_pure (some code)
    | _ => exact absurd rfl straight

end Execution

/-! ## What the fields of an instruction tell -/

theorem RegisterName.val_of_ofNumber?
    {number : UInt8} {name : RegisterName} (named : ofNumber? number = some name) :
    name.val = number.toNat := by
  unfold ofNumber? at named
  split at named
  case isTrue =>
    cases named
    rfl
  case isFalse => cases named

theorem RegisterName.ofNumber?_inj
    {number other : UInt8} {name : RegisterName} (named : ofNumber? number = some name)
    (named' : ofNumber? other = some name) : number = other :=
  UInt8.toNat_inj.mp ((val_of_ofNumber? named).symm.trans (val_of_ofNumber? named'))

namespace Instruction

variable {instruction : Instruction} {next? : Option Instruction} {name : RegisterName}

theorem fields_of_atomic
    {operation : AtomicOperation} {size : AccessSize} {base source : RegisterName} {offset : Int}
    (decoded : instruction.decode? next? = some (.atomic operation size base source offset)) :
    instruction.isAtomic = true ∧
      AtomicOperation.ofImmediate? instruction.immediate = some operation ∧
      RegisterName.ofNumber? instruction.source = some source := by
  have family : instruction.family = .storeRegister := by
    cases encodes_of_decode? decoded with
    | atomic family => exact family
  rcases Option.bind_eq_some_iff.mp decoded with ⟨_, _, decoded⟩
  rcases Option.bind_eq_some_iff.mp decoded with ⟨_, reads, decoded⟩
  rw [family] at decoded
  dsimp only at decoded
  split at decoded
  case isTrue mode =>
    rcases Option.map_eq_some_iff.mp decoded with ⟨_, named, made⟩
    cases made
    refine ⟨?_, named, reads⟩
    rw [isAtomic, family, mode]
    rfl
  case isFalse => cases decoded

/-- The register that receives the old value is the one that is listed. -/
theorem writtenRegisters_of_atomic
    {operation : AtomicOperation} {source : RegisterName} (isAtomic : instruction.isAtomic = true)
    (named : AtomicOperation.ofImmediate? instruction.immediate = some operation)
    (reads : RegisterName.ofNumber? instruction.source = some source)
    (receives : operation.receiver? source = some name) :
    ∃ number ∈ instruction.writtenRegisters, RegisterName.ofNumber? number = some name := by
  have family : instruction.family = .storeRegister := by
    rw [Instruction.isAtomic, Bool.and_eq_true, beq_iff_eq] at isAtomic
    exact isAtomic.1
  have toSource (fetches : AtomicOperation.fetches instruction.immediate = true)
      (differs : instruction.immediate ≠ AtomicOperation.compareExchangeCode)
      (same : source = name) :
      ∃ number ∈ instruction.writtenRegisters, RegisterName.ofNumber? number = some name := by
    refine ⟨instruction.source, ?_, same ▸ reads⟩
    simp only [writtenRegisters, family, isAtomic, if_true, if_neg differs, fetches]
    exact List.mem_singleton_self _
  unfold AtomicOperation.ofImmediate? at named
  split at named
  case isTrue exchanges =>
    cases named
    refine toSource ?_ ?_ (Option.some.inj receives)
    · rw [exchanges]
      decide
    · rw [exchanges]
      decide
  case isFalse =>
    split at named
    case isTrue compares =>
      cases named
      refine ⟨0, ?_, receives⟩
      simp only [writtenRegisters, family, isAtomic, if_true, compares]
      exact List.mem_singleton_self 0
    case isFalse differs =>
      rcases Option.map_eq_some_iff.mp named with ⟨combination, _, rfl⟩
      rw [AtomicOperation.receiver?, Option.ite_none_right_eq_some] at receives
      exact toSource receives.1 differs (Option.some.inj receives.2)

/-- The register that an instruction changes is among those that it may overwrite. -/
theorem exists_mem_writtenRegisters
    {operation : Operation} (decoded : instruction.decode? next? = some operation)
    (changes : operation.changed? = some name) :
    ∃ number ∈ instruction.writtenRegisters, RegisterName.ofNumber? number = some name := by
  have destination (writes : RegisterName.ofNumber? instruction.destination = some name)
      (only : instruction.writtenRegisters = [instruction.destination]) :
      ∃ number ∈ instruction.writtenRegisters, RegisterName.ofNumber? number = some name :=
    ⟨instruction.destination, only ▸ List.mem_singleton_self _, writes⟩
  have loads (wide : instruction.isWideLoad) :
      instruction.writtenRegisters = [instruction.destination] := by
    simp only [writtenRegisters, family_of_isWideLoad wide, wide, if_true]
  cases encodes_of_decode? decoded with
  | compute family writes =>
      cases changes
      refine destination writes ?_
      rcases family with family | family <;> rw [writtenRegisters, family]
  | convertOrder family writes =>
      cases changes
      exact destination writes (by rw [writtenRegisters, family])
  | load family writes =>
      cases changes
      exact destination writes (by rw [writtenRegisters, family])
  | loadConstant wide writes =>
      cases changes
      exact destination writes (loads wide)
  | loadMap wide writes =>
      cases changes
      exact destination writes (loads wide)
  | atomic =>
      rcases fields_of_atomic decoded with ⟨isAtomic, named, reads⟩
      exact writtenRegisters_of_atomic isAtomic named reads changes
  | call calls =>
      refine ⟨0, ?_, changes⟩
      have family : instruction.family = .jump := by
        rw [isCall, Bool.and_eq_true, beq_iff_eq] at calls
        exact calls.1
      simp only [writtenRegisters, family, calls, if_true]
      exact List.mem_cons_self
  | store | jump | branch | exit => cases changes

/-- A constant step is an addition or a subtraction of a constant on whole registers. -/
theorem arithmetic_of_counterStep?
    {step : Int} (steps : instruction.counterStep? = some step) :
    instruction.family = .arithmetic ∧ instruction.hasRegisterOperand = false ∧ step ≠ 0 ∧
      ∃ arithmetic, Arithmetic.ofCode? instruction.operationField = some arithmetic ∧
        ∀ word : Word, arithmetic.apply word (Word.ofImmediate instruction.immediate) =
          word + BitVec.ofInt 64 step := by
  unfold counterStep? at steps
  split at steps
  case isTrue => cases steps
  case isFalse admitted =>
    simp only [not_or, not_not, Bool.not_eq_true] at admitted
    rcases admitted with ⟨family, immediate, nonzero⟩
    have moves : instruction.immediate.toInt ≠ 0 := fun same => nonzero (Int32.toInt_inj.mp same)
    refine ⟨family, immediate, ?_⟩
    split at steps
    case isTrue adds =>
      cases steps
      exact ⟨moves, .add, by rw [adds]; decide, fun word => rfl⟩
    case isFalse =>
      split at steps
      case isTrue subtracts =>
        cases steps
        refine ⟨Int.neg_ne_zero.mpr moves, .sub, by rw [subtracts]; decide, fun word => ?_⟩
        rw [BitVec.ofInt_neg, ← BitVec.sub_eq_add_neg]
        rfl
      case isFalse => cases steps

/-- A constant step is no greater than an immediate can be. -/
theorem natAbs_le_of_counterStep?
    {step : Int} (steps : instruction.counterStep? = some step) :
    step.natAbs ≤ 2 ^ 31 := by
  have low := instruction.immediate.le_toInt
  have high := instruction.immediate.toInt_lt
  unfold counterStep? at steps
  split_ifs at steps <;> cases steps <;> omega

end Instruction

/-! ## Slots of a program -/

namespace Code

variable {code : Code} {slot : Nat} {number : UInt8} {name : RegisterName}

/-- Whatever comes of the instruction at the slot, the register is what it was. -/
def Spares (code : Code) (slot : Nat) (name : RegisterName) : Prop :=
  ∀ setup machine, setup.code = code → machine.position = slot →
    ((Execution.step setup).run machine).2.register name = machine.register name

/-- The instruction at the slot is always carried out, and adds the constant to the register. -/
def Adds (code : Code) (slot : Nat) (name : RegisterName) (change : Int) : Prop :=
  ∀ setup machine, setup.code = code → machine.position = slot →
    ∃ next, (Execution.step setup).run machine = (.ok none, next) ∧
      next.register name = machine.register name + BitVec.ofInt 64 change

/-- What a step does where an instruction starts. -/
theorem WellFormed.run_step
    (wellFormed : code.WellFormed) (starts : slot ∈ code.starts) :
    ∃ instruction operation, code[slot]? = some instruction ∧
      instruction.decode? code[slot + 1]? = some operation ∧
      ∀ setup machine, setup.code = code → machine.position = slot →
        (Execution.step setup).run machine =
          (Execution.perform setup instruction operation).run
            { machine with steps := machine.steps + 1 } := by
  rcases wellFormed.exists_operation starts with ⟨instruction, operation, fetched, decoded⟩
  refine ⟨instruction, operation, fetched, decoded, fun setup machine runs stands => ?_⟩
  subst runs stands
  refine Execution.run_step machine fetched ?_
  rw [operation?, fetched]
  exact decoded

theorem WellFormed.spares
    (wellFormed : code.WellFormed) (starts : slot ∈ code.starts)
    (named : RegisterName.ofNumber? number = some name)
    (never : code.writesRegister slot number = false) : code.Spares slot name := by
  rcases wellFormed.run_step starts with ⟨instruction, operation, fetched, decoded, steps⟩
  intro setup machine runs stands
  rw [steps setup machine runs stands]
  refine Execution.spares_perform setup instruction (fun changes => ?_) _
  rcases Instruction.exists_mem_writtenRegisters decoded changes with ⟨other, listed, named'⟩
  rw [RegisterName.ofNumber?_inj named' named] at listed
  rw [writesRegister, fetched, Option.map_some, Option.getD_some,
    List.contains_iff_mem.mpr listed] at never
  cases never

theorem stepAt?_eq_some {step : Int} (steps : code.stepAt? number slot = some step) :
    ∃ instruction, code[slot]? = some instruction ∧ instruction.destination = number ∧
      instruction.counterStep? = some step := by
  rcases Option.bind_eq_some_iff.mp steps with ⟨instruction, fetched, steps⟩
  rw [Option.ite_none_right_eq_some] at steps
  exact ⟨instruction, fetched, steps⟩

theorem WellFormed.adds
    {step : Int} (wellFormed : code.WellFormed) (starts : slot ∈ code.starts)
    (named : RegisterName.ofNumber? number = some name)
    (steps : code.stepAt? number slot = some step) : code.Adds slot name step := by
  rcases stepAt?_eq_some steps with ⟨instruction, fetched, rfl, counts⟩
  rcases Instruction.arithmetic_of_counterStep? counts with
    ⟨family, immediate, _, arithmetic, called, adds⟩
  rcases wellFormed.run_step starts with ⟨_, operation, fetched', decoded, runs⟩
  cases fetched'.symm.trans fetched
  have computes : operation =
      .compute .whole arithmetic name (.immediate instruction.immediate) := by
    rcases Option.bind_eq_some_iff.mp decoded with ⟨destination, writes, decoded⟩
    rcases Option.bind_eq_some_iff.mp decoded with ⟨source, _, decoded⟩
    cases named.symm.trans writes
    rw [family, Instruction.arithmetic?, called, Option.map_some, Instruction.operand, immediate]
      at decoded
    exact (Option.some.inj decoded).symm
  intro setup machine runs' stands
  rw [runs setup machine runs' stands, computes, Execution.perform_straight setup instruction rfl,
    Execution.run_onward]
  refine ⟨_, rfl, ?_⟩
  show (machine.setRegister name _).register name = _
  rw [Machine.register_setRegister, if_pos rfl]
  exact adds _

theorem ne_zero_of_stepAt? {step : Int} (steps : code.stepAt? number slot = some step) :
    step ≠ 0 := by
  rcases stepAt?_eq_some steps with ⟨_, _, _, steps⟩
  exact (Instruction.arithmetic_of_counterStep? steps).2.2.1

end Code

end PacketFilter
