import PacketFilter.Proofs.Stepping

/-!
# What actions are built of

Until it moves on, an instruction works on the machine through a handful of
primitives.  It looks at the machine, changes it without moving it or counting
a step, and fails in one of two ways, both of which name the position it stands
at.  `Built` says so of an action, and `built_effect` of every operation.

What is kept by each primitive is then kept by every instruction.  In
particular a step counts itself once, and a fault of a step names the position
of its instruction; only a run knows of budgets and of records left open.
-/

namespace PacketFilter

/-- What may go wrong while an instruction is carried out. -/
inductive Fault.Mishap (position : Nat) : Fault → Prop
  | missed (address : Word) (size : Nat) : Mishap position (.outOfBounds position address size)
  | forbidden (helper : Int32) : Mishap position (.disallowedCall position helper)

namespace Execution

/-- The action is put together from looks at the machine, changes that neither move it nor count a
step, and failures at the instruction it stands at. -/
inductive Built : {α : Type} → Execution α → Prop
  | yields {α : Type} (result : α) : Built (pure result)
  | looks : Built get
  | changes (change : Machine → Machine)
      (stays : ∀ machine, (change machine).position = machine.position)
      (uncounted : ∀ machine, (change machine).steps = machine.steps) :
      Built (modify change)
  | misses {α : Type} (address : Word) (size : Nat) : Built (violation address size : Execution α)
  | forbids {α : Type} (helper : Int32) :
      Built (do throw (.disallowedCall (← get).position helper) : Execution α)
  | follows {α β : Type} {action : Execution α} {next : α → Execution β}
      (first : Built action) (later : ∀ result, Built (next result)) : Built (action >>= next)

variable {α β : Type}

/-- What an action comes to that neither moves the machine nor counts a step. -/
def Stays (machine : Machine) : Except Fault α × Machine → Prop
  | (.ok _, after) => after.position = machine.position ∧ after.steps = machine.steps
  | (.error fault, after) =>
    fault.Mishap machine.position ∧ after.position = machine.position ∧
      after.steps = machine.steps

/-- Whatever an action is built of, it leaves the position and the count of steps to its caller. -/
theorem Built.stays {action : Execution α} (built : action.Built) :
    ∀ machine, Stays machine (action.run machine) := by
  induction built with
  | yields result => exact fun machine => ⟨rfl, rfl⟩
  | looks => exact fun machine => ⟨rfl, rfl⟩
  | changes change stays uncounted => exact fun machine => ⟨stays machine, uncounted machine⟩
  | misses address size => exact fun machine => ⟨.missed address size, rfl, rfl⟩
  | forbids helper => exact fun machine => ⟨.forbidden helper, rfl, rfl⟩
  | @follows _ _ action next first later continues continues' =>
      intro machine
      have begun := continues machine
      rw [Stateful.run_bind]
      generalize action.run machine = ran at begun ⊢
      rcases ran with ⟨fault | result, between⟩
      · exact begun
      · have ended := continues' result between
        dsimp only
        generalize (next result).run between = ran at ended ⊢
        rcases ran with ⟨fault | result', after⟩
        · rw [Stays, begun.1, begun.2] at ended
          exact ended
        · rw [Stays, begun.1, begun.2] at ended
          exact ended

/-! ## Parts of instructions -/

/-- An action may depend on the machine that it looks at. -/
theorem Built.afterLook
    {next : Machine → Execution β} (later : ∀ machine, (next machine).Built) :
    Built (get >>= next) :=
  .follows .looks later

theorem built_read (name : RegisterName) : (read name).Built :=
  .follows .looks fun _ => .yields _

theorem built_operand (right : Operand) : (operand right).Built :=
  .follows .looks fun _ => .yields _

theorem built_write (name : RegisterName) (value : Word) : (write name value).Built :=
  .changes _ (fun _ => rfl) fun _ => rfl

theorem built_setMemory (memory : Memory) : (setMemory memory).Built :=
  .changes _ (fun _ => rfl) fun _ => rfl

theorem built_disallow (helper : Helper) : (disallow helper : Execution α).Built :=
  .forbids _

theorem built_onStore (action : StoreAction α) : (onStore action).Built :=
  Built.afterLook fun _ => (built_setMemory _).follows fun _ => .yields _

theorem built_load (address : Word) (size : Nat) : (load address size).Built := by
  refine Built.afterLook fun machine => ?_
  split
  · exact .yields _
  · exact .misses address size

theorem built_store (address : Word) (size : Nat) (value : Word) :
    (store address size value).Built := by
  refine Built.afterLook fun machine => ?_
  split
  · exact built_setMemory _
  · exact .misses address size

theorem built_update (address : Word) (size : Nat) (change : Word → Word) :
    (update address size change).Built := by
  refine Built.afterLook fun machine => ?_
  split
  · exact (built_setMemory _).follows fun _ => .yields _
  · exact .misses address size

theorem built_readBytes (address : Word) (size : Nat) : (readBytes address size).Built := by
  refine Built.afterLook fun machine => ?_
  split
  · exact .yields _
  · exact .misses address size

/-- An atomic operation is one update and at most one write of a register. -/
theorem built_atomic
    (operation : AtomicOperation) (size : AccessSize) (base source : RegisterName) (offset : Int) :
    (atomic operation size base source offset).Built := by
  refine (built_read source).follows fun operand => ?_
  refine (built_read .result).follows fun expected => ?_
  refine (built_read base).follows fun address => ?_
  refine (built_update _ _ _).follows fun old => ?_
  cases operation with
  | combine combination fetches =>
      cases fetches with
      | true => exact built_write source old
      | false => exact .yields ()
  | exchange => exact built_write source old
  | compareExchange => exact built_write .result old

/-! ## Helpers -/

variable (setup : Setup)

theorem built_mapOf (handle : Word) : (mapOf setup handle).Built := by
  unfold mapOf
  split
  · exact .misses handle 0
  · split
    · exact .misses handle 0
    · refine Built.afterLook fun machine => ?_
      split
      · exact .misses handle 0
      · exact .yields _

theorem built_ringOf (helper : Helper) (handle : Word) : (ringOf setup helper handle).Built := by
  refine (built_mapOf setup handle).follows fun found => ?_
  rcases found with ⟨id, map⟩
  dsimp only
  split
  · exact .yields id
  · exact built_disallow helper

/-- Helpers on maps first read a key, of the length that the map has it. -/
theorem Built.afterKey {next : MapId × Map → Bytes → Execution β}
    (later : ∀ found key, (next found key).Built) :
    (do
      let handle ← read .first
      let found ← mapOf setup handle
      let address ← read .second
      let key ← readBytes address found.2.schema.keySize
      next found key).Built := by
  refine (built_read .first).follows fun handle => ?_
  refine (built_mapOf setup handle).follows fun found => ?_
  refine (built_read .second).follows fun address => ?_
  exact (built_readBytes address _).follows (later found)

theorem built_callMapLookup : (callMapLookup setup).Built := by
  refine Built.afterKey setup fun found key => ?_
  refine Built.afterLook fun machine => ?_
  refine (built_onStore _).follows fun result => ?_
  split
  · refine Built.afterLook fun machine => ?_
    split
    · exact (built_setMemory _).follows fun _ => .yields _
    · exact .yields 0
  · exact .yields 0

theorem built_callMapUpdate : (callMapUpdate setup).Built := by
  refine Built.afterKey setup fun found key => ?_
  refine (built_read .third).follows fun address => ?_
  refine (built_readBytes address _).follows fun value => ?_
  refine (built_read .fourth).follows fun mode => ?_
  split
  · exact .yields invalidModeCode
  · refine Built.afterLook fun machine => ?_
    exact (built_onStore _).follows fun result => .yields _

theorem built_callMapDelete : (callMapDelete setup).Built :=
  Built.afterKey setup fun _ _ => (built_onStore _).follows fun _ => .yields _

theorem built_callRedirect : (callRedirect setup).Built := by
  unfold callRedirect
  split
  · exact built_disallow .redirect
  · refine (built_read .second).follows fun flags => ?_
    split
    · exact .yields _
    · refine (built_read .first).follows fun target => ?_
      exact .follows (.changes _ (fun _ => rfl) fun _ => rfl) fun _ => .yields _

theorem built_callDigest : callDigest.Built := by
  refine (built_read .first).follows fun address => ?_
  refine (built_read .second).follows fun size => ?_
  dsimp only
  split
  · exact .misses address _
  · exact (built_readBytes address _).follows fun bytes => .yields _

theorem built_callRingOutput : (callRingOutput setup).Built := by
  refine (built_read .first).follows fun handle => ?_
  refine (built_ringOf setup _ handle).follows fun id => ?_
  refine (built_read .second).follows fun address => ?_
  refine (built_read .third).follows fun size => ?_
  refine (built_readBytes address _).follows fun data => ?_
  exact Built.afterLook fun machine => (built_setMemory _).follows fun _ => .yields _

theorem built_callRingReserve : (callRingReserve setup).Built := by
  refine (built_read .first).follows fun handle => ?_
  refine (built_ringOf setup _ handle).follows fun id => ?_
  refine (built_read .second).follows fun size => ?_
  refine Built.afterLook fun machine => ?_
  dsimp only
  split
  · exact (built_setMemory _).follows fun _ => .yields 0
  · exact (built_setMemory _).follows fun _ => .yields _

theorem built_callRingComplete (isDiscarded : Bool) : (callRingComplete isDiscarded).Built := by
  refine (built_read .first).follows fun address => ?_
  refine Built.afterLook fun machine => ?_
  split
  · exact .misses address 0
  · exact (built_setMemory _).follows fun _ => .yields 0

/-- Every helper is made of reads, writes and changes of the memory. -/
theorem built_call (helper : Helper) : (call setup helper).Built := by
  cases helper with
  | mapLookup => exact built_callMapLookup setup
  | mapUpdate => exact built_callMapUpdate setup
  | mapDelete => exact built_callMapDelete setup
  | currentTime => exact Built.afterLook fun _ => .yields _
  | redirect => exact built_callRedirect setup
  | digest => exact built_callDigest
  | ringOutput => exact built_callRingOutput setup
  | ringReserve => exact built_callRingReserve setup
  | ringSubmit => exact built_callRingComplete false
  | ringDiscard => exact built_callRingComplete true
  | workerNumber => exact .follows .looks fun _ => .yields _

/-- What an instruction does before it moves on is built of these. -/
theorem built_effect (operation : Operation) : (effect setup operation).Built := by
  cases operation with
  | compute width arithmetic destination right =>
      refine (built_read destination).follows fun left => ?_
      refine (built_operand right).follows fun right => ?_
      exact built_write destination _
  | convertOrder order bits destination =>
      exact (built_read destination).follows fun value => built_write destination _
  | load size destination base offset =>
      refine (built_read base).follows fun address => ?_
      exact (built_load _ _).follows fun value => built_write destination value
  | store size base offset value =>
      refine (built_read base).follows fun address => ?_
      exact (built_operand value).follows fun value => built_store _ _ value
  | atomic operation size base source offset =>
      exact built_atomic operation size base source offset
  | loadConstant destination value => exact built_write destination value
  | loadMap destination index => exact built_write destination _
  | call immediate =>
      simp only [effect]
      split
      case h_1 helper _ =>
        exact (built_call setup helper).follows fun result => built_write .result result
      case h_2 => exact .forbids immediate
  | jump => exact .yields ()
  | branch width comparison left right => exact .yields ()
  | exit => exact .yields ()

/-! ## Steps -/

/-- What an instruction comes to: if it fails, the machine stays where it is, and the fault says
where that is. -/
def Ended (machine : Machine) (steps : Nat) : Except Fault (Option Word) × Machine → Prop
  | (.ok _, after) => after.steps = steps
  | (.error fault, after) =>
    (fault.Mishap machine.position ∨ fault = .invalidInstruction machine.position) ∧
      after.position = machine.position ∧ after.steps = steps

variable {setup} {machine : Machine}

/-- A jump ends a step or the run, without another step. -/
theorem ended_jump (instruction : Instruction) (machine : Machine) :
    Ended machine machine.steps ((do jump setup instruction; return none).run machine) := by
  simp only [jump, Stateful.run_bind, Stateful.run_get]
  split
  case h_1 after ran =>
    split at ran
    · cases ran
      rfl
    · cases ran
  case h_2 fault after ran =>
    split at ran
    · cases ran
    · cases ran
      exact ⟨.inr rfl, rfl, rfl⟩

/-- Whatever the operation does, it makes no further step. -/
theorem ended_perform (instruction : Instruction) (operation : Operation) (machine : Machine) :
    Ended machine machine.steps ((perform setup instruction operation).run machine) := by
  by_cases straight : operation.isStraight = true
  · have stays := (built_effect setup operation).stays machine
    rw [perform_straight setup instruction straight]
    simp only [onward, Stateful.run_bind, Stateful.run_get]
    generalize (effect setup operation).run machine = ran at stays ⊢
    rcases ran with ⟨fault | done, after⟩
    · exact ⟨.inl stays.1, stays.2⟩
    · exact stays.2
  · cases operation with
    | jump => exact ended_jump instruction machine
    | branch width comparison left right =>
        simp only [perform, Stateful.run_bind, Stateful.run_get, run_read, run_operand]
        split
        · exact ended_jump instruction machine
        · rfl
    | exit => rfl
    | _ => exact absurd rfl straight

/-- A step counts itself once.  If it fails, the fault names the position of the instruction, and
the machine still stands there. -/
theorem ended_step (machine : Machine) :
    Ended machine (machine.steps + 1) ((step setup).run machine) := by
  simp only [step, Stateful.run_bind, Stateful.run_modify, Stateful.run_get]
  split
  case h_1 instruction operation _ _ =>
    exact ended_perform instruction operation { machine with steps := machine.steps + 1 }
  case h_2 => exact ⟨.inr rfl, rfl, rfl⟩

end Execution

end PacketFilter
