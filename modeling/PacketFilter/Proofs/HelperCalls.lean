import PacketFilter.Proofs.CheckedRuns
import PacketFilter.Proofs.Reservations

/-!
# Calls of helpers

A state of the verifier describes a machine: its registers and its stack, the
regions that have been handed out, the maps of the declared schemas and the
records that are open.  A call that passes its check is carried out by such a
machine, and the state that the check leaves describes it again once the result
is in its register.  The call itself touches neither registers nor stack.

References and open records are paired one to one, before and after, so a call
that reserves or releases changes both sides in step.  A reference whose pointer
is still to be checked may stand for null, and then for no record.
-/

namespace PacketFilter

/-! ## References and records -/

/-- Open records and the references that do not stand for null are paired one to one. -/
structure Interpretation.Pairs (reading : Interpretation) : Prop where
  nodup : reading.references.Nodup
  records : ∀ reference ∈ reading.references, reading.valuation reference ≠ 0 →
    ∃! number, reading.memory.Opens (reading.valuation reference) number
  references : ∀ number, (reading.memory.record? number).isSome = true →
    ∃! reference, reference ∈ reading.references ∧
      reading.memory.Opens (reading.valuation reference) number

theorem Interpretation.Tracks.pairs
    {reading : Interpretation}
    (tracks : reading.Tracks)
    (bound : RegionAddress.firstDynamic + reading.memory.regions.size ≤ RegionAddress.mapHandle) :
    reading.Pairs where
  nodup := tracks.nodup
  records reference held nonNull := by
    rcases tracks.opened reference held nonNull with ⟨number, opens⟩
    refine ⟨number, opens, fun other opens' => ?_⟩
    cases opens.1.unique opens'.1 bound
    rfl
  references number isOpen := by
    rcases tracks.known number isOpen with ⟨reference, held, opens⟩
    exact ⟨reference, ⟨held, opens⟩, fun other found =>
      tracks.distinct other found.1 reference held number found.2 opens⟩

/-! ## Registers -/

namespace Execution

variable {α β : Type} {action : Execution α} {next : α → Execution β}

/-- Whatever comes of the action, the registers are what they were. -/
def SparesRegisters (action : Execution α) : Prop :=
  ∀ machine, (action.run machine).2.registers = machine.registers

/-- Actions that spare the registers may be chained. -/
theorem SparesRegisters.bind
    (first : action.SparesRegisters) (later : ∀ result, (next result).SparesRegisters) :
    (action >>= next).SparesRegisters := by
  intro machine
  have spares := first machine
  rw [Stateful.run_bind]
  generalize action.run machine = ran at spares ⊢
  rcases ran with ⟨fault | result, after⟩
  · exact spares
  · exact (later result after).trans spares

theorem spares_pure (result : α) : (pure result : Execution α).SparesRegisters :=
  fun _ => rfl

theorem spares_get : (get : Execution Machine).SparesRegisters :=
  fun _ => rfl

theorem spares_read (name : RegisterName) : (read name).SparesRegisters :=
  fun _ => rfl

theorem spares_setMemory (memory : Memory) : (setMemory memory).SparesRegisters :=
  fun _ => rfl

theorem spares_onStore (operation : StoreAction α) : (onStore operation).SparesRegisters :=
  fun _ => rfl

theorem spares_violation (address : Word) (size : Nat) :
    (violation address size : Execution α).SparesRegisters :=
  fun _ => rfl

theorem spares_disallow (helper : Helper) : (disallow helper : Execution α).SparesRegisters :=
  fun _ => rfl

theorem spares_readBytes (address : Word) (size : Nat) :
    (readBytes address size).SparesRegisters := by
  intro machine
  rw [run_readBytes]
  cases machine.memory.read? address size <;> rfl

variable (setup : Setup)

theorem spares_mapOf (handle : Word) : (mapOf setup handle).SparesRegisters := by
  unfold mapOf
  split
  · exact spares_violation handle 0
  · split
    · exact spares_violation handle 0
    · refine spares_get.bind fun machine => ?_
      split
      · exact spares_violation handle 0
      · exact spares_pure _

/-- Finding the ring of a handle spares the registers. -/
theorem spares_ringOf (helper : Helper) (handle : Word) :
    (ringOf setup helper handle).SparesRegisters := by
  refine (spares_mapOf setup handle).bind fun ⟨id, map⟩ => ?_
  dsimp only
  split
  · exact spares_pure id
  · exact spares_disallow helper

theorem spares_callMapLookup : (callMapLookup setup).SparesRegisters := by
  refine (spares_read _).bind fun handle => (spares_mapOf setup handle).bind fun found => ?_
  refine (spares_read _).bind fun place => (spares_readBytes place _).bind fun key => ?_
  refine spares_get.bind fun machine => (spares_onStore _).bind fun answer => ?_
  split
  · refine spares_get.bind fun machine' => ?_
    split
    · exact (spares_setMemory _).bind fun _ => spares_pure _
    · exact spares_pure _
  · exact spares_pure _

theorem spares_callMapUpdate : (callMapUpdate setup).SparesRegisters := by
  refine (spares_read _).bind fun handle => (spares_mapOf setup handle).bind fun found => ?_
  refine (spares_read _).bind fun place => (spares_readBytes place _).bind fun key => ?_
  refine (spares_read _).bind fun place' => (spares_readBytes place' _).bind fun value => ?_
  refine (spares_read _).bind fun mode => ?_
  split
  · exact spares_pure _
  · exact spares_get.bind fun machine => (spares_onStore _).bind fun _ => spares_pure _

theorem spares_callMapDelete : (callMapDelete setup).SparesRegisters := by
  refine (spares_read _).bind fun handle => (spares_mapOf setup handle).bind fun found => ?_
  refine (spares_read _).bind fun place => (spares_readBytes place _).bind fun key => ?_
  exact (spares_onStore _).bind fun _ => spares_pure _

theorem spares_callRedirect : (callRedirect setup).SparesRegisters := by
  unfold callRedirect
  split
  · exact spares_disallow _
  · refine (spares_read _).bind fun flags => ?_
    split
    · exact spares_pure _
    · exact (spares_read _).bind fun target _ => rfl

theorem spares_callDigest : callDigest.SparesRegisters := by
  refine (spares_read _).bind fun address => (spares_read _).bind fun size => ?_
  dsimp only
  split
  · exact spares_violation _ _
  · exact (spares_readBytes _ _).bind fun _ => spares_pure _

theorem spares_callRingOutput : (callRingOutput setup).SparesRegisters := by
  refine (spares_read _).bind fun handle => (spares_ringOf setup _ handle).bind fun id => ?_
  refine (spares_read _).bind fun place => (spares_read _).bind fun size => ?_
  refine (spares_readBytes _ _).bind fun data => spares_get.bind fun machine => ?_
  exact (spares_setMemory _).bind fun _ => spares_pure _

theorem spares_callRingReserve : (callRingReserve setup).SparesRegisters := by
  refine (spares_read _).bind fun handle => (spares_ringOf setup _ handle).bind fun id => ?_
  refine (spares_read _).bind fun size => spares_get.bind fun machine => ?_
  dsimp only
  split <;> exact (spares_setMemory _).bind fun _ => spares_pure _

theorem spares_callRingComplete (isDiscarded : Bool) :
    (callRingComplete isDiscarded).SparesRegisters := by
  refine (spares_read _).bind fun address => spares_get.bind fun machine => ?_
  split
  · exact spares_violation _ _
  · exact (spares_setMemory _).bind fun _ => spares_pure _

/-- The result of a helper is handed over; it writes no register itself. -/
theorem spares_call (helper : Helper) : (call setup helper).SparesRegisters := by
  cases helper with
  | mapLookup => exact spares_callMapLookup setup
  | mapUpdate => exact spares_callMapUpdate setup
  | mapDelete => exact spares_callMapDelete setup
  | currentTime => exact spares_get.bind fun _ => spares_pure _
  | redirect => exact spares_callRedirect setup
  | digest => exact spares_callDigest
  | ringOutput => exact spares_callRingOutput setup
  | ringReserve => exact spares_callRingReserve setup
  | ringSubmit => exact spares_callRingComplete false
  | ringDiscard => exact spares_callRingComplete true
  | workerNumber => exact spares_get.bind fun _ => spares_pure _

end Execution

/-! ## Calls -/

section

variable {scene : Scene} {setup : Setup} {focus focus' : Focus} {valuation : Nat → Word}
variable {machine machine' : Machine} {twin : Bytes} {result : Word} {immediate : Int32}

/-- A stack may be compared with itself. -/
theorem AbstractState.Represents.itself
    {state : AbstractState}
    (represents : state.Represents scene valuation machine twin) :
    state.Represents scene valuation machine machine.memory.stack :=
  { represents with
    frame := { represents.frame with
      size := rfl
      written := fun _ _ _ _ => rfl } }

/-- What comes to the same with the stack that is there as with another, leaves the stack alone. -/
theorem Execution.Returns.stack
    {α : Type} {action : Execution α} {result : α}
    (returns : action.Returns machine machine.memory.stack result machine' machine.memory.stack) :
    machine'.memory.stack = machine.memory.stack := by
  have same := returns.here.symm.trans returns.there
  exact congrArg (fun ran : Except Fault α × Machine => ran.2.memory.stack) same

/-- After the call what is known describes the machine: the result, the registers that outlast the
call, the stack, and the references to open records. -/
structure Focus.Answered
    (focus : Focus) (scene : Scene) (valuation : Nat → Word) (before : Machine) (result : Word)
    (after : Machine) : Prop where
  registers : after.registers = before.registers
  stack : after.memory.stack = before.memory.stack
  result : (focus.state.reading scene valuation after.memory).Describes
    (focus.state.register .result) result
  kept : ∀ name : RegisterName, 6 ≤ name.val →
    (focus.state.reading scene valuation after.memory).Describes (focus.state.register name)
      (before.register name)
  frame : (focus.state.reading scene valuation after.memory).FrameHolds focus.state.stack
    before.memory.stack
  pairs : (focus.state.reading scene valuation after.memory).Pairs

/--
A call that passed its check, made by a machine that the state describes and
whose stack holds a frame, does not fail.  The new result, the registers from
the sixth on and the stack are described by what the check leaves, and so is
the whole machine for what follows; open records and references are paired as
before.  The identities of the state have been handed out before the call, and
those that it hands out are new.
-/
theorem helperCall_sound
    (maps : setup.maps = scene.maps) (attach : setup.attach = scene.setting.attach)
    (frame : scene.HoldsFrame) (within : focus.state.Within focus.lastIdentity)
    (represents : focus.state.Represents scene valuation machine machine.memory.stack)
    (passed : checkCall scene.setting focus immediate = .ok focus') :
    ∃ helper, Helper.ofImmediate? immediate = some helper ∧
      ∃ result machine' valuation',
        (Execution.call setup helper).run machine = (.ok result, machine') ∧
          focus'.Answered scene valuation' machine result machine' ∧
            focus'.state.Within focus'.lastIdentity ∧
              focus'.state.Represents scene valuation' (machine'.setRegister .result result)
                machine'.memory.stack := by
  rcases checkCall_sound represents (.inl frame) within maps attach passed with
    ⟨helper, named, ⟨_, missing⟩ | ⟨valuation', result, machine', returns, represents'⟩⟩
  · exact absurd frame missing
  have registers : machine'.registers = machine.registers := by
    have spares := Execution.spares_call setup helper machine
    rwa [returns.here] at spares
  have answer := represents'.registers .result
  rw [Machine.register_setRegister, if_pos rfl] at answer
  refine ⟨helper, named, result, machine', valuation', returns.here, ?_,
    (checkCall_grows within passed).within, represents'.itself⟩
  refine ⟨registers, returns.stack, answer, fun name later => ?_, represents'.frame,
    represents'.tracks.pairs represents'.sound.regions⟩
  have kept := represents'.registers name
  have other : RegisterName.result ≠ name := by
    rintro rfl
    exact absurd later (by decide)
  rwa [Machine.register_setRegister, if_neg other, Machine.register, registers] at kept

end

/-- A run of a program on a small packet, with one ring buffer. -/
def ringMemory : Memory where
  packet := #[1, 2, 3]
  scratch := Array.replicate ContextField.scratch.size 0
  metadata := {}
  stack := Array.replicate 512 0
  store := ringStore

/-- The program that submits a record, bound to one ring. -/
def ringSetup : Setup where
  code := recordProgram.code
  maps := [0]
  attach := .ingress
  clock := .still 0
  budget := 64

/-- A program that handles packets beside one ring, and the packet in memory. -/
def ringScene : Scene :=
  ⟨⟨.ingress, #[.ringBuffer 16 4]⟩, [0], ringMemory.packet, 512⟩

theorem ringMemory_sound : ringMemory.Sound ringScene where
  packetSize := rfl
  packetKept _ := rfl
  scratchSize := Array.size_replicate
  metadata := ⟨by decide, by decide, by decide⟩
  stackSize := Array.size_replicate
  store := ((Store.forWorkers_wellFormed 1).create "r" _).1
  maps index schema declared := by
    have only : index = 0 := Nat.lt_one_iff.mp (Array.getElem?_eq_some_iff.mp declared).1
    subst only
    cases declared
    have there : (ringStore.map? 0).any (fun map => map.schema == .ringBuffer 16 4) = true := by
      decide +kernel
    rcases Option.any_eq_true _ _ |>.mp there with ⟨map, found, same⟩
    exact ⟨0, map, rfl, found, beq_iff_eq.mp same⟩
  regions := by decide
  cells _ listed := by cases Array.not_mem_empty _ listed
  numbers _ listed := by cases Array.not_mem_empty _ listed
  records number record held := by cases held

/-- The record that has been reserved is submitted, and no reference is left. -/
theorem helperCall_sound_submit :
    ∃ run focus', (CheckedRun.start ringMemory).after? ringScene.setting ringSetup
        (List.replicate 7 0) = some run ∧
      run.focus.state.references = [1] ∧
      checkCall ringScene.setting run.focus 9 = .ok focus' ∧ focus'.state.references = [] ∧
      ∃ result machine' valuation,
        (Execution.call ringSetup .ringSubmit).run run.machine = (.ok result, machine') ∧
          focus'.Answered ringScene valuation run.machine result machine' := by
  have reaches : ((CheckedRun.start ringMemory).after? ringScene.setting ringSetup
      (List.replicate 7 0)).any (fun run =>
        run.focus.state.references == [1] &&
          (checkCall ringScene.setting run.focus 9).toOption.any (fun focus' =>
            focus'.state.references == [])) = true := by
    decide +kernel
  rcases Option.any_eq_true _ _ |>.mp reaches with ⟨run, reached, known⟩
  rw [Bool.and_eq_true, beq_iff_eq] at known
  rcases Option.any_eq_true _ _ |>.mp known.2 with ⟨focus', passed, released⟩
  have passed : checkCall ringScene.setting run.focus 9 = .ok focus' := by
    cases checked : checkCall ringScene.setting run.focus 9 with
    | error cause =>
        rw [checked] at passed
        cases passed
    | ok focus'' =>
        rw [checked] at passed
        cases passed
        rfl
  have frame : ringScene.HoldsFrame := show 512 ≤ 512 % 2 ^ 32 by decide
  have sound := (CheckedRun.start_sound ringMemory_sound fun _ => rfl).after (.inl frame) rfl rfl
    (List.replicate 7 0) (by decide +kernel) reached
  rcases sound.represents with ⟨valuation, twin, represents⟩
  rcases @helperCall_sound ringScene ringSetup run.focus focus' valuation run.machine 9 rfl rfl
      frame sound.within represents.itself passed with
    ⟨helper, named, result, machine', valuation', returns, answered, _⟩
  cases named
  exact ⟨run, focus', reached, known.1, passed, beq_iff_eq.mp released, result, machine',
    valuation', returns, answered⟩

end PacketFilter
