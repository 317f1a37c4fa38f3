import PacketFilter.Proofs.Running

/-!
# Entering a program

The state at entry describes the machine at the start of every run, whatever
has been left on its stack, since nothing in the frame counts as written.  A
run therefore begins at a place that the walk has visited.
-/

namespace PacketFilter

/-- The maps that the program binds are in the store, as they were found. -/
structure Store.Provides (store : Store) (find? : String → Option (MapId × Schema))
    (program : Program) : Prop where
  wellFormed : store.WellFormed
  bound : ∀ binding ∈ program.bindings, ∀ (id : MapId) (schema : Schema),
    find? binding.name = some (id, schema) → ∃ map, store.map? id = some map ∧ map.schema = schema

/-- The scratch area has its size and the numbers fit their fields. -/
structure PacketContext.Fits (context : PacketContext) : Prop where
  scratch : context.scratch.size = ContextField.scratch.size
  metadata : context.metadata.Fits

namespace Store

variable {store store' : Store} {find? : String → Option (MapId × Schema)} {program : Program}

/-- A store provides the maps that are found in it. -/
theorem WellFormed.provides (wellFormed : store.WellFormed) (program : Program) :
    store.Provides store.binding? program := by
  refine ⟨wellFormed, fun binding _ id schema found => ?_⟩
  rcases Option.bind_eq_some_iff.mp found with ⟨id', _, found⟩
  rcases Option.bind_eq_some_iff.mp found with ⟨map, there, made⟩
  cases made
  exact ⟨map, there, rfl⟩

/-- It goes on providing them, whatever is done to its maps. -/
theorem Provides.kept (provides : store.Provides find? program) (kept : store.Kept store') :
    store'.Provides find? program := by
  refine ⟨kept.1, fun binding listed id schema found => ?_⟩
  rcases provides.bound binding listed id schema found with ⟨map, there, rfl⟩
  rcases kept.2 id map there with ⟨map', there', kept'⟩
  exact ⟨map', there', kept'.schema⟩

end Store

theorem WorkArea.reset_size (area : WorkArea) (size frame : Nat) :
    (area.reset size frame).stack.size = size := by
  unfold reset
  split
  case isTrue => exact Array.size_replicate
  case isFalse same => exact (Bytes.overwrite_size ..).trans (Decidable.not_not.mp same)

namespace AbstractState

/-- What is known at entry of each register. -/
theorem register_entry (name : RegisterName) :
    entry.register name =
      if .frame = name then .stack 0
      else if .context = name then .context
      else .uninitialized := by
  rw [register, entry, RegisterFile.read_write, RegisterFile.read_write,
    RegisterFile.read_fill]

/-- What a machine starts with in each register. -/
theorem register_start (memory : Memory) (name : RegisterName) :
    (Machine.start memory).register name =
      if .frame = name then memory.framePointer
      else if .context = name then Memory.contextPointer
      else 0 := by
  rw [Machine.start, Machine.register_setRegister, Machine.register_setRegister, Machine.register,
    RegisterFile.read_fill]

/-- At entry nothing is known of the stack, so every other stack will do. -/
theorem entry_represents
    {scene : Scene} {memory : Memory} {twin : Bytes}
    (sound : memory.Sound scene) (size : twin.size = memory.stack.size)
    (closed : ∀ number, memory.record? number = none) :
    entry.Represents scene (fun _ => 0) (Machine.start memory) twin where
  sound := sound
  zero := rfl
  registers name := by
    rw [register_entry, register_start]
    split
    · exact ⟨(BitVec.add_zero _).symm, fun absurdity => Bool.noConfusion absurdity,
        show (0 : Int).natAbs < pointerOffsetLimit by decide⟩
    · split
      · exact ⟨(BitVec.add_zero _).symm, fun absurdity => Bool.noConfusion absurdity,
          show (0 : Int).natAbs < pointerOffsetLimit by decide⟩
      · exact Interpretation.describes_uninitialized _ _
  frame := by
    have unwritten (byte : Nat) : entry.stack.byteAt byte = .unwritten :=
      StackFrame.byteAt_fresh byte
    have empty (byte : Nat) : (entry.stack.slotOf byte).spill? = none := by
      rw [show entry.stack.slotOf byte = default from StackFrame.slotOf_fresh byte]
      rfl
    refine ⟨size, fun byte _ _ written => ?_, fun byte _ _ zero => ?_,
      fun first value _ _ _ spilled => ?_, fun byte _ spilled => ?_⟩
    · exact absurd (unwritten byte) written
    · rw [unwritten byte] at zero
      cases zero
    · rw [empty first] at spilled
      cases spilled
    · exact absurd (empty byte) spilled
  tracks := by
    refine ⟨List.nodup_nil, ?_, fun number isOpen => ?_, ?_⟩
    · exact fun _ held => by cases held
    · have absent : memory.record? number = none := closed number
      rw [show (entry.reading scene (fun _ => 0) (Machine.start memory).memory).memory = memory
        from rfl, absent] at isOpen
      cases isOpen
    · exact fun _ held => by cases held

end AbstractState

/-! ## The start of a run -/

/-- The start does not look into the stack. -/
theorem Machine.start_withStack
    {memory : Memory} {stack : Bytes}
    (size : stack.size = memory.stack.size) :
    start (memory.withStack stack) = (start memory).withStack stack := by
  have same : (memory.withStack stack).framePointer = memory.framePointer :=
    congrArg (RegionAddress.make RegionAddress.stack) size
  rw [start, same]
  rfl

/-- What stays the same during a run of the program on the packet. -/
def Engine.scene (engine : Engine) (setting : Setting) (program : VerifiedProgram)
    (context : PacketContext) : Scene :=
  ⟨setting, program.maps, context.packet, engine.stackSize⟩

/-- The machine at the start of a run. -/
def Engine.machine (engine : Engine) (program : VerifiedProgram) (context : PacketContext)
    (area : WorkArea) (store : Store) : Machine :=
  .start (memory context (area.reset engine.stackSize program.statistics.stackDepth) store)

section

variable {config : VerifierConfig} {find? : String → Option (MapId × Schema)}
variable {verified : VerifiedProgram} {journey : Journey} {trail : List Walk}
variable {engine : Engine} {context : PacketContext} {store : Store}

/-- The memory of a run fits what the program was checked against. -/
theorem Engine.memory_sound
    (establishes : Verifier.Establishes config find? verified journey trail)
    (provides : store.Provides find? verified.program) (fits : context.Fits) (area : WorkArea)
    (size : area.stack.size = engine.stackSize) :
    (memory context area store).Sound (engine.scene journey.setting verified context) where
  packetSize := rfl
  packetKept _ := rfl
  scratchSize := fits.scratch
  metadata := fits.metadata
  stackSize := size
  store := provides.wellFormed
  maps index schema declared := by
    rcases establishes.binds index schema declared with ⟨binding, listed, id, named, found⟩
    rcases provides.bound binding listed id schema found with ⟨map, there, same⟩
    exact ⟨id, map, named, there, same⟩
  regions := by
    show RegionAddress.firstDynamic + 0 ≤ RegionAddress.mapHandle
    decide
  cells _ listed := by cases Array.not_mem_empty _ listed
  numbers _ listed := by cases Array.not_mem_empty _ listed
  records number record held := by cases held

/-- The trail of the check guides the run from its start. -/
theorem Engine.guides
    (establishes : Verifier.Establishes config find? verified journey trail) (clock : Clock)
    (roomy : (engine.scene journey.setting verified context).Roomy)
    (whole : ∀ check ∈ Verifier.checks config find? verified.program,
      check.1.testsHalf check.2 = false) :
    journey.Guides trail (engine.scene journey.setting verified context)
      (engine.setup clock verified) where
  explores := establishes.explores
  setting := rfl
  maps := rfl
  code := establishes.code.symm
  attach := establishes.attach.symm
  roomy := roomy
  whole := by
    rw [Verifier.checks, establishes.survey] at whole
    exact whole

/-- A run begins at a place that was visited, whatever another worker has left on its stack. -/
theorem Engine.stands
    (establishes : Verifier.Establishes config find? verified journey trail)
    (provides : store.Provides find? verified.program) (fits : context.Fits)
    (area area' : WorkArea) :
    ∃ (walk : Walk) (twin : Bytes),
      engine.machine verified context area' store =
        (engine.machine verified context area store).withStack twin ∧
      walk.Stands journey trail (engine.scene journey.setting verified context)
        (engine.machine verified context area store) twin := by
  let depth := verified.statistics.stackDepth
  have size := area.reset_size engine.stackSize depth
  have size' := area'.reset_size engine.stackSize depth
  rcases establishes.starts with ⟨first, listed, place⟩
  rcases Prod.mk.inj place with ⟨position, state⟩
  have represents := AbstractState.entry_represents
    (Engine.memory_sound establishes provides fits _ size) (size'.trans size.symm)
    (fun number => rfl)
  rw [← state] at represents
  rcases establishes.explores.stands listed position represents with ⟨walk, stands, _⟩
  refine ⟨walk, (area'.reset engine.stackSize depth).stack, ?_, stands⟩
  exact @Machine.start_withStack (memory context (area.reset engine.stackSize depth) store) _
    (size'.trans size.symm)

end

end PacketFilter
