import PacketFilter.Proofs.Access
import PacketFilter.Proofs.FrameContents

/-!
# Changing a described machine

A state that describes a machine goes on doing so when a register is given a
value on both sides, when the memory proceeds, when the frame is written on
both sides, and when the state comes to say less.
-/

namespace PacketFilter

theorem RegisterFile.read_eq_getElem
    {α : Type} (file : RegisterFile α) (name : RegisterName) (inside : name.val < 11) :
    file.read name = file[name.val] :=
  rfl

theorem RegisterFile.read_fill {α : Type} (value : α) (name : RegisterName) :
    (RegisterFile.fill value).read name = value := by
  rw [read_eq_getElem _ name name.isLt, fill, Vector.getElem_replicate]

theorem RegisterFile.read_write
    {α : Type} (file : RegisterFile α) (name other : RegisterName) (value : α) :
    (file.write name value).read other = if name = other then value else file.read other := by
  have order : name.val = other.val ↔ name = other := Fin.ext_iff.symm
  simp only [read_eq_getElem _ other other.isLt, write, Vector.getElem_set, order]

theorem RegisterFile.read_map
    {α β : Type} (file : RegisterFile α) (name : RegisterName) (change : α → β) :
    RegisterFile.read (Vector.map change file) name = change (file.read name) := by
  simp only [read_eq_getElem _ name name.isLt, Vector.getElem_map]

namespace AbstractState

theorem register_setRegister
    (state : AbstractState) (name other : RegisterName) (value : AbstractValue) :
    (state.setRegister name value).register other =
      if name = other then value else state.register other :=
  RegisterFile.read_write state.registers name other value

theorem register_mapValues
    (state : AbstractState) (change : AbstractValue → AbstractValue) (name : RegisterName) :
    (state.mapValues change).register name = change (state.register name) :=
  RegisterFile.read_map state.registers name change

end AbstractState

theorem Machine.register_setRegister
    (machine : Machine) (name other : RegisterName) (word : Word) :
    (machine.setRegister name word).register other =
      if name = other then word else machine.register other :=
  RegisterFile.read_write machine.registers name other word

namespace StackFrame

theorem slotOf_mapSlots
    (frame : StackFrame) (change : StackSlot → StackSlot) {byte : Nat} (inside : byte < size) :
    slotOf ⟨frame.slots.map change⟩ byte = change (frame.slotOf byte) := by
  have short : byte / 8 < 64 := by
    unfold size at inside
    omega
  rw [slotOf, slotOf, Vector.getElem?_map, Vector.getElem?_eq_getElem short, Option.map_some,
    Option.getD_some, Option.getD_some]

theorem slotOf_mapSpills
    (frame : StackFrame) (change : AbstractValue → AbstractValue) {byte : Nat}
    (inside : byte < size) :
    (frame.mapSpills change).slotOf byte =
      { frame.slotOf byte with spill? := (frame.slotOf byte).spill?.map change } :=
  slotOf_mapSlots frame _ inside

theorem byteAt_mapSpills
    (frame : StackFrame) (change : AbstractValue → AbstractValue) {byte : Nat}
    (inside : byte < size) :
    (frame.mapSpills change).byteAt byte = frame.byteAt byte := by
  rw [byteAt, slotOf_mapSpills frame change inside, byteAt]

theorem slotOf_breakUpWhere
    (frame : StackFrame) (condition : AbstractValue → Bool) {byte : Nat} (inside : byte < size) :
    (frame.breakUpWhere condition).slotOf byte =
      if (frame.slotOf byte).spill?.any condition then (frame.slotOf byte).breakUp
      else frame.slotOf byte :=
  slotOf_mapSlots frame _ inside

theorem byteAt_breakUpWhere
    (frame : StackFrame) (condition : AbstractValue → Bool) {byte : Nat} (inside : byte < size) :
    (frame.breakUpWhere condition).byteAt byte = frame.byteAt byte ∨
      frame.byteAt byte = .spilled ∧ (frame.breakUpWhere condition).byteAt byte = .data := by
  rw [byteAt, slotOf_breakUpWhere frame condition inside, byteAt]
  split
  case isTrue =>
    rcases (frame.slotOf byte).breakUp_bytes (byte % 8) with same | ⟨spilled, data⟩
    · exact .inl (by rw [same])
    · exact .inr ⟨by rw [spilled, Option.getD_some], by rw [data, Option.getD_some]⟩
  case isFalse => exact .inl rfl

end StackFrame

namespace Interpretation

/-- A frame of which less is tracked. -/
theorem FrameHolds.weaken
    {before after : Interpretation} {frame frame' : StackFrame} {twin : Bytes}
    (holds : before.FrameHolds frame twin) (scene : after.scene = before.scene)
    (stack : after.memory.stack = before.memory.stack)
    (bytes : ∀ byte < StackFrame.size, frame'.byteAt byte = frame.byteAt byte ∨
      frame.byteAt byte = .spilled ∧ frame'.byteAt byte = .data)
    (spills : ∀ byte < StackFrame.size, ∀ value' : AbstractValue,
      (frame'.slotOf byte).spill? = some value' →
        ∃ value, (frame.slotOf byte).spill? = some value ∧
          ∀ word : Word, before.Describes value word → after.Describes value' word) :
    after.FrameHolds frame' twin := by
  constructor
  case size => rw [holds.size, stack]
  case written =>
    intro byte small covers known
    rw [scene] at covers ⊢
    rw [stack]
    apply holds.written byte small covers
    rcases bytes byte small with same | ⟨spilled, _⟩
    · rwa [← same]
    · rw [spilled]
      decide
  case zeros =>
    intro byte small covers zero
    rw [scene] at covers ⊢
    rw [stack]
    apply holds.zeros byte small covers
    rcases bytes byte small with same | ⟨_, data⟩
    · rwa [← same]
    · rw [data] at zero
      cases zero
  case spills =>
    intro first value' stop aligned covers spilled
    rw [scene] at covers ⊢
    rcases spills first (by omega) value' spilled with ⟨value, held, describes⟩
    rw [stack]
    exact describes _ (holds.spills first value stop aligned covers held)
  case whole =>
    intro byte small spilled
    rcases Option.ne_none_iff_exists'.mp spilled with ⟨value', spilled'⟩
    rcases spills byte small value' spilled' with ⟨value, held, _⟩
    have known := holds.whole byte small (by rw [held]; exact Option.some_ne_none value)
    rcases bytes byte small with same | ⟨_, data⟩
    · rwa [same]
    · rw [data]
      decide

end Interpretation

namespace AbstractState.Represents

variable {state state' : AbstractState} {scene : Scene} {valuation valuation' : Nat → Word}
variable {machine : Machine} {twin : Bytes} {memory' : Memory}

/-- A state that says less, of a machine whose stack is the same. -/
theorem weaken
    (represents : state.Represents scene valuation machine twin)
    (sound : memory'.Sound scene) (stack : memory'.stack = machine.memory.stack)
    (zero : valuation' 0 = 0)
    (registers : ∀ (name : RegisterName) (word : Word),
      (state.reading scene valuation machine.memory).Describes (state.register name) word →
        (state'.reading scene valuation' memory').Describes (state'.register name) word)
    (bytes : ∀ byte < StackFrame.size, state'.stack.byteAt byte = state.stack.byteAt byte ∨
      state.stack.byteAt byte = .spilled ∧ state'.stack.byteAt byte = .data)
    (spills : ∀ byte < StackFrame.size, ∀ value' : AbstractValue,
      (state'.stack.slotOf byte).spill? = some value' →
        ∃ value, (state.stack.slotOf byte).spill? = some value ∧
          ∀ word : Word, (state.reading scene valuation machine.memory).Describes value word →
            (state'.reading scene valuation' memory').Describes value' word)
    (tracks : (state'.reading scene valuation' memory').Tracks) :
    state'.Represents scene valuation' { machine with memory := memory' } twin where
  sound := sound
  zero := zero
  registers name := registers name _ (represents.registers name)
  frame := represents.frame.weaken rfl stack bytes spills
  tracks := tracks

/-- Where the machine stands does not matter. -/
theorem moved
    (represents : state.Represents scene valuation machine twin) {machine' : Machine}
    (registers : machine'.registers = machine.registers)
    (memory : machine'.memory = machine.memory) :
    state.Represents scene valuation machine' twin := by
  constructor
  · rw [memory]
    exact represents.sound
  · exact represents.zero
  · intro name
    rw [memory, Machine.register, registers]
    exact represents.registers name
  · rw [memory]
    exact represents.frame
  · rw [memory]
    exact represents.tracks

/-- A register is given a value. -/
theorem setRegister
    (represents : state.Represents scene valuation machine twin)
    {value : AbstractValue} {word : Word} (name : RegisterName)
    (describes : (state.reading scene valuation machine.memory).Describes value word) :
    (state.setRegister name value).Represents scene valuation (machine.setRegister name word)
      twin := by
  refine ⟨represents.sound, represents.zero, fun other => ?_, represents.frame, represents.tracks⟩
  rw [register_setRegister, Machine.register_setRegister]
  split
  case isTrue => exact describes
  case isFalse => exact represents.registers other

/-- More becomes known of the word in a register. -/
theorem refineRegister
    (represents : state.Represents scene valuation machine twin)
    {value : AbstractValue} (name : RegisterName)
    (describes : (state.reading scene valuation machine.memory).Describes value
      (machine.register name)) :
    (state.setRegister name value).Represents scene valuation machine twin := by
  refine ⟨represents.sound, represents.zero, fun other => ?_, represents.frame, represents.tracks⟩
  rw [register_setRegister]
  split
  case isTrue same =>
    subst same
    exact describes
  case isFalse => exact represents.registers other

end AbstractState.Represents

/-- What a reference opens later it opened before, if all that was open still is. -/
theorem Interpretation.Tracks.opens_before
    {before : Interpretation} {memory : Memory} {reference number : Nat}
    (tracks : before.Tracks)
    (bound : RegionAddress.firstDynamic + memory.regions.size ≤ RegionAddress.mapHandle)
    (opens : ∀ {word : Word} {number : Nat}, before.memory.Opens word number →
      memory.Opens word number)
    (held : reference ∈ before.references)
    (there : memory.Opens (before.valuation reference) number) :
    before.memory.Opens (before.valuation reference) number := by
  rcases tracks.opened reference held (there.1.ne_zero bound) with ⟨number', there'⟩
  have same := (opens there').1.unique there.1 bound
  cases same
  exact there'

/-- The references are read alike in a memory with the same records. -/
theorem Interpretation.Tracks.follow
    {before after : Interpretation}
    (tracks : before.Tracks) (follows : before.memory.Follows after.memory)
    (bound : RegionAddress.firstDynamic + after.memory.regions.size ≤ RegionAddress.mapHandle)
    (records : after.memory.records = before.memory.records)
    (references : after.references = before.references)
    (valuation : ∀ reference ∈ before.references,
      after.valuation reference = before.valuation reference) :
    after.Tracks := by
  have lookup (number : Nat) : after.memory.record? number = before.memory.record? number := by
    rw [Memory.record?, records, Memory.record?]
  have opens {word : Word} {number : Nat} (opens : before.memory.Opens word number) :
      after.memory.Opens word number :=
    ⟨follows.pointsTo opens.1, by rw [lookup]; exact opens.2⟩
  constructor
  case nodup =>
    rw [references]
    exact tracks.nodup
  case opened =>
    intro reference held nonNull
    rw [references] at held
    rw [valuation reference held] at nonNull ⊢
    rcases tracks.opened reference held nonNull with ⟨number, there⟩
    exact ⟨number, opens there⟩
  case known =>
    intro number isOpen
    rw [lookup] at isOpen
    rcases tracks.known number isOpen with ⟨reference, held, there⟩
    refine ⟨reference, by rwa [references], ?_⟩
    rw [valuation reference held]
    exact opens there
  case distinct =>
    intro first held second held' number there there'
    rw [references] at held held'
    rw [valuation first held] at there
    rw [valuation second held'] at there'
    exact tracks.distinct first held second held' number
      (tracks.opens_before bound opens held there) (tracks.opens_before bound opens held' there')

namespace AbstractState.Represents

variable {state : AbstractState} {scene : Scene} {valuation : Nat → Word}
variable {machine : Machine} {twin : Bytes} {memory' : Memory}

/-- What an abstract value says lasts when the memory proceeds. -/
theorem describes_proceeds
    {before after : Memory} {value : AbstractValue} {word : Word}
    (proceeds : Memory.Proceeds scene before after)
    (describes : (state.reading scene valuation before).Describes value word) :
    (state.reading scene valuation after).Describes value word := by
  apply Interpretation.Keeps.describes _ describes
  refine ⟨rfl, proceeds.follows, rfl, ?_⟩
  intro _ held number record _ opened
  refine ⟨held, ?_⟩
  simp only [reading, Memory.record?, proceeds.records]
  exact opened

/-- A state goes on describing a machine whose memory proceeds. -/
theorem proceed
    (represents : state.Represents scene valuation machine twin)
    (proceeds : Memory.Proceeds scene machine.memory memory') :
    state.Represents scene valuation { machine with memory := memory' } twin :=
  represents.weaken proceeds.sound proceeds.stack represents.zero
    (fun _ _ describes => describes_proceeds proceeds describes) (fun _ _ => .inl rfl)
    (fun _ _ value held => ⟨value, held, fun _ describes => describes_proceeds proceeds describes⟩)
    (represents.tracks.follow proceeds.follows proceeds.sound.regions proceeds.records rfl
      fun _ _ => rfl)

end AbstractState.Represents

end PacketFilter
