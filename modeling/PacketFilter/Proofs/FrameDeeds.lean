import PacketFilter.Proofs.Records
import PacketFilter.Proofs.Updating

/-!
# Deeds on the frame

What instructions do below the frame register, in any order and at any places:
registers and immediates are stored, bytes are loaded and updated, and when a
record is given up the pointers to it are forgotten.  Each of these is done to
the tracked frame by the checks and to the stack by the machine.

The tracked frame describes a stack when every byte that it takes for zero is
zero and every slot that it takes for a register has the bytes of a word which
the register describes.  One deed that passed its check is carried out and
leaves the stack described, with an answer as the check expects it.  What a
whole series of deeds leaves behind follows by induction on the series, and
with it that no byte can be read which no deed has written.
-/

namespace PacketFilter

/-! ## Tracked frames -/

namespace StackFrame

variable {frame before middle after : StackFrame} {marked marked' : Nat → Prop}
variable {offset : Int} {first length : Nat} {value : AbstractValue}

/-- In a slot that holds a register, every byte belongs to it. -/
def Whole (frame : StackFrame) : Prop :=
  ∀ byte < size, (frame.slotOf byte).spill? ≠ none → frame.byteAt byte = .spilled

theorem fresh_whole : fresh.Whole := by
  intro byte _ spilled
  rw [slotOf_fresh] at spilled
  exact absurd rfl spilled

/-- The touched bytes have been written, and no others; registers are still whole. -/
structure Touched (before after : StackFrame) (touched : Nat → Prop) : Prop where
  whole : before.Whole → after.Whole
  unwritten : ∀ byte < size,
    (after.byteAt byte = .unwritten ↔ before.byteAt byte = .unwritten ∧ ¬ touched byte)

theorem touched_refl (frame : StackFrame) : frame.Touched frame fun _ => False :=
  ⟨id, fun _ _ => by rw [not_false_eq_true, and_true]⟩

/-- Frames touched one after another are touched at the bytes of both. -/
theorem Touched.trans
    (first : before.Touched middle marked) (second : middle.Touched after marked') :
    before.Touched after fun byte => marked byte ∨ marked' byte where
  whole := second.whole ∘ first.whole
  unwritten byte small := by
    rw [second.unwritten byte small, first.unwritten byte small, and_assoc, not_or]

theorem Touched.congr
    (touched : before.Touched after marked) (same : ∀ byte, marked' byte ↔ marked byte) :
    before.Touched after marked' :=
  ⟨touched.whole, fun byte small => by rw [touched.unwritten byte small, same]⟩

/-- A spill touches the eight bytes it marks. -/
theorem touched_spill
    (frame : StackFrame) (value : AbstractValue) (stop : first + 8 ≤ size)
    (aligned : first % 8 = 0) :
    frame.Touched (frame.spill first value) fun byte => first ≤ byte ∧ byte < first + 8 := by
  have start : first < size := by omega
  have bytes := frame.byteAt_spill value start
  have slots := frame.slotOf_spill value start
  constructor
  · intro whole byte small spilled
    rw [slots] at spilled
    rw [bytes]
    split
    case isTrue => rfl
    case isFalse other =>
      rw [if_neg other] at spilled
      exact whole byte small spilled
  · intro byte small
    rw [bytes]
    have slot : byte / 8 = first / 8 ↔ first ≤ byte ∧ byte < first + 8 := by omega
    rw [← slot]
    split
    case isTrue same => simp [same]
    case isFalse other => simp [other]

theorem Filled.touched
    {content : StackByte}
    (filled : before.Filled after marked content) (plain : content ≠ .unwritten) :
    before.Touched after marked := by
  constructor
  · intro whole byte small spilled
    rcases filled.spills byte small with none | ⟨kept, _⟩
    · exact absurd none spilled
    · rw [kept] at spilled
      rw [byteAt, kept]
      exact whole byte small spilled
  · intro byte small
    by_cases inside : marked byte
    · rw [filled.inside byte small inside]
      exact iff_of_false plain fun absurdity => absurdity.2 inside
    · rcases filled.outside byte small inside with kept | ⟨spilled, data⟩
      · rw [kept, and_iff_left inside]
      · rw [spilled, data]
        simp

theorem touched_breakUpWhere
    (frame : StackFrame) (condition : AbstractValue → Bool) :
    frame.Touched (frame.breakUpWhere condition) fun _ => False := by
  constructor
  · intro whole byte small spilled
    have slot := frame.slotOf_breakUpWhere condition small
    split at slot
    case isTrue =>
      rw [slot] at spilled
      exact absurd (StackSlot.breakUp_spill _) spilled
    case isFalse =>
      rw [slot] at spilled
      rw [byteAt, slot]
      exact whole byte small spilled
  · intro byte small
    rcases frame.byteAt_breakUpWhere condition small with same | ⟨spilled, data⟩
    · rw [same, not_false_eq_true, and_true]
    · rw [spilled, data]
      simp

/-- A byte that can be read has been written and belongs to no pointer. -/
theorem Whole.readable
    {byte : Nat}
    (whole : frame.Whole) (small : byte < size) (fine : frame.loadProblem? offset byte = none) :
    frame.byteAt byte ≠ .unwritten ∧ (frame.slotOf byte).holdsPointer = false := by
  refine ⟨Interpretation.written_of_loadProblem fine, ?_⟩
  rw [← Bool.not_eq_true]
  intro pointer
  have spilled : (frame.slotOf byte).spill? ≠ none := by
    intro none
    rw [StackSlot.holdsPointer, none] at pointer
    cases pointer
  rw [loadProblem?, whole byte small spilled, if_pos pointer] at fine
  cases fine

/-- The bytes of a load have been written, and only a load of its whole slot touches a pointer. -/
theorem Whole.read
    (whole : frame.Whole) (found : frame.read offset length = .ok value)
    (short : length < 2 ^ 62) :
    ∃ first, Inside offset length first ∧
      ∀ byte, first ≤ byte → byte < first + length →
        frame.byteAt byte ≠ .unwritten ∧
          ((frame.slotOf byte).holdsPointer = true → length = 8 ∧ first % 8 = 0) := by
  rcases read_eq_ok found short with ⟨first, inside, reads⟩
  have stop := inside.stop
  have plain
      (fine : ∀ byte, first ≤ byte → byte < first + length →
        frame.loadProblem? offset byte = none)
      (byte : Nat) (above : first ≤ byte) (below : byte < first + length) :
      frame.byteAt byte ≠ .unwritten ∧
        ((frame.slotOf byte).holdsPointer = true → length = 8 ∧ first % 8 = 0) := by
    rcases whole.readable (by omega) (fine byte above below) with ⟨written, free⟩
    refine ⟨written, fun pointer => ?_⟩
    rw [free] at pointer
    cases pointer
  refine ⟨first, inside, ?_⟩
  cases reads with
  | spilled eight aligned spilled =>
      intro byte above below
      have slot := frame.slotOf_congr (show byte / 8 = first / 8 by omega)
      refine ⟨?_, fun _ => ⟨eight, aligned⟩⟩
      rw [whole byte (by omega) (by rw [slot, spilled]; exact Option.some_ne_none value)]
      decide
  | zeros fine _ => exact plain fine
  | data fine => exact plain fine

/-- The bytes that a helper may read have been written and belong to no pointer. -/
theorem Whole.checkReadable
    (whole : frame.Whole) (fine : frame.checkReadable offset length = .ok ())
    (short : length < 2 ^ 62) :
    ∃ first, Inside offset length first ∧
      ∀ byte, first ≤ byte → byte < first + length →
        frame.byteAt byte ≠ .unwritten ∧ (frame.slotOf byte).holdsPointer = false := by
  rcases checkReadable_eq_ok fine short with ⟨first, inside, fine⟩
  have stop := inside.stop
  exact ⟨first, inside, fun byte above below =>
    whole.readable (by omega) (fine byte above below)⟩

/-- The stack, which is as large as the frame, is what the frame says. -/
structure DescribesStack (frame : StackFrame) (reading : Interpretation) : Prop where
  full : reading.memory.stack.size = size
  zeros : ∀ byte < size, frame.byteAt byte = .zero → reading.memory.stack[byte]? = some 0
  spills : ∀ first value, first + 8 ≤ size → first % 8 = 0 →
    (frame.slotOf first).spill? = some value →
      ∃ word, reading.memory.stack.Holds first (word.toBytes 8) ∧ reading.Describes value word

/-- Where nothing has been written, nothing is said. -/
theorem fresh_describesStack
    {reading : Interpretation}
    (full : reading.memory.stack.size = size) :
    fresh.DescribesStack reading where
  full := full
  zeros byte small zero := by
    have unwritten := byteAt_fresh byte
    rw [zero] at unwritten
    cases unwritten
  spills first value _ _ spilled := by
    rw [slotOf_fresh] at spilled
    cases spilled

end StackFrame

/-! ## The stack of a machine -/

namespace Memory

variable {memory : Memory} {offset : Int} {length first : Nat}

/-- The address at an offset from the frame register. -/
def frameAddress (memory : Memory) (offset : Int) : Word :=
  memory.framePointer + BitVec.ofInt 64 offset

/-- An address inside the frame names its place on the stack. -/
theorem names_frameAddress
    (full : memory.stack.size = StackFrame.size) (inside : StackFrame.Inside offset length first) :
    RegionAddress.Names (memory.frameAddress offset) RegionAddress.stack first := by
  have start := inside.start
  have moved := inside.offset
  have whole : StackFrame.size = 512 := rfl
  rw [frameAddress, framePointer, full,
    RegionAddress.make_add (by decide) (by decide) (show first < 2 ^ 32 by omega) (by omega)]
  exact RegionAddress.names_make (by decide) (by omega)

section

variable (full : memory.stack.size = StackFrame.size)
variable (inside : StackFrame.Inside offset length first)
include full inside

theorem room_of_inside : first + length ≤ memory.stack.size := by
  rw [full]
  exact inside.stop

/-- A load inside the frame answers the bytes that are there. -/
theorem load?_frameAddress :
    memory.load? (memory.frameAddress offset) length =
      some (Word.ofBytes (memory.stack.slice first length)) := by
  rw [load?_stack (names_frameAddress full inside),
    Bytes.read?_of_inside (room_of_inside full inside), Option.map_some]

/-- A store inside the frame overwrites the bytes that are there. -/
theorem store?_frameAddress (word : Word) :
    memory.store? (memory.frameAddress offset) length word =
      some (memory.withStack (memory.stack.overwrite first (layOut word length))) := by
  rw [store?_stack word (names_frameAddress full inside), putWord?,
    if_pos (Bytes.covers_iff.mpr (room_of_inside full inside)), Option.map_some]
  rfl

/-- An atomic operation inside the frame answers the old bytes and overwrites them. -/
theorem update?_frameAddress (change : Word → Word) :
    memory.update? (memory.frameAddress offset) length change =
      some (Word.ofBytes (memory.stack.slice first length),
        memory.withStack (memory.stack.overwrite first
          (layOut (change (Word.ofBytes (memory.stack.slice first length))) length))) := by
  have room := room_of_inside full inside
  rw [update?_stack change (names_frameAddress full inside), Bytes.read?_of_inside room,
    Option.bind_some, putWord?, if_pos (Bytes.covers_iff.mpr room), Option.map_some]
  rfl

end

end Memory

namespace Interpretation

variable {reading : Interpretation} {frame after : StackFrame} {twin : Bytes}
variable {offset : Int} {length first : Nat} {data : List UInt8}

/-- A tracked frame and the stack of its own size that it describes. -/
structure Stands (reading : Interpretation) (frame : StackFrame) : Prop where
  sized : reading.scene.stackSize = StackFrame.size
  whole : frame.Whole
  described : frame.DescribesStack reading

theorem position_of_sized
    (sized : reading.scene.stackSize = StackFrame.size) (byte : Nat) :
    reading.scene.Covers byte ∧ reading.scene.position byte = byte := by
  have whole : reading.scene.frameEnd = StackFrame.size := by
    rw [Scene.frameEnd, sized]
    rfl
  rw [Scene.Covers, Scene.position, whole]
  omega

theorem Stands.holds (stands : reading.Stands frame) :
    reading.FrameHolds frame reading.memory.stack where
  size := rfl
  written _ _ _ _ := rfl
  zeros byte small _ zero := by
    rw [(position_of_sized stands.sized byte).2]
    exact stands.described.zeros byte small zero
  spills start value stop aligned _ spilled := by
    rw [(position_of_sized stands.sized start).2]
    rcases stands.described.spills start value stop aligned spilled with ⟨word, there, describes⟩
    have same := (Bytes.holds_iff.mp there).2
    rw [← Memory.layOut_eq_toBytes (Nat.le_refl 8), Memory.layOut_length] at same
    rwa [same, Memory.ofBytes_layOut]
  whole byte small spilled := by
    rw [stands.whole byte small spilled]
    decide

theorem FrameHolds.describesStack
    (holds : reading.FrameHolds frame twin) (sized : reading.scene.stackSize = StackFrame.size)
    (full : reading.memory.stack.size = StackFrame.size) :
    frame.DescribesStack reading where
  full := full
  zeros byte small zero := by
    rcases position_of_sized sized byte with ⟨covered, place⟩
    have there := holds.zeros byte small covered zero
    rwa [place] at there
  spills start value stop aligned spilled := by
    rcases position_of_sized sized start with ⟨covered, place⟩
    have described := holds.spills start value stop aligned covered spilled
    rw [place] at described
    refine ⟨_, ?_, described⟩
    have room : start + 8 ≤ reading.memory.stack.size := by rwa [full]
    have length := Bytes.slice_length room
    have laidOut := @Memory.layOut_ofBytes (reading.memory.stack.slice start 8)
      (Nat.le_of_eq length)
    rw [length] at laidOut
    rw [← Memory.layOut_eq_toBytes (Nat.le_refl 8), laidOut]
    exact Bytes.holds_slice room

theorem Stands.overwrites
    (stands : reading.Stands frame) (data : List UInt8)
    (stop : first + data.length ≤ StackFrame.size) :
    reading.Overwrites (reading.withStack (reading.memory.stack.overwrite first data)) first
      data := by
  rcases position_of_sized stands.sized first with ⟨covered, place⟩
  refine ⟨rfl, covered, ?_, by rw [place]; rfl, fun _ _ describes => ?_⟩
  · rw [place, stands.described.full]
    exact stop
  · exact describes_withStack (Bytes.overwrite_size _ _ _) describes

/-- The stack once bytes of it have been written. -/
theorem Stands.written
    (stands : reading.Stands frame) (sound : frame.Whole → after.Whole)
    (holds : (reading.withStack (reading.memory.stack.overwrite first data)).FrameHolds after
      twin) :
    (reading.withStack (reading.memory.stack.overwrite first data)).Stands after :=
  ⟨stands.sized, sound stands.whole,
    holds.describesStack stands.sized ((Bytes.overwrite_size _ _ _).trans stands.described.full)⟩

/-- A value that is stored in the frame and on the stack. -/
theorem Stands.store
    {value : AbstractValue} {stored word : Word}
    (stands : reading.Stands frame) (short : length < 2 ^ 62)
    (written : frame.write offset length value = .ok after)
    (describes : reading.Describes value stored)
    (same : Memory.layOut stored length = Memory.layOut word length) :
    ∃ first, StackFrame.Inside offset length first ∧
      (reading.withStack
        (reading.memory.stack.overwrite first (Memory.layOut word length))).Stands after ∧
        frame.Touched after fun byte => first ≤ byte ∧ byte < first + length := by
  rcases StackFrame.write_eq_ok written short with ⟨first, inside, changed⟩
  have sized := Memory.layOut_length word length
  have overwrites := stands.overwrites (Memory.layOut word length)
    (by rw [sized]; exact inside.stop)
  refine ⟨first, inside, ?_⟩
  rcases changed with ⟨rfl, aligned, rfl⟩ | ⟨content, plain, zero, filled⟩
  · have touched := frame.touched_spill value inside.stop aligned
    rw [← same] at overwrites ⊢
    exact ⟨stands.written touched.whole (stands.holds.spill overwrites inside.stop aligned
      (overwrites.describes value stored describes)), touched⟩
  · have touched := filled.touched plain
    refine ⟨stands.written touched.whole
      (stands.holds.fill overwrites (by rw [sized]; exact filled) ?_), touched⟩
    intro isZero
    rw [← same, describes.eq_constant (zero isZero)]
    exact Memory.layOut_zero

/-- Bytes of which nothing is known, in the frame and on the stack. -/
theorem Stands.storeData
    (word : Word) (stands : reading.Stands frame) (short : length < 2 ^ 62)
    (written : frame.writeData offset length = .ok after) :
    ∃ first, StackFrame.Inside offset length first ∧
      (reading.withStack
        (reading.memory.stack.overwrite first (Memory.layOut word length))).Stands after ∧
        frame.Touched after fun byte => first ≤ byte ∧ byte < first + length := by
  rcases StackFrame.writeData_eq_ok written short with ⟨first, inside, filled⟩
  have sized := Memory.layOut_length word length
  have overwrites := stands.overwrites (Memory.layOut word length)
    (by rw [sized]; exact inside.stop)
  have touched := filled.touched (by decide)
  refine ⟨first, inside, stands.written touched.whole
    (stands.holds.fill overwrites (by rw [sized]; exact filled) ?_), touched⟩
  exact fun absurdity => by cases absurdity

/-- A load that the check lets pass finds a word that its value describes. -/
theorem Stands.load
    {value : AbstractValue}
    (stands : reading.Stands frame) (short : length < 2 ^ 62)
    (found : frame.read offset length = .ok value) :
    ∃ first, StackFrame.Inside offset length first ∧
      reading.Describes value (Word.ofBytes (reading.memory.stack.slice first length)) := by
  rcases stands.holds.read found short (stands.described.full.trans stands.sized.symm) with
    ⟨first, inside, yields⟩
  rcases position_of_sized stands.sized first with ⟨covered, place⟩
  have describes := (yields covered).describes
  rw [place] at describes
  exact ⟨first, inside, describes⟩

/-- Nothing is lost but what was known through a reference. -/
structure Forgets (before after : Interpretation) (reference : Nat) : Prop where
  scene : after.scene = before.scene
  stack : after.memory.stack = before.memory.stack
  describes : ∀ value word, value.reference ≠ reference → before.Describes value word →
    after.Describes value word

/-- A frame from which a released reference is scrubbed still stands. -/
theorem Stands.scrub
    {later : Interpretation} {reference : Nat}
    (stands : reading.Stands frame) (forgets : reading.Forgets later reference) :
    later.Stands (frame.breakUpWhere (·.reference == reference)) := by
  have sized : later.scene.stackSize = StackFrame.size := by
    rw [forgets.scene]
    exact stands.sized
  have full : later.memory.stack.size = StackFrame.size := by
    rw [forgets.stack]
    exact stands.described.full
  refine ⟨sized, (frame.touched_breakUpWhere _).whole stands.whole, ?_⟩
  refine (stands.holds.weaken forgets.scene forgets.stack
    (fun byte small => frame.byteAt_breakUpWhere _ small) ?_).describesStack sized full
  intro byte small value spilled
  rw [frame.slotOf_breakUpWhere _ small] at spilled
  split at spilled
  case isTrue =>
    rw [StackSlot.breakUp_spill] at spilled
    cases spilled
  case isFalse kept =>
    rw [spilled, Option.any_some, beq_iff_eq] at kept
    exact ⟨value, spilled, fun word => forgets.describes value word kept⟩

/-- A record is given up: it is taken back, and its reference is no longer held. -/
def release (reading : Interpretation) (reference : Nat) : Interpretation :=
  { reading with
    memory := ((reading.memory.release? (reading.valuation reference)).map Prod.snd).getD
      reading.memory
    references := reading.references.erase reference }

theorem Tracks.forgets_release
    {reference : Nat}
    (tracks : reading.Tracks)
    (bound : RegionAddress.firstDynamic + reading.memory.regions.size ≤ RegionAddress.mapHandle)
    (held : reference ∈ reading.references) (nonNull : reading.valuation reference ≠ 0) :
    reading.Forgets (reading.release reference) reference := by
  rcases tracks.opened reference held nonNull with ⟨number, there, isOpen⟩
  rcases Option.isSome_iff_exists.mp isOpen with ⟨record, opened⟩
  have taken : (reading.release reference).memory =
      { reading.memory with
        records := reading.memory.records.setIfInBounds number none } := by
    rw [Interpretation.release, Memory.release?_of_pointsTo bound there opened]
    rfl
  refine ⟨rfl, by rw [taken], fun value word other describes => ?_⟩
  refine tracks.describes_released held ⟨there, isOpen⟩ rfl ?_ rfl rfl ?_ other describes
  · rw [taken]
    exact ⟨rfl, rfl, fun _ _ same => same⟩
  · exact Memory.record?_clear (by rw [taken])

end Interpretation

/-! ## Deeds -/

/-- Something done to the bytes below the frame register, or that bears on what is known of them. -/
inductive FrameDeed where
  /-- A register is stored: what is known of it and the word that it holds. -/
  | store (offset : Int) (size : AccessSize) (value : AbstractValue) (word : Word)
  | storeImmediate (offset : Int) (size : AccessSize) (immediate : Int32)
  /-- An integer is replaced by a function of it. -/
  | update (offset : Int) (size : AccessSize) (change : Word → Word)
  | load (offset : Int) (size : AccessSize)
  /-- A reference is given up, while what is around the stack changes. -/
  | scrub (reference : Nat) (change : Interpretation → Interpretation)

namespace FrameDeed

/-- The check of a deed: what is known of the answer, if there is one, and the state afterwards. -/
def check (focus : Focus) : FrameDeed → Checked (Option AbstractValue × Focus)
  | store offset size value _ => do
    let (_, focus) ← checkStackAccess focus offset size.bytes (some value)
    return (none, focus)
  | storeImmediate offset size immediate => do
    let value ← storedValue focus size (.immediate immediate)
    let (_, focus) ← checkStackAccess focus offset size.bytes (some value)
    return (none, focus)
  | update offset size _ => do
    let focus ← checkStackAtomic focus offset size.bytes
    return (some (.scalar (.ofWidth size.bytes)), focus)
  | load offset size => do
    let (value, focus) ← checkStackAccess focus offset size.bytes none
    return (some value, focus)
  | scrub reference _ =>
    return (none, focus.withStack (focus.state.stack.breakUpWhere (·.reference == reference)))

/-- The deed itself: the answer, if there is one, and the memory afterwards. -/
def perform (reading : Interpretation) : FrameDeed → Option (Option Word × Interpretation)
  | store offset size _ word => do
    let memory ← reading.memory.store? (reading.memory.frameAddress offset) size.bytes word
    return (none, { reading with memory })
  | storeImmediate offset size immediate => do
    let memory ← reading.memory.store? (reading.memory.frameAddress offset) size.bytes
      (Word.ofImmediate immediate)
    return (none, { reading with memory })
  | update offset size change => do
    let (old, memory) ← reading.memory.update? (reading.memory.frameAddress offset) size.bytes
      change
    return (some old, { reading with memory })
  | load offset size => do
    let loaded ← reading.memory.load? (reading.memory.frameAddress offset) size.bytes
    return (some loaded, reading)
  | scrub _ change => return (none, change reading)

/-- What a deed takes for granted: a register that is stored is as it is known to be, and what
changes around the stack is known through the reference alone. -/
def Given (reading : Interpretation) : FrameDeed → Prop
  | store _ _ value word => reading.Describes value word
  | scrub reference change => reading.Forgets (change reading) reference
  | _ => True

/-- Where a deed writes. -/
def span? : FrameDeed → Option (Int × AccessSize)
  | store offset size _ _ | storeImmediate offset size _ | update offset size _ =>
    some (offset, size)
  | load _ _ | scrub _ _ => none

/-- The deed writes the byte. -/
def Writes (deed : FrameDeed) (byte : Nat) : Prop :=
  ∃ span ∈ deed.span?, span.1 ≤ StackFrame.offsetOf byte ∧
    StackFrame.offsetOf byte < span.1 + span.2.bytes

variable {reading reading' : Interpretation} {focus focus' : Focus} {deed : FrameDeed}
variable {known? : Option AbstractValue} {offset : Int} {size : AccessSize} {first : Nat}

/-- A deed writes just the bytes of its span. -/
theorem writes_of_inside
    (inside : StackFrame.Inside offset size.bytes first) (spans : deed.span? = some (offset, size))
    (byte : Nat) :
    deed.Writes byte ↔ first ≤ byte ∧ byte < first + size.bytes := by
  have place := inside.offset
  rw [Writes, spans]
  simp only [Option.mem_def, Option.some.injEq, exists_eq_left', StackFrame.offsetOf]
  omega

/-- What is stored is laid out as the value that the check put into the frame. -/
theorem stores
    {value answer : AbstractValue} {stored word : Word} (deed : FrameDeed)
    (stands : reading.Stands focus.state.stack) (spans : deed.span? = some (offset, size))
    (accesses : checkStackAccess focus offset size.bytes (some value) = .ok (answer, focus'))
    (describes : reading.Describes value stored)
    (same : Memory.layOut stored size.bytes = Memory.layOut word size.bytes) :
    ∃ memory, reading.memory.store? (reading.memory.frameAddress offset) size.bytes word =
        some memory ∧
      { reading with memory }.Stands focus'.state.stack ∧
        focus.state.stack.Touched focus'.state.stack deed.Writes := by
  have short := size.bytes_le
  rcases checkStackAccess_some_eq_ok.mp accesses with ⟨after, writes, rfl, rfl⟩
  rcases stands.store (by omega) writes describes same with
    ⟨first, inside, stands', touched⟩
  exact ⟨_, Memory.store?_frameAddress stands.described.full inside word, stands',
    touched.congr (writes_of_inside inside spans)⟩

/-- One deed that passed its check. -/
theorem perform_sound
    (stands : reading.Stands focus.state.stack) (given : deed.Given reading)
    (checked : deed.check focus = .ok (known?, focus')) :
    ∃ answer? reading', deed.perform reading = some (answer?, reading') ∧
      Option.Rel reading'.Describes known? answer? ∧ reading'.Stands focus'.state.stack ∧
        focus.state.stack.Touched focus'.state.stack deed.Writes := by
  have full := stands.described.full
  cases deed with
  | store offset size value word =>
      simp only [check] at checked
      rcases Checked.bind_eq_ok.mp checked with ⟨_, accesses, made⟩
      cases made
      rcases stores (.store offset size value word) stands rfl accesses given rfl with
        ⟨memory, stored, stands', touched⟩
      refine ⟨none, { reading with memory }, ?_, .none, stands', touched⟩
      rw [perform, stored]
      rfl
  | storeImmediate offset size immediate =>
      simp only [check, storedValue] at checked
      rcases Checked.bind_eq_ok.mp checked with ⟨_, constant, checked⟩
      cases constant
      rcases Checked.bind_eq_ok.mp checked with ⟨_, accesses, made⟩
      cases made
      rcases stores (.storeImmediate offset size immediate) stands rfl accesses
          (Interpretation.describes_constant _ _) (Memory.layOut_lowBits _ size.bytes_le) with
        ⟨memory, stored, stands', touched⟩
      refine ⟨none, { reading with memory }, ?_, .none, stands', touched⟩
      rw [perform, stored]
      rfl
  | update offset size change =>
      have short := size.bytes_le
      simp only [check] at checked
      rcases Checked.bind_eq_ok.mp checked with ⟨_, accesses, made⟩
      cases made
      rcases checkStackAtomic_eq_ok.mp accesses with ⟨_, _, _, after, writes, rfl⟩
      rcases StackFrame.writeData_eq_ok writes (by omega) with ⟨first, inside, _⟩
      let integer := Word.ofBytes (reading.memory.stack.slice first size.bytes)
      rcases stands.storeData (change integer) (by omega) writes with
        ⟨first', inside', stands', touched⟩
      cases inside.unique inside'
      refine ⟨some integer, _, ?_, .some ?_, stands', touched.congr (writes_of_inside inside rfl)⟩
      · rw [perform, Memory.update?_frameAddress full inside]
        rfl
      · have bounded := Word.toNat_ofBytes_lt (reading.memory.stack.slice first size.bytes)
        rw [Bytes.slice_length (Memory.room_of_inside full inside)] at bounded
        exact describes_loaded bounded
  | load offset size =>
      have short := size.bytes_le
      simp only [check] at checked
      rcases Checked.bind_eq_ok.mp checked with ⟨⟨value, after⟩, accesses, made⟩
      cases made
      rcases checkStackAccess_none_eq_ok.mp accesses with ⟨reads, rfl⟩
      rcases stands.load (by omega) reads with ⟨first, inside, describes⟩
      refine ⟨_, reading, ?_, .some describes, stands,
        (StackFrame.touched_refl _).congr fun byte => by simp [Writes, span?]⟩
      rw [perform, Memory.load?_frameAddress full inside]
      rfl
  | scrub reference change =>
      cases checked
      exact ⟨none, change reading, rfl, .none, stands.scrub given,
        (StackFrame.touched_breakUpWhere _ _).congr fun byte => by simp [Writes, span?]⟩

/-! ## Series of deeds -/

/-- The checks of deeds, one after the other. -/
def checkAll (focus : Focus) : List FrameDeed → Checked Focus
  | [] => .ok focus
  | deed :: rest => do
    let (_, focus) ← deed.check focus
    checkAll focus rest

/-- Deeds, one after the other. -/
def performAll (reading : Interpretation) : List FrameDeed → Option Interpretation
  | [] => some reading
  | deed :: rest => do
    let (_, reading) ← deed.perform reading
    performAll reading rest

/-- Each of the deeds finds what it takes for granted. -/
def AllGiven (reading : Interpretation) : List FrameDeed → Prop
  | [] => True
  | deed :: rest =>
    deed.Given reading ∧
      ∀ answer? reading', deed.perform reading = some (answer?, reading') → AllGiven reading' rest

/-- Deeds that the checks let pass one after another are all performed, and the frame stands at the
end. -/
theorem performAll_sound
    {deeds : List FrameDeed}
    (stands : reading.Stands focus.state.stack) (given : AllGiven reading deeds)
    (checked : checkAll focus deeds = .ok focus') :
    ∃ reading', performAll reading deeds = some reading' ∧ reading'.Stands focus'.state.stack ∧
      focus.state.stack.Touched focus'.state.stack fun byte =>
        ∃ deed ∈ deeds, deed.Writes byte := by
  induction deeds generalizing reading focus with
  | nil =>
      cases checked
      exact ⟨reading, rfl, stands, (StackFrame.touched_refl _).congr fun byte => by simp⟩
  | cons deed rest continues =>
      rcases Checked.bind_eq_ok.mp checked with ⟨⟨known?, middle⟩, checks, checked⟩
      rcases perform_sound stands given.1 checks with
        ⟨answer?, reading', performs, _, stands', touched⟩
      rcases continues stands' (given.2 answer? reading' performs) checked with
        ⟨last, performs', stands'', touched'⟩
      refine ⟨last, ?_, stands'', (touched.trans touched').congr fun byte => by simp⟩
      rw [performAll, performs]
      exact performs'

end FrameDeed

/--
Deeds on the frame that pass their checks, one after the other and wherever
they fall, are carried out by the machine, and the tracked frame describes the
stack afterwards.  Then the next deed that passes gets an answer as its check
expects it; and what may be read, by a load or by a helper, has been written
before the deeds or by one of them, and touches no spilled pointer, unless a
load takes the slot of that pointer whole.
-/
theorem frameDeeds_sound
    {reading : Interpretation} {focus focus' : Focus} {deeds : List FrameDeed}
    (sized : reading.scene.stackSize = StackFrame.size) (whole : focus.state.stack.Whole)
    (described : focus.state.stack.DescribesStack reading)
    (given : FrameDeed.AllGiven reading deeds)
    (checked : FrameDeed.checkAll focus deeds = .ok focus') :
    ∃ reading', FrameDeed.performAll reading deeds = some reading' ∧
      focus'.state.stack.DescribesStack reading' ∧
      (∀ (deed : FrameDeed) (known? : Option AbstractValue) (focus'' : Focus),
        deed.Given reading' → deed.check focus' = .ok (known?, focus'') →
          ∃ answer? reading'', deed.perform reading' = some (answer?, reading'') ∧
            Option.Rel reading''.Describes known? answer?) ∧
      ∀ offset length, length < 2 ^ 62 →
        (∀ value, focus'.state.stack.read offset length = .ok value →
          ∃ first, StackFrame.Inside offset length first ∧
            ∀ byte, first ≤ byte → byte < first + length →
              (focus.state.stack.byteAt byte ≠ .unwritten ∨ ∃ deed ∈ deeds, deed.Writes byte) ∧
                ((focus'.state.stack.slotOf byte).holdsPointer = true →
                  length = 8 ∧ first % 8 = 0)) ∧
        (focus'.state.stack.checkReadable offset length = .ok () →
          ∃ first, StackFrame.Inside offset length first ∧
            ∀ byte, first ≤ byte → byte < first + length →
              (focus.state.stack.byteAt byte ≠ .unwritten ∨ ∃ deed ∈ deeds, deed.Writes byte) ∧
                (focus'.state.stack.slotOf byte).holdsPointer = false) := by
  rcases FrameDeed.performAll_sound ⟨sized, whole, described⟩ given checked with
    ⟨reading', performs, stands, touched⟩
  have written {byte : Nat} (small : byte < StackFrame.size)
      (known : focus'.state.stack.byteAt byte ≠ .unwritten) :
      focus.state.stack.byteAt byte ≠ .unwritten ∨ ∃ deed ∈ deeds, deed.Writes byte := by
    rw [Ne, touched.unwritten byte small, not_and_or, not_not] at known
    exact known
  refine ⟨reading', performs, stands.described, fun deed known? focus'' given checks => ?_,
    fun offset length short => ⟨fun value found => ?_, fun fine => ?_⟩⟩
  · rcases FrameDeed.perform_sound stands given checks with
      ⟨answer?, reading'', performs, answers, _⟩
    exact ⟨answer?, reading'', performs, answers⟩
  · rcases stands.whole.read found short with ⟨first, inside, known⟩
    have stop := inside.stop
    refine ⟨first, inside, fun byte above below => ?_⟩
    exact ⟨written (by omega) (known byte above below).1, (known byte above below).2⟩
  · rcases stands.whole.checkReadable fine short with ⟨first, inside, known⟩
    have stop := inside.stop
    refine ⟨first, inside, fun byte above below => ?_⟩
    exact ⟨written (by omega) (known byte above below).1, (known byte above below).2⟩

/-- A stack of its own size, next to one open record. -/
def recordReading : Interpretation where
  scene := ⟨⟨.ingress, #[]⟩, [], #[], StackFrame.size⟩
  memory :=
    { packet := #[]
      scratch := #[]
      metadata := {}
      stack := Array.replicate StackFrame.size 7
      regions := #[.record 0]
      records := #[some ⟨0, ⟨0, 4⟩⟩]
      store := {} }
  valuation identity :=
    if identity = 1 then RegionAddress.make RegionAddress.firstDynamic 0 else 0
  references := [1]

/-- The pointer to the record is spilled, and forgotten with the record; next to it two bytes of
zeros become a number. -/
def recordDeeds : List FrameDeed :=
  [.store (-8) .double { AbstractValue.recordOrNull 4 1 with mayBeNull := false }
      (RegionAddress.make RegionAddress.firstDynamic 0),
    .scrub 1 (·.release 1), .storeImmediate (-12) .word 0, .update (-12) .half (· + 1)]

theorem recordReading_describes :
    recordReading.Describes { AbstractValue.recordOrNull 4 1 with mayBeNull := false }
      (RegionAddress.make RegionAddress.firstDynamic 0) := by
  refine ⟨⟨rfl, ⟨by decide, ⟨0, by decide, by decide, nofun⟩, fun _ => by decide⟩, fun _ => ?_⟩,
    nofun, by decide⟩
  exact ⟨List.mem_singleton.mpr rfl, 0, _, ⟨0, rfl, rfl⟩, rfl, by decide⟩

theorem recordReading_tracks : recordReading.Tracks where
  nodup := List.nodup_singleton 1
  opened reference held _ := by
    cases List.mem_singleton.mp held
    exact ⟨0, ⟨0, rfl, rfl⟩, rfl⟩
  known number isOpen := by
    have first : number = 0 := by
      rcases Option.isSome_iff_exists.mp isOpen with ⟨record, there⟩
      exact Nat.lt_one_iff.mp (Memory.lt_of_record there)
    subst first
    exact ⟨1, List.mem_singleton.mpr rfl, ⟨0, rfl, rfl⟩, rfl⟩
  distinct first held second held' _ _ _ := by
    rw [List.mem_singleton.mp held, List.mem_singleton.mp held']

/-- Whatever the stack holds, only what the pointer stands for goes with the record. -/
theorem recordReading_forgets
    {stack : Bytes} (sized : stack.size = recordReading.memory.stack.size) :
    (recordReading.withStack stack).Forgets ((recordReading.withStack stack).release 1) 1 := by
  have bound : RegionAddress.firstDynamic + recordReading.memory.regions.size ≤
      RegionAddress.mapHandle := by decide
  have nonNull : recordReading.valuation 1 ≠ 0 := by decide
  have tracks : (recordReading.withStack stack).Tracks :=
    recordReading_tracks.follow ⟨rfl, sized, fun _ _ there => there⟩ bound rfl rfl fun _ _ => rfl
  exact tracks.forgets_release bound (List.mem_singleton.mpr rfl) nonNull

theorem recordDeeds_given : FrameDeed.AllGiven recordReading recordDeeds := by
  refine ⟨recordReading_describes, fun answer? reading' performs => ⟨?_, fun _ _ _ =>
    ⟨trivial, fun _ _ _ => ⟨trivial, fun _ _ _ => trivial⟩⟩⟩⟩
  have inside : StackFrame.Inside (-8) AccessSize.double.bytes 504 :=
    ⟨by decide, by decide, by decide, by decide⟩
  rw [FrameDeed.perform, Memory.store?_frameAddress Array.size_replicate inside] at performs
  cases performs
  exact recordReading_forgets (Bytes.overwrite_size _ _ _)

/-- Half of the slot that held the pointer is loaded as a number in the end. -/
theorem frameDeeds_sound_record :
    ∃ focus' reading', FrameDeed.checkAll { state := .entry } recordDeeds = .ok focus' ∧
      FrameDeed.performAll recordReading recordDeeds = some reading' ∧
      focus'.state.stack.DescribesStack reading' ∧
      ∃ answer? reading'', (FrameDeed.load (-8) .word).perform reading' =
          some (answer?, reading'') ∧
        Option.Rel reading''.Describes (some (.scalar (.ofWidth 4))) answer? := by
  have known : (FrameDeed.checkAll { state := .entry } recordDeeds >>= fun focus =>
      (FrameDeed.load (-8) .word).check focus).map Prod.fst =
        .ok (some (.scalar (.ofWidth 4))) := by
    decide +kernel
  cases passes : (FrameDeed.checkAll { state := .entry } recordDeeds >>= fun focus =>
      (FrameDeed.load (-8) .word).check focus) with
  | error cause =>
      rw [passes] at known
      cases known
  | ok answered =>
      rw [passes] at known
      rcases answered with ⟨known?, focus''⟩
      cases known
      rcases Checked.bind_eq_ok.mp passes with ⟨focus', checked, loads⟩
      rcases frameDeeds_sound rfl StackFrame.fresh_whole
          (StackFrame.fresh_describesStack Array.size_replicate) recordDeeds_given checked with
        ⟨reading', performs, described, answers, _⟩
      exact ⟨focus', reading', checked, performs, described, answers _ _ _ trivial loads⟩

end PacketFilter
