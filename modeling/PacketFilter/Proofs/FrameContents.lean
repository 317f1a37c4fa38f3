import PacketFilter.Proofs.Bytes
import PacketFilter.Proofs.Following
import PacketFilter.Proofs.Frame

/-!
# The stack behind a tracked frame

What is tracked of a frame goes on describing the stack when both are written,
and what is read from the frame describes the bytes that are read from the
stack.  Of the second stack it is shown that the same bytes are read there.
-/

namespace PacketFilter

namespace Scene

variable {scene : Scene} {first byte : Nat}

theorem Covers.mono (covered : scene.Covers first) (later : first ≤ byte) : scene.Covers byte :=
  Nat.le_trans covered (Nat.add_le_add_left later _)

theorem position_add (covered : scene.Covers first) (index : Nat) :
    scene.position (first + index) = scene.position first + index := by
  simp only [Covers] at covered
  simp only [position]
  omega

/-- The bytes of a frame end where the stack does. -/
theorem position_le
    {length : Nat}
    (covered : scene.Covers first) (stop : first + length ≤ StackFrame.size) :
    scene.position first + length ≤ scene.stackSize := by
  have truncated := Nat.mod_le scene.stackSize (2 ^ 32)
  simp only [Covers] at covered
  simp only [position, frameEnd] at covered ⊢
  omega

/-- A write leaves every byte outside its place alone. -/
theorem overwrite_elsewhere
    {data : List UInt8}
    (bytes : Bytes) (covered : scene.Covers first) (covered' : scene.Covers byte)
    (elsewhere : ¬ (first ≤ byte ∧ byte < first + data.length)) :
    (bytes.overwrite (scene.position first) data)[scene.position byte]? =
      bytes[scene.position byte]? := by
  simp only [Covers] at covered covered'
  rw [Bytes.overwrite_getElem?, if_neg]
  simp only [position]
  omega

/-- Inside its place a write leaves the data. -/
theorem overwrite_inside
    {data : List UInt8}
    (bytes : Bytes) (covered : scene.Covers first)
    (inside : first ≤ byte ∧ byte < first + data.length)
    (room : scene.position first + data.length ≤ bytes.size) :
    (bytes.overwrite (scene.position first) data)[scene.position byte]? = data[byte - first]? := by
  have place := position_add covered (byte - first)
  rw [Nat.add_sub_cancel' inside.1] at place
  rw [Bytes.overwrite_getElem?, place, if_pos (by omega), Nat.add_sub_cancel_left]

end Scene

theorem getElem?_eq_zero
    {data : List UInt8} {index : Nat}
    (zeros : ∀ byte ∈ data, byte = 0) (inside : index < data.length) :
    data[index]? = some 0 := by
  rw [List.getElem?_eq_getElem inside, zeros _ (List.getElem_mem inside)]

namespace Interpretation

variable {before after : Interpretation} {frame frame' : StackFrame} {twin : Bytes}
variable {first length : Nat} {data : List UInt8}

/-- Both stacks change in the same way at one place of the frame. -/
structure Overwrites (before after : Interpretation) (first : Nat) (data : List UInt8) : Prop where
  scene : after.scene = before.scene
  covered : before.scene.Covers first
  room : before.scene.position first + data.length ≤ before.memory.stack.size
  stack : after.memory.stack =
    before.memory.stack.overwrite (before.scene.position first) data
  describes : ∀ (value : AbstractValue) (word : Word),
    before.Describes value word → after.Describes value word

namespace Overwrites

variable {byte : Nat}

theorem inside
    (overwrites : before.Overwrites after first data)
    (inside : first ≤ byte ∧ byte < first + data.length) :
    after.memory.stack[after.scene.position byte]? = data[byte - first]? := by
  rw [overwrites.scene, overwrites.stack]
  exact Scene.overwrite_inside _ overwrites.covered inside overwrites.room

theorem elsewhere
    (overwrites : before.Overwrites after first data) (covers : after.scene.Covers byte)
    (outside : ¬ (first ≤ byte ∧ byte < first + data.length)) :
    after.memory.stack[after.scene.position byte]? =
      before.memory.stack[before.scene.position byte]? := by
  rw [overwrites.scene] at covers ⊢
  rw [overwrites.stack]
  exact Scene.overwrite_elsewhere _ overwrites.covered covers outside

/-- The bytes of a slot that is left alone. -/
theorem slice_elsewhere
    {start : Nat}
    (overwrites : before.Overwrites after first data) (covers : after.scene.Covers start)
    (apart : ∀ index < 8, ¬ (first ≤ start + index ∧ start + index < first + data.length)) :
    Bytes.slice after.memory.stack (after.scene.position start) 8 =
      Bytes.slice before.memory.stack (before.scene.position start) 8 := by
  have covers' : before.scene.Covers start := overwrites.scene ▸ covers
  rw [overwrites.scene]
  apply Bytes.slice_congr
  intro index small
  rw [← Scene.position_add covers']
  have same := overwrites.elsewhere (covers.mono (Nat.le_add_right start index))
    (apart index small)
  rwa [overwrites.scene] at same

end Overwrites

namespace FrameHolds

/-- The frame is written at one place on both sides.  Elsewhere it may only come to say less; what
it says of the place itself is so. -/
theorem overwrite
    (holds : before.FrameHolds frame twin) (overwrites : before.Overwrites after first data)
    (bytes : ∀ byte < StackFrame.size, ¬ (first ≤ byte ∧ byte < first + data.length) →
      frame'.byteAt byte = frame.byteAt byte ∨
        frame.byteAt byte = .spilled ∧ frame'.byteAt byte = .data)
    (zeros : ∀ byte < StackFrame.size, first ≤ byte ∧ byte < first + data.length →
      frame'.byteAt byte = .zero → data[byte - first]? = some 0)
    (spills : ∀ (start : Nat) (value : AbstractValue), start + 8 ≤ StackFrame.size →
      start % 8 = 0 → (frame'.slotOf start).spill? = some value →
        (frame.slotOf start).spill? = some value ∧
            (∀ index < 8, ¬ (first ≤ start + index ∧ start + index < first + data.length)) ∨
          start = first ∧ data.length = 8 ∧ after.Describes value (Word.ofBytes data))
    (whole : ∀ byte < StackFrame.size, (frame'.slotOf byte).spill? ≠ none →
      frame'.byteAt byte ≠ .unwritten) :
    after.FrameHolds frame' (twin.overwrite (before.scene.position first) data) := by
  have covered := overwrites.covered
  have room' : before.scene.position first + data.length ≤ twin.size := by
    rw [holds.size]
    exact overwrites.room
  constructor
  case size => simp only [overwrites.stack, Bytes.overwrite_size, holds.size]
  case written =>
    intro byte small covers known
    by_cases inside : first ≤ byte ∧ byte < first + data.length
    · rw [overwrites.inside inside, overwrites.scene,
        Scene.overwrite_inside _ covered inside room']
    · rw [overwrites.elsewhere covers inside]
      rw [overwrites.scene] at covers ⊢
      rw [Scene.overwrite_elsewhere _ covered covers inside]
      apply holds.written byte small covers
      rcases bytes byte small inside with kept | ⟨spilled, _⟩
      · rwa [← kept]
      · rw [spilled]
        decide
  case zeros =>
    intro byte small covers zero
    by_cases inside : first ≤ byte ∧ byte < first + data.length
    · rw [overwrites.inside inside]
      exact zeros byte small inside zero
    · rw [overwrites.elsewhere covers inside]
      apply holds.zeros byte small (overwrites.scene ▸ covers)
      rcases bytes byte small inside with kept | ⟨_, plain⟩
      · rwa [← kept]
      · rw [plain] at zero
        cases zero
  case spills =>
    intro start value stop aligned covers spilled
    rcases spills start value stop aligned spilled with ⟨held, apart⟩ | ⟨rfl, eight, described⟩
    · rw [overwrites.slice_elsewhere covers apart]
      exact overwrites.describes value _
        (holds.spills start value stop aligned (overwrites.scene ▸ covers) held)
    · have stored := Bytes.slice_overwrite overwrites.room
      rw [eight] at stored
      rw [overwrites.scene, overwrites.stack, stored]
      exact described
  case whole => exact whole

/-- A register spilled over a slot of its own. -/
theorem spill
    {value : AbstractValue} {word : Word}
    (holds : before.FrameHolds frame twin)
    (overwrites : before.Overwrites after first (Memory.layOut word 8))
    (stop : first + 8 ≤ StackFrame.size) (aligned : first % 8 = 0)
    (described : after.Describes value word) :
    after.FrameHolds (frame.spill first value)
      (twin.overwrite (before.scene.position first) (Memory.layOut word 8)) := by
  have start : first < StackFrame.size := by omega
  have bytes := frame.byteAt_spill value start
  have slots := frame.slotOf_spill value start
  have slotOf (byte : Nat) :
      first ≤ byte ∧ byte < first + (Memory.layOut word 8).length ↔ byte / 8 = first / 8 := by
    rw [Memory.layOut_length]
    omega
  refine holds.overwrite overwrites ?_ ?_ ?_ ?_
  · intro byte _ outside
    rw [slotOf] at outside
    rw [bytes, if_neg outside]
    exact .inl rfl
  · intro byte _ inside zero
    rw [slotOf] at inside
    rw [bytes, if_pos inside] at zero
    cases zero
  · intro start' value' _ aligned' spilled
    rw [slots] at spilled
    by_cases same : start' / 8 = first / 8
    · rw [if_pos same] at spilled
      cases spilled
      refine .inr ⟨by omega, Memory.layOut_length word 8, ?_⟩
      rw [Memory.ofBytes_layOut]
      exact described
    · rw [if_neg same] at spilled
      refine .inl ⟨spilled, fun index small => ?_⟩
      rw [slotOf]
      omega
  · intro byte small spilled
    rw [slots] at spilled
    rw [bytes]
    by_cases same : byte / 8 = first / 8
    · rw [if_pos same]
      decide
    · rw [if_neg same] at spilled ⊢
      exact holds.whole byte small spilled

/-- Bytes stored without keeping a register. -/
theorem fill
    {content : StackByte}
    (holds : before.FrameHolds frame twin) (overwrites : before.Overwrites after first data)
    (filled : frame.Filled frame' (fun byte => first ≤ byte ∧ byte < first + data.length) content)
    (zeros : content = .zero → ∀ byte ∈ data, byte = 0) :
    after.FrameHolds frame' (twin.overwrite (before.scene.position first) data) := by
  refine holds.overwrite overwrites filled.outside ?_ ?_ ?_
  · intro byte small inside zero
    rw [filled.inside byte small inside] at zero
    exact getElem?_eq_zero (zeros zero) (by omega)
  · intro start value _ _ spilled
    rcases filled.spills start (by omega) with none | ⟨kept, untouched⟩
    · rw [none] at spilled
      cases spilled
    · rw [kept] at spilled
      exact .inl ⟨spilled, fun index small => untouched (start + index) (by omega) (by omega)⟩
  · intro byte small spilled
    rcases filled.spills byte small with none | ⟨kept, untouched⟩
    · exact absurd none spilled
    · rw [kept] at spilled
      have known := holds.whole byte small spilled
      rcases filled.outside byte small (untouched byte small rfl) with same | ⟨_, plain⟩
      · rwa [same]
      · rw [plain]
        decide

/-! ## Reading -/

/-- Bytes that have been written are the same in both stacks. -/
theorem slices_agree
    {reading : Interpretation}
    (holds : reading.FrameHolds frame twin) (covered : reading.scene.Covers first)
    (stop : first + length ≤ StackFrame.size)
    (known : ∀ byte, first ≤ byte → byte < first + length → frame.byteAt byte ≠ .unwritten) :
    Bytes.slice reading.memory.stack (reading.scene.position first) length =
      Bytes.slice twin (reading.scene.position first) length := by
  apply Bytes.slice_congr
  intro index small
  rw [← Scene.position_add covered]
  exact holds.written (first + index) (by omega) (covered.mono (Nat.le_add_right _ _))
    (known (first + index) (by omega) (by omega))

/-- Where the frame is known to be zero, the machine's bytes are zero. -/
theorem slice_zeros
    {reading : Interpretation}
    (holds : reading.FrameHolds frame twin) (covered : reading.scene.Covers first)
    (stop : first + length ≤ StackFrame.size)
    (zeros : ∀ byte, first ≤ byte → byte < first + length → frame.byteAt byte = .zero) :
    ∀ byte ∈ Bytes.slice reading.memory.stack (reading.scene.position first) length, byte = 0 := by
  intro byte found
  rcases List.mem_iff_getElem?.mp found with ⟨index, there⟩
  rw [Bytes.slice_getElem?] at there
  split at there
  case isTrue small =>
    rw [← Scene.position_add covered,
      holds.zeros (first + index) (by omega) (covered.mono (Nat.le_add_right _ _))
        (zeros (first + index) (by omega) (by omega))] at there
    exact (Option.some.inj there).symm
  case isFalse => cases there

end FrameHolds

/-- What is read at a place of the frame is the same in both stacks, and is described. -/
structure Yields (reading : Interpretation) (twin : Bytes) (first length : Nat)
    (value : AbstractValue) : Prop where
  same : Bytes.slice reading.memory.stack (reading.scene.position first) length =
    Bytes.slice twin (reading.scene.position first) length
  describes : reading.Describes value
    (Word.ofBytes (Bytes.slice reading.memory.stack (reading.scene.position first) length))

/-- A load that has no problem at a byte finds it written. -/
theorem written_of_loadProblem
    {offset : Int} {byte : Nat}
    (fine : frame.loadProblem? offset byte = none) :
    frame.byteAt byte ≠ .unwritten := by
  intro unwritten
  rw [StackFrame.loadProblem?, unwritten] at fine
  cases fine

/-- A helper that has no problem with a byte finds it written. -/
theorem written_of_helperProblem
    {byte : Nat}
    (fine : frame.helperProblem? byte = none) :
    frame.byteAt byte ≠ .unwritten := by
  intro unwritten
  rw [StackFrame.helperProblem?, unwritten] at fine
  cases fine

/-- A load that the frame allows. -/
theorem FrameHolds.read
    {reading : Interpretation} {offset : Int} {value : AbstractValue}
    (holds : reading.FrameHolds frame twin) (found : frame.read offset length = .ok value)
    (short : length < 2 ^ 62) (sized : reading.memory.stack.size = reading.scene.stackSize) :
    ∃ first, StackFrame.Inside offset length first ∧
      (reading.scene.Covers first → reading.Yields twin first length value) := by
  rcases StackFrame.read_eq_ok found short with ⟨first, inside, reads⟩
  refine ⟨first, inside, fun covered => ?_⟩
  have stop := inside.stop
  have room := Scene.position_le covered stop
  rw [← sized] at room
  cases reads with
  | spilled whole aligned spilled =>
      subst whole
      refine ⟨holds.slices_agree covered stop fun byte above below => ?_,
        holds.spills first value stop aligned covered spilled⟩
      have slot : frame.slotOf byte = frame.slotOf first := frame.slotOf_congr (by omega)
      apply holds.whole byte (by omega)
      rw [slot, spilled]
      exact Option.some_ne_none value
  | zeros fine zeros =>
      refine ⟨holds.slices_agree covered stop fun byte above below =>
        written_of_loadProblem (fine byte above below), ?_⟩
      rw [Word.ofBytes_eq_zero (holds.slice_zeros covered stop zeros)]
      exact describes_constant _ _
  | data fine =>
      refine ⟨holds.slices_agree covered stop fun byte above below =>
        written_of_loadProblem (fine byte above below), ?_⟩
      apply describes_scalar
      apply Bounds.ofWidth_mem
      have bounded := Word.toNat_ofBytes_lt
        (Bytes.slice reading.memory.stack (reading.scene.position first) length)
      rwa [Bytes.slice_length room] at bounded

/-- Bytes that the frame lets a helper read are the same in both stacks. -/
theorem FrameHolds.readable
    {reading : Interpretation} {offset : Int}
    (holds : reading.FrameHolds frame twin) (fine : frame.checkReadable offset length = .ok ())
    (short : length < 2 ^ 62) :
    ∃ first, StackFrame.Inside offset length first ∧
      (reading.scene.Covers first →
        Bytes.slice reading.memory.stack (reading.scene.position first) length =
          Bytes.slice twin (reading.scene.position first) length) := by
  rcases StackFrame.checkReadable_eq_ok fine short with ⟨first, inside, fine⟩
  exact ⟨first, inside, fun covered => holds.slices_agree covered inside.stop
    fun byte above below => written_of_helperProblem (fine byte above below)⟩

end Interpretation

end PacketFilter
