import PacketFilter.Proofs.Loading

/-!
# Stores

A store that was checked is carried out with either stack, and the state that
the check leaves describes the machine afterwards.  Only a stack that does not
hold a frame makes it fail.
-/

namespace PacketFilter

namespace Memory

theorem layOut_lowBits
    (value : Word) {length : Nat} (short : length ≤ 8) :
    layOut (value.lowBits (length * 8)) length = layOut value length := by
  apply List.ext_getElem?
  intro index
  by_cases inside : index < length
  · rw [layOut_getElem? _ inside, layOut_getElem? _ inside]
    congr 2
    apply BitVec.eq_of_getLsbD_eq
    intro bit small
    have position : index % 8 * 8 + bit < length * 8 := by omega
    simp only [BitVec.getLsbD_setWidth, BitVec.getLsbD_ushiftRight, Word.lowBits,
      BitVec.getLsbD_and, KnownBits.lowMask_bit (show index % 8 * 8 + bit < 64 by omega),
      position, decide_true, Bool.and_true]
  · rw [List.getElem?_eq_none (by rw [layOut_length]; omega),
      List.getElem?_eq_none (by rw [layOut_length]; omega)]

end Memory

namespace Interpretation

def withStack (reading : Interpretation) (stack : Bytes) : Interpretation :=
  { reading with memory := reading.memory.withStack stack }

/-- What is known of a word does not depend on the contents of the stack. -/
theorem describes_withStack
    {reading : Interpretation} {stack : Bytes} {value : AbstractValue} {word : Word}
    (sized : stack.size = reading.memory.stack.size) (describes : reading.Describes value word) :
    (reading.withStack stack).Describes value word := by
  apply Keeps.describes _ describes
  exact ⟨rfl, ⟨rfl, sized, fun _ _ there => there⟩, rfl,
    fun _ held _ _ _ opened => ⟨held, opened⟩⟩

end Interpretation

section

variable {state : AbstractState} {scene : Scene} {valuation : Nat → Word}
variable {machine : Machine} {twin : Bytes}
variable {pointer value : AbstractValue} {word : Word} {offset : Int} {length first : Nat}

/-- The machine after a store of bytes to the frame. -/
def Machine.overwriteStack (machine : Machine) (place : Nat) (data : List UInt8) : Machine :=
  machine.withStack (machine.memory.stack.overwrite place data)

theorem overwrites
    {data : List UInt8}
    (represents : state.Represents scene valuation machine twin) (frame : StackFrame)
    (covered : scene.Covers first) (stop : first + data.length ≤ StackFrame.size) :
    (state.reading scene valuation machine.memory).Overwrites
      (({ state with stack := frame } : AbstractState).reading scene valuation
        (machine.overwriteStack (scene.position first) data).memory) first data := by
  have room := Scene.position_le covered stop
  rw [← represents.sound.stackSize] at room
  exact ⟨rfl, covered, room, rfl, fun _ _ describes =>
    Interpretation.describes_withStack (Bytes.overwrite_size _ _ _) describes⟩

/-- The frame is written on both sides. -/
theorem AbstractState.Represents.overwrite
    {data : List UInt8} {frame : StackFrame}
    (represents : state.Represents scene valuation machine twin)
    (holds : (({ state with stack := frame } : AbstractState).reading scene valuation
        (machine.overwriteStack (scene.position first) data).memory).FrameHolds frame
      (twin.overwrite (scene.position first) data)) :
    ({ state with stack := frame } : AbstractState).Represents scene valuation
      (machine.overwriteStack (scene.position first) data)
      (twin.overwrite (scene.position first) data) := by
  have sized := Bytes.overwrite_size machine.memory.stack (scene.position first) data
  refine ⟨represents.sound.withStack sized, represents.zero, fun name => ?_, holds, ?_⟩
  · exact Interpretation.describes_withStack sized (represents.registers name)
  · exact represents.tracks.follow ⟨rfl, sized, fun _ _ there => there⟩ represents.sound.regions rfl
      rfl fun _ _ => rfl

theorem AbstractState.Represents.writeFrame
    {frame : StackFrame}
    (represents : state.Represents scene valuation machine twin)
    (written : state.stack.write offset length value = .ok frame)
    (described : (state.reading scene valuation machine.memory).Describes value word)
    (short : length < 2 ^ 62) :
    ∃ first, StackFrame.Inside offset length first ∧
      (scene.Covers first →
        ({ state with stack := frame } : AbstractState).Represents scene valuation
          (machine.overwriteStack (scene.position first) (Memory.layOut word length))
          (twin.overwrite (scene.position first) (Memory.layOut word length))) := by
  rcases StackFrame.write_eq_ok written short with ⟨first, inside, changed⟩
  have stop := inside.stop
  refine ⟨first, inside, fun covered => represents.overwrite ?_⟩
  have sized := Memory.layOut_length word length
  rcases changed with ⟨rfl, aligned, rfl⟩ | ⟨content, _, zero, filled⟩
  · have changes := overwrites represents (state.stack.spill first value) covered (sized ▸ stop)
    exact represents.frame.spill changes stop aligned (changes.describes value word described)
  · have changes := overwrites represents frame covered (sized ▸ stop)
    refine represents.frame.fill changes (by rw [sized]; exact filled) ?_
    intro isZero
    rw [described.eq_constant (zero isZero)]
    exact Memory.layOut_zero

/-- Both machines carry the store out, and the state describes what comes of it. -/
def Takes (state : AbstractState) (scene : Scene) (valuation : Nat → Word) (machine : Machine)
    (twin : Bytes) (address : Word) (length : Nat) (source : Word) : Prop :=
  ∃ memory' twin', machine.memory.store? address length source = some memory' ∧
    (machine.memory.withStack twin).store? address length source = some (memory'.withStack twin') ∧
      state.Represents scene valuation { machine with memory := memory' } twin' ∧
        memory'.records = machine.memory.records

theorem takes_elsewhere
    {address source : Word} {memory' : Memory}
    (represents : state.Represents scene valuation machine twin)
    (elsewhere : RegionAddress.region address ≠ RegionAddress.stack)
    (stored : machine.memory.store? address length source = some memory')
    (proceeds : Memory.Proceeds scene machine.memory memory') :
    Takes state scene valuation machine twin address length source :=
  ⟨memory', twin, stored, by rw [Memory.store?_withStack source elsewhere, stored, Option.map_some],
    represents.proceed proceeds, proceeds.records⟩

/-- A store into the context goes to the scratch area. -/
theorem storeContext_eq
    {place : Nat} {result : AbstractValue} {memory : Memory} (source : Word)
    (sized : memory.scratch.size = ContextField.scratch.size)
    (passed : checkContextAccess place length (some value) = .ok result) (short : length ≤ 8) :
    (result = value ∧ 24 ≤ place ∧ place - 24 + length ≤ memory.scratch.size) ∧
      ((Memory.scratchOffset? place).bind fun offset =>
          (Memory.putWord? memory.scratch offset length source).map fun scratch =>
            { memory with scratch }) =
        some { memory with
          scratch := memory.scratch.overwrite (place - 24) (Memory.layOut source length) } := by
  rcases contextAccess_holds passed (by omega) with ⟨field, holds, grants⟩
  rcases grants with _ | writable
  have start := holds.start
  have stop := holds.stop
  cases field with
  | packetStart => cases writable
  | packetEnd => cases writable
  | interface => cases writable
  | queue => cases writable
  | scratch =>
      simp only [ContextField.offset, ContextField.limit, ContextField.size] at start stop
      have inside : place - 24 + length ≤ memory.scratch.size := by
        rw [sized, ContextField.size]
        omega
      refine ⟨⟨rfl, by omega, inside⟩, ?_⟩
      rw [Memory.scratchOffset?, ContextField.offset, if_neg (by omega), Option.bind_some,
        Memory.putWord?, if_pos (Bytes.covers_iff.mpr inside), Option.map_some]

theorem storeContext_sound
    {place : Nat} {result : AbstractValue} {memory : Memory} (source : Word)
    (sound : memory.Sound scene)
    (passed : checkContextAccess place length (some value) = .ok result) (short : length ≤ 8) :
    ∃ memory', ((Memory.scratchOffset? place).bind fun offset =>
        (Memory.putWord? memory.scratch offset length source).map fun scratch =>
          { memory with scratch }) = some memory' ∧
      Memory.Proceeds scene memory memory' := by
  have sized := Bytes.overwrite_size memory.scratch (place - 24) (Memory.layOut source length)
  exact ⟨_, (storeContext_eq source sound.scratchSize passed short).2,
    sound.withScratch sized, ⟨rfl, rfl, fun _ _ there => there⟩, rfl, rfl⟩

theorem misses_packet_store
    {memory : Memory} {address source : Word} {place : Nat}
    (names : RegionAddress.Names address RegionAddress.packet place) (nonempty : 0 < length)
    (outside : memory.packet.size ≤ place) :
    memory.store? address length source = none := by
  rw [Memory.store?_packet source names, Memory.putWord?, if_neg, Option.map_none]
  rw [Bytes.covers_iff]
  omega

theorem takes_of_falls
    {address source : Word}
    (represents : state.Represents scene valuation machine twin)
    (falls : machine.memory.Falls address length) (short : length ≤ 8)
    (allowed : RegionAddress.region address = RegionAddress.packet →
      scene.setting.attach.allowsPacketWrite = true) :
    Takes state scene valuation machine twin address length source := by
  rcases falls.store short source represents.sound allowed with ⟨memory', there, proceeds⟩
  exact takes_elsewhere represents falls.elsewhere there proceeds

/-- A store into the context. -/
theorem takes_of_context
    {result : AbstractValue} {source : Word}
    (represents : state.Represents scene valuation machine twin)
    (describes : (state.reading scene valuation machine.memory).Describes pointer word)
    (isContext : pointer.kind = .context) (short : length ≤ 8)
    (lies : checkContextAccess (pointer.offset + offset) length (some value) = .ok result) :
    Takes state scene valuation machine twin (word + BitVec.ofInt 64 offset) length source := by
  rcases names_of_checkContextAccess describes isContext short lies with
    ⟨place, fixed, small, names, elsewhere⟩
  rw [fixed] at lies
  rcases storeContext_sound source represents.sound lies short with
    ⟨memory', there, proceeds⟩
  exact takes_elsewhere represents elsewhere ((Memory.store?_context source names).trans there)
    proceeds

/-- A store into the frame. -/
theorem takes_of_frame
    {frame : StackFrame} {stored source : Word}
    (represents : state.Represents scene valuation machine twin) (roomy : scene.Roomy)
    (describes : (state.reading scene valuation machine.memory).Describes pointer word)
    (described : (state.reading scene valuation machine.memory).Describes value stored)
    (same : Memory.layOut stored length = Memory.layOut source length)
    (isStack : pointer.kind = .stack) (nonempty : 0 < length) (short : length ≤ 8)
    (writes : state.stack.write (pointer.offset + offset) length value = .ok frame) :
    Takes { state with stack := frame } scene valuation machine twin (word + BitVec.ofInt 64 offset)
        length source ∨
      (machine.memory.store? (word + BitVec.ofInt 64 offset) length source = none ∧
        (machine.memory.withStack twin).store? (word + BitVec.ofInt 64 offset) length source =
          none ∧
          ¬ scene.HoldsFrame) := by
  rcases represents.writeFrame writes described (by omega) with ⟨first, inside, written⟩
  rcases represents.inStacks roomy describes isStack inside with
    places | ⟨missing, place, outside, names⟩
  · have described' := written places.covered
    rw [same] at described'
    refine .inl ⟨_, _, ?_, ?_, described', rfl⟩
    · rw [Memory.store?_stack source places.names, Memory.putWord?,
        if_pos (Bytes.covers_iff.mpr places.room), Option.map_some]
      rfl
    · rw [Memory.store?_stack source places.names]
      show (Memory.putWord? twin _ _ _).map _ = _
      rw [Memory.putWord?, if_pos (Bytes.covers_iff.mpr places.room'), Option.map_some]
      rfl
  · exact .inr ⟨misses_packet_store names nonempty outside,
      misses_packet_store names nonempty outside, missing⟩

/-- A store through a pointer of any kind. -/
theorem store_sound
    {focus focus' : Focus} {result : AbstractValue} {stored source : Word}
    (represents : focus.state.Represents scene valuation machine twin) (roomy : scene.Roomy)
    (describes : (focus.state.reading scene valuation machine.memory).Describes pointer word)
    (described : (focus.state.reading scene valuation machine.memory).Describes value stored)
    (same : Memory.layOut stored length = Memory.layOut source length)
    (nonempty : 0 < length) (short : length ≤ 8) (close : offset.natAbs < pointerOffsetLimit)
    (present : pointer.mayBeNull = false)
    (grants : focus.Grants scene.setting pointer offset length (some value) result focus') :
    Takes focus'.state scene valuation machine twin (word + BitVec.ofInt 64 offset) length source ∨
      (machine.memory.store? (word + BitVec.ofInt 64 offset) length source = none ∧
        (machine.memory.withStack twin).store? (word + BitVec.ofInt 64 offset) length source =
          none ∧
          ¬ scene.HoldsFrame) := by
  have sound := represents.sound
  have notPacket {index place : Nat}
      (names : RegionAddress.Names (word + BitVec.ofInt 64 offset)
        (RegionAddress.firstDynamic + index) place) :
      RegionAddress.region (word + BitVec.ofInt 64 offset) ≠ RegionAddress.packet := by
    rw [names.region]
    exact (Memory.dynamic_ne index).2.1
  cases grants with
  | context isContext lies =>
      exact .inl (takes_of_context represents describes isContext short lies)
  | spill isStack writes =>
      exact takes_of_frame represents roomy describes described same isStack nonempty short writes
  | packet isPacket allowed lies =>
      exact .inl (takes_of_falls represents
        (falls_packet sound describes isPacket nonempty (by omega) close lies) short
        fun _ => allowed rfl)
  | mapValue isMapValue declared lies =>
      rcases falls_mapValue sound describes isMapValue present declared lies with
        ⟨index, place, id, cell, names, region, there, inside, _⟩
      exact .inl (takes_of_falls represents
        (.mapValue index place id cell names region there inside) short
        fun isPacket => absurd isPacket (notPacket names))
  | record isRecord lies =>
      rcases falls_record sound describes isRecord present lies with
        ⟨index, place, number, record, cell, names, region, there, inside⟩
      exact .inl (takes_of_falls represents
        (.record index place number record cell names region there inside) short
        fun isPacket => absurd isPacket (notPacket names))

end

end PacketFilter
