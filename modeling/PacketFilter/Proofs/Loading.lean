import PacketFilter.Proofs.Changing
import PacketFilter.Proofs.Passing

/-!
# Loads

A load that was checked gives a word that is described by what is known of it,
the same word with either stack.  It fails where the stack does not hold a
frame, and where it takes a part of an attribute of the packet, which the
context hands out whole.
-/

namespace PacketFilter

/-- The load takes a part of an attribute of the packet. -/
def takesPart (pointer : AbstractValue) (offset : Int) (size : Nat) : Bool :=
  pointer.kind == .context &&
    match ContextField.atOffset? (pointer.offset + offset) with
    | some .interface | some .queue => size != 4
    | _ => false

theorem takesPart_of_context
    {pointer : AbstractValue} {offset : Int} {size : Nat}
    (isContext : pointer.kind = .context) :
    takesPart pointer offset size = takesPart .context (pointer.offset + offset) size := by
  have start : AbstractValue.context.offset + (pointer.offset + offset) = pointer.offset + offset :=
    Int.zero_add _
  rw [takesPart, takesPart, isContext, start]
  rfl

/-- A load takes part of a context field just when it reads an attribute in fewer than four
bytes. -/
theorem takesPart_context {offset : Int} {size : Nat} :
    takesPart .context offset size = true ↔
      (ContextField.atOffset? offset = some .interface ∨
        ContextField.atOffset? offset = some .queue) ∧ size ≠ 4 := by
  have start : AbstractValue.context.offset + offset = offset := Int.zero_add offset
  rw [takesPart, start]
  rcases ContextField.atOffset? offset with _ | _ | _ | _ | _ | _ <;>
    simp [AbstractValue.context, AbstractValue.pointer]

theorem ContextField.bounds_of_atOffset
    {offset : Int} {field : ContextField}
    (found : ContextField.atOffset? offset = some field) :
    (field.offset : Int) ≤ offset ∧ offset < field.limit := by
  have met := List.find?_some found
  simpa only [Bool.and_eq_true, decide_eq_true_eq] using met

/-- An access that lies in one field of the context. -/
structure ContextField.Holds (field : ContextField) (offset : Int) (size : Nat) : Prop where
  found : ContextField.atOffset? offset = some field
  start : (field.offset : Int) ≤ offset ∧ offset < field.limit
  stop : offset + size ≤ field.limit

/-- A context access that the check lets pass lies inside one field. -/
theorem contextAccess_holds
    {offset : Int} {size : Nat} {stored? : Option AbstractValue} {value : AbstractValue}
    (passed : checkContextAccess offset size stored? = .ok value) (short : size < 2 ^ 62) :
    ∃ field : ContextField, field.Holds offset size ∧ field.Grants offset size stored? value := by
  rcases checkContextAccess_eq_ok passed with ⟨field, found, stop, grants⟩
  have start := ContextField.bounds_of_atOffset found
  have last : field.limit ≤ ContextField.recordSize := by cases field <;> decide
  have whole : ContextField.recordSize = 56 := rfl
  rw [Word.wrapSigned_of_range (by omega) (by omega)] at stop
  exact ⟨field, ⟨found, start, stop⟩, grants⟩

/-- What passed the check lies in the record. -/
theorem place_of_checkContextAccess
    {offset : Int} {size : Nat} {stored? : Option AbstractValue} {value : AbstractValue}
    (passed : checkContextAccess offset size stored? = .ok value) (short : size < 2 ^ 62) :
    ∃ place : Nat, offset = place ∧ place < 2 ^ 32 := by
  rcases contextAccess_holds passed short with ⟨field, holds, _⟩
  have start := holds.start
  have last : field.limit ≤ ContextField.recordSize := by cases field <;> decide
  have whole : ContextField.recordSize = 56 := rfl
  exact ⟨offset.toNat, by omega, by omega⟩

section

variable {state : AbstractState} {scene : Scene} {valuation : Nat → Word}
variable {machine : Machine} {twin : Bytes} {memory : Memory}
variable {pointer value : AbstractValue} {word : Word} {offset : Int} {length : Nat}

/-- An access to the context that passed the check names a place in it. -/
theorem names_of_checkContextAccess
    {stored? : Option AbstractValue}
    (describes : (state.reading scene valuation memory).Describes pointer word)
    (isContext : pointer.kind = .context) (short : length ≤ 8)
    (lies : checkContextAccess (pointer.offset + offset) length stored? = .ok value) :
    ∃ place : Nat, pointer.offset + offset = place ∧ place < 2 ^ 32 ∧
      RegionAddress.Names (word + BitVec.ofInt 64 offset) RegionAddress.context place ∧
        RegionAddress.region (word + BitVec.ofInt 64 offset) ≠ RegionAddress.stack := by
  rcases place_of_checkContextAccess lies (by omega) with ⟨place, fixed, small⟩
  have names := names_context describes isContext fixed small
  refine ⟨place, fixed, small, names, ?_⟩
  rw [names.region]
  decide

/-- The bytes of an access to the frame have a place in both stacks. -/
structure InStacks (scene : Scene) (memory : Memory) (twin : Bytes) (address : Word)
    (first length : Nat) : Prop where
  covered : scene.Covers first
  names : RegionAddress.Names address RegionAddress.stack (scene.position first)
  room : scene.position first + length ≤ memory.stack.size
  room' : scene.position first + length ≤ twin.size

/-- An access to the frame falls in both stacks or, when these do not hold all of the frame, behind
the end of the packet. -/
theorem AbstractState.Represents.inStacks
    {first : Nat}
    (represents : state.Represents scene valuation machine twin) (roomy : scene.Roomy)
    (describes : (state.reading scene valuation machine.memory).Describes pointer word)
    (isStack : pointer.kind = .stack)
    (inside : StackFrame.Inside (pointer.offset + offset) length first) :
    InStacks scene machine.memory twin (word + BitVec.ofInt 64 offset) first length ∨
      (¬ scene.HoldsFrame ∧ ∃ place, machine.memory.packet.size ≤ place ∧
        RegionAddress.Names (word + BitVec.ofInt 64 offset) RegionAddress.packet place) := by
  have sound := represents.sound
  rcases names_stack sound roomy describes isStack inside with
    ⟨covered, names⟩ | ⟨missing, place, outside, names⟩
  · have room := Scene.position_le covered inside.stop
    rw [← sound.stackSize] at room
    exact .inl ⟨covered, names, room, room.trans_eq represents.frame.size.symm⟩
  · rw [← sound.packetSize] at outside
    exact .inr ⟨missing, place, outside, names⟩

/-- Both memories hold the word at the address, and the value describes it. -/
def Gives (reading : Interpretation) (twin : Bytes) (address : Word) (length : Nat)
    (value : AbstractValue) : Prop :=
  ∃ loaded, reading.memory.load? address length = some loaded ∧
    (reading.memory.withStack twin).load? address length = some loaded ∧
      reading.Describes value loaded

theorem gives_elsewhere
    {reading : Interpretation} {address loaded : Word}
    (elsewhere : RegionAddress.region address ≠ RegionAddress.stack)
    (there : reading.memory.load? address length = some loaded)
    (describes : reading.Describes value loaded) :
    Gives reading twin address length value :=
  ⟨loaded, there, by rw [Memory.load?_withStack elsewhere, there], describes⟩

theorem describes_packet {reading : Interpretation} (zero : reading.valuation 0 = 0) :
    reading.Describes .packet (RegionAddress.make RegionAddress.packet 0) := by
  refine ⟨⟨?_, ?_, fun absurdity => absurd absurdity (Nat.lt_irrefl 0)⟩,
    fun absurdity => Bool.noConfusion absurdity,
      show (0 : Int).natAbs < pointerOffsetLimit by decide⟩
  · show _ = _ + BitVec.ofInt 64 0 + reading.valuation 0
    rw [zero]
    decide
  · show reading.valuation 0 ∈ Bounds.constant 0
    rw [zero]
    exact Bounds.mem_constant.mpr rfl

theorem describes_packetEnd (reading : Interpretation) :
    reading.Describes .packetEnd reading.memory.packetEnd :=
  ⟨rfl, fun absurdity => Bool.noConfusion absurdity,
    show (0 : Int).natAbs < pointerOffsetLimit by decide⟩

/-- A word of so many bytes is described by the bounds of that width. -/
theorem describes_loaded
    {reading : Interpretation} {loaded : Word}
    (bounded : loaded.toNat < 2 ^ (length * 8)) :
    reading.Describes (.scalar (.ofWidth length)) loaded :=
  Interpretation.describes_scalar (Bounds.ofWidth_mem bounded)

/-- What is no field of the context taken whole comes from the scratch area, if at all. -/
theorem loadContext?_of_part
    {place : Nat}
    (notStart : ¬ (place = 0 ∧ length = 8)) (notEnd : ¬ (place = 8 ∧ length = 8))
    (notInterface : ¬ (place = 16 ∧ length = 4)) (notQueue : ¬ (place = 20 ∧ length = 4)) :
    memory.loadContext? place length =
      (Memory.scratchOffset? place).bind fun offset =>
        (Bytes.read? memory.scratch offset length).map Word.ofBytes := by
  simp only [Memory.loadContext?, ContextField.offset, notStart, notEnd, notInterface, notQueue,
    if_false]
  cases Memory.scratchOffset? place with
  | none => rfl
  | some offset => cases read : Bytes.read? memory.scratch offset length <;> simp [read]

/-- An attribute, a number of 32 bits, is found whole only. -/
theorem loadAttribute_sound
    {reading : Interpretation} {base place number : Nat}
    (isBase : base = 16 ∨ base = 20) (start : base ≤ place ∧ place < base + 4)
    (stop : place + length ≤ base + 4) (bound : number < 2 ^ 32)
    (found : reading.memory.loadContext? base 4 = some (BitVec.ofNat 64 number))
    (part : takesPart .context place length = true ↔ length ≠ 4) :
    (takesPart .context place length = false ∧
        ∃ loaded, reading.memory.loadContext? place length = some loaded ∧
          reading.Describes (.scalar (.ofWidth length)) loaded) ∨
      (takesPart .context place length = true ∧
        reading.memory.loadContext? place length = none) := by
  by_cases four : length = 4
  · have same : place = base := by omega
    subst four same
    refine .inl ⟨by simpa using part, _, found, describes_loaded ?_⟩
    rw [BitVec.toNat_ofNat]
    exact Nat.lt_of_le_of_lt (Nat.mod_le _ _) bound
  · refine .inr ⟨part.mpr four, ?_⟩
    rw [loadContext?_of_part (by omega) (by omega) (by omega) (by omega),
      Memory.scratchOffset?, ContextField.offset, if_pos (by omega), Option.bind_none]

/-- A load from the context, apart from parts of attributes. -/
theorem loadContext_sound
    {reading : Interpretation} {place : Nat}
    (fits : reading.memory.metadata.Fits)
    (sized : reading.memory.scratch.size = ContextField.scratch.size)
    (zero : reading.valuation 0 = 0)
    (passed : checkContextAccess place length none = .ok value) (short : length ≤ 8) :
    (takesPart .context place length = false ∧
        ∃ loaded, reading.memory.loadContext? place length = some loaded ∧
          reading.Describes value loaded) ∨
      (takesPart .context place length = true ∧
        reading.memory.loadContext? place length = none) := by
  rcases contextAccess_holds passed (by omega) with ⟨field, holds, grants⟩
  rcases grants with ⟨whole⟩
  have start := holds.start
  have stop := holds.stop
  have part := @takesPart_context place length
  rw [holds.found, ← Bool.not_eq_false] at part
  cases field with
  | packetStart =>
      rcases whole rfl with ⟨first, rfl⟩
      have same : place = 0 := Int.ofNat.inj first
      subst same
      exact .inl ⟨by simpa using part, _, rfl, describes_packet zero⟩
  | packetEnd =>
      rcases whole rfl with ⟨first, rfl⟩
      have same : place = 8 := Int.ofNat.inj first
      subst same
      exact .inl ⟨by simpa using part, _, rfl, describes_packetEnd reading⟩
  | interface =>
      simp only [ContextField.offset, ContextField.limit, ContextField.size] at start stop
      exact loadAttribute_sound (.inl rfl) (by omega) (by omega) fits.interface rfl
        (by simpa using part)
  | queue =>
      simp only [ContextField.offset, ContextField.limit, ContextField.size] at start stop
      exact loadAttribute_sound (.inr rfl) (by omega) (by omega) fits.queue rfl
        (by simpa using part)
  | scratch =>
      simp only [ContextField.offset, ContextField.limit, ContextField.size] at start stop
      have inside : place - 24 + length ≤ reading.memory.scratch.size := by
        rw [sized, ContextField.size]
        omega
      refine .inl ⟨by simpa using part,
        Word.ofBytes (Bytes.slice reading.memory.scratch (place - 24) length), ?_,
        describes_loaded ?_⟩
      · rw [loadContext?_of_part (by omega) (by omega) (by omega) (by omega),
          Memory.scratchOffset?, ContextField.offset, if_neg (by omega), Option.bind_some,
          Bytes.read?_of_inside inside, Option.map_some]
      · have bounded :=
          Word.toNat_ofBytes_lt (Bytes.slice reading.memory.scratch (place - 24) length)
        rwa [Bytes.slice_length inside] at bounded

/-- A load past the end of the packet fails. -/
theorem misses_packet
    {address : Word} {place : Nat}
    (names : RegionAddress.Names address RegionAddress.packet place) (nonempty : 0 < length)
    (outside : memory.packet.size ≤ place) :
    memory.load? address length = none := by
  rw [Memory.load?_packet names, Bytes.read?, if_neg, Option.map_none]
  rw [Bytes.covers_iff]
  omega

theorem gives_of_falls
    {reading : Interpretation} {address : Word}
    (falls : reading.memory.Falls address length) (short : length ≤ 8) :
    Gives reading twin address length (.scalar (.ofWidth length)) := by
  rcases falls.load short with ⟨loaded, there, bounded⟩
  exact gives_elsewhere falls.elsewhere there (describes_loaded bounded)

/-- A load from the context. -/
theorem gives_of_context
    (represents : state.Represents scene valuation machine twin)
    (describes : (state.reading scene valuation machine.memory).Describes pointer word)
    (isContext : pointer.kind = .context) (short : length ≤ 8)
    (lies : checkContextAccess (pointer.offset + offset) length none = .ok value) :
    Gives (state.reading scene valuation machine.memory) twin (word + BitVec.ofInt 64 offset) length
        value ∨
      (machine.memory.load? (word + BitVec.ofInt 64 offset) length = none ∧
        (machine.memory.withStack twin).load? (word + BitVec.ofInt 64 offset) length = none ∧
          takesPart pointer offset length = true) := by
  have sound := represents.sound
  rcases names_of_checkContextAccess describes isContext short lies with
    ⟨place, fixed, small, names, elsewhere⟩
  rw [fixed] at lies
  rcases @loadContext_sound _ _ (state.reading scene valuation machine.memory) _ sound.metadata
      sound.scratchSize represents.zero lies short with
    ⟨_, loaded, there, loadedDescribes⟩ | ⟨part, missing⟩
  · exact .inl (gives_elsewhere elsewhere ((Memory.load?_context names).trans there)
      loadedDescribes)
  · have missing' : machine.memory.load? (word + BitVec.ofInt 64 offset) length = none :=
      (Memory.load?_context names).trans missing
    refine .inr ⟨missing', by rw [Memory.load?_withStack elsewhere, missing'], ?_⟩
    rwa [takesPart_of_context isContext, fixed]

/-- A load from the frame. -/
theorem gives_of_frame
    (represents : state.Represents scene valuation machine twin) (roomy : scene.Roomy)
    (describes : (state.reading scene valuation machine.memory).Describes pointer word)
    (isStack : pointer.kind = .stack) (nonempty : 0 < length) (short : length ≤ 8)
    (reads : state.stack.read (pointer.offset + offset) length = .ok value) :
    Gives (state.reading scene valuation machine.memory) twin (word + BitVec.ofInt 64 offset) length
        value ∨
      (machine.memory.load? (word + BitVec.ofInt 64 offset) length = none ∧
        (machine.memory.withStack twin).load? (word + BitVec.ofInt 64 offset) length = none ∧
          ¬ scene.HoldsFrame) := by
  rcases represents.frame.read reads (by omega) represents.sound.stackSize with
    ⟨first, inside, yields⟩
  rcases represents.inStacks roomy describes isStack inside with
    places | ⟨missing, place, outside, names⟩
  · rcases yields places.covered with ⟨same, loadedDescribes⟩
    refine .inl ⟨_, ?_, ?_, loadedDescribes⟩
    · show machine.memory.load? _ _ = _
      rw [Memory.load?_stack places.names, Bytes.read?_of_inside places.room, Option.map_some]
      rfl
    · rw [same, Memory.load?_stack places.names]
      show (Bytes.read? twin _ _).map _ = _
      rw [Bytes.read?_of_inside places.room', Option.map_some]
      rfl
  · exact .inr ⟨misses_packet names nonempty outside, misses_packet names nonempty outside, missing⟩

/-- A load through a pointer of any kind. -/
theorem load_sound
    {focus focus' : Focus}
    (represents : focus.state.Represents scene valuation machine twin) (roomy : scene.Roomy)
    (describes : (focus.state.reading scene valuation machine.memory).Describes pointer word)
    (nonempty : 0 < length) (short : length ≤ 8) (close : offset.natAbs < pointerOffsetLimit)
    (present : pointer.mayBeNull = false)
    (grants : focus.Grants scene.setting pointer offset length none value focus') :
    focus'.state = focus.state ∧
      (Gives (focus.state.reading scene valuation machine.memory) twin
          (word + BitVec.ofInt 64 offset) length value ∨
        (machine.memory.load? (word + BitVec.ofInt 64 offset) length = none ∧
          (machine.memory.withStack twin).load? (word + BitVec.ofInt 64 offset) length = none ∧
            (¬ scene.HoldsFrame ∨ takesPart pointer offset length = true))) := by
  have sound := represents.sound
  cases grants with
  | context isContext lies =>
      rcases gives_of_context represents describes isContext short lies with
        gives | ⟨here, there, part⟩
      · exact ⟨rfl, .inl gives⟩
      · exact ⟨rfl, .inr ⟨here, there, .inr part⟩⟩
  | fill isStack reads =>
      rcases gives_of_frame represents roomy describes isStack nonempty short reads with
        gives | ⟨here, there, missing⟩
      · exact ⟨rfl, .inl gives⟩
      · exact ⟨rfl, .inr ⟨here, there, .inl missing⟩⟩
  | packet isPacket _ lies =>
      exact ⟨rfl, .inl (gives_of_falls
        (falls_packet sound describes isPacket nonempty (by omega) close lies) short)⟩
  | mapValue isMapValue declared lies =>
      rcases falls_mapValue sound describes isMapValue present declared lies with
        ⟨index, place, id, cell, names, region, there, inside, _⟩
      exact ⟨rfl, .inl (gives_of_falls
        (.mapValue index place id cell names region there inside) short)⟩
  | record isRecord lies =>
      rcases falls_record sound describes isRecord present lies with
        ⟨index, place, number, record, cell, names, region, there, inside⟩
      exact ⟨rfl, .inl (gives_of_falls
        (.record index place number record cell names region there inside) short)⟩

end

end PacketFilter
