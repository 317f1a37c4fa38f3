import PacketFilter.Proofs.Checked
import PacketFilter.Proofs.Following
import PacketFilter.Proofs.Frame
import PacketFilter.Proofs.Region
import PacketFilter.Verifier.Memory

/-!
# Where accesses fall

A check that an access passed says where the access falls at run time: in the
packet, in the cell of a map value or of a record, in the stack, or in the
context.  Only an access to the frame may miss its region, when the stack is
too small for a frame; then it falls behind the end of the packet.
-/

namespace PacketFilter

theorem Word.moved_again (base change : Word) (fixed extra : Int) :
    base + BitVec.ofInt 64 fixed + change + BitVec.ofInt 64 extra =
      base + BitVec.ofInt 64 (fixed + extra) + change := by
  rw [BitVec.ofInt_add]
  ac_rfl

/-- Two moves of an address add up. -/
theorem Word.moved_twice (base : Word) (fixed extra : Int) :
    base + BitVec.ofInt 64 fixed + BitVec.ofInt 64 extra =
      base + BitVec.ofInt 64 (fixed + extra) := by
  rw [BitVec.ofInt_add]
  ac_rfl

namespace RegionAddress

/-- The base of a region, moved by a fixed offset alone. -/
theorem names_fixed
    {base : Word} {region' offset' : Nat} {fixed : Int}
    (isBase : base = make region' 0) (small : region' < 2 ^ 32) (short : offset' < 2 ^ 32)
    (place : fixed = offset') :
    Names (base + BitVec.ofInt 64 fixed) region' offset' := by
  have names :=
    @names_moved base 0#64 region' offset' fixed isBase small short (by simpa using place)
  rwa [BitVec.add_zero] at names

end RegionAddress

namespace Memory

/-- Where an access falls that stays clear of the context and of the stack. -/
inductive Falls (memory : Memory) (address : Word) (length : Nat) : Prop where
  | packet (place : Nat) (names : RegionAddress.Names address RegionAddress.packet place)
      (inside : place + length ≤ memory.packet.size)
  | mapValue (index place : Nat) (id : CellId) (cell : Cell)
      (names : RegionAddress.Names address (RegionAddress.firstDynamic + index) place)
      (region : memory.regions[index]? = some (.mapValue id))
      (there : memory.store.cell? id = some cell) (inside : place + length ≤ cell.size)
  | record (index place number : Nat) (record : OpenRecord) (cell : Cell)
      (names : RegionAddress.Names address (RegionAddress.firstDynamic + index) place)
      (region : memory.regions[index]? = some (.record number))
      (there : memory.recordCell? number place length = some (record, cell))
      (inside : place + length ≤ cell.size)

end Memory

/-! ## Regions of fixed size -/

/-- An access that passes lies inside its region, whichever member of the bounds moves it. -/
theorem checkRegionAccess_place
    {pointer : AbstractValue} {offset : Int} {length limit : Nat} {change : Word}
    (passed : checkRegionAccess pointer offset length limit = .ok ())
    (member : change ∈ pointer.bounds) :
    ∃ place : Nat, pointer.offset + offset + change.toNat = place ∧ place + length ≤ limit := by
  simp only [checkRegionAccess, demand_bind_eq_ok, demand_eq_ok] at passed
  rcases passed with ⟨⟨positive, least⟩, reach⟩
  rcases Bounds.mem_iff.mp member with ⟨_, ⟨_, below⟩, above, _⟩
  have sign := Word.toInt_cases change
  refine ⟨(pointer.offset + offset + change.toNat).toNat, ?_, ?_⟩
  · omega
  · omega

/-- A checked access through a pointer into a region handed out. -/
theorem Interpretation.Points.names
    {reading : Interpretation} {pointer : AbstractValue} {word : Word} {offset : Int}
    {length limit index : Nat}
    (points : reading.Points pointer word)
    (passed : checkRegionAccess pointer offset length limit = .ok ())
    (bound : limit < 2 ^ 32) (small : RegionAddress.firstDynamic + index < 2 ^ 32)
    (base : reading.valuation pointer.identity =
      RegionAddress.make (RegionAddress.firstDynamic + index) 0) :
    ∃ place, RegionAddress.Names (word + BitVec.ofInt 64 offset)
      (RegionAddress.firstDynamic + index) place ∧ place + length ≤ limit ∧
        ∃ change ∈ pointer.bounds, pointer.offset + offset + change.toNat = place := by
  rcases points.place with ⟨change, member, moved, _⟩
  rcases checkRegionAccess_place passed member with ⟨place, fixed, inside⟩
  refine ⟨place, ?_, inside, change, member, fixed⟩
  rw [moved, Word.moved_again]
  exact RegionAddress.names_moved base small (by omega) fixed

namespace Memory.Sound

variable {scene : Scene} {memory : Memory}

theorem wellFormed_of_map
    {id : MapId} {map : Map}
    (sound : memory.Sound scene) (there : memory.store.map? id = some map) :
    map.WellFormed :=
  sound.store id map there

end Memory.Sound

/-- The values of an accepted schema are neither empty nor larger than the limit. -/
theorem Schema.valueSize_le
    {schema : Schema}
    (fine : schema.problem? = none) :
    0 < schema.valueSize ∧ schema.valueSize ≤ Schema.sizeLimit := by
  unfold Schema.problem? at fine
  split at fine
  case isTrue => cases fine
  case isFalse =>
    split at fine
    case isTrue => cases fine
    case isFalse fits => omega

/-- The keys of maps that have keys are neither empty nor long. -/
theorem Schema.keySize_le
    {schema : Schema}
    (fine : schema.problem? = none) :
    (schema.kind ≠ .ringBuffer → 0 < schema.keySize) ∧ schema.keySize ≤ Schema.sizeLimit := by
  unfold Schema.problem? at fine
  split at fine
  case isTrue => cases fine
  case isFalse =>
    split at fine
    case isTrue => cases fine
    case isFalse =>
      unfold Schema.keyProblem? at fine
      have limit : Schema.sizeLimit = 65536 := rfl
      split at fine <;> split at fine <;> simp_all <;> omega

section Access

variable {state : AbstractState} {scene : Scene} {valuation : Nat → Word} {memory : Memory}
variable {pointer : AbstractValue} {word : Word} {offset : Int} {length : Nat}

open Interpretation

/-- A checked access through a pointer to a map value. -/
theorem falls_mapValue
    {schema : Schema}
    (sound : memory.Sound scene)
    (describes : (state.reading scene valuation memory).Describes pointer word)
    (isMapValue : pointer.kind = .mapValue) (checked : pointer.mayBeNull = false)
    (declared : scene.setting.schema? pointer.mapIndex = some schema)
    (passed : checkRegionAccess pointer offset length schema.valueSize = .ok ()) :
    ∃ (index place : Nat) (id : CellId) (cell : Cell),
      RegionAddress.Names (word + BitVec.ofInt 64 offset)
          (RegionAddress.firstDynamic + index) place ∧
        memory.regions[index]? = some (.mapValue id) ∧ memory.store.cell? id = some cell ∧
          place + length ≤ cell.size ∧
            ∃ change ∈ pointer.bounds, pointer.offset + offset + change.toNat = place := by
  have byKind := describes.byKind
  simp only [Matches, isMapValue] at byKind
  rcases byKind with ⟨_, points, leads⟩
  rcases leads (points.nonNull checked) with ⟨id, ⟨index, base, held⟩, mapped⟩
  rcases sound.maps pointer.mapIndex schema declared with ⟨id', map, mapped', there, schemed⟩
  have same : id' = id.map := Option.some.inj (mapped'.symm.trans mapped)
  rcases sound.cells id (Array.mem_of_getElem? held) with ⟨map', there', numbered⟩
  rw [same, there'] at there
  cases there
  have wellFormed := sound.wellFormed_of_map there'
  have limit := (Schema.valueSize_le wellFormed.schema).2
  have small := (Memory.toNat_base sound.regions held).1
  rw [schemed] at limit
  rcases points.names passed (by unfold Schema.sizeLimit at limit; omega)
    (by unfold RegionAddress.mapHandle at small; omega) base with ⟨place, names, inside, moved⟩
  have cell : memory.store.cell? id = some map.cells[id.number] := by
    rw [Store.cell?, there', Option.bind_some, Map.cell?, Array.getElem?_eq_getElem numbered]
  refine ⟨index, place, id, map.cells[id.number], names, held, cell, ?_, moved⟩
  rw [wellFormed.cells _ (Array.getElem_mem numbered), schemed]
  exact inside

/-- A checked access through a pointer to a record. -/
theorem falls_record
    (sound : memory.Sound scene)
    (describes : (state.reading scene valuation memory).Describes pointer word)
    (isRecord : pointer.kind = .record) (checked : pointer.mayBeNull = false)
    (passed : checkRegionAccess pointer offset length pointer.size = .ok ()) :
    ∃ (index place number : Nat) (record : OpenRecord) (cell : Cell),
      RegionAddress.Names (word + BitVec.ofInt 64 offset)
          (RegionAddress.firstDynamic + index) place ∧
        memory.regions[index]? = some (.record number) ∧
          memory.recordCell? number place length = some (record, cell) ∧
            place + length ≤ cell.size := by
  have byKind := describes.byKind
  simp only [Matches, isRecord] at byKind
  rcases byKind with ⟨_, points, leads⟩
  rcases leads (points.nonNull checked) with ⟨_, number, record, ⟨index, base, held⟩, opened, sized⟩
  rcases sound.records number record opened with ⟨map, there, ringed, fits⟩
  have wellFormed := sound.wellFormed_of_map there
  have limit := (Schema.valueSize_le wellFormed.schema).2
  have small := (Memory.toNat_base sound.regions held).1
  rcases points.names passed (by unfold Schema.sizeLimit at limit; omega)
    (by unfold RegionAddress.mapHandle at small; omega) base with ⟨place, names, inside, _⟩
  have content := wellFormed.content
  cases kept : map.content with
  | ringBuffer ring =>
      simp only [kept, MapContent.Fits] at content
      have size := content.2.2.cell_size record.reservation.position
      rw [content.2.1] at size
      refine ⟨index, place, number, record, ring.cell record.reservation.position, names, held,
        ?_, by omega⟩
      have known : memory.record? number = some record := opened
      have lookup : memory.store.ring? record.map = some ring := by
        rw [Store.ring?, there, Option.bind_some, Map.ring?, kept]
      have short : ¬ record.reservation.length < place + length := by omega
      simp [Memory.recordCell?, known, lookup, short]
  | hash table => simp [kept, MapContent.Fits, ringed] at content
  | recencyHash table => simp [kept, MapContent.Fits, ringed] at content
  | array length => simp [kept, MapContent.Fits, ringed] at content
  | perWorkerArray workers length => simp [kept, MapContent.Fits, ringed] at content

/-- A checked access through a packet pointer lies in the packet. -/
theorem names_packet
    (sound : memory.Sound scene)
    (describes : (state.reading scene valuation memory).Describes pointer word)
    (isPacket : pointer.kind = .packet) (nonempty : 0 < length) (short : length < 2 ^ 62)
    (close : offset.natAbs < pointerOffsetLimit)
    (passed : checkPacketAccess pointer offset length = .ok ()) :
    ∃ place, RegionAddress.Names (word + BitVec.ofInt 64 offset) RegionAddress.packet place ∧
      place + length ≤ memory.packet.size := by
  have byKind := describes.byKind
  have near := describes.near
  simp only [Matches, isPacket] at byKind
  simp only [checkPacketAccess, demand_bind_eq_ok, demand_eq_ok] at passed
  rcases passed with ⟨low, positive, ⟨_, far⟩, ranged⟩
  have limit : pointerOffsetLimit = 0x20000000 := rfl
  have limit' : packetOffsetLimit = 0xffff := rfl
  rw [Word.wrapSigned_of_range (by omega) (by omega)] at far ranged
  rcases Bounds.mem_iff.mp byKind.change with ⟨_, ⟨_, below⟩, _, _⟩
  have inside := byKind.range (by omega) (by omega)
  have size := sound.packetSize
  simp only [AbstractState.reading] at below inside
  refine ⟨(pointer.offset + offset + (valuation pointer.identity).toNat).toNat, ?_, by omega⟩
  rw [byKind.place, Word.moved_again]
  exact RegionAddress.names_moved rfl (by decide) (by omega)
    (by simp only [AbstractState.reading]; omega)

/-- An access to the packet that passes falls inside it. -/
theorem falls_packet
    (sound : memory.Sound scene)
    (describes : (state.reading scene valuation memory).Describes pointer word)
    (isPacket : pointer.kind = .packet) (nonempty : 0 < length) (short : length < 2 ^ 62)
    (close : offset.natAbs < pointerOffsetLimit)
    (passed : checkPacketAccess pointer offset length = .ok ()) :
    memory.Falls (word + BitVec.ofInt 64 offset) length := by
  rcases names_packet sound describes isPacket nonempty short close passed with
    ⟨place, names, inside⟩
  exact .packet place names inside

/-- An access to the context at a place that was checked. -/
theorem names_context
    {place : Nat}
    (describes : (state.reading scene valuation memory).Describes pointer word)
    (isContext : pointer.kind = .context) (fixed : pointer.offset + offset = place)
    (short : place < 2 ^ 32) :
    RegionAddress.Names (word + BitVec.ofInt 64 offset) RegionAddress.context place := by
  have byKind := describes.byKind
  simp only [Matches, isContext] at byKind
  rw [byKind, Word.moved_twice]
  exact RegionAddress.names_fixed rfl (by decide) short fixed

/-- An access to the frame falls in the stack or, when the stack does not hold all of the frame,
behind the end of the packet. -/
theorem names_stack
    {first : Nat}
    (sound : memory.Sound scene) (roomy : scene.Roomy)
    (describes : (state.reading scene valuation memory).Describes pointer word)
    (isStack : pointer.kind = .stack)
    (inside : StackFrame.Inside (pointer.offset + offset) length first) :
    (scene.Covers first ∧
        RegionAddress.Names (word + BitVec.ofInt 64 offset) RegionAddress.stack
          (scene.position first)) ∨
      (¬ scene.HoldsFrame ∧ ∃ place, scene.packet.size ≤ place ∧
        RegionAddress.Names (word + BitVec.ofInt 64 offset) RegionAddress.packet place) := by
  have byKind := describes.byKind
  simp only [Matches, isStack] at byKind
  rw [byKind, Word.moved_twice]
  have base : memory.framePointer.toNat = 3 * 2 ^ 32 + scene.frameEnd := by
    rw [Memory.framePointer, RegionAddress.toNat_make, sound.stackSize]
    rfl
  have truncated : scene.frameEnd < 2 ^ 32 := Nat.mod_lt _ (by decide)
  have place := inside.offset
  have whole : StackFrame.size = 512 := rfl
  have start := inside.start
  have moved (position : Nat)
    (value : (3 * 2 ^ 32 + scene.frameEnd + first : Int) = position + 512) :
      (memory.framePointer + BitVec.ofInt 64 (pointer.offset + offset)).toNat = position := by
    have sum :=
      @RegionAddress.toNat_moved memory.framePointer 0#64 (pointer.offset + offset) position
      (by rw [base, place, BitVec.toNat_zero]; omega) (by omega)
    rwa [BitVec.add_zero] at sum
  by_cases covered : scene.Covers first
  · refine .inl ⟨covered, ?_⟩
    simp only [Scene.Covers] at covered
    apply RegionAddress.names_of_toNat
    · apply moved
      simp only [Scene.position, RegionAddress.stack]
      omega
    · simp only [Scene.position]
      omega
  · simp only [Scene.Covers, Nat.not_le] at covered
    have missing : ¬ scene.HoldsFrame := by
      simp only [Scene.HoldsFrame]
      omega
    refine .inr ⟨missing, 2 ^ 32 + scene.frameEnd + first - StackFrame.size, ?_, ?_⟩
    · have room := roomy.resolve_left missing
      omega
    · apply RegionAddress.names_of_toNat
      · apply moved
        simp only [RegionAddress.packet]
        omega
      · omega

end Access

end PacketFilter
