import PacketFilter.Proofs.Storing
import PacketFilter.Verifier.Atomic

/-!
# Atomic updates

An update in place that was checked is carried out with either stack and finds
the same old integer in both.  In a map value it is the alignment check that
keeps it within one lane.
-/

namespace PacketFilter

/-- The bits below a power of two that no member of the bounds has set. -/
theorem mod_of_aligned
    {bounds : Bounds} {word : Word} {exponent : Nat}
    (member : word ∈ bounds) (small : exponent ≤ 3)
    (aligned : bounds.bits.unsignedMax &&& BitVec.ofNat 64 (2 ^ exponent - 1) = 0) :
    word.toNat % 2 ^ exponent = 0 := by
  have covered : KnownBits.Covered (word &&& BitVec.ofNat 64 (2 ^ exponent - 1))
      (bounds.bits.unsignedMax &&& BitVec.ofNat 64 (2 ^ exponent - 1)) := by
    intro index set
    rw [BitVec.getLsbD_and, Bool.and_eq_true] at set ⊢
    exact ⟨KnownBits.covered_unsignedMax member.1 index set.1, set.2⟩
  have bounded := KnownBits.covered_toNat_le covered
  have power : 2 ^ exponent ≤ 8 := Nat.pow_le_pow_right (by decide) small
  rw [aligned, BitVec.toNat_and, BitVec.toNat_ofNat, Nat.mod_eq_of_lt (by omega),
    Nat.and_two_pow_sub_one_eq_mod] at bounded
  exact Nat.le_zero.mp bounded

theorem AccessSize.bytes_eq (size : AccessSize) :
    ∃ exponent, exponent ≤ 3 ∧ size.bytes = 2 ^ exponent := by
  cases size with
  | byte => exact ⟨0, by decide, rfl⟩
  | half => exact ⟨1, by decide, rfl⟩
  | word => exact ⟨2, by decide, rfl⟩
  | double => exact ⟨3, by decide, rfl⟩

theorem AccessSize.bytes_pos (size : AccessSize) : 0 < size.bytes := by
  cases size <;> decide

theorem AccessSize.bytes_le (size : AccessSize) : size.bytes ≤ 8 := by
  cases size <;> decide

theorem isLane_of_aligned
    {pointer : AbstractValue} {offset : Int} {size : AccessSize} {change : Word} {place : Nat}
    (aligned : checkAligned pointer offset size.bytes = .ok ()) (member : change ∈ pointer.bounds)
    (moved : pointer.offset + offset + change.toNat = place) :
    Cell.isLane place size.bytes = true := by
  simp only [checkAligned, demand_eq_ok] at aligned
  rcases aligned with ⟨fixed, unset⟩
  rcases size.bytes_eq with ⟨exponent, small, bytes⟩
  rw [bytes] at unset
  have low := mod_of_aligned member small unset
  rw [← bytes] at low
  have positive := size.bytes_pos
  have short := size.bytes_le
  have whole : place % size.bytes = 0 := by
    have divides : (size.bytes : Int) ∣ place := by
      rw [← moved]
      exact Int.dvd_add (Int.dvd_of_emod_eq_zero fixed)
        (Int.natCast_dvd_natCast.mpr (Nat.dvd_of_mod_eq_zero low))
    exact Nat.mod_eq_zero_of_dvd (Int.natCast_dvd_natCast.mp divides)
  simp [Cell.isLane, whole, short]
  omega

section

variable {state : AbstractState} {scene : Scene} {valuation : Nat → Word}
variable {machine : Machine} {twin : Bytes}
variable {pointer : AbstractValue} {word : Word} {offset : Int}

/-- Both machines carry the update out and find the same integer, and the state describes what
comes of it. -/
def Updates (state : AbstractState) (scene : Scene) (valuation : Nat → Word) (machine : Machine)
    (twin : Bytes) (address : Word) (length : Nat) (change : Word → Word) : Prop :=
  ∃ old memory' twin', machine.memory.update? address length change = some (old, memory') ∧
    (machine.memory.withStack twin).update? address length change =
        some (old, memory'.withStack twin') ∧
      old.toNat < 2 ^ (length * 8) ∧
        state.Represents scene valuation { machine with memory := memory' } twin' ∧
          memory'.records = machine.memory.records

/-- Bytes of which nothing is known are written to the frame on both sides. -/
theorem AbstractState.Represents.writeDataFrame
    {frame : StackFrame} {data : List UInt8}
    (represents : state.Represents scene valuation machine twin)
    (written : state.stack.writeData offset data.length = .ok frame)
    (short : data.length < 2 ^ 62) :
    ∃ first, StackFrame.Inside offset data.length first ∧
      (scene.Covers first →
        ({ state with stack := frame } : AbstractState).Represents scene valuation
          (machine.overwriteStack (scene.position first) data)
          (twin.overwrite (scene.position first) data)) := by
  rcases StackFrame.writeData_eq_ok written short with ⟨first, inside, filled⟩
  refine ⟨first, inside, fun covered => represents.overwrite ?_⟩
  exact represents.frame.fill (overwrites represents frame covered inside.stop) filled
    fun absurdity => by cases absurdity

/-- An update of the frame. -/
theorem updates_of_frame
    {frame : StackFrame} {old : AbstractValue} {size : AccessSize} (change : Word → Word)
    (represents : state.Represents scene valuation machine twin) (roomy : scene.Roomy)
    (describes : (state.reading scene valuation machine.memory).Describes pointer word)
    (isStack : pointer.kind = .stack)
    (reads : state.stack.read (pointer.offset + offset) size.bytes = .ok old)
    (writes : state.stack.writeData (pointer.offset + offset) size.bytes = .ok frame) :
    Updates { state with stack := frame } scene valuation machine twin
        (word + BitVec.ofInt 64 offset) size.bytes change ∨
      (machine.memory.update? (word + BitVec.ofInt 64 offset) size.bytes change = none ∧
        (machine.memory.withStack twin).update? (word + BitVec.ofInt 64 offset) size.bytes change =
            none ∧
          ¬ scene.HoldsFrame) := by
  have short := size.bytes_le
  rcases represents.frame.read reads (by omega) represents.sound.stackSize with
    ⟨first, inside, yields⟩
  rcases represents.inStacks roomy describes isStack inside with places | ⟨missing, place, _, names⟩
  · have room := places.room
    have same : Bytes.slice machine.memory.stack (scene.position first) size.bytes =
        Bytes.slice twin (scene.position first) size.bytes := (yields places.covered).same
    have bounded := Word.toNat_ofBytes_lt
      (Bytes.slice machine.memory.stack (scene.position first) size.bytes)
    rw [Bytes.slice_length room] at bounded
    generalize loaded : Word.ofBytes
      (Bytes.slice machine.memory.stack (scene.position first) size.bytes) = integer at bounded
    have sized := Memory.layOut_length (change integer) size.bytes
    rw [← sized] at writes
    rcases represents.writeDataFrame writes (by omega) with ⟨first', inside', written⟩
    rw [sized] at inside'
    cases inside.unique inside'
    refine .inl ⟨integer, _, _, ?_, ?_, bounded, written places.covered, rfl⟩
    · rw [Memory.update?_stack change places.names, Bytes.read?_of_inside room, Option.bind_some,
        loaded, Memory.putWord?, if_pos (Bytes.covers_iff.mpr room), Option.map_some]
      rfl
    · rw [Memory.update?_stack change places.names]
      show (Bytes.read? twin _ _).bind (fun bytes => (Memory.putWord? twin _ _ _).map _) = _
      rw [Bytes.read?_of_inside places.room', Option.bind_some, ← same, loaded, Memory.putWord?,
        if_pos (Bytes.covers_iff.mpr places.room'), Option.map_some]
      rfl
  · exact .inr ⟨Memory.update?_packet change names, Memory.update?_packet change names, missing⟩

/-- An update of a map value. -/
theorem updates_of_mapValue
    {schema : Schema} {size : AccessSize} (change : Word → Word)
    (represents : state.Represents scene valuation machine twin)
    (describes : (state.reading scene valuation machine.memory).Describes pointer word)
    (isMapValue : pointer.kind = .mapValue) (present : pointer.mayBeNull = false)
    (aligned : checkAligned pointer offset size.bytes = .ok ())
    (declared : scene.setting.schema? pointer.mapIndex = some schema)
    (lies : checkRegionAccess pointer offset size.bytes schema.valueSize = .ok ()) :
    Updates state scene valuation machine twin (word + BitVec.ofInt 64 offset) size.bytes
      change := by
  rcases falls_mapValue represents.sound describes isMapValue present declared lies with
    ⟨index, place, id, cell, names, region, there, inside, member, moved, within⟩
  have lane := isLane_of_aligned aligned moved within
  have elsewhere : RegionAddress.region (word + BitVec.ofInt 64 offset) ≠ RegionAddress.stack := by
    rw [names.region]
    exact (Memory.dynamic_ne index).2.2
  have updated : machine.memory.update? (word + BitVec.ofInt 64 offset) size.bytes change =
      some (cell.integerAt place size.bytes, machine.memory.setMapCell id
        (cell.withInteger place size.bytes (change (cell.integerAt place size.bytes)))) := by
    rw [Memory.update?_dynamic change names, region]
    simp only [there, Option.bind_some]
    rw [Cell.update?_of_inside change inside lane, Option.map_some]
  rcases Cell.load?_of_inside inside size.bytes_le with ⟨loaded, load, bounded⟩
  have same : loaded = cell.integerAt place size.bytes := by
    simp only [Cell.load?] at load
    split at load
    case isTrue => exact (Option.some.inj load).symm
    case isFalse => cases load
  rw [same] at bounded
  have proceeds := Memory.setMapCell_proceeds represents.sound there
    (Cell.withInteger_size cell place size.bytes (change (cell.integerAt place size.bytes)))
  exact ⟨_, _, twin, updated,
    by rw [Memory.update?_withStack change elsewhere, updated, Option.map_some], bounded,
    represents.proceed proceeds, proceeds.records⟩

/-- An update through a pointer to the stack or to a map value. -/
theorem update_sound
    {focus focus' : Focus} {size : AccessSize} (change : Word → Word)
    (represents : focus.state.Represents scene valuation machine twin) (roomy : scene.Roomy)
    (describes : (focus.state.reading scene valuation machine.memory).Describes pointer word)
    (present : pointer.mayBeNull = false)
    (aligned : checkAligned pointer offset size.bytes = .ok ())
    (targets : focus.Targets scene.setting pointer offset size.bytes focus') :
    Updates focus'.state scene valuation machine twin (word + BitVec.ofInt 64 offset) size.bytes
        change ∨
      (machine.memory.update? (word + BitVec.ofInt 64 offset) size.bytes change = none ∧
        (machine.memory.withStack twin).update? (word + BitVec.ofInt 64 offset) size.bytes change =
            none ∧
          ¬ scene.HoldsFrame) := by
  cases targets with
  | stack isStack reads writes =>
      exact updates_of_frame change represents roomy describes isStack reads writes
  | mapValue isMapValue declared lies =>
      exact .inl (updates_of_mapValue change represents describes isMapValue present aligned
        declared lies)

end

end PacketFilter
