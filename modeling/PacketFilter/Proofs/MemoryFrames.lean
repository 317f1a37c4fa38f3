import PacketFilter.Proofs.Homes

/-!
# What accesses leave alone

A store changes the bytes that it addresses in one home, which is all that
regions with that home have in common, and nothing else of the memory; what was
stored is loaded and read again.  An update is a load and a store in one, and an
access that is refused changes nothing.
-/

namespace PacketFilter

namespace Word

/-- The low bytes of a word are the word cut to as many. -/
theorem toNat_ofBytes_toBytes (value : Word) {length : Nat} (short : length ≤ 8) :
    (ofBytes (value.toBytes length)).toNat = value.toNat % 2 ^ (length * 8) := by
  have cut : ofBytes (value.toBytes length) = value.lowBits (length * 8) := by
    apply BitVec.eq_of_getLsbD_eq
    intro bit low
    have mask : (lowMask (length * 8)).getLsbD bit = decide (bit < length * 8) := by
      rw [BitVec.getLsbD, toNat_lowMask (by omega), Nat.testBit_two_pow_sub_one]
    rw [ofBytes_bit _ low, lowBits, BitVec.getLsbD_and, mask]
    by_cases inside : bit / 8 < length
    · have place : bit / 8 * 8 + bit % 8 = bit := by omega
      rw [toBytes_getElem? value short inside, Option.getD_some, BitVec.getLsbD_setWidth,
        BitVec.getLsbD_ushiftRight, place, decide_eq_true (Nat.mod_lt bit (by decide)),
        decide_eq_true (show bit < length * 8 by omega), Bool.true_and, Bool.and_true]
    · rw [List.getElem?_eq_none (by rw [toBytes_length]; omega), Option.getD_none,
        decide_eq_false (by omega), Bool.and_false]
      exact BitVec.getLsbD_zero
  rw [cut, toNat_lowBits (by omega)]

end Word

/-- An update of a cell that is not refused is a load and a store in one. -/
theorem Cell.load?_store?_of_update?
    {cell changed : Cell} {offset length : Nat} {change : Word → Word} {old : Word}
    (updated : cell.update? offset length change = some (old, changed)) :
    cell.load? offset length = some old ∧
      cell.store? offset length (change old) = some changed := by
  rw [update?_eq_ite, Option.ite_none_right_eq_some] at updated
  rcases updated with ⟨⟨inside, lane⟩, ⟨⟩⟩
  have fits := And.intro inside (isLane_iff.mp lane).2.1
  rw [load?_eq_ite, store?_eq_ite, if_pos fits, if_pos fits]
  exact ⟨rfl, rfl⟩

namespace RegionAddress

/-- Moving on inside a region. -/
theorem names_add {address : Word} {index : Nat} (short : offset address + index < 2 ^ 32) :
    Names (address + BitVec.ofNat 64 index) (region address) (offset address + index) := by
  have bounded := address.isLt
  rw [offset_eq_mod] at short
  refine names_of_toNat ?_ (by rw [offset_eq_mod]; exact short)
  rw [BitVec.toNat_add, BitVec.toNat_ofNat, region_eq_div, offset_eq_mod]
  omega

end RegionAddress

namespace Memory

open RegionAddress

/-- From one memory to the other the data were written in a window, and that is all. -/
structure Wrote (memory : Memory) (window : Window) (data : List UInt8) (after : Memory) :
    Prop where
  /-- Regions keep their homes, so that those with this one see the data, and no others. -/
  homes : ∀ number, after.home? number = memory.home? number
  others : ∀ other, other ≠ window.home → after.bytesAt? other = memory.bytesAt? other
  changed : ∃ written, after.bytesAt? window.home = some written ∧
    ∀ index, written[index]? =
      if window.start ≤ index ∧ index < window.start + data.length then data[index - window.start]?
      else window.bytes[index]?
  /-- With the old bytes put back, all of the memory is as it was. -/
  restored : after.putAt window.home window.bytes = memory

variable {memory after : Memory} {address value old : Word} {window : Window}
variable {index count length : Nat} {data : Bytes} {change : Word → Word}

/-! ## Stores -/

/-- A store that is not refused writes its window, which has the new bytes afterwards. -/
theorem exists_window_of_store? (divides : length ∣ 8) (some : 0 < length)
    (stored : memory.store? address length value = Option.some after) :
    ∃ window written, memory.window? address length = Option.some window ∧
      written = window.bytes.overwrite window.start (value.toBytes length) ∧
      after = memory.putAt window.home written ∧
      after.window? address length = Option.some { window with bytes := written } ∧
      written.slice window.start length = value.toBytes length := by
  rw [store?_eq memory address value divides] at stored
  rcases Option.map_eq_some_iff.mp stored with ⟨window, found, rfl⟩
  have inside := (window?_eq_some found).2.2.2.1
  refine ⟨window, _, found, rfl, rfl, window?_putAt found some (Bytes.overwrite_size _ _ _), ?_⟩
  rw [← Word.toBytes_length value length] at inside
  have back := Bytes.slice_overwrite inside
  rw [Word.toBytes_length] at back
  exact back

/-- A load finds what a store of the same size left. -/
theorem load?_of_store? (divides : length ∣ 8) (some : 0 < length)
    (stored : memory.store? address length value = Option.some after) :
    after.load? address length =
      Option.some (BitVec.ofNat 64 (value.toNat % 2 ^ (length * 8))) := by
  have short : length ≤ 8 := Nat.le_of_dvd (by decide) divides
  rcases exists_window_of_store? divides some stored with ⟨window, written, -, -, -, found, back⟩
  rw [load?_of_window? divides found]
  dsimp only
  rw [back]
  refine congrArg Option.some (BitVec.eq_of_toNat_eq ?_)
  have small : value.toNat % 2 ^ (length * 8) < 2 ^ 64 :=
    Nat.lt_of_le_of_lt (Nat.mod_le _ _) value.isLt
  rw [Word.toNat_ofBytes_toBytes value short, BitVec.toNat_ofNat, Nat.mod_eq_of_lt small]

/-- A read finds the bytes that a store left, outside the context. -/
theorem read?_of_store? (divides : length ∣ 8) (some : 0 < length)
    (stored : memory.store? address length value = Option.some after)
    (other : region address ≠ RegionAddress.context) :
    after.read? address length = Option.some (value.toBytes length).toArray := by
  rcases exists_window_of_store? divides some stored with ⟨window, written, -, -, -, found, back⟩
  rw [read?_eq after length other, found, Option.map_some]
  dsimp only
  rw [back]

/-- A store that is not refused writes the low bytes of its value where it falls, and nothing
else. -/
theorem wrote_of_store? (divides : length ∣ 8) (some : 0 < length)
    (stored : memory.store? address length value = Option.some after) :
    ∃ window, memory.window? address length = Option.some window ∧
      memory.Wrote window (value.toBytes length) after := by
  rcases exists_window_of_store? divides some stored with ⟨window, written, found, same, rfl, -, -⟩
  rcases window?_eq_some found with ⟨-, held, -, inside, -⟩
  have nonempty : 0 < window.bytes.size := by omega
  refine ⟨window, found, home?_putAt, fun other apart => ?_, ⟨written, ?_, fun index => ?_⟩, ?_⟩
  · rw [bytesAt?_putAt held nonempty, if_neg (Ne.symm apart)]
  · rw [bytesAt?_putAt held nonempty, if_pos rfl]
  · rw [same, Bytes.overwrite_getElem?, Word.toBytes_length]
    exact if_congr (and_congr_right fun _ => and_iff_left_of_imp fun before => by omega) rfl rfl
  · rw [putAt_putAt, putAt_self held]

/-! ## Updates -/

/-- An update that is not refused is a load and a store in one. -/
theorem load?_store?_of_update?
    (updated : memory.update? address length change = some (old, after)) :
    memory.load? address length = some old ∧
      memory.store? address length (change old) = some after := by
  rcases names_cases address with ⟨place, names | names | names | ⟨index, names⟩ | names⟩
  · unfold update? at updated
    rw [names.region] at updated
    cases updated
  · rw [update?_packet change names] at updated
    cases updated
  · rw [update?_stack change names] at updated
    rcases Option.bind_eq_some_iff.mp updated with ⟨bytes, read, updated⟩
    rcases Option.map_eq_some_iff.mp updated with ⟨stack, put, ⟨⟩⟩
    rw [load?_stack names, store?_stack _ names, read, put]
    exact ⟨rfl, rfl⟩
  · rw [update?_dynamic change names] at updated
    rw [load?_dynamic names, store?_dynamic _ names]
    rcases region : memory.regions[index]? with _ | (id | number) <;> rw [region] at updated
    · cases updated
    · rcases Option.bind_eq_some_iff.mp updated with ⟨cell, there, found⟩
      rcases Option.map_eq_some_iff.mp found with ⟨⟨_, changed⟩, replaced, ⟨⟩⟩
      rcases Cell.load?_store?_of_update? replaced with ⟨loaded, stored⟩
      dsimp only
      rw [there, Option.bind_some, Option.bind_some, loaded, stored]
      exact ⟨rfl, rfl⟩
    · cases updated
  · unfold update? at updated
    rw [names.region] at updated
    cases updated

/-! ## Reading byte for byte -/

theorem read?_context (address : Word) (length : Nat)
    (isContext : region address = RegionAddress.context) : memory.read? address length = none := by
  unfold read?
  rw [isContext]
  rfl

/-- Integers are loaded from the bytes that are read. -/
theorem load?_eq_read? (memory : Memory) (divides : length ∣ 8)
    (other : region address ≠ RegionAddress.context) :
    memory.load? address length =
      (memory.read? address length).map fun data => Word.ofBytes data.toList := by
  rw [load?_eq memory divides other, read?_eq memory length other, Option.map_map]
  rfl

/-- A part of an access falls in the part of its window. -/
theorem window?_add (found : memory.window? address length = some window)
    (inside : index + count ≤ length) (short : offset address + index < 2 ^ 32) :
    memory.window? (address + BitVec.ofNat 64 index) count =
      some { window with start := window.start + index } := by
  rcases window?_eq_some found with ⟨homed, held, place, covered, within⟩
  have names := names_add short
  unfold window?
  dsimp only
  rw [names.region, names.offset, homed, Option.bind_some, held, Option.bind_some, place, if_pos]
  · rw [Nat.add_assoc, Nat.add_sub_cancel_left]
  · omega

/-- Every byte that is read is loaded from its address. -/
theorem load?_of_read? (read : memory.read? address count = some data) :
    data.size = count ∧
      ∀ index, (inside : index < data.size) → offset address + index < 2 ^ 32 →
        memory.load? (address + BitVec.ofNat 64 index) 1 =
          some (data[index].toBitVec.zeroExtend 64) := by
  have other : region address ≠ RegionAddress.context := fun isContext => by
    rw [read?_context address count isContext] at read
    cases read
  rw [read?_eq memory count other] at read
  rcases Option.map_eq_some_iff.mp read with ⟨window, found, rfl⟩
  have covered := (window?_eq_some found).2.2.2.1
  have size : (window.bytes.slice window.start count).length = count := Bytes.slice_length covered
  refine ⟨size, fun index inside short => ?_⟩
  have before : index < count := size ▸ inside
  have part := window?_add found (show index + 1 ≤ count from before) short
  have byte := Bytes.slice_getElem? window.bytes window.start count index
  rw [if_pos before, List.getElem?_eq_getElem inside] at byte
  have one := (Bytes.slice_succ byte.symm).trans (congrArg _ (Bytes.slice_zero window.bytes _))
  rw [load?_of_window? (one_dvd 8) part]
  refine congrArg some ((congrArg Word.ofBytes one).trans ?_)
  simp [Word.ofBytes]

end Memory

/-! ## Accesses that are refused -/

namespace Execution

variable {machine after : Machine} {fault : Fault} {address value : Word} {length : Nat}

/-- A load that fails leaves the machine as it was. -/
theorem load_of_fault (failed : (load address length).run machine = (.error fault, after)) :
    after = machine := by
  rw [run_load] at failed
  split at failed <;> cases failed
  rfl

/-- A store that fails leaves the machine as it was. -/
theorem store_of_fault (failed : (store address length value).run machine = (.error fault, after)) :
    after = machine := by
  rw [run_store] at failed
  split at failed <;> cases failed
  rfl

/-- An atomic operation that fails leaves the machine as it was. -/
theorem update_of_fault {change : Word → Word}
    (failed : (update address length change).run machine = (.error fault, after)) :
    after = machine := by
  rw [run_update] at failed
  split at failed <;> cases failed
  rfl

theorem readBytes_of_fault
    (failed : (readBytes address length).run machine = (.error fault, after)) :
    after = machine := by
  rw [run_readBytes] at failed
  split at failed <;> cases failed
  rfl

end Execution

/-! ## Accesses of one, two, four and eight bytes -/

/-- What is stored is loaded and read again, and nothing but its bytes is changed; an update is a
load and a store, and integers are made of the bytes that are read; an access that is refused leaves
the machine as it was. -/
theorem Memory.accesses_confined
    (machine : Machine) (address : Word) {length : Nat} (sized : length ∈ [1, 2, 4, 8]) :
    let memory := machine.memory
    let region := RegionAddress.region address
    (∀ value after, memory.store? address length value = some after →
      after.load? address length =
          some (BitVec.ofNat 64 (value.toNat % 2 ^ (length * 8))) ∧
        (region ≠ RegionAddress.context →
          after.read? address length = some (value.toBytes length).toArray) ∧
        ∃ window, memory.home? region = some window.home ∧
          memory.bytesAt? window.home = some window.bytes ∧
          RegionAddress.offset address = origin region + window.start ∧
          window.start + length ≤ window.bytes.size ∧
          window.start + length ≤ memory.room region window.bytes ∧
          memory.Wrote window (value.toBytes length) after) ∧
    (∀ change old after, memory.update? address length change = some (old, after) →
      memory.load? address length = some old ∧
        memory.store? address length (change old) = some after) ∧
    (region ≠ RegionAddress.context →
      memory.load? address length =
        (memory.read? address length).map fun data => Word.ofBytes data.toList) ∧
    (∀ count data, memory.read? address count = some data →
      data.size = count ∧
        ∀ index, (inside : index < data.size) → RegionAddress.offset address + index < 2 ^ 32 →
          memory.load? (address + BitVec.ofNat 64 index) 1 =
            some (data[index].toBitVec.zeroExtend 64)) ∧
    ∀ fault after,
      ((Execution.load address length).run machine = (.error fault, after) → after = machine) ∧
      (∀ value, (Execution.store address length value).run machine = (.error fault, after) →
        after = machine) ∧
      (∀ change, (Execution.update address length change).run machine = (.error fault, after) →
        after = machine) ∧
      ∀ count, (Execution.readBytes address count).run machine = (.error fault, after) →
        after = machine := by
  intro memory region
  have divides : length ∣ 8 := by
    revert length
    decide
  have some : 0 < length := Nat.pos_of_dvd_of_pos divides (by decide)
  refine ⟨fun value after stored => ⟨load?_of_store? divides some stored,
      read?_of_store? divides some stored, ?_⟩,
    fun change old after => load?_store?_of_update?, load?_eq_read? memory divides,
    fun count data => load?_of_read?, fun fault after => ⟨Execution.load_of_fault,
      fun value => Execution.store_of_fault, fun change => Execution.update_of_fault,
      fun count => Execution.readBytes_of_fault⟩⟩
  rcases wrote_of_store? divides some stored with ⟨window, found, wrote⟩
  rcases window?_eq_some found with ⟨homed, held, place, inside, within⟩
  exact ⟨window, homed, held, place, inside, within, wrote⟩

/-- Two regions have been handed out for the one value of an array. -/
def Machine.sharing : Machine where
  registers := .replicate 11 0
  memory :=
    { packet := #[1, 2, 3, 4]
      scratch := .replicate 32 0
      metadata := {}
      stack := .replicate 16 0
      regions := #[.mapValue ⟨0, 0⟩, .mapValue ⟨0, 0⟩]
      store := ((Store.create "a" (.array 8 1)).run (.forWorkers 1)).2 }

/-- What is stored through one of the regions is loaded through both. -/
theorem Memory.accesses_confined_sharing :
    4 ∈ [1, 2, 4, 8] ∧
    ∃ after, Machine.sharing.memory.store? (RegionAddress.make 4 2) 4 0x1deadbeef = some after ∧
      after.load? (RegionAddress.make 4 2) 4 = some 0xdeadbeef ∧
      after.load? (RegionAddress.make 5 2) 4 = some 0xdeadbeef ∧
      after.load? (RegionAddress.make 4 0) 2 = some 0 := by
  refine ⟨by decide, _, rfl, ?_, rfl, rfl⟩
  exact ((accesses_confined Machine.sharing (RegionAddress.make 4 2) (by decide)).1 0x1deadbeef _
    rfl).1

end PacketFilter
