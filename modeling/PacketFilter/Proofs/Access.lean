import PacketFilter.Proofs.Bytes
import PacketFilter.Proofs.Placement

/-!
# Accesses that cannot fail

An access that falls in the packet, in a map value or in a record is carried
out, whatever the stack holds, and leaves the memory as sound as it was.
-/

namespace PacketFilter

namespace Cell

variable {cell : Cell} {offset length : Nat}

theorem reach_le (offset length : Nat) : reach offset length ≤ length := by
  unfold reach
  split
  · exact Nat.min_le_left _ _
  · exact Nat.le_refl length

/-- A load inside a cell succeeds, and the word fits into the bytes that were loaded. -/
theorem load?_of_inside
    (inside : offset + length ≤ cell.size) (short : length ≤ 8) :
    ∃ loaded, cell.load? offset length = some loaded ∧ loaded.toNat < 2 ^ (length * 8) := by
  refine ⟨cell.integerAt offset length, ?_, ?_⟩
  · simp [load?, covers_iff.mpr inside, short]
  · have bounded := Word.toNat_ofBytes_lt (Bytes.slice cell.bytes offset (reach offset length))
    have reached := reach_le offset length
    have inside' : offset + reach offset length ≤ cell.bytes.size := by
      have size : cell.size = cell.bytes.size := rfl
      omega
    rw [Bytes.slice_length inside'] at bounded
    exact Nat.lt_of_lt_of_le bounded (Nat.pow_le_pow_right (by decide) (by omega))

theorem store?_of_inside
    (value : Word) (inside : offset + length ≤ cell.size) (short : length ≤ 8) :
    cell.store? offset length value = some (cell.withInteger offset length value) := by
  simp [store?, covers_iff.mpr inside, short]

/-- An update inside a cell gives back the old integer and puts the changed one in its place. -/
theorem update?_of_inside
    (change : Word → Word) (inside : offset + length ≤ cell.size) (lane : isLane offset length) :
    cell.update? offset length change =
      some (cell.integerAt offset length,
        cell.withInteger offset length (change (cell.integerAt offset length))) := by
  simp [update?, covers_iff.mpr inside, lane]

end Cell

namespace Memory

variable {scene : Scene} {memory : Memory}

/-! ## Changes that keep a memory sound -/

/-- Any stack of the same size will do. -/
theorem Sound.withStack
    {stack : Bytes}
    (sound : memory.Sound scene) (sized : stack.size = memory.stack.size) :
    (memory.withStack stack).Sound scene :=
  { sound with stackSize := sized.trans sound.stackSize }

theorem Sound.withScratch
    {scratch : Bytes}
    (sound : memory.Sound scene) (sized : scratch.size = memory.scratch.size) :
    Sound scene { memory with scratch } :=
  { sound with scratchSize := sized.trans sound.scratchSize }

/-- Another packet of the same size will do where programs may write to it. -/
theorem Sound.withPacket
    {packet : Bytes}
    (sound : memory.Sound scene) (sized : packet.size = memory.packet.size)
    (allowed : scene.setting.attach.allowsPacketWrite = true) :
    Sound scene { memory with packet } :=
  { sound with
    packetSize := sized.trans sound.packetSize
    packetKept := fun forbidden => absurd (allowed.symm.trans forbidden) Bool.noConfusion }

/-- A store that keeps its maps and the sizes of their values will do. -/
theorem Sound.withStore
    {store : Store}
    (sound : memory.Sound scene) (kept : memory.store.Kept store) :
    Sound scene { memory with store } := by
  refine { sound with store := kept.1, maps := ?_, cells := ?_, records := ?_ }
  · intro index schema declared
    rcases sound.maps index schema declared with ⟨id, map, mapped, there, schemed⟩
    rcases kept.2 id map there with ⟨map', there', same⟩
    exact ⟨id, map', mapped, there', same.schema.trans schemed⟩
  · intro id held
    rcases sound.cells id held with ⟨map, there, numbered⟩
    rcases kept.2 id.map map there with ⟨map', there', same⟩
    exact ⟨map', there', Nat.lt_of_lt_of_le numbered same.cells⟩
  · intro number record opened
    rcases sound.records number record opened with ⟨map, there, ringed, fits⟩
    rcases kept.2 record.map map there with ⟨map', there', same⟩
    rw [← same.schema] at ringed fits
    exact ⟨map', there', ringed, fits⟩

/-- A sound memory follows in which the stack and the records are the same. -/
structure Proceeds (scene : Scene) (before after : Memory) : Prop where
  sound : after.Sound scene
  follows : before.Follows after
  stack : after.stack = before.stack
  records : after.records = before.records

theorem Proceeds.refl (sound : memory.Sound scene) : Proceeds scene memory memory :=
  ⟨sound, .refl memory, rfl, rfl⟩

theorem Proceeds.trans
    {first second third : Memory}
    (earlier : Proceeds scene first second) (later : Proceeds scene second third) :
    Proceeds scene first third :=
  ⟨later.sound, earlier.follows.trans later.follows, later.stack.trans earlier.stack,
    later.records.trans earlier.records⟩

/-- A memory proceeds when only its store changes, as long as the maps are kept. -/
theorem Sound.proceeds_store
    {store : Store}
    (sound : memory.Sound scene) (kept : memory.store.Kept store) :
    Proceeds scene memory { memory with store } :=
  ⟨sound.withStore kept, ⟨rfl, rfl, fun _ _ there => there⟩, rfl, rfl⟩

/-! ## Accesses and the stack -/

section Elsewhere

variable {address : Word} {length : Nat} {stack : Bytes}

/-- What is loaded from elsewhere does not depend on the stack. -/
theorem load?_withStack
    (elsewhere : RegionAddress.region address ≠ RegionAddress.stack) :
    (memory.withStack stack).load? address length = memory.load? address length := by
  simp only [load?, withStack, if_neg elsewhere]
  rfl

/-- What is stored elsewhere is stored beside any stack alike. -/
theorem store?_withStack
    (value : Word) (elsewhere : RegionAddress.region address ≠ RegionAddress.stack) :
    (memory.withStack stack).store? address length value =
      (memory.store? address length value).map (·.withStack stack) := by
  simp only [store?, withStack, if_neg elsewhere]
  split
  · cases scratchOffset? (RegionAddress.offset address) with
    | none => rfl
    | some offset => cases stored : putWord? memory.scratch offset length value <;> simp [stored]
  · split
    · cases stored : putWord? memory.packet (RegionAddress.offset address) length value <;>
        simp
    · have same : ({ memory with stack } : Memory).region? (RegionAddress.region address) =
          memory.region? (RegionAddress.region address) := rfl
      rw [same]
      cases memory.region? (RegionAddress.region address) with
      | none => rfl
      | some region =>
          cases region with
          | mapValue id =>
              cases there : memory.store.cell? id with
              | none => simp [there]
              | some cell =>
                  cases stored : cell.store? (RegionAddress.offset address) length value <;>
                    simp [there, stored, setMapCell]
          | record number =>
              have same' : ({ memory with stack } : Memory).recordCell? number
                    (RegionAddress.offset address) length =
                  memory.recordCell? number (RegionAddress.offset address) length := rfl
              cases there : memory.recordCell? number (RegionAddress.offset address) length with
              | none => simp [same', there]
              | some found =>
                  cases stored : found.2.store? (RegionAddress.offset address) length value <;>
                    simp [same', there, stored, setRecordCell]

/-- What is updated elsewhere is updated beside any stack alike. -/
theorem update?_withStack
    (change : Word → Word) (elsewhere : RegionAddress.region address ≠ RegionAddress.stack) :
    (memory.withStack stack).update? address length change =
      (memory.update? address length change).map fun updated =>
        (updated.1, updated.2.withStack stack) := by
  simp only [update?, withStack, if_neg elsewhere]
  have same : ({ memory with stack } : Memory).region? (RegionAddress.region address) =
      memory.region? (RegionAddress.region address) := rfl
  rw [same]
  cases memory.region? (RegionAddress.region address) with
  | none => rfl
  | some region =>
      cases region with
      | mapValue id =>
          cases there : memory.store.cell? id with
          | none => simp [there]
          | some cell =>
              cases stored : cell.update? (RegionAddress.offset address) length change <;>
                simp [there, stored, setMapCell]
      | record number => rfl

/-- What a helper reads from elsewhere does not depend on the stack. -/
theorem read?_withStack
    (elsewhere : RegionAddress.region address ≠ RegionAddress.stack) :
    (memory.withStack stack).read? address length = memory.read? address length := by
  simp only [read?, withStack, if_neg elsewhere]
  rfl

end Elsewhere

/-! ## Accesses that fall well -/

section Falls

variable {address : Word} {length : Nat}

/-- The stack is set apart: it is described byte by byte, and no other access falls into it. -/
theorem Falls.elsewhere
    (falls : memory.Falls address length) :
    RegionAddress.region address ≠ RegionAddress.stack := by
  cases falls with
  | packet place names =>
      rw [names.region]
      decide
  | mapValue index place id cell names =>
      rw [names.region]
      exact (dynamic_ne index).2.2
  | record index place number record cell names =>
      rw [names.region]
      exact (dynamic_ne index).2.2

/-- A load that falls into a region succeeds. -/
theorem Falls.load
    (falls : memory.Falls address length) (short : length ≤ 8) :
    ∃ loaded, memory.load? address length = some loaded ∧ loaded.toNat < 2 ^ (length * 8) := by
  cases falls with
  | packet place names inside =>
      refine ⟨Word.ofBytes (Bytes.slice memory.packet place length), ?_, ?_⟩
      · rw [load?_packet names, Bytes.read?_of_inside inside, Option.map_some]
      · have bounded := Word.toNat_ofBytes_lt (Bytes.slice memory.packet place length)
        rwa [Bytes.slice_length inside] at bounded
  | mapValue index place id cell names region there inside =>
      rw [load?_dynamic names, region]
      simp only [there, Option.bind_some]
      exact Cell.load?_of_inside inside short
  | record index place number record cell names region there inside =>
      rw [load?_dynamic names, region]
      simp only [there, Option.bind_some]
      exact Cell.load?_of_inside inside short

/-- A read that falls into a region succeeds. -/
theorem Falls.read
    (falls : memory.Falls address length) :
    ∃ bytes, memory.read? address length = some bytes := by
  cases falls with
  | packet place names inside =>
      exact ⟨_, by rw [read?_packet names, Bytes.read?_of_inside inside, Option.map_some]⟩
  | mapValue index place id cell names region there inside =>
      rw [read?_dynamic names, region]
      simp only [there, Option.bind_some, Cell.read?]
      exact ⟨_, by rw [Bytes.read?_of_inside inside, Option.map_some]⟩
  | record index place number record cell names region there inside =>
      rw [read?_dynamic names, region]
      simp only [there, Option.bind_some, Cell.read?]
      exact ⟨_, by rw [Bytes.read?_of_inside inside, Option.map_some]⟩

/-- Replacing the bytes of a value is a way to proceed, as the size is kept. -/
theorem setMapCell_proceeds
    {id : CellId} {cell changed : Cell}
    (sound : memory.Sound scene) (there : memory.store.cell? id = some cell)
    (sized : changed.size = cell.size) :
    Proceeds scene memory (memory.setMapCell id changed) :=
  sound.proceeds_store (sound.store.setCell there sized)

/-- Replacing the bytes of a record is a way to proceed, as the size is kept. -/
theorem setRecordCell_proceeds
    {number place length : Nat} {record : OpenRecord} {cell changed : Cell}
    (sound : memory.Sound scene)
    (there : memory.recordCell? number place length = some (record, cell))
    (sized : changed.size = cell.size) :
    Proceeds scene memory (memory.setRecordCell record changed) := by
  apply sound.proceeds_store
  apply sound.store.modifyRing
  intro ring isRing wellFormed
  apply wellFormed.setCell
  rw [sized, ← wellFormed.cell_size record.reservation.position]
  simp only [recordCell?, Option.bind_eq_bind, Option.bind_eq_some_iff] at there
  rcases there with ⟨record', _, there⟩
  split at there
  case isTrue => cases there
  case isFalse =>
    rcases Option.bind_eq_some_iff.mp there with ⟨ring', isRing', made⟩
    cases made
    rw [isRing] at isRing'
    cases isRing'
    rfl

/-- A store that falls into a region succeeds, and the memory proceeds. -/
theorem Falls.store
    (falls : memory.Falls address length) (short : length ≤ 8) (value : Word)
    (sound : memory.Sound scene)
    (allowed : RegionAddress.region address = RegionAddress.packet →
      scene.setting.attach.allowsPacketWrite = true) :
    ∃ after, memory.store? address length value = some after ∧ Proceeds scene memory after := by
  cases falls with
  | packet place names inside =>
      refine ⟨{ memory with packet := Bytes.overwrite memory.packet place (layOut value length) },
        ?_, ?_⟩
      · rw [store?_packet value names, putWord?, if_pos (Bytes.covers_iff.mpr inside),
          Option.map_some]
      · have sized := Bytes.overwrite_size memory.packet place (layOut value length)
        exact ⟨sound.withPacket sized (allowed names.region),
          ⟨sized, rfl, fun _ _ there => there⟩, rfl, rfl⟩
  | mapValue index place id cell names region there inside =>
      refine ⟨_, ?_,
        setMapCell_proceeds sound there (Cell.withInteger_size cell place length value)⟩
      rw [store?_dynamic value names, region]
      simp only [there, Option.bind_some]
      rw [Cell.store?_of_inside value inside short, Option.map_some]
  | record index place number record cell names region there inside =>
      refine ⟨_, ?_,
        setRecordCell_proceeds sound there (Cell.withInteger_size cell place length value)⟩
      rw [store?_dynamic value names, region]
      simp only [there, Option.bind_some]
      rw [Cell.store?_of_inside value inside short, Option.map_some]

end Falls

end Memory

end PacketFilter
