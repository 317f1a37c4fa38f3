import PacketFilter.Proofs.Representation

/-!
# Accesses by region

An access names a region and an offset into it.  Once both are known, each of
the four kinds of access is one of the byte string or the cell behind the
region; the equations for the regions of the context, the packet, the stack
and the regions handed out during a run are collected here.
-/

namespace PacketFilter

namespace RegionAddress

/-- The address names the region and the offset. -/
structure Names (address : Word) (region' offset' : Nat) : Prop where
  region : region address = region'
  offset : offset address = offset'

/-- An address whose number is made of a region and an offset names these. -/
theorem names_of_toNat
    {address : Word} {region' offset' : Nat}
    (value : address.toNat = region' * 2 ^ 32 + offset') (short : offset' < 2 ^ 32) :
    Names address region' offset' := by
  constructor
  · rw [region_eq_div]
    omega
  · rw [offset_eq_mod]
    omega

/-- The base of a region, moved without leaving the region. -/
theorem names_moved
    {base change : Word} {region' offset' : Nat} {fixed : Int}
    (isBase : base = make region' 0) (small : region' < 2 ^ 32) (short : offset' < 2 ^ 32)
    (place : fixed + change.toNat = offset') :
    Names (base + BitVec.ofInt 64 fixed + change) region' offset' := by
  apply names_of_toNat _ short
  have value := toNat_make region' 0
  rw [Nat.mod_eq_of_lt small] at value
  apply toNat_moved
  · rw [isBase, value]
    omega
  · omega

/-- A made address names its region and its offset. -/
theorem names_make
    {region' place : Nat} (small : region' < 2 ^ 32) (short : place < 2 ^ 32) :
    Names (make region' place) region' place := by
  refine names_of_toNat ?_ short
  rw [toNat_make, Nat.mod_eq_of_lt small, Nat.mod_eq_of_lt short]

/-- An address in a region, moved without leaving it. -/
theorem make_add
    {region' base place : Nat} {offset : Int}
    (small : region' < 2 ^ 32) (short : base < 2 ^ 32) (short' : place < 2 ^ 32)
    (placed : base + offset = place) :
    make region' base + BitVec.ofInt 64 offset = make region' place := by
  apply BitVec.eq_of_toNat_eq
  rw [BitVec.toNat_add, toNat_make, toNat_make, Nat.mod_eq_of_lt small, Nat.mod_eq_of_lt short,
    Nat.mod_eq_of_lt short', BitVec.toNat_ofInt]
  omega

end RegionAddress

namespace Memory

open RegionAddress

variable {memory : Memory} {address : Word} {place length : Nat}

theorem load?_context (names : Names address RegionAddress.context place) :
    memory.load? address length = memory.loadContext? place length := by
  simp only [load?, names.region, names.offset, if_true]

theorem load?_packet (names : Names address RegionAddress.packet place) :
    memory.load? address length = (Bytes.read? memory.packet place length).map Word.ofBytes := by
  simp only [load?, names.region, names.offset]
  rfl

theorem load?_stack (names : Names address RegionAddress.stack place) :
    memory.load? address length = (Bytes.read? memory.stack place length).map Word.ofBytes := by
  simp only [load?, names.region, names.offset]
  rfl

theorem store?_context (value : Word) (names : Names address RegionAddress.context place) :
    memory.store? address length value =
      (scratchOffset? place).bind fun offset =>
        (putWord? memory.scratch offset length value).map fun scratch =>
          { memory with scratch } := by
  simp only [store?, names.region, names.offset, if_true]
  cases scratchOffset? place with
  | none => rfl
  | some offset => cases stored : putWord? memory.scratch offset length value <;> simp [stored]

theorem store?_packet (value : Word) (names : Names address RegionAddress.packet place) :
    memory.store? address length value =
      (putWord? memory.packet place length value).map fun packet => { memory with packet } := by
  simp only [store?, names.region, names.offset]
  cases putWord? memory.packet place length value <;>
    simp [RegionAddress.packet, RegionAddress.context]

theorem store?_stack (value : Word) (names : Names address RegionAddress.stack place) :
    memory.store? address length value =
      (putWord? memory.stack place length value).map fun stack => { memory with stack } := by
  simp only [store?, names.region, names.offset]
  cases putWord? memory.stack place length value <;>
    simp [RegionAddress.packet, RegionAddress.context, RegionAddress.stack]

theorem update?_packet (change : Word → Word) (names : Names address RegionAddress.packet place) :
    memory.update? address length change = none := by
  simp only [update?, names.region, names.offset]
  rfl

theorem update?_stack (change : Word → Word) (names : Names address RegionAddress.stack place) :
    memory.update? address length change =
      (Bytes.read? memory.stack place length).bind fun bytes =>
        (putWord? memory.stack place length (change (Word.ofBytes bytes))).map fun stack =>
          (Word.ofBytes bytes, { memory with stack }) := by
  simp only [update?, names.region, names.offset, if_true]
  cases Bytes.read? memory.stack place length with
  | none => rfl
  | some bytes =>
      cases stored : putWord? memory.stack place length (change (Word.ofBytes bytes)) <;>
        simp [stored]

theorem read?_packet (names : Names address RegionAddress.packet place) :
    memory.read? address length = (Bytes.read? memory.packet place length).map List.toArray := by
  simp only [read?, names.region, names.offset, if_true]
  rfl

theorem read?_stack (names : Names address RegionAddress.stack place) :
    memory.read? address length = (Bytes.read? memory.stack place length).map List.toArray := by
  simp only [read?, names.region, names.offset]
  rfl

/-! ## Regions handed out -/

theorem region?_dynamic (memory : Memory) (index : Nat) :
    memory.region? (firstDynamic + index) = memory.regions[index]? := by
  rw [region?, if_neg (by omega), Nat.add_sub_cancel_left]

theorem dynamic_ne
    (index : Nat) :
    firstDynamic + index ≠ RegionAddress.context ∧ firstDynamic + index ≠ RegionAddress.packet ∧
      firstDynamic + index ≠ RegionAddress.stack := by
  simp only [firstDynamic, RegionAddress.context, RegionAddress.packet, RegionAddress.stack]
  omega

variable {index : Nat}

/-- A load from a region of the run answers from its cell or its slot. -/
theorem load?_dynamic (names : Names address (firstDynamic + index) place) :
    memory.load? address length =
      match memory.regions[index]? with
      | some (.mapValue cell) => (memory.store.cell? cell).bind (·.load? place length)
      | some (.record number) =>
        (memory.recordCell? number place length).bind (·.2.load? place length)
      | none => none := by
  rcases dynamic_ne index with ⟨notContext, notPacket, notStack⟩
  rcases held : memory.regions[index]? with _ | (_ | _)
  all_goals
    simp only [load?, names.region, names.offset, if_neg notContext, if_neg notPacket,
      if_neg notStack, region?_dynamic, held]

/-- A store to a region of the run goes to its cell or its slot. -/
theorem store?_dynamic (value : Word) (names : Names address (firstDynamic + index) place) :
    memory.store? address length value =
      match memory.regions[index]? with
      | some (.mapValue id) =>
        (memory.store.cell? id).bind fun cell =>
          (cell.store? place length value).map (memory.setMapCell id)
      | some (.record number) =>
        (memory.recordCell? number place length).bind fun found =>
          (found.2.store? place length value).map (memory.setRecordCell found.1)
      | none => none := by
  rcases dynamic_ne index with ⟨notContext, notPacket, notStack⟩
  simp only [store?, names.region, names.offset, if_neg notContext, if_neg notPacket,
    if_neg notStack, region?_dynamic, Option.map_eq_bind]
  cases memory.regions[index]? with
  | none => rfl
  | some region => cases region <;> rfl

/-- An atomic operation on a region of the run is carried out in a map value, and nowhere else. -/
theorem update?_dynamic (change : Word → Word)
    (names : Names address (firstDynamic + index) place) :
    memory.update? address length change =
      match memory.regions[index]? with
      | some (.mapValue id) =>
        (memory.store.cell? id).bind fun cell =>
          (cell.update? place length change).map fun updated =>
            (updated.1, memory.setMapCell id updated.2)
      | _ => none := by
  rcases dynamic_ne index with ⟨_, _, notStack⟩
  simp only [update?, names.region, names.offset, if_neg notStack, region?_dynamic,
    Option.map_eq_bind]
  cases memory.regions[index]? with
  | none => rfl
  | some region => cases region <;> rfl

theorem read?_dynamic (names : Names address (firstDynamic + index) place) :
    memory.read? address length =
      (match memory.regions[index]? with
      | some (.mapValue cell) => (memory.store.cell? cell).bind (·.read? place length)
      | some (.record number) =>
        (memory.recordCell? number place length).bind (·.2.read? place length)
      | none => none).map List.toArray := by
  rcases dynamic_ne index with ⟨_, notPacket, notStack⟩
  simp only [read?, names.region, names.offset, if_neg notPacket, if_neg notStack,
    region?_dynamic]
  cases memory.regions[index]? with
  | none => rfl
  | some region => cases region <;> rfl

end Memory

end PacketFilter
