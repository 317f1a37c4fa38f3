import PacketFilter.Proofs.Executing
import PacketFilter.Proofs.Loading
import PacketFilter.Proofs.PackedCells
import PacketFilter.Proofs.RingOutlines

/-!
# Homes

The bytes of a region are kept somewhere: in the scratch area, the packet, the
stack, a cell of a map or a slot of a ring.  Regions with one home share its
bytes.  `Memory.window?` finds where an access falls, `store?_eq` and the
equations beside it say what each kind of access does there, and what becomes of
one home when another is written is settled once, by `bytesAt?_putAt`.
-/

namespace PacketFilter

/-- A read answers the slice when it fits, and nothing otherwise. -/
theorem Bytes.read?_eq_ite (bytes : Bytes) (offset length : Nat) :
    bytes.read? offset length =
      if offset + length ≤ bytes.size then some (bytes.slice offset length) else none :=
  if_congr Bytes.covers_iff rfl rfl

/-! ## Changing one map -/

section

variable {α : Type}

theorem modify_modify (values : Array α) (index : Nat) (first second : α → α) :
    (values.modify index first).modify index second =
      values.modify index fun value => second (first value) := by
  apply Array.ext_getElem?
  intro other
  rw [Array.getElem?_modify, Array.getElem?_modify, Array.getElem?_modify]
  split
  · rw [Option.map_map]
    rfl
  · rfl

theorem modify_congr {values : Array α} {index : Nat} {first second : α → α}
    (alike : ∀ value, values[index]? = some value → first value = second value) :
    values.modify index first = values.modify index second := by
  apply Array.ext_getElem?
  intro other
  rw [Array.getElem?_modify, Array.getElem?_modify]
  split
  case isTrue here =>
    subst here
    exact Option.map_congr alike
  case isFalse => rfl

theorem modify_eq_self {values : Array α} {index : Nat} {change : α → α}
    (same : ∀ value, values[index]? = some value → change value = value) :
    values.modify index change = values := by
  have idle : values.modify index id = values := by
    apply Array.ext_getElem?
    intro other
    rw [Array.getElem?_modify, Option.map_id_fun, id_eq, ite_self]
  calc values.modify index change
      _ = values.modify index id := modify_congr same
      _ = values := idle

end

/-- The map with its ring changed, if it has one. -/
def Map.modifyRing (map : Map) (change : Ring → Ring) : Map :=
  (map.onRing fun ring => ((), change ring)).2

namespace Map

variable {map : Map}

theorem modifyRing_of_ring? {ring : Ring} (there : map.ring? = some ring) (change : Ring → Ring) :
    map.modifyRing change = map.setContent (.ringBuffer (change ring)) := by
  unfold ring? at there
  unfold modifyRing onRing
  split at there
  case h_1 =>
    cases there
    rfl
  case h_2 => cases there

theorem modifyRing_of_none (none : map.ring? = none) (change : Ring → Ring) :
    map.modifyRing change = map := by
  unfold ring? at none
  unfold modifyRing onRing
  split at none
  case h_1 => cases none
  case h_2 => rfl

theorem cell?_modifyRing (change : Ring → Ring) (number : Nat) :
    (map.modifyRing change).cell? number = map.cell? number := by
  rcases there : map.ring? with _ | ring
  · rw [modifyRing_of_none there]
  · rw [modifyRing_of_ring? there]
    rfl

/-- A map that sets a cell has the new one at its number, and the old ones elsewhere. -/
theorem cell?_setCell (number other : Nat) (cell : Cell) :
    (map.setCell number cell).cell? other =
      if number = other then (map.cell? other).map fun _ => cell else map.cell? other := by
  unfold setCell cell?
  rw [Array.getElem?_setIfInBounds]
  split
  case isTrue here =>
    subst here
    split
    case isTrue inside => rw [Array.getElem?_eq_getElem inside, Option.map_some]
    case isFalse outside => rw [Array.getElem?_eq_none (Nat.not_lt.mp outside), Option.map_none]
  case isFalse => rfl

end Map

namespace Store

variable {store : Store} {id other : MapId}

/-- A ring is changed inside its own map only. -/
theorem modifyRing_eq (store : Store) (id : MapId) (change : Ring → Ring) :
    store.modifyRing id change =
      { store with maps := store.maps.modify id (·.modifyRing change) } := by
  rcases there : store.map? id with _ | map
  · rw [modify_eq_self fun map found => absurd (there.symm.trans found) (by simp), modifyRing,
      onRing, there]
  · have held : store.maps[id]? = some map := there
    rw [modifyRing, onRing, there]
    show store.setMap id (map.modifyRing change) = _
    rw [setMap]
    refine congrArg (fun maps => { store with maps }) (Array.ext_getElem? fun index => ?_)
    rw [Array.getElem?_setIfInBounds, Array.getElem?_modify,
      if_pos (Array.getElem?_eq_some_iff.mp held).1]
    split
    case isTrue here =>
      subst here
      rw [held, Option.map_some]
    case isFalse => rfl

theorem cell?_modifyRing (change : Ring → Ring) (cell : CellId) :
    (store.modifyRing id change).cell? cell = store.cell? cell := by
  rw [modifyRing_eq, cell?, cell?, map?, map?, Array.getElem?_modify]
  split
  case isTrue =>
    cases store.maps[cell.map]? with
    | none => rfl
    | some map => exact map.cell?_modifyRing change cell.number
  case isFalse => rfl

/-- A store that sets a cell has the new one there, and the old ones elsewhere. -/
theorem cell?_setCell (store : Store) (cell other : CellId) (changed : Cell) :
    (store.setCell cell changed).cell? other =
      if cell = other then (store.cell? other).map fun _ => changed else store.cell? other := by
  rw [setCell, cell?, cell?, map?, map?, Array.getElem?_modify]
  by_cases here : cell.map = other.map
  · rw [if_pos here]
    cases store.maps[other.map]? with
    | none => exact (ite_self none).symm
    | some map =>
        refine (Map.cell?_setCell cell.number other.number changed).trans (if_congr ?_ rfl rfl)
        constructor
        · rcases cell with ⟨_, number⟩
          rcases other with ⟨_, number'⟩
          exact fun same => congrArg₂ CellId.mk here same
        · exact congrArg CellId.number
  · rw [if_neg here, if_neg fun same => here (congrArg CellId.map same)]

/-- A cell that is set leaves the rings alone. -/
theorem ring?_setCell (cell : CellId) (changed : Cell) :
    (store.setCell cell changed).ring? id = store.ring? id := by
  rw [setCell, ring?, ring?, map?, map?, Array.getElem?_modify]
  split
  · cases store.maps[id]? <;> rfl
  · rfl

/-- Of two cells set at one place, the later one stays. -/
theorem setCell_setCell (store : Store) (cell : CellId) (first second : Cell) :
    (store.setCell cell first).setCell cell second = store.setCell cell second := by
  rw [setCell, setCell, setCell]
  refine congrArg (fun maps => { store with maps }) ?_
  rw [modify_modify]
  refine modify_congr fun map _ => ?_
  rw [Map.setCell, Map.setCell, Map.setCell, Array.setIfInBounds_setIfInBounds]

/-- A cell that is set to what it holds leaves the store as it is. -/
theorem setCell_self {cell : CellId} {held : Cell} (there : store.cell? cell = some held) :
    store.setCell cell held = store := by
  rw [setCell]
  refine congrArg (fun maps => { store with maps }) (modify_eq_self fun map found => ?_)
  rw [cell?, map?, found, Option.bind_some] at there
  refine congrArg (fun cells => { map with cells }) (Array.ext_getElem? fun index => ?_)
  rw [Array.getElem?_setIfInBounds]
  split
  case isTrue here =>
    subst here
    rw [if_pos (Array.getElem?_eq_some_iff.mp there).1]
    exact there.symm
  case isFalse => rfl

theorem modifyRing_modifyRing (store : Store) (id : MapId) (first second : Ring → Ring) :
    (store.modifyRing id first).modifyRing id second =
      store.modifyRing id fun ring => second (first ring) := by
  rw [modifyRing_eq, modifyRing_eq, modifyRing_eq]
  refine congrArg (fun maps => { store with maps }) ?_
  rw [modify_modify]
  refine modify_congr fun map _ => ?_
  rcases there : map.ring? with _ | ring
  · rw [Map.modifyRing_of_none there, Map.modifyRing_of_none there, Map.modifyRing_of_none there]
  · rw [Map.modifyRing_of_ring? there, Map.modifyRing_of_ring? there]
    exact Map.modifyRing_of_ring? rfl second

theorem modifyRing_congr {first second : Ring → Ring}
    (alike : ∀ ring, store.ring? id = some ring → first ring = second ring) :
    store.modifyRing id first = store.modifyRing id second := by
  rw [modifyRing_eq, modifyRing_eq]
  refine congrArg (fun maps => { store with maps }) (modify_congr fun map found => ?_)
  rcases there : map.ring? with _ | ring
  · rw [Map.modifyRing_of_none there, Map.modifyRing_of_none there]
  · rw [Map.modifyRing_of_ring? there, Map.modifyRing_of_ring? there, alike ring]
    rw [ring?, map?, found, Option.bind_some, there]

theorem modifyRing_self {change : Ring → Ring}
    (same : ∀ ring, store.ring? id = some ring → change ring = ring) :
    store.modifyRing id change = store := by
  rw [modifyRing_eq]
  refine congrArg (fun maps => { store with maps }) (modify_eq_self fun map found => ?_)
  rcases there : map.ring? with _ | ring
  · exact Map.modifyRing_of_none there change
  · rw [Map.modifyRing_of_ring? there,
      same ring (by rw [ring?, map?, found, Option.bind_some, there])]
    unfold Map.ring? at there
    split at there
    case h_1 content =>
      cases there
      rw [Map.setContent, ← content]
    case h_2 => cases there

end Store

/-! ## The slots of a ring -/

namespace Ring

variable {ring : Ring} {index other : Nat}

/-- The memory of a slot, by its number. -/
def slotCell (ring : Ring) (index : Nat) : Cell :=
  (ring.slots[index]?.getD default).cell

/-- Replace the bytes of a slot, whichever record it holds. -/
def setSlotCell (ring : Ring) (index : Nat) (cell : Cell) : Ring :=
  { ring with slots := ring.slots.modify index fun slot => { slot with cell } }

theorem capacity_setSlotCell (cell : Cell) :
    (ring.setSlotCell index cell).capacity = ring.capacity :=
  Array.size_modify

/-- A slot that is not there has no bytes. -/
theorem inside_of_slotCell (some : 0 < (ring.slotCell index).size) : index < ring.slots.size := by
  by_contra outside
  rw [slotCell, Array.getElem?_eq_none (Nat.not_lt.mp outside)] at some
  cases some

/-- A ring that sets a slot has the new cell there, and the old ones elsewhere. -/
theorem slotCell_setSlotCell (cell : Cell) :
    (ring.setSlotCell index cell).slotCell other =
      if index = other ∧ index < ring.slots.size then cell else ring.slotCell other := by
  unfold slotCell setSlotCell
  dsimp only
  rw [Array.getElem?_modify]
  by_cases here : index = other
  · subst here
    rw [if_pos rfl]
    by_cases inside : index < ring.slots.size
    · rw [if_pos ⟨rfl, inside⟩, Array.getElem?_eq_getElem inside]
      rfl
    · rw [if_neg fun both => inside both.2, Array.getElem?_eq_none (Nat.not_lt.mp inside)]
      rfl
  · rw [if_neg here, if_neg fun both => here both.1]

theorem setSlotCell_setSlotCell (first second : Cell) :
    (ring.setSlotCell index first).setSlotCell index second = ring.setSlotCell index second :=
  congrArg (fun slots => { ring with slots })
    (modify_modify ring.slots index (fun slot => { slot with cell := first }) fun slot =>
      { slot with cell := second })

theorem setSlotCell_self : ring.setSlotCell index (ring.slotCell index) = ring := by
  refine congrArg (fun slots => { ring with slots }) (modify_eq_self fun slot found => ?_)
  rw [slotCell, found]
  rfl

end Ring

/-! ## What holds the bytes of a region -/

/-- Somewhere bytes are kept. -/
inductive Home where
  | scratch
  | packet
  | stack
  | value (id : CellId)
  /-- A slot of a ring, by its number. -/
  | slot (map : MapId) (index : Nat)
  deriving DecidableEq, Repr

namespace Memory

variable {memory : Memory} {home other : Home} {bytes changed : Bytes}

/-- The bytes that live in a home; a value or a slot may be missing. -/
def bytesAt? (memory : Memory) : Home → Option Bytes
  | .scratch => some memory.scratch
  | .packet => some memory.packet
  | .stack => some memory.stack
  | .value id => (memory.store.cell? id).map Cell.bytes
  | .slot map index => (memory.store.ring? map).map fun ring => (ring.slotCell index).bytes

/-- Replace the bytes that live in a home. -/
def putAt (memory : Memory) (home : Home) (bytes : Bytes) : Memory :=
  match home with
  | .scratch => { memory with scratch := bytes }
  | .packet => { memory with packet := bytes }
  | .stack => { memory with stack := bytes }
  | .value id => { memory with store := memory.store.setCell id ⟨bytes⟩ }
  | .slot map index =>
    { memory with store := memory.store.modifyRing map (·.setSlotCell index ⟨bytes⟩) }

/-- How many records the ring of a map has room for. -/
def capacity? (memory : Memory) (map : MapId) : Option Nat :=
  (memory.store.ring? map).map Ring.capacity

/-- The home of a region. -/
def home? (memory : Memory) (number : Nat) : Option Home :=
  if number = RegionAddress.context then some .scratch
  else if number = RegionAddress.packet then some .packet
  else if number = RegionAddress.stack then some .stack
  else
    match memory.region? number with
    | some (.mapValue id) => some (.value id)
    | some (.record number) =>
      (memory.record? number).bind fun record =>
        (memory.capacity? record.map).map fun capacity =>
          .slot record.map (record.reservation.position % capacity)
    | none => none

/-- The offset that the first byte of a region's home has in the region. -/
def origin (number : Nat) : Nat :=
  if number = RegionAddress.context then ContextField.scratch.offset else 0

/-- How many of the bytes of its home belong to a region: of a slot, those of the record. -/
def room (memory : Memory) (number : Nat) (bytes : Bytes) : Nat :=
  match memory.region? number with
  | some (.record number) => ((memory.record? number).map (·.reservation.length)).getD 0
  | _ => bytes.size

/-- Where an access falls. -/
structure Window where
  home : Home
  start : Nat
  /-- All bytes of the home. -/
  bytes : Bytes

/-- Where an access falls, if all of it lies in its region. -/
def window? (memory : Memory) (address : Word) (length : Nat) : Option Window :=
  let number := RegionAddress.region address
  let offset := RegionAddress.offset address
  (memory.home? number).bind fun home =>
    (memory.bytesAt? home).bind fun bytes =>
      let start := offset - origin number
      if origin number ≤ offset ∧ start + length ≤ bytes.size ∧
          start + length ≤ memory.room number bytes then
        some ⟨home, start, bytes⟩
      else none

/-! ## Writing one home -/

/-- Bytes put into a map value are found there, and every other map value keeps its own. -/
theorem bytesAt?_putAt_value {id id' : CellId}
    (held : memory.bytesAt? (.value id) = some bytes) :
    (memory.putAt (.value id) changed).bytesAt? (.value id') =
      if Home.value id = .value id' then some changed else memory.bytesAt? (.value id') := by
  show ((memory.store.setCell id ⟨changed⟩).cell? id').map Cell.bytes = _
  rw [Store.cell?_setCell]
  by_cases here : id = id'
  · subst here
    rcases Option.map_eq_some_iff.mp held with ⟨cell, there, -⟩
    rw [if_pos rfl, if_pos rfl, there]
    rfl
  · rw [if_neg here, if_neg fun same => here (Home.value.inj same)]
    rfl

/-- Bytes put into a slot are found there, and every other slot keeps its own. -/
theorem bytesAt?_putAt_slot {map map' : MapId} {index index' : Nat}
    (held : memory.bytesAt? (.slot map index) = some bytes) (some : 0 < bytes.size) :
    (memory.putAt (.slot map index) changed).bytesAt? (.slot map' index') =
      if Home.slot map index = .slot map' index' then Option.some changed
      else memory.bytesAt? (.slot map' index') := by
  show ((memory.store.modifyRing map (·.setSlotCell index ⟨changed⟩)).ring? map').map
    (fun ring => (ring.slotCell index').bytes) = _
  rw [Store.ring?_modifyRing]
  by_cases here : map = map'
  · subst here
    rcases Option.map_eq_some_iff.mp held with ⟨ring, there, rfl⟩
    rw [if_pos rfl, there]
    show Option.some ((ring.setSlotCell index ⟨changed⟩).slotCell index').bytes = _
    rw [Ring.slotCell_setSlotCell, bytesAt?, there, Option.map_some]
    have inside := Ring.inside_of_slotCell some
    by_cases same : index = index'
    · rw [if_pos ⟨same, inside⟩, if_pos (congrArg (Home.slot map) same)]
    · rw [if_neg fun both => same both.1, if_neg fun both => same (Home.slot.inj both).2]
  · rw [if_neg here, if_neg fun both => here (Home.slot.inj both).1]
    rfl

/-- Writing one home leaves the others alone. -/
theorem bytesAt?_putAt (held : memory.bytesAt? home = some bytes) (some : 0 < bytes.size) :
    (memory.putAt home changed).bytesAt? other =
      if home = other then Option.some changed else memory.bytesAt? other := by
  cases home with
  | scratch | packet | stack => cases other <;> rfl
  | value id =>
      cases other with
      | scratch | packet | stack => rfl
      | value => exact bytesAt?_putAt_value held
      | slot map index =>
          show ((memory.store.setCell id ⟨changed⟩).ring? map).map _ = _
          rw [Store.ring?_setCell]
          rfl
  | slot map index =>
      cases other with
      | scratch | packet | stack => rfl
      | value id =>
          show ((memory.store.modifyRing map _).cell? id).map Cell.bytes = _
          rw [Store.cell?_modifyRing]
          rfl
      | slot => exact bytesAt?_putAt_slot held some

/-- Of two writes of a whole home, the later one stays. -/
theorem putAt_putAt (memory : Memory) (home : Home) (first second : Bytes) :
    (memory.putAt home first).putAt home second = memory.putAt home second := by
  cases home with
  | scratch | packet | stack => rfl
  | value id =>
      refine congrArg (fun store => { memory with store }) ?_
      exact memory.store.setCell_setCell id ⟨first⟩ ⟨second⟩
  | slot map index =>
      refine congrArg (fun store => { memory with store }) ?_
      refine (memory.store.modifyRing_modifyRing map _ _).trans
        (Store.modifyRing_congr fun ring _ => ?_)
      exact Ring.setSlotCell_setSlotCell ⟨first⟩ ⟨second⟩

/-- A home that is given the bytes it has leaves the memory as it is. -/
theorem putAt_self (held : memory.bytesAt? home = some bytes) :
    memory.putAt home bytes = memory := by
  cases home with
  | scratch | packet | stack =>
      cases held
      rfl
  | value id =>
      refine congrArg (fun store => { memory with store }) ?_
      rcases Option.map_eq_some_iff.mp held with ⟨cell, there, rfl⟩
      exact Store.setCell_self there
  | slot map index =>
      refine congrArg (fun store => { memory with store })
        (Store.modifyRing_self fun ring there => ?_)
      rw [bytesAt?, there, Option.map_some] at held
      cases held
      exact Ring.setSlotCell_self

theorem region?_putAt (number : Nat) :
    (memory.putAt home changed).region? number = memory.region? number := by
  cases home <;> rfl

theorem record?_putAt (number : Nat) :
    (memory.putAt home changed).record? number = memory.record? number := by
  cases home <;> rfl

theorem capacity?_putAt (map : MapId) :
    (memory.putAt home changed).capacity? map = memory.capacity? map := by
  cases home with
  | scratch | packet | stack => rfl
  | value id =>
      show ((memory.store.setCell id ⟨changed⟩).ring? map).map Ring.capacity = _
      rw [Store.ring?_setCell]
      rfl
  | slot map' index =>
      show ((memory.store.modifyRing map' (·.setSlotCell index ⟨changed⟩)).ring? map).map
        Ring.capacity = _
      rw [Store.ring?_modifyRing]
      split
      case isTrue here =>
        subst here
        rw [Option.map_map]
        exact Option.map_congr fun ring _ => Ring.capacity_setSlotCell ⟨changed⟩
      case isFalse => rfl

/-- Whatever is written, regions keep their homes. -/
theorem home?_putAt (number : Nat) :
    (memory.putAt home changed).home? number = memory.home? number := by
  simp only [home?, region?_putAt, record?_putAt, capacity?_putAt]

theorem room_putAt (number : Nat) (bytes : Bytes) :
    (memory.putAt home changed).room number bytes = memory.room number bytes := by
  simp only [room, region?_putAt, record?_putAt]

/-! ## Where accesses fall -/

variable {address : Word} {place index length : Nat} {window : Window}

/-- A window lies inside the bytes of the home that its address names. -/
theorem window?_eq_some (found : memory.window? address length = some window) :
    memory.home? (RegionAddress.region address) = some window.home ∧
      memory.bytesAt? window.home = some window.bytes ∧
      RegionAddress.offset address = origin (RegionAddress.region address) + window.start ∧
      window.start + length ≤ window.bytes.size ∧
      window.start + length ≤ memory.room (RegionAddress.region address) window.bytes := by
  rcases Option.bind_eq_some_iff.mp found with ⟨home, homed, found⟩
  rcases Option.bind_eq_some_iff.mp found with ⟨bytes, held, found⟩
  dsimp only at found
  split at found
  case isTrue inside =>
    cases found
    exact ⟨homed, held, (Nat.add_sub_cancel' inside.1).symm, inside.2⟩
  case isFalse => cases found

/-- The access falls where it did before its home was written. -/
theorem window?_putAt (found : memory.window? address length = some window) (some : 0 < length)
    (sized : changed.size = window.bytes.size) :
    (memory.putAt window.home changed).window? address length =
      Option.some { window with bytes := changed } := by
  rcases window?_eq_some found with ⟨homed, held, offset, inside, within⟩
  have start : RegionAddress.offset address - origin (RegionAddress.region address) =
      window.start := by
    omega
  have room : memory.room (RegionAddress.region address) changed =
      memory.room (RegionAddress.region address) window.bytes := by
    unfold Memory.room
    split
    · rfl
    · exact sized
  unfold window?
  dsimp only
  rw [home?_putAt, homed, Option.bind_some, bytesAt?_putAt held (by omega), if_pos rfl,
    Option.bind_some, start, room_putAt, room, if_pos]
  exact ⟨by omega, by omega, within⟩

theorem origin_context : origin RegionAddress.context = ContextField.scratch.offset :=
  if_pos rfl

theorem origin_of_ne {number : Nat} (other : number ≠ RegionAddress.context) : origin number = 0 :=
  if_neg other

/-- Where a region is all of its home, an access lies in it that does not go past the end. -/
theorem window?_of_home
    (names : RegionAddress.Names address index place) (homed : memory.home? index = some home)
    (held : memory.bytesAt? home = some bytes) (all : memory.room index bytes = bytes.size) :
    memory.window? address length =
      if origin index ≤ place ∧ place - origin index + length ≤ bytes.size then
        some ⟨home, place - origin index, bytes⟩
      else none := by
  unfold window?
  dsimp only
  rw [names.region, names.offset, homed, Option.bind_some, held, Option.bind_some, all]
  exact if_congr (and_congr_right fun _ => and_self_iff) rfl rfl

/-- Outside the context, a window stands where the address says, if the home has the room. -/
theorem window?_of_home_of_ne
    (names : RegionAddress.Names address index place) (other : index ≠ RegionAddress.context)
    (homed : memory.home? index = some home) (held : memory.bytesAt? home = some bytes)
    (all : memory.room index bytes = bytes.size) :
    memory.window? address length =
      if place + length ≤ bytes.size then some ⟨home, place, bytes⟩ else none := by
  rw [window?_of_home names homed held all, origin_of_ne other, Nat.sub_zero]
  exact if_congr (and_iff_right (Nat.zero_le place)) rfl rfl

/-- Of the context, only the scratch words have a window. -/
theorem window?_context (names : RegionAddress.Names address RegionAddress.context place) :
    memory.window? address length =
      (scratchOffset? place).bind fun start =>
        if start + length ≤ memory.scratch.size then some ⟨.scratch, start, memory.scratch⟩
        else none := by
  have homed : memory.home? RegionAddress.context = some .scratch := rfl
  rw [window?_of_home names homed rfl rfl, origin_context, scratchOffset?]
  by_cases below : place < ContextField.scratch.offset
  · rw [if_pos below, if_neg fun both => Nat.not_le.mpr below both.1]
    rfl
  · rw [if_neg below, Option.bind_some]
    exact if_congr (and_iff_right (Nat.not_lt.mp below)) rfl rfl

theorem window?_packet (names : RegionAddress.Names address RegionAddress.packet place) :
    memory.window? address length =
      if place + length ≤ memory.packet.size then some ⟨.packet, place, memory.packet⟩
      else none := by
  have homed : memory.home? RegionAddress.packet = some .packet := rfl
  exact window?_of_home_of_ne names (by decide) homed rfl rfl

theorem window?_stack (names : RegionAddress.Names address RegionAddress.stack place) :
    memory.window? address length =
      if place + length ≤ memory.stack.size then some ⟨.stack, place, memory.stack⟩
      else none := by
  have homed : memory.home? RegionAddress.stack = some .stack := rfl
  exact window?_of_home_of_ne names (by decide) homed rfl rfl

/-- A region that the run opened has its home in a map value or in the slot of a record. -/
theorem home?_dynamic (index : Nat) :
    memory.home? (RegionAddress.firstDynamic + index) =
      match memory.regions[index]? with
      | some (.mapValue id) => some (.value id)
      | some (.record number) =>
        (memory.record? number).bind fun record =>
          (memory.capacity? record.map).map fun capacity =>
            .slot record.map (record.reservation.position % capacity)
      | none => none := by
  rcases dynamic_ne index with ⟨notContext, notPacket, notStack⟩
  rw [home?, if_neg notContext, if_neg notPacket, if_neg notStack, region?_dynamic]

/-- The window into a map value stands at the place that the address names. -/
theorem window?_value {id : CellId}
    (names : RegionAddress.Names address (RegionAddress.firstDynamic + index) place)
    (region : memory.regions[index]? = some (.mapValue id)) :
    memory.window? address length =
      (memory.store.cell? id).bind fun cell =>
        if place + length ≤ cell.size then some ⟨.value id, place, cell.bytes⟩ else none := by
  have homed : memory.home? (RegionAddress.firstDynamic + index) = some (.value id) := by
    rw [home?_dynamic, region]
  rcases there : memory.store.cell? id with _ | cell
  · unfold window?
    dsimp only
    rw [names.region, homed, Option.bind_some, bytesAt?, there]
    rfl
  · refine window?_of_home_of_ne names (dynamic_ne index).1 homed ?_ ?_
    · rw [bytesAt?, there]
      rfl
    · rw [room, region?_dynamic, region]

/-- The window into a record stands at the place that the address names, in the slot of its
reservation. -/
theorem window?_record {number : Nat}
    (names : RegionAddress.Names address (RegionAddress.firstDynamic + index) place)
    (region : memory.regions[index]? = some (.record number)) :
    memory.window? address length =
      (memory.record? number).bind fun record =>
        (memory.store.ring? record.map).bind fun ring =>
          let cell := ring.cell record.reservation.position
          if place + length ≤ cell.size ∧ place + length ≤ record.reservation.length then
            some ⟨.slot record.map (record.reservation.position % ring.capacity), place, cell.bytes⟩
          else none := by
  unfold window?
  dsimp only
  rw [names.region, names.offset, home?_dynamic, region, origin_of_ne (dynamic_ne index).1]
  dsimp only
  rcases opened : memory.record? number with _ | record
  · rfl
  · have limit (bytes : Bytes) : memory.room (RegionAddress.firstDynamic + index) bytes =
        record.reservation.length := by
      rw [room, region?_dynamic, region]
      dsimp only
      rw [opened]
      rfl
    rw [Option.bind_some, Option.bind_some, capacity?]
    rcases there : memory.store.ring? record.map with _ | ring
    · rfl
    · rw [Option.map_some, Option.map_some, Option.bind_some, Option.bind_some, bytesAt?, there,
        Option.map_some, Option.bind_some, limit, Nat.sub_zero]
      exact if_congr (and_iff_right (Nat.zero_le place)) rfl rfl

/-- Nothing falls in a region that has no home. -/
theorem window?_of_homeless (names : RegionAddress.Names address index place)
    (homeless : memory.home? index = none) : memory.window? address length = none := by
  unfold window?
  dsimp only
  rw [names.region, homeless, Option.bind_none]

/-- What is done with the cell of a map value is done with its window, if it is what is done with
any bytes of that length. -/
theorem bind_cell?
    {β : Type} {id : CellId} {act : Cell → Option β} {result : Window → β}
    (names : RegionAddress.Names address (RegionAddress.firstDynamic + index) place)
    (region : memory.regions[index]? = some (.mapValue id))
    (acts : ∀ cell, act cell =
      if place + length ≤ cell.size then some (result ⟨.value id, place, cell.bytes⟩) else none) :
    (memory.store.cell? id).bind act = (memory.window? address length).map result := by
  rw [window?_value names region]
  rcases memory.store.cell? id with _ | cell
  · rfl
  · rw [Option.bind_some, Option.bind_some, acts cell]
    split <;> rfl

/-- The same for the cell of a record. -/
theorem bind_recordCell?
    {β : Type} {number : Nat} {act : OpenRecord × Cell → Option β} {result : Window → β}
    (names : RegionAddress.Names address (RegionAddress.firstDynamic + index) place)
    (region : memory.regions[index]? = some (.record number))
    (acts : ∀ record ring, memory.store.ring? record.map = some ring →
      act (record, ring.cell record.reservation.position) =
        if place + length ≤ (ring.cell record.reservation.position).size then
          some (result ⟨.slot record.map (record.reservation.position % ring.capacity), place,
            (ring.cell record.reservation.position).bytes⟩)
        else none) :
    (memory.recordCell? number place length).bind act =
      (memory.window? address length).map result := by
  rw [window?_record names region, recordCell?]
  rcases memory.record? number with _ | record
  · rfl
  · rw [Option.bind_some]
    show (if _ then _ else _ : Option _).bind act = _
    by_cases limited : place + length ≤ record.reservation.length
    · rw [if_neg (Nat.not_lt.mpr limited)]
      rcases there : memory.store.ring? record.map with _ | ring
      · rfl
      · show act (record, ring.cell record.reservation.position) = _
        rw [acts record ring there, Option.bind_some]
        dsimp only
        rw [apply_ite (Option.map result)]
        exact if_congr (and_iff_left limited).symm rfl rfl
    · rw [if_pos (Nat.not_le.mp limited)]
      cases memory.store.ring? record.map with
      | none => rfl
      | some ring =>
          rw [Option.bind_some]
          dsimp only
          rw [if_neg fun both => limited both.2]
          rfl

/-- The regions that an address can name. -/
theorem names_cases (address : Word) : ∃ place,
    RegionAddress.Names address RegionAddress.context place ∨
    RegionAddress.Names address RegionAddress.packet place ∨
    RegionAddress.Names address RegionAddress.stack place ∨
    (∃ index, RegionAddress.Names address (RegionAddress.firstDynamic + index) place) ∨
    RegionAddress.Names address 0 place := by
  refine ⟨RegionAddress.offset address, ?_⟩
  rcases region : RegionAddress.region address with _ | _ | _ | _ | number
  · exact .inr (.inr (.inr (.inr ⟨region, rfl⟩)))
  · exact .inl ⟨region, rfl⟩
  · exact .inr (.inl ⟨region, rfl⟩)
  · exact .inr (.inr (.inl ⟨region, rfl⟩))
  · refine .inr (.inr (.inr (.inl ⟨number, ?_, rfl⟩)))
    rw [region, RegionAddress.firstDynamic]
    omega

/-! ## What the accesses do there -/

/-- A word is put where it fits, and nowhere otherwise. -/
theorem putWord?_eq_ite (bytes : Bytes) (offset : Nat) (value : Word) (short : length ≤ 8) :
    putWord? bytes offset length value =
      if offset + length ≤ bytes.size then some (bytes.overwrite offset (value.toBytes length))
      else none := by
  rw [putWord?, layOut_eq_toBytes short]
  exact if_congr Bytes.covers_iff rfl rfl

theorem store?_cell_eq_ite (cell : Cell) (value : Word) (divides : length ∣ 8) :
    cell.store? place length value =
      if place + length ≤ cell.size then
        some ⟨cell.bytes.overwrite place (value.toBytes length)⟩
      else none := by
  have short : length ≤ 8 := Nat.le_of_dvd (by decide) divides
  rw [Cell.store?_eq_ite, Cell.withInteger, Cell.reach_of_dvd divides]
  exact if_congr (and_iff_left short) rfl rfl

theorem load?_cell_eq_ite (cell : Cell) (divides : length ∣ 8) :
    cell.load? place length =
      if place + length ≤ cell.size then some (Word.ofBytes (cell.bytes.slice place length))
      else none := by
  have short : length ≤ 8 := Nat.le_of_dvd (by decide) divides
  rw [Cell.load?_eq_ite, Cell.integerAt, Cell.reach_of_dvd divides]
  exact if_congr (and_iff_left short) rfl rfl

/-- A store writes the window of its access. -/
theorem store?_eq (memory : Memory) (address value : Word) (divides : length ∣ 8) :
    memory.store? address length value =
      (memory.window? address length).map fun window =>
        memory.putAt window.home (window.bytes.overwrite window.start (value.toBytes length)) := by
  have short : length ≤ 8 := Nat.le_of_dvd (by decide) divides
  rcases names_cases address with ⟨place, names | names | names | ⟨index, names⟩ | names⟩
  · rw [store?_context value names, window?_context names]
    rcases scratchOffset? place with _ | start
    · rfl
    · rw [Option.bind_some, Option.bind_some, putWord?_eq_ite _ _ _ short]
      split <;> rfl
  · rw [store?_packet value names, window?_packet names, putWord?_eq_ite _ _ _ short]
    split <;> rfl
  · rw [store?_stack value names, window?_stack names, putWord?_eq_ite _ _ _ short]
    split <;> rfl
  · rw [store?_dynamic value names]
    rcases region : memory.regions[index]? with _ | (id | number)
    · rw [window?_of_homeless names (by rw [home?_dynamic, region])]
      rfl
    · refine bind_cell? names region fun cell => ?_
      rw [store?_cell_eq_ite cell value divides, apply_ite (Option.map _)]
      rfl
    · refine bind_recordCell? names region fun record ring there => ?_
      rw [store?_cell_eq_ite _ value divides, apply_ite (Option.map _), Option.map_some,
        Option.map_none]
      refine if_congr Iff.rfl (congrArg some ?_) rfl
      refine congrArg (fun store => { memory with store })
        (Store.modifyRing_congr fun held found => ?_)
      cases there.symm.trans found
      rfl
  · rw [window?_of_homeless names rfl]
    unfold store?
    rw [names.region]
    rfl

/-- Bytes are read from the window of the access, anywhere but in the context. -/
theorem read?_eq (memory : Memory) {address : Word} (length : Nat)
    (other : RegionAddress.region address ≠ RegionAddress.context) :
    memory.read? address length =
      (memory.window? address length).map fun window =>
        (window.bytes.slice window.start length).toArray := by
  rcases names_cases address with ⟨place, names | names | names | ⟨index, names⟩ | names⟩
  · exact absurd names.region other
  · rw [read?_packet names, window?_packet names, Bytes.read?_eq_ite]
    split <;> rfl
  · rw [read?_stack names, window?_stack names, Bytes.read?_eq_ite]
    split <;> rfl
  · rw [read?_dynamic names]
    rcases region : memory.regions[index]? with _ | (id | number)
    · rw [window?_of_homeless names (by rw [home?_dynamic, region])]
      rfl
    · have found : (memory.store.cell? id).bind (·.read? place length) =
          (memory.window? address length).map fun window =>
            window.bytes.slice window.start length :=
        bind_cell? names region fun cell => cell.read?_eq_ite place length
      dsimp only
      rw [found, Option.map_map]
      rfl
    · have found : (memory.recordCell? number place length).bind (·.2.read? place length) =
          (memory.window? address length).map fun window =>
            window.bytes.slice window.start length :=
        bind_recordCell? names region fun _ _ _ => Cell.read?_eq_ite _ place length
      dsimp only
      rw [found, Option.map_map]
      rfl
  · rw [window?_of_homeless names rfl]
    unfold read?
    rw [names.region]
    rfl

/-- An integer is loaded from the window of the access, anywhere but in the context. -/
theorem load?_eq (memory : Memory) {address : Word} (divides : length ∣ 8)
    (other : RegionAddress.region address ≠ RegionAddress.context) :
    memory.load? address length =
      (memory.window? address length).map fun window =>
        Word.ofBytes (window.bytes.slice window.start length) := by
  rcases names_cases address with ⟨place, names | names | names | ⟨index, names⟩ | names⟩
  · exact absurd names.region other
  · rw [load?_packet names, window?_packet names, Bytes.read?_eq_ite]
    split <;> rfl
  · rw [load?_stack names, window?_stack names, Bytes.read?_eq_ite]
    split <;> rfl
  · rw [load?_dynamic names]
    rcases region : memory.regions[index]? with _ | (id | number)
    · rw [window?_of_homeless names (by rw [home?_dynamic, region])]
      rfl
    · exact bind_cell? names region fun cell => load?_cell_eq_ite cell divides
    · exact bind_recordCell? names region fun _ _ _ => load?_cell_eq_ite _ divides
  · rw [window?_of_homeless names rfl]
    unfold load?
    rw [names.region]
    rfl

/-- Past the fields of the packet, the context reads its scratch words. -/
theorem loadContext?_of_le (above : ContextField.scratch.offset ≤ place) :
    memory.loadContext? place length =
      (memory.scratch.read? (place - ContextField.scratch.offset) length).map Word.ofBytes := by
  have later : 24 ≤ place := above
  rw [loadContext?_of_part (by omega) (by omega) (by omega) (by omega), scratchOffset?,
    if_neg (Nat.not_lt.mpr above), Option.bind_some]

/-- In the context only the scratch area has a window, and the other fields lie below it. -/
theorem load?_of_window? (divides : length ∣ 8)
    (found : memory.window? address length = some window) :
    memory.load? address length =
      some (Word.ofBytes (window.bytes.slice window.start length)) := by
  by_cases other : RegionAddress.region address = RegionAddress.context
  · have names : RegionAddress.Names address RegionAddress.context _ := ⟨other, rfl⟩
    rw [window?_context names, scratchOffset?] at found
    split at found
    case isTrue => cases found
    case isFalse above =>
      rw [Option.bind_some, Option.ite_none_right_eq_some] at found
      rcases found with ⟨inside, ⟨⟩⟩
      rw [load?_context names, loadContext?_of_le (Nat.not_lt.mp above), Bytes.read?_eq_ite,
        if_pos inside]
      rfl
  · rw [load?_eq memory divides other, found, Option.map_some]

end Memory

end PacketFilter
