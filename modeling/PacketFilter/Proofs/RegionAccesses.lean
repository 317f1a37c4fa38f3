import PacketFilter.Proofs.Updating

/-!
# Accesses to regions of fixed size

A pointer into a map value or a record has a fixed offset and a bounded
variable part.  Whatever these are, an access that passed the check for the
size of the region lies in the region at run time, at every address that the
pointer may stand for, and is carried out on the cell behind the region.  An
atomic access is aligned as well, so that it is served by one lane of the cell.

Nothing is asked of the memory but that the region is there and has the size
that the check was made for.
-/

namespace PacketFilter

/-- The region of a map value or of an open record, with at least so many bytes, and the cell that
holds them. -/
inductive Memory.Backs (memory : Memory) (index limit : Nat) : ValueKind → Cell → Prop where
  | mapValue (id : CellId) (cell : Cell) (region : memory.regions[index]? = some (.mapValue id))
      (there : memory.store.cell? id = some cell) (fits : limit ≤ cell.size) :
      Memory.Backs memory index limit .mapValue cell
  | record (number : Nat) (record : OpenRecord) (ring : Ring)
      (region : memory.regions[index]? = some (.record number))
      (opened : memory.record? number = some record)
      (queue : memory.store.ring? record.map = some ring)
      (fits : limit ≤ record.reservation.length)
      (slot : record.reservation.length ≤ (ring.cell record.reservation.position).size) :
      Memory.Backs memory index limit .record (ring.cell record.reservation.position)

namespace Memory.Backs

variable {memory : Memory} {index limit place length : Nat} {kind : ValueKind} {cell : Cell}
variable {address : Word}

theorem isRegion (backs : memory.Backs index limit kind cell) :
    kind = .mapValue ∨ kind = .record := by
  cases backs with
  | mapValue => exact .inl rfl
  | record => exact .inr rfl

theorem limit_le (backs : memory.Backs index limit kind cell) : limit ≤ cell.size := by
  cases backs with
  | mapValue id cell region there fits => exact fits
  | record number record ring region opened queue fits slot => exact fits.trans slot

section

variable (backs : memory.Backs index limit kind cell)
variable (names : RegionAddress.Names address (RegionAddress.firstDynamic + index) place)
include backs names

/-- A load inside a region answers what its cell does. -/
theorem load_eq (inside : place + length ≤ limit) :
    memory.load? address length = cell.load? place length := by
  rw [load?_dynamic names]
  cases backs with
  | mapValue id cell region there fits => simp [region, there]
  | record number record ring region opened queue fits slot =>
      have short : ¬ record.reservation.length < place + length := by omega
      simp [region, recordCell?, opened, queue, short]

theorem store_isSome (inside : place + length ≤ limit) (value : Word) :
    (memory.store? address length value).isSome = (cell.store? place length value).isSome := by
  rw [store?_dynamic value names]
  cases backs with
  | mapValue id cell region there fits => simp [region, there]
  | record number record ring region opened queue fits slot =>
      have short : ¬ record.reservation.length < place + length := by omega
      simp [region, recordCell?, opened, queue, short]

theorem update_isSome (isMapValue : kind = .mapValue) (change : Word → Word) :
    (memory.update? address length change).isSome = (cell.update? place length change).isSome := by
  rw [update?_dynamic change names]
  cases backs with
  | mapValue id cell region there fits => simp [region, there]
  | record number record ring region opened queue fits slot => cases isMapValue

end

end Memory.Backs

theorem Cell.aligned_of_isLane
    {place length : Nat}
    (lane : Cell.isLane place length = true) :
    place % length = 0 := by
  simp only [Cell.isLane, Bool.and_eq_true, beq_iff_eq] at lane
  exact lane.2

/-- The bytes of an access that lies wholly in a region. -/
structure Memory.Reaches (memory : Memory) (index limit : Nat) (address : Word)
    (place length : Nat) :
    Prop where
  names : RegionAddress.Names address (RegionAddress.firstDynamic + index) place
  inside : place + length ≤ limit

section

variable {memory : Memory} {index limit : Nat} {cell : Cell}
variable {pointer : AbstractValue} {change : Word} {offset : Int} {size : AccessSize}

/-- A load that reaches inside a region succeeds. -/
theorem loads_of_inside
    {address : Word} {place : Nat} {kind : ValueKind}
    (backs : memory.Backs index limit kind cell)
    (reaches : memory.Reaches index limit address place size.bytes) :
    (cell.load? place size.bytes).isSome ∧ (memory.load? address size.bytes).isSome := by
  rw [backs.load_eq reaches.names reaches.inside, and_self]
  rcases Cell.load?_of_inside (reaches.inside.trans backs.limit_le) size.bytes_le with
    ⟨loaded, loads, _⟩
  rw [loads]
  rfl

/-- A store that reaches inside a region succeeds. -/
theorem stores_of_inside
    {address : Word} {place : Nat} {kind : ValueKind}
    (backs : memory.Backs index limit kind cell)
    (reaches : memory.Reaches index limit address place size.bytes) (value : Word) :
    (cell.store? place size.bytes value).isSome ∧
      (memory.store? address size.bytes value).isSome := by
  rw [backs.store_isSome reaches.names reaches.inside value, and_self,
    Cell.store?_of_inside value (reaches.inside.trans backs.limit_le) size.bytes_le]
  rfl

/-- An aligned atomic operation that reaches inside a map value succeeds. -/
theorem updates_of_inside
    {address : Word} {place : Nat}
    (backs : memory.Backs index limit .mapValue cell)
    (reaches : memory.Reaches index limit address place size.bytes)
    (lane : Cell.isLane place size.bytes = true) (replace : Word → Word) :
    (cell.update? place size.bytes replace).isSome ∧
      (memory.update? address size.bytes replace).isSome := by
  rw [backs.update_isSome reaches.names rfl, and_self,
    Cell.update?_of_inside replace (reaches.inside.trans backs.limit_le) lane]
  rfl

/-- The address that a pointer into a region stands for, at an offset, when its variable part is
the given word. -/
def AbstractValue.addressIn (pointer : AbstractValue) (index : Nat) (change : Word) (offset : Int) :
    Word :=
  RegionAddress.make (RegionAddress.firstDynamic + index) 0 + BitVec.ofInt 64 pointer.offset +
    change + BitVec.ofInt 64 offset

/-- Where an access falls that the check for a region let through. -/
theorem reaches_of_checkRegionAccess
    {length : Nat}
    (small : RegionAddress.firstDynamic + index < 2 ^ 32) (bound : limit < 2 ^ 32)
    (member : change ∈ pointer.bounds)
    (passed : checkRegionAccess pointer offset length limit = .ok ()) :
    ∃ place : Nat, memory.Reaches index limit (pointer.addressIn index change offset) place length ∧
      pointer.offset + offset + change.toNat = place := by
  rcases checkRegionAccess_place passed member with ⟨place, moved, inside⟩
  refine ⟨place, ⟨?_, inside⟩, moved⟩
  rw [AbstractValue.addressIn, Word.moved_again]
  exact RegionAddress.names_moved rfl small (by omega) moved

/-- Of the two kinds of regions, atomic accesses go to map values alone, and have passed the checks
of their alignment and of the region. -/
theorem checks_of_checkAtomic
    {setting : Setting} {focus focus' : Focus} {operation : AtomicOperation}
    {base source : RegisterName}
    (isRegion : (focus.state.register base).kind = .mapValue ∨
      (focus.state.register base).kind = .record)
    (passed : checkAtomic setting focus operation size base source offset = .ok focus') :
    (focus.state.register base).kind = .mapValue ∧
      checkAligned (focus.state.register base) offset size.bytes = .ok () ∧
        ∃ schema, setting.schema? (focus.state.register base).mapIndex = some schema ∧
          checkRegionAccess (focus.state.register base) offset size.bytes schema.valueSize =
            .ok () := by
  rcases exchanges_of_checkAtomic passed with ⟨updated, exchanges, _⟩
  cases exchanges.targets with
  | stack isStack _ _ =>
      rw [isStack] at isRegion
      rcases isRegion with absurdity | absurdity
      · cases absurdity
      · cases absurdity
  | mapValue isMapValue declared lies =>
      exact ⟨isMapValue, exchanges.aligned, _, declared, lies⟩

end

section

variable {memory : Memory} {index limit : Nat} {cell : Cell} {setting : Setting} {focus : Focus}
variable {base : RegisterName} {change : Word}

/--
Through a pointer to a map value or to a record, a load or a store that passed
the check for the size of the region lies in it and succeeds, and so does an
atomic access that was let through, which is aligned to its size besides.  This
is so at every address that the pointer stands for.
-/
theorem regionAccess_sound
    (backs : memory.Backs index limit (focus.state.register base).kind cell)
    (small : RegionAddress.firstDynamic + index < 2 ^ 32) (bound : limit < 2 ^ 32)
    (member : change ∈ (focus.state.register base).bounds) (size : AccessSize) (offset : Int) :
    (checkRegionAccess (focus.state.register base) offset size.bytes limit = .ok () →
      ∃ place, memory.Reaches index limit
          ((focus.state.register base).addressIn index change offset) place size.bytes ∧
        ((cell.load? place size.bytes).isSome ∧
          (memory.load? ((focus.state.register base).addressIn index change offset)
            size.bytes).isSome) ∧
          ∀ value, (cell.store? place size.bytes value).isSome ∧
            (memory.store? ((focus.state.register base).addressIn index change offset) size.bytes
              value).isSome) ∧
      ∀ operation source focus',
        checkAtomic setting focus operation size base source offset = .ok focus' →
          (∀ schema, setting.schema? (focus.state.register base).mapIndex = some schema →
            schema.valueSize = limit) →
            ∃ place, memory.Reaches index limit
                ((focus.state.register base).addressIn index change offset) place size.bytes ∧
              place % size.bytes = 0 ∧
                ∀ replace, (cell.update? place size.bytes replace).isSome ∧
                  (memory.update? ((focus.state.register base).addressIn index change offset)
                    size.bytes replace).isSome := by
  constructor
  · intro passed
    rcases reaches_of_checkRegionAccess small bound member passed with ⟨place, reaches, _⟩
    exact ⟨place, reaches, loads_of_inside backs reaches, stores_of_inside backs reaches⟩
  · intro operation source focus' passed sized
    rcases checks_of_checkAtomic backs.isRegion passed with
      ⟨isMapValue, aligned, schema, declared, accesses⟩
    rw [sized schema declared] at accesses
    rcases reaches_of_checkRegionAccess small bound member accesses with ⟨place, reaches, moved⟩
    have lane := isLane_of_aligned aligned member moved
    rw [isMapValue] at backs
    exact ⟨place, reaches, Cell.aligned_of_isLane lane, updates_of_inside backs reaches lane⟩

end

/-- An array of two values of eight bytes, the first of which has been handed out. -/
def valueMemory : Memory where
  packet := #[]
  scratch := #[]
  metadata := {}
  stack := #[]
  regions := #[.mapValue ⟨0, 0⟩]
  store := ((Store.create "a" (.array 8 2)).run (.forWorkers 1)).2

/-- A pointer to the first or to the second half of such a value, by a variable part of four or
eight bytes. -/
def halfPointer : AbstractValue :=
  { AbstractValue.pointer .mapValue with
    identity := 1
    offset := -4
    bounds := (Bounds.ofInterval 1 2).shiftLeft (.constant 2) }

/-- The pointer is in the register of results, next to a number. -/
def halfFocus : Focus where
  state := (AbstractState.entry.setRegister .result halfPointer).setRegister .second (.constant 1)
  lastIdentity := 1

/-- A load and an exchange of the second half. -/
theorem regionAccess_sound_half :
    (∃ place, valueMemory.Reaches 0 8 (halfPointer.addressIn 0 8 0) place 4 ∧
        (valueMemory.load? (halfPointer.addressIn 0 8 0) 4).isSome) ∧
      ∃ place, valueMemory.Reaches 0 8 (halfPointer.addressIn 0 8 0) place 4 ∧ place % 4 = 0 ∧
        (valueMemory.update? (halfPointer.addressIn 0 8 0) 4 fun _ => 1).isSome := by
  have backs : valueMemory.Backs 0 8 .mapValue (.zeroed 8) :=
    .mapValue ⟨0, 0⟩ (.zeroed 8) rfl (by decide +kernel) (by decide)
  let setting : Setting := ⟨.ingress, #[.array 8 2]⟩
  rcases @regionAccess_sound valueMemory 0 8 (.zeroed 8) setting halfFocus .result 8 backs
      (by decide) (by decide) (by decide +kernel) .word 0 with ⟨sound, atomic⟩
  rcases sound (by decide +kernel) with ⟨place, reaches, loads, _⟩
  rcases atomic .exchange .second (halfFocus.write .second (.scalar (.ofWidth 4)))
      (by decide +kernel) (by rintro _ ⟨⟩; rfl) with ⟨place', reaches', aligned, updates⟩
  exact ⟨⟨place, reaches, loads.2⟩, place', reaches', aligned, (updates fun _ => 1).2⟩

end PacketFilter
