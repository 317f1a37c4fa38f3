import PacketFilter.Proofs.Calling
import PacketFilter.Proofs.Contents
import PacketFilter.Proofs.Lines
import PacketFilter.Proofs.Region

/-!
# Stages of a run

A stage is what is known of a machine in the middle of a run: where it stands,
the packet and the maps, the words in some of its registers, the bytes in some
places of the stack, and the map values that some words point to.

There is one rule for each kind of line.  It says what is known after the line
when a stage is known before it, so the lines of a program are gone through
without a look at the machine.
-/

namespace PacketFilter

/-- What is known of a machine on its way through a program that is run line by line. -/
structure Stage where
  position : Nat
  packet : Bytes
  store : Store
  /-- Words in registers; of several for one register the first one counts. -/
  known : List (RegisterName × Word)
  /-- Bytes on the stack, from these places on. -/
  slots : List (Nat × List UInt8)
  pointers : List (Word × CellId)
  target? : Option Nat

namespace Stage

/-- The size of the stack that programs are run with. -/
def stackSize : Nat := 512

/-- The end of a packet as a program sees it. -/
def packetEnd (packet : Bytes) : Word :=
  RegionAddress.make RegionAddress.packet (min packet.size 0xffffffff)

/-- The address of a byte of the packet. -/
def packetPlace (place : Nat) : Word :=
  RegionAddress.make RegionAddress.packet place

/-- The address of a byte of the stack. -/
def stackPlace (place : Nat) : Word :=
  RegionAddress.make RegionAddress.stack place

/-- The handle of a declared map. -/
def mapHandle (index : Nat) : Word :=
  RegionAddress.make RegionAddress.mapHandle index

/-- The machine is at that stage of a run for the metadata. -/
structure Fits (stage : Stage) (metadata : Metadata) (machine : Machine) : Prop where
  position : machine.position = stage.position
  packet : machine.memory.packet = stage.packet
  store : machine.memory.store = stage.store
  metadata : machine.memory.metadata = metadata
  records : machine.memory.records = #[]
  stack : machine.memory.stack.size = stackSize
  /-- No line hands out more than one region. -/
  regions : machine.memory.regions.size ≤ stage.position
  frame : machine.register 10 = stackPlace stackSize
  known : ∀ (name : RegisterName) (word : Word), stage.known.lookup name = some word →
    machine.register name = word
  slots : ∀ slot ∈ stage.slots, machine.memory.stack.Holds slot.1 slot.2
  pointers : ∀ pointer ∈ stage.pointers,
    machine.memory.PointsTo pointer.1 (.mapValue pointer.2)
  target? : machine.redirectTarget? = stage.target?

/-- Whatever machine is at the stage, its run comes to an exit without a record left open, and this
holds of its outcome, the packet and the maps. -/
def Delivers (setup : Setup) (metadata : Metadata)
    (post : Except Fault Verdict → Bytes → Store → Prop) (stage : Stage) : Prop :=
  ∀ machine, stage.Fits metadata machine → machine.Delivers setup fun code final =>
    final.memory.records = #[] ∧
      post (Verdict.ofCode code final.redirectTarget?) final.memory.packet final.memory.store

/-- What an operand is known to be. -/
def operand? (known : List (RegisterName × Word)) : Operand → Option Word
  | .register name => if name = 10 then some (stackPlace stackSize) else known.lookup name
  | .immediate value => some (Word.ofImmediate value)

/-- None of the known bytes of the stack lies in the stretch. -/
def Apart (slots : List (Nat × List UInt8)) (place length : Nat) : Prop :=
  ∀ slot ∈ slots, place + length ≤ slot.1 ∨ slot.1 + slot.2.length ≤ place

/-- What is known by the first list is known by the second one too. -/
def Includes (known' known : List (RegisterName × Word)) : Prop :=
  ∀ (name : RegisterName) (word : Word), known'.lookup name = some word →
    known.lookup name = some word

variable {setup : Setup} {metadata : Metadata} {post : Except Fault Verdict → Bytes → Store → Prop}
variable {position : Nat} {packet : Bytes} {store : Store} {known : List (RegisterName × Word)}
variable {slots : List (Nat × List UInt8)} {pointers : List (Word × CellId)} {target? : Option Nat}
variable {machine : Machine} {stage : Stage} {rest : List Line}

theorem lookup_skip
    {name other : RegisterName} {word : Word} (apart : name ≠ other) :
    List.lookup name ((other, word) :: known) = known.lookup name := by
  rw [List.lookup_cons, beq_false_of_ne apart]

namespace Includes

variable {known' : List (RegisterName × Word)} {name other : RegisterName} {word : Word}

theorem refl (known : List (RegisterName × Word)) : Includes known known :=
  fun _ _ found => found

theorem of_each
    (each : known'.Forall fun entry => known.lookup entry.1 = some entry.2) :
    Includes known' known := by
  intro name word found
  rcases List.lookup_eq_some_iff.mp found with ⟨before, after, split, _⟩
  have listed : (name, word) ∈ known' := split ▸ List.mem_append_right _ List.mem_cons_self
  exact List.forall_iff_forall_mem.mp each _ listed

theorem cons (includes : Includes known' known) (entry : RegisterName × Word) :
    Includes (entry :: known') (entry :: known) := by
  intro name word found
  rw [List.lookup_cons] at found ⊢
  split at found
  case h_1 => exact found
  case h_2 => exact includes name word found

/-- A word for a register that nothing else is known of is left out. -/
theorem skip
    (includes : Includes known' known) (unknown : ∀ entry ∈ known', entry.1 ≠ other) :
    Includes known' ((other, word) :: known) := by
  intro name word found
  rcases List.lookup_eq_some_iff.mp found with ⟨before, after, split, _⟩
  have listed : (name, word) ∈ known' := split ▸ List.mem_append_right _ List.mem_cons_self
  rw [lookup_skip (unknown _ listed)]
  exact includes name word found

end Includes

namespace Fits

theorem operand
    (fits : stage.Fits metadata machine) {right : Operand} {word : Word}
    (found : operand? stage.known right = some word) : machine.operand right = word := by
  cases right with
  | register name =>
      rw [operand?] at found
      split at found
      case isTrue same => exact same ▸ fits.frame.trans (Option.some.inj found)
      case isFalse => exact fits.known name word found
  | immediate value => exact Option.some.inj found

theorem goTo
    {following : Nat} (fits : stage.Fits metadata machine) (later : stage.position ≤ following) :
    Fits { stage with position := following } metadata (machine.goTo following) :=
  { fits with
    position := rfl
    regions := fits.regions.trans later }

/-- A register has been set and nothing else has changed. -/
theorem setRegister
    {name : RegisterName} {word : Word}
    (fits : stage.Fits metadata machine) (apart : name ≠ 10) :
    Fits { stage with known := (name, word) :: stage.known } metadata
      (machine.setRegister name word) :=
  { fits with
    frame := by
      rw [Machine.register_setRegister, if_neg apart]
      exact fits.frame
    known := fun other value found => by
      rw [Machine.register_setRegister]
      rw [List.lookup_cons] at found
      by_cases same : name = other
      · simpa [same] using found
      · have differs : other ≠ name := fun equal => same equal.symm
        rw [if_neg same]
        rw [beq_false_of_ne differs] at found
        exact fits.known other value found }

/-- The stack has been written to, and these are bytes known to be on it now. -/
theorem withStack
    {stack : Bytes} {slots : List (Nat × List UInt8)}
    (fits : stage.Fits metadata machine) (sized : stack.size = stackSize)
    (holds : ∀ slot ∈ slots, stack.Holds slot.1 slot.2) :
    Fits { stage with slots } metadata
      (machine.withMemory (machine.memory.withStack stack)) :=
  { fits with
    stack := sized
    slots := holds }

/-- The maps have been changed. -/
theorem withStore (fits : stage.Fits metadata machine) (store : Store) :
    Fits { stage with store } metadata (machine.withMemory { machine.memory with store }) :=
  { fits with store := rfl }

/-- A map value has been handed out. -/
theorem handOut
    (fits : stage.Fits metadata machine) (few : stage.position < 2 ^ 31) (id : CellId) :
    ∃ pointer memory, machine.memory.addMapValue? id = some (pointer, memory) ∧ pointer ≠ 0 ∧
      ∀ following, stage.position < following →
        Fits
          { stage with
            position := following
            known := (0, pointer) :: stage.known
            pointers := (pointer, id) :: stage.pointers }
          metadata (((machine.withMemory memory).setRegister 0 pointer).goTo following) := by
  have count := fits.regions
  have short : RegionAddress.firstDynamic + machine.memory.regions.size <
      RegionAddress.mapHandle := by
    simp only [RegionAddress.firstDynamic, RegionAddress.mapHandle]
    omega
  let grown := machine.memory.push (.mapValue id)
  have size : grown.regions.size = machine.memory.regions.size + 1 := Array.size_push _
  have fresh : grown.PointsTo
      (RegionAddress.make (RegionAddress.firstDynamic + machine.memory.regions.size) 0)
      (.mapValue id) := ⟨_, rfl, Array.getElem?_push_size⟩
  have old : ∀ pointer ∈ stage.pointers, grown.PointsTo pointer.1 (.mapValue pointer.2) := by
    intro pointer listed
    rcases fits.pointers pointer listed with ⟨index, place, held⟩
    have inside := (Array.getElem?_eq_some_iff.mp held).1
    exact ⟨index, place,
      (Array.getElem?_push_lt inside).trans (Array.getElem?_eq_getElem inside ▸ held)⟩
  refine ⟨_, grown, if_pos short, fresh.ne_zero (by omega), fun following later => ?_⟩
  have moved : Fits
      { stage with
        position := following
        pointers := (_, id) :: stage.pointers }
      metadata ((machine.withMemory grown).goTo following) :=
    { fits with
      position := rfl
      regions := by
        rw [Machine.memory_goTo, Machine.memory_withMemory, size]
        exact Nat.lt_of_le_of_lt count later
      pointers := List.forall_mem_cons.mpr ⟨fresh, old⟩ }
  have apart : (0 : RegisterName) ≠ 10 := by decide
  exact (moved.setRegister apart : _)

/-! ### Accesses -/

variable {place : Nat} {data : List UInt8} {word : Word} {id : CellId}

theorem stackPlace_names {place : Nat} (short : place < 2 ^ 32) :
    RegionAddress.Names (stackPlace place) RegionAddress.stack place :=
  RegionAddress.names_make (by decide) short

theorem frame_names
    (fits : stage.Fits metadata machine) {offset : Int} (placed : stackSize + offset = place)
    (short : place < 2 ^ 32) :
    RegionAddress.Names (machine.register 10 + BitVec.ofInt 64 offset)
      RegionAddress.stack place := by
  have moved : stackPlace stackSize + BitVec.ofInt 64 offset = stackPlace place :=
    RegionAddress.make_add (by decide) (by decide) short placed
  rw [fits.frame, moved]
  exact stackPlace_names short

theorem packet_names
    (fits : stage.Fits metadata machine) {base : RegisterName} {start : Nat} {offset : Int}
    (based : stage.known.lookup base = some (packetPlace start)) (placed : start + offset = place)
    (short : start < 2 ^ 32) (short' : place < 2 ^ 32) :
    RegionAddress.Names (machine.register base + BitVec.ofInt 64 offset) RegionAddress.packet
      place := by
  have moved : packetPlace start + BitVec.ofInt 64 offset = packetPlace place :=
    RegionAddress.make_add (by decide) short short' placed
  rw [fits.known _ _ based, moved]
  exact RegionAddress.names_make (by decide) short'

/-- A word that points to a map value leads to one of the regions handed out. -/
theorem cell_names
    (fits : stage.Fits metadata machine) (few : stage.position < 2 ^ 31)
    (pointed : (word, id) ∈ stage.pointers) (short : place < 2 ^ 32) :
    ∃ index, machine.memory.regions[index]? = some (.mapValue id) ∧
      RegionAddress.Names (word + BitVec.ofInt 64 place) (RegionAddress.firstDynamic + index)
        place := by
  rcases fits.pointers _ pointed with ⟨index, rfl, held⟩
  have inside := (Array.getElem?_eq_some_iff.mp held).1
  have count := fits.regions
  have small : RegionAddress.firstDynamic + index < 2 ^ 32 := by
    simp only [RegionAddress.firstDynamic]
    omega
  refine ⟨index, held, ?_⟩
  rw [RegionAddress.make_add small (by decide) short (Int.zero_add _)]
  exact RegionAddress.names_make small short

/-- Bytes that are known to be on the stack are read from it. -/
theorem read?_stack
    (fits : stage.Fits metadata machine) (slot : (place, data) ∈ stage.slots) :
    machine.memory.read? (stackPlace place) data.length = some data.toArray := by
  have holds := fits.slots _ slot
  have inside := (Bytes.holds_iff.mp holds).1
  rw [fits.stack, stackSize] at inside
  rw [Memory.read?_stack (stackPlace_names (by omega)), holds, Option.map_some]

end Fits

namespace Delivers

/-- Some of what is known is left out of account. -/
theorem weaken
    {known' : List (RegisterName × Word)} {slots' : List (Nat × List UInt8)}
    {pointers' : List (Word × CellId)}
    (names : Includes known' known) (places : slots' ⊆ slots)
    (words : pointers' ⊆ pointers)
    (continues : Delivers setup metadata post
      ⟨position, packet, store, known', slots', pointers', target?⟩) :
    Delivers setup metadata post ⟨position, packet, store, known, slots, pointers, target?⟩ :=
  fun machine fits => continues machine
    { fits with
      known := fun name word found => fits.known name word (names name word found)
      slots := fun slot listed => fits.slots slot (places listed)
      pointers := fun pointer listed => fits.pointers pointer (words listed) }

/-- Only these words are kept in mind. -/
theorem keep
    (known' : List (RegisterName × Word))
    (each : known'.Forall fun entry => known.lookup entry.1 = some entry.2)
    (continues : Delivers setup metadata post
      ⟨position, packet, store, known', slots, pointers, target?⟩) :
    Delivers setup metadata post ⟨position, packet, store, known, slots, pointers, target?⟩ :=
  weaken (.of_each each) (List.Subset.refl _) (List.Subset.refl _) continues

/-- All that is known is left out of account. -/
theorem forget
    (continues : Delivers setup metadata post ⟨position, packet, store, [], [], [], target?⟩) :
    Delivers setup metadata post ⟨position, packet, store, known, slots, pointers, target?⟩ :=
  weaken (fun _ _ found => by cases found) (List.nil_subset _) (List.nil_subset _) continues

/-- Bytes that stand one after the other are taken together. -/
theorem join
    {place : Nat} {first second : List UInt8}
    (here : (place, first) ∈ slots) (there : (place + first.length, second) ∈ slots)
    (continues : Delivers setup metadata post
      ⟨position, packet, store, known, (place, first ++ second) :: slots, pointers, target?⟩) :
    Delivers setup metadata post ⟨position, packet, store, known, slots, pointers, target?⟩ := by
  intro machine fits
  refine continues machine { fits with slots := List.forall_mem_cons.mpr ⟨?_, fits.slots⟩ }
  exact Bytes.holds_append.mpr ⟨fits.slots _ here, fits.slots _ there⟩

/-- The first of some bytes are known by themselves. -/
theorem split
    {place : Nat} {first second : List UInt8} (here : (place, first ++ second) ∈ slots)
    (continues : Delivers setup metadata post
      ⟨position, packet, store, known, (place, first) :: slots, pointers, target?⟩) :
    Delivers setup metadata post ⟨position, packet, store, known, slots, pointers, target?⟩ := by
  intro machine fits
  refine continues machine { fits with slots := List.forall_mem_cons.mpr ⟨?_, fits.slots⟩ }
  exact (Bytes.holds_append.mp (fits.slots _ here)).1

/-! ## Registers -/

theorem assign
    {destination : RegisterName} {right : Operand} {word : Word}
    (listed : setup.code.lists position (.compute .move destination right :: rest))
    (apart : destination ≠ 10) (operand : operand? known right = some word)
    (continues : setup.code.lists (position + 1) rest →
      Delivers setup metadata post ⟨position + 1, packet, store, (destination, word) :: known,
        slots, pointers, target?⟩) :
    Delivers setup metadata post ⟨position, packet, store, known, slots, pointers, target?⟩ := by
  intro machine fits
  have here : machine.position = position := fits.position
  rw [← here] at listed
  refine Machine.Delivers.compute listed fun listed => ?_
  rw [here] at listed ⊢
  rw [fits.operand operand]
  exact continues listed _ ((fits.setRegister apart).goTo (Nat.le_succ _))

theorem compute
    {arithmetic : Arithmetic} {destination : RegisterName} {right : Operand} {first second : Word}
    (listed : setup.code.lists position (.compute arithmetic destination right :: rest))
    (apart : destination ≠ 10) (left : known.lookup destination = some first)
    (operand : operand? known right = some second)
    (continues : setup.code.lists (position + 1) rest →
      Delivers setup metadata post ⟨position + 1, packet, store,
        (destination, arithmetic.apply first second) :: known, slots, pointers, target?⟩) :
    Delivers setup metadata post ⟨position, packet, store, known, slots, pointers, target?⟩ := by
  intro machine fits
  have here : machine.position = position := fits.position
  rw [← here] at listed
  refine Machine.Delivers.compute listed fun listed => ?_
  rw [here] at listed ⊢
  rw [fits.known _ _ left, fits.operand operand]
  exact continues listed _ ((fits.setRegister apart).goTo (Nat.le_succ _))

/-- A register gets the address of a place on the stack. -/
theorem pointTo
    {destination : RegisterName} {offset : Int32} {place : Nat}
    (listed : setup.code.lists position
      (.move destination 10 :: .compute .add destination (.immediate offset) :: rest))
    (apart : destination ≠ 10) (short : place < 2 ^ 32)
    (placed : stackSize + offset.toInt = place)
    (continues : setup.code.lists (position + 2) rest →
      Delivers setup metadata post ⟨position + 2, packet, store,
        (destination, stackPlace place) :: known, slots, pointers, target?⟩) :
    Delivers setup metadata post ⟨position, packet, store, known, slots, pointers, target?⟩ := by
  have moved : stackPlace stackSize + BitVec.ofInt 64 offset.toInt = stackPlace place :=
    RegionAddress.make_add (by decide) (by decide) short placed
  refine assign listed apart rfl fun listed => ?_
  refine compute listed apart List.lookup_cons_self rfl fun listed => ?_
  have names : Includes ((destination, stackPlace place) :: known)
      ((destination, stackPlace stackSize + BitVec.ofInt 64 offset.toInt) ::
        (destination, stackPlace stackSize) :: known) := by
    intro name word found
    rw [moved]
    rw [List.lookup_cons] at found ⊢
    split at found
    case h_1 => exact found
    case h_2 differs => rwa [List.lookup_cons, differs]
  exact weaken names (List.Subset.refl _) (List.Subset.refl _) (continues listed)

theorem loadMap
    {destination : RegisterName} {map : Int32}
    (listed : setup.code.lists position (.loadMap destination map :: rest))
    (apart : destination ≠ 10)
    (continues : setup.code.lists (position + 2) rest →
      Delivers setup metadata post ⟨position + 2, packet, store,
        (destination, mapHandle (BitVec.ofInt 32 map.toInt).toNat) :: known, slots, pointers,
        target?⟩) :
    Delivers setup metadata post ⟨position, packet, store, known, slots, pointers, target?⟩ := by
  intro machine fits
  have here : machine.position = position := fits.position
  rw [← here] at listed
  refine Machine.Delivers.loadMap listed fun listed => ?_
  rw [here] at listed ⊢
  exact continues listed _ ((fits.setRegister apart).goTo (Nat.le_add_right _ _))

/-! ## Jumps -/

theorem branch
    {comparison : Comparison} {left : RegisterName} {right : Operand} {target : Nat}
    {first second : Word}
    (listed : setup.code.lists position (.branch comparison left right target :: rest))
    (found : known.lookup left = some first) (operand : operand? known right = some second)
    (taken : comparison.holds first second = true →
      Delivers setup metadata post ⟨target, packet, store, known, slots, pointers, target?⟩)
    (continues : comparison.holds first second = false → setup.code.lists (position + 1) rest →
      Delivers setup metadata post ⟨position + 1, packet, store, known, slots, pointers, target?⟩) :
    Delivers setup metadata post ⟨position, packet, store, known, slots, pointers, target?⟩ := by
  intro machine fits
  have here : machine.position = position := fits.position
  rw [← here] at listed
  refine Machine.Delivers.branch listed (fun holds forward => ?_) fun holds listed => ?_
  · rw [fits.known _ _ found, fits.operand operand] at holds
    exact taken holds _ (fits.goTo (Nat.le_of_lt (here ▸ forward)))
  · rw [fits.known _ _ found, fits.operand operand] at holds
    rw [here] at listed ⊢
    exact continues holds listed _ (fits.goTo (Nat.le_succ _))

theorem jump
    {target : Nat}
    (listed : setup.code.lists position (.jump target :: rest))
    (continues :
      Delivers setup metadata post ⟨target, packet, store, known, slots, pointers, target?⟩) :
    Delivers setup metadata post ⟨position, packet, store, known, slots, pointers, target?⟩ := by
  intro machine fits
  have here : machine.position = position := fits.position
  rw [← here] at listed
  exact Machine.Delivers.jump listed fun forward =>
    continues _ (fits.goTo (Nat.le_of_lt (here ▸ forward)))

theorem exit
    {code : Word}
    (listed : setup.code.lists position (.exit :: rest))
    (returned : known.lookup 0 = some code)
    (holds : post (Verdict.ofCode code target?) packet store) :
    Delivers setup metadata post ⟨position, packet, store, known, slots, pointers, target?⟩ := by
  intro machine fits
  have here : machine.position = position := fits.position
  rw [← here] at listed
  refine Machine.Delivers.exit listed ⟨fits.records, ?_⟩
  rw [fits.known _ _ returned, Machine.memory_counted, fits.packet, fits.store]
  exact fits.target? ▸ holds

/-! ## Loads -/

theorem of_load
    {size : AccessSize} {destination base : RegisterName} {offset : Int} {word : Word}
    (listed : setup.code.lists position (.load size destination base offset :: rest))
    (apart : destination ≠ 10)
    (found : ∀ machine : Machine,
      Fits ⟨position, packet, store, known, slots, pointers, target?⟩ metadata machine →
        machine.memory.load? (machine.register base + BitVec.ofInt 64 offset) size.bytes =
          some word)
    (continues : setup.code.lists (position + 1) rest →
      Delivers setup metadata post ⟨position + 1, packet, store, (destination, word) :: known,
        slots, pointers, target?⟩) :
    Delivers setup metadata post ⟨position, packet, store, known, slots, pointers, target?⟩ := by
  intro machine fits
  have here : machine.position = position := fits.position
  rw [← here] at listed
  refine Machine.Delivers.load listed (found machine fits) fun listed => ?_
  rw [here] at listed ⊢
  exact continues listed _ ((fits.setRegister apart).goTo (Nat.le_succ _))

theorem loadStart
    {destination : RegisterName}
    (listed : setup.code.lists position (.load .double destination 1 0 :: rest))
    (apart : destination ≠ 10) (context : known.lookup 1 = some Memory.contextPointer)
    (continues : setup.code.lists (position + 1) rest →
      Delivers setup metadata post ⟨position + 1, packet, store,
        (destination, packetPlace 0) :: known, slots, pointers, target?⟩) :
    Delivers setup metadata post ⟨position, packet, store, known, slots, pointers, target?⟩ := by
  refine of_load listed apart (fun machine fits => ?_) continues
  rw [fits.known _ _ context]
  rfl

theorem loadEnd
    {destination : RegisterName}
    (listed : setup.code.lists position (.load .double destination 1 8 :: rest))
    (apart : destination ≠ 10) (context : known.lookup 1 = some Memory.contextPointer)
    (continues : setup.code.lists (position + 1) rest →
      Delivers setup metadata post ⟨position + 1, packet, store,
        (destination, packetEnd packet) :: known, slots, pointers, target?⟩) :
    Delivers setup metadata post ⟨position, packet, store, known, slots, pointers, target?⟩ := by
  refine of_load listed apart (fun machine fits => ?_) continues
  have same : packetEnd packet = machine.memory.packetEnd := congrArg packetEnd fits.packet.symm
  rw [fits.known _ _ context, same]
  rfl

theorem loadPacket
    {size : AccessSize} {destination base : RegisterName} {offset : Int} {start : Nat} (place : Nat)
    {data : List UInt8}
    (listed : setup.code.lists position (.load size destination base offset :: rest))
    (apart : destination ≠ 10) (based : known.lookup base = some (packetPlace start))
    (placed : start + offset = place) (short : start < 2 ^ 32) (short' : place < 2 ^ 32)
    (holds : packet.Holds place data) (sized : data.length = size.bytes)
    (continues : setup.code.lists (position + 1) rest →
      Delivers setup metadata post ⟨position + 1, packet, store,
        (destination, Word.ofBytes data) :: known, slots, pointers, target?⟩) :
    Delivers setup metadata post ⟨position, packet, store, known, slots, pointers, target?⟩ := by
  refine of_load listed apart (fun machine fits => ?_) continues
  rw [Memory.load?_packet (fits.packet_names based placed short short'), fits.packet,
    ← sized, holds,
    Option.map_some]

/-- Known bytes are loaded from the stack, where others may stand around them. -/
theorem loadStack
    {size : AccessSize} {destination : RegisterName} {offset : Int} {start : Nat}
    (before : List UInt8) {data after : List UInt8}
    (listed : setup.code.lists position (.load size destination 10 offset :: rest))
    (apart : destination ≠ 10) (slot : (start, before ++ (data ++ after)) ∈ slots)
    (placed : stackSize + offset = start + before.length) (sized : data.length = size.bytes)
    (continues : setup.code.lists (position + 1) rest →
      Delivers setup metadata post ⟨position + 1, packet, store,
        (destination, Word.ofBytes data) :: known, slots, pointers, target?⟩) :
    Delivers setup metadata post ⟨position, packet, store, known, slots, pointers, target?⟩ := by
  refine of_load listed apart (fun machine fits => ?_) continues
  have holds := (Bytes.holds_append.mp (Bytes.holds_append.mp (fits.slots _ slot)).2).1
  have inside := (Bytes.holds_iff.mp holds).1
  rw [fits.stack, stackSize] at inside
  rw [Memory.load?_stack (fits.frame_names (by exact_mod_cast placed) (by omega)), ← sized, holds,
    Option.map_some]

/-- A word is loaded from the stack, whatever stands there. -/
theorem loadAny
    {size : AccessSize} {destination : RegisterName} {offset : Int} (place : Nat)
    (listed : setup.code.lists position (.load size destination 10 offset :: rest))
    (apart : destination ≠ 10) (placed : stackSize + offset = place)
    (inside : place + size.bytes ≤ stackSize)
    (continues : ∀ word, setup.code.lists (position + 1) rest →
      Delivers setup metadata post ⟨position + 1, packet, store, (destination, word) :: known,
        slots, pointers, target?⟩) :
    Delivers setup metadata post ⟨position, packet, store, known, slots, pointers, target?⟩ := by
  intro machine fits
  have holds := Bytes.holds_slice (inside.trans_eq fits.stack.symm)
  have known_slots : Fits ⟨position, packet, store, known,
      (place, [] ++ (machine.memory.stack.slice place size.bytes ++ [])) :: slots, pointers,
      target?⟩ metadata machine :=
    { fits with
      slots := List.forall_mem_cons.mpr ⟨by rwa [List.nil_append, List.append_nil], fits.slots⟩ }
  refine loadStack [] listed apart List.mem_cons_self placed
    (Bytes.slice_length (inside.trans_eq fits.stack.symm)) (fun listed => ?_) machine known_slots
  exact weaken (.refl _) (List.subset_cons_self _ _) (List.Subset.refl _)
    (continues _ listed)

/-- Bytes are loaded from a map value. -/
theorem loadCell
    {size : AccessSize} {destination base : RegisterName} {place : Nat} {word : Word} {id : CellId}
    {cell : Cell}
    (listed : setup.code.lists position (.load size destination base place :: rest))
    (few : position < 2 ^ 31) (apart : destination ≠ 10)
    (based : known.lookup base = some word) (pointed : (word, id) ∈ pointers)
    (there : store.cell? id = some cell) (short : place < 2 ^ 32)
    (inside : place + size.bytes ≤ cell.size)
    (whole : Cell.reach place size.bytes = size.bytes)
    (continues : setup.code.lists (position + 1) rest →
      Delivers setup metadata post ⟨position + 1, packet, store,
        (destination, Word.ofBytes (cell.bytes.slice place size.bytes)) :: known, slots, pointers,
        target?⟩) :
    Delivers setup metadata post ⟨position, packet, store, known, slots, pointers, target?⟩ := by
  refine of_load listed apart (fun machine fits => ?_) continues
  rcases fits.cell_names few pointed short with ⟨index, held, names⟩
  have covered : cell.covers place size.bytes = true := Bytes.covers_iff.mpr inside
  have bounded : size.bytes ≤ 8 := by cases size <;> decide
  rw [fits.known _ _ based, Memory.load?_dynamic names, held, fits.store]
  show (store.cell? id).bind _ = _
  rw [there, Option.bind_some, Cell.load?, covered, decide_eq_true bounded, Cell.integerAt, whole]
  rfl

/-! ## Stores -/

theorem of_store
    {size : AccessSize} {base : RegisterName} {offset : Int} {right : Operand} {word : Word}
    {packet' : Bytes} {slots' : List (Nat × List UInt8)}
    (listed : setup.code.lists position (.store size base offset right :: rest))
    (operand : operand? known right = some word)
    (stored : ∀ machine : Machine,
      Fits ⟨position, packet, store, known, slots, pointers, target?⟩ metadata machine →
        ∃ memory,
          machine.memory.store? (machine.register base + BitVec.ofInt 64 offset) size.bytes word =
            some memory ∧
          Fits ⟨position, packet', store, known, slots', pointers, target?⟩ metadata
            (machine.withMemory memory))
    (continues : setup.code.lists (position + 1) rest →
      Delivers setup metadata post ⟨position + 1, packet', store, known, slots', pointers,
        target?⟩) :
    Delivers setup metadata post ⟨position, packet, store, known, slots, pointers, target?⟩ := by
  intro machine fits
  have here : machine.position = position := fits.position
  rcases stored machine fits with ⟨memory, stores, fits'⟩
  rw [← fits.operand operand] at stores
  rw [← here] at listed
  refine Machine.Delivers.store listed stores fun listed => ?_
  rw [here] at listed ⊢
  exact continues listed _ (fits'.goTo (Nat.le_succ _))

theorem storeStack
    {size : AccessSize} {offset : Int} {right : Operand} {word : Word} (place : Nat)
    (listed : setup.code.lists position (.store size 10 offset right :: rest))
    (operand : operand? known right = some word) (placed : stackSize + offset = place)
    (inside : place + size.bytes ≤ stackSize) (apart : Apart slots place size.bytes)
    (continues : setup.code.lists (position + 1) rest →
      Delivers setup metadata post ⟨position + 1, packet, store, known,
        (place, Memory.layOut word size.bytes) :: slots, pointers, target?⟩) :
    Delivers setup metadata post ⟨position, packet, store, known, slots, pointers, target?⟩ := by
  refine of_store listed operand (fun machine fits => ?_) continues
  have length := Memory.layOut_length word size.bytes
  have inside' : place + (Memory.layOut word size.bytes).length ≤ machine.memory.stack.size := by
    rw [length, fits.stack]
    exact inside
  have covered : machine.memory.stack.covers place size.bytes = true :=
    Bytes.covers_iff.mpr (length ▸ inside')
  have short : place < 2 ^ 32 := by
    rw [stackSize] at inside
    omega
  refine ⟨_, ?_, fits.withStack ((Bytes.overwrite_size _ _ _).trans fits.stack)
    (List.forall_mem_cons.mpr ⟨Bytes.holds_overwrite inside', fun slot listed => ?_⟩)⟩
  · rw [Memory.store?_stack _ (fits.frame_names placed short), Memory.putWord?, if_pos covered]
    rfl
  · exact (fits.slots slot listed).overwrite (length.symm ▸ apart slot listed)

/-- Some of the bytes known to be at a place of the stack are written over with others. -/
theorem storeWithin
    {size : AccessSize} {offset : Int} {right : Operand} {start : Nat} {content data : List UInt8}
    (before old after : List UInt8)
    (listed : setup.code.lists position (.store size 10 offset right :: rest))
    (operand : operand? known right = some (Word.ofBytes data)) (sized : data.length = size.bytes)
    (held : content = before ++ (old ++ after)) (sized' : old.length = size.bytes)
    (placed : stackSize + offset = start + before.length)
    (continues : setup.code.lists (position + 1) rest →
      Delivers setup metadata post ⟨position + 1, packet, store, known,
        [(start, before ++ (data ++ after))], pointers, target?⟩) :
    Delivers setup metadata post ⟨position, packet, store, known, [(start, content)], pointers,
      target?⟩ := by
  refine of_store listed operand (fun machine fits => ?_) continues
  have short : data.length ≤ 8 := by
    rw [sized]
    cases size <;> decide
  have laidOut := Memory.layOut_ofBytes short
  rw [sized] at laidOut
  have holds := fits.slots _ List.mem_cons_self
  rw [held] at holds
  have inside := (Bytes.holds_iff.mp (Bytes.holds_append.mp (Bytes.holds_append.mp holds).2).1).1
  have covered : machine.memory.stack.covers (start + before.length) size.bytes = true :=
    Bytes.covers_iff.mpr (sized' ▸ inside)
  rw [fits.stack, stackSize] at inside
  refine ⟨_, ?_, fits.withStack ((Bytes.overwrite_size _ _ _).trans fits.stack)
    (List.forall_mem_singleton.mpr (holds.overwrite_within (sized.trans sized'.symm)))⟩
  rw [Memory.store?_stack _ (fits.frame_names (by exact_mod_cast placed) (by omega)),
    Memory.putWord?, if_pos covered, laidOut]
  rfl

theorem storePacket
    {size : AccessSize} {base : RegisterName} {offset : Int} {right : Operand} {word : Word}
    {start : Nat} (place : Nat)
    (listed : setup.code.lists position (.store size base offset right :: rest))
    (operand : operand? known right = some word)
    (based : known.lookup base = some (packetPlace start)) (placed : start + offset = place)
    (short : start < 2 ^ 32) (short' : place < 2 ^ 32) (inside : place + size.bytes ≤ packet.size)
    (continues : setup.code.lists (position + 1) rest →
      Delivers setup metadata post ⟨position + 1,
        packet.overwrite place (Memory.layOut word size.bytes), store, known, slots, pointers,
        target?⟩) :
    Delivers setup metadata post ⟨position, packet, store, known, slots, pointers, target?⟩ := by
  refine of_store listed operand (fun machine fits => ?_) continues
  have covered : machine.memory.packet.covers place size.bytes = true :=
    Bytes.covers_iff.mpr (fits.packet.symm ▸ inside)
  have written : Fits ⟨position, packet.overwrite place (Memory.layOut word size.bytes), store,
      known, slots, pointers, target?⟩ metadata (machine.withMemory { machine.memory with
        packet := machine.memory.packet.overwrite place (Memory.layOut word size.bytes) }) :=
    { fits with
      packet := congrArg (fun bytes : Bytes =>
        bytes.overwrite place (Memory.layOut word size.bytes)) fits.packet }
  refine ⟨_, ?_, written⟩
  rw [Memory.store?_packet _ (fits.packet_names based placed short short'), Memory.putWord?,
    if_pos covered]
  rfl

/-- A word in a map value is added to; the one that was there is handed back if it is asked for. -/
theorem add
    {fetches : Bool} {base source : RegisterName} {word old amount : Word} {id : CellId}
    (listed : setup.code.lists position (.add fetches base source :: rest))
    (few : position < 2 ^ 31) (apart : source ≠ 10)
    (based : known.lookup base = some word) (pointed : (word, id) ∈ pointers)
    (sourced : known.lookup source = some amount) (there : store.cell? id = some (.ofWord old))
    (continues : setup.code.lists (position + 1) rest →
      Delivers setup metadata post ⟨position + 1, packet,
        store.setCell id (.ofWord (old + amount)),
        if fetches then (source, old) :: known else known, slots, pointers, target?⟩) :
    Delivers setup metadata post ⟨position, packet, store, known, slots, pointers, target?⟩ := by
  intro machine fits
  have here : machine.position = position := fits.position
  rcases fits.cell_names few pointed (show 0 < 2 ^ 32 by decide) with ⟨index, held, names⟩
  have updated : machine.memory.update? (machine.register base) 8 (· + machine.register source) =
      some (old, { machine.memory with store := store.setCell id (.ofWord (old + amount)) }) := by
    have still : word + BitVec.ofInt 64 (0 : Nat) = word := BitVec.add_zero word
    rw [still] at names
    have cells : machine.memory.store = store := fits.store
    rw [fits.known _ _ based, fits.known _ _ sourced, Memory.update?_dynamic _ names, held]
    show (machine.memory.store.cell? id).bind _ = _
    rw [cells, there, Option.bind_some, Cell.update?_ofWord, Option.map_some, Memory.setMapCell,
      cells]
  have changed := fits.withStore (store.setCell id (.ofWord (old + amount)))
  rw [← here] at listed
  refine Machine.Delivers.add listed updated fun listed => ?_
  rw [here] at listed ⊢
  refine continues listed _ ?_
  cases fetches with
  | false => exact changed.goTo (Nat.le_succ _)
  | true => exact (changed.setRegister apart).goTo (Nat.le_succ _)

/-! ## Calls -/

theorem run_mapOf
    {index : Nat} {id : MapId} {map : Map} (short : index < 2 ^ 32)
    (named : setup.maps[index]? = some id) (there : machine.memory.store.map? id = some map) :
    (Execution.mapOf setup (mapHandle index)).run machine = (.ok (id, map), machine) := by
  have names : RegionAddress.Names (mapHandle index) RegionAddress.mapHandle index :=
    RegionAddress.names_make (by decide) short
  simp only [Execution.mapOf, names.region, names.offset, named]
  rw [Stateful.run_ite, if_neg (fun differs => differs rfl), Stateful.run_bind, Stateful.run_get]
  dsimp only
  rw [there]
  rfl

/-- A helper that changes at most the maps and the target of a redirection. -/
theorem of_call
    {helper : Helper} {store' : Store} {word : Word} {target'? : Option Nat}
    (listed : setup.code.lists position (.call helper :: rest))
    (fits : Fits ⟨position, packet, store, known, slots, pointers, target?⟩ metadata machine)
    (called : (Execution.call setup helper).run machine.counted =
      (.ok word,
        { machine.counted with
          memory := { machine.memory with store := store' }, redirectTarget? := target'? }))
    (continues : setup.code.lists (position + 1) rest →
      Delivers setup metadata post ⟨position + 1, packet, store', (0, word) :: known, slots,
        pointers, target'?⟩) :
    machine.Delivers setup fun code final => final.memory.records = #[] ∧
      post (Verdict.ofCode code final.redirectTarget?) final.memory.packet final.memory.store := by
  have here : machine.position = position := fits.position
  have apart : (0 : RegisterName) ≠ 10 := by decide
  have changed : Fits ⟨position, packet, store', known, slots, pointers, target'?⟩ metadata
      { machine with
        memory := { machine.memory with store := store' }, redirectTarget? := target'? } :=
    { fits with
      store := rfl
      target? := rfl }
  rw [← here] at listed
  refine Machine.Delivers.call listed called fun listed => ?_
  rw [here] at listed ⊢
  exact continues listed _ ((changed.setRegister apart).goTo (Nat.le_succ _))

theorem callTime
    (listed : setup.code.lists position (.call .currentTime :: rest))
    (continues : ∀ time, setup.code.lists (position + 1) rest →
      Delivers setup metadata post ⟨position + 1, packet, store, (0, time) :: known,
        slots, pointers,
        target?⟩) :
    Delivers setup metadata post ⟨position, packet, store, known, slots, pointers, target?⟩ := by
  intro machine fits
  refine of_call listed fits ?_ (continues (setup.clock machine.counted.steps))
  rw [← show machine.memory.store = store from fits.store,
    ← show machine.redirectTarget? = target? from fits.target?]
  rfl

theorem callRedirect
    {target : Word}
    (listed : setup.code.lists position (.call .redirect :: rest))
    (allowed : setup.attach.allowsRedirect = true) (first : known.lookup 1 = some target)
    (second : known.lookup 2 = some 0)
    (continues : setup.code.lists (position + 1) rest →
      Delivers setup metadata post ⟨position + 1, packet, store, (0, 4) :: known, slots, pointers,
        some target.low32.toNat⟩) :
    Delivers setup metadata post ⟨position, packet, store, known, slots, pointers, target?⟩ := by
  intro machine fits
  refine of_call listed fits ?_ continues
  have first' : machine.counted.register .first = target := fits.known _ _ first
  have second' : machine.counted.register .second = 0 := fits.known _ _ second
  rw [← show machine.memory.store = store from fits.store]
  simp only [Execution.call, Execution.callRedirect, allowed, Bool.not_true, Bool.false_eq_true,
    if_false, Stateful.run_bind, Execution.run_read, first', second', ne_eq, not_true_eq_false,
    Stateful.run_modify, Stateful.run_pure]
  rfl

theorem callDigest
    {place : Nat} {data : List UInt8} {length : Word}
    (listed : setup.code.lists position (.call .digest :: rest))
    (first : known.lookup 1 = some (stackPlace place)) (slot : (place, data) ∈ slots)
    (second : known.lookup 2 = some length) (sized : length.toNat = data.length)
    (nonempty : data ≠ []) (short : data.length ≤ Helper.digestLimit)
    (continues : setup.code.lists (position + 1) rest →
      Delivers setup metadata post ⟨position + 1, packet, store,
        (0, (Digest.ofBytes data).toBitVec.zeroExtend 64) :: known, slots, pointers, target?⟩) :
    Delivers setup metadata post ⟨position, packet, store, known, slots, pointers, target?⟩ := by
  intro machine fits
  refine of_call listed fits ?_ continues
  have first' : machine.counted.register .first = stackPlace place := fits.known _ _ first
  have second' : machine.counted.register .second = length := fits.known _ _ second
  have positive : data.length ≠ 0 := fun empty => nonempty (List.length_eq_zero_iff.mp empty)
  have fine : ¬ (data.length = 0 ∨ Helper.digestLimit < data.length) := by omega
  have read := fits.read?_stack slot
  rw [← show machine.memory.store = store from fits.store,
    ← show machine.redirectTarget? = target? from fits.target?]
  simp only [Execution.call, Execution.callDigest, Stateful.run_bind, Execution.run_read, first',
    second', sized, fine, if_false, Execution.run_readBytes, Machine.memory_counted, read,
    Stateful.run_pure]
  rfl

/-- A key on the stack is looked up in a map. -/
theorem callLookup
    {index place : Nat} {key : List UInt8} {id : MapId} {map map' : Map} {number? : Option Nat}
    (listed : setup.code.lists position (.call .mapLookup :: rest)) (few : position < 2 ^ 31)
    (first : known.lookup 1 = some (mapHandle index)) (named : setup.maps[index]? = some id)
    (small : index < 2 ^ 32) (there : store.map? id = some map)
    (second : known.lookup 2 = some (stackPlace place)) (slot : (place, key) ∈ slots)
    (sized : map.schema.keySize = key.length)
    (looked : (Map.lookupCell key.toArray metadata.worker).run map = (.ok number?, map'))
    (missing : number? = none → setup.code.lists (position + 1) rest →
      Delivers setup metadata post ⟨position + 1, packet, store.setMap id map', (0, 0) :: known,
        slots, pointers, target?⟩)
    (found : ∀ number pointer, number? = some number → pointer ≠ 0 →
      setup.code.lists (position + 1) rest →
        Delivers setup metadata post ⟨position + 1, packet, store.setMap id map',
          (0, pointer) :: known, slots, (pointer, ⟨id, number⟩) :: pointers, target?⟩) :
    Delivers setup metadata post ⟨position, packet, store, known, slots, pointers, target?⟩ := by
  intro machine fits
  have here : machine.position = position := fits.position
  have cells : machine.memory.store = store := fits.store
  have first' : machine.counted.register .first = mapHandle index := fits.known _ _ first
  have second' : machine.counted.register .second = stackPlace place := fits.known _ _ second
  have read := fits.read?_stack slot
  have mapped := run_mapOf small named (show machine.counted.memory.store.map? id = some map by
    rw [Machine.memory_counted, cells, there])
  have onMap :
    (Store.onMap id (Map.lookupCell key.toArray machine.counted.memory.metadata.worker)).run
      machine.counted.memory.store = (.ok number?, store.setMap id map') := by
    rw [Machine.memory_counted, cells, fits.metadata, Store.run_onMap _ there, looked]
  have run := run_lookup machine.counted onMap
  have changed := fits.withStore (store.setMap id map')
  have apart : (0 : RegisterName) ≠ 10 := by decide
  rw [← here] at listed
  let memory : Memory := { machine.counted.memory with store := store.setMap id map' }
  have called : (Execution.call setup .mapLookup).run machine.counted =
      (.ok ((memory.handOut? id (.ok number?)).elim 0 Prod.fst),
        { machine.counted with
          memory := (memory.handOut? id (.ok number?)).elim memory Prod.snd }) := by
    simp only [Execution.call, Execution.callMapLookup]
    rw [Stateful.run_bind, Execution.run_read, first']
    dsimp only
    rw [Stateful.run_bind, mapped]
    dsimp only
    rw [Stateful.run_bind, Execution.run_read, second']
    dsimp only
    rw [Stateful.run_bind, Execution.run_readBytes, Machine.memory_counted, sized, read]
    exact run
  cases number? with
  | none =>
      refine Machine.Delivers.call listed called fun listed => ?_
      rw [here] at listed ⊢
      exact missing rfl listed _ ((changed.setRegister apart).goTo (Nat.le_succ _))
  | some number =>
      rcases changed.handOut few ⟨id, number⟩ with ⟨pointer, memory', added, nonzero, fits'⟩
      have handed : memory.handOut? id (.ok (some number)) = some (pointer, memory') := added
      rw [handed] at called
      refine Machine.Delivers.call listed called fun listed => ?_
      rw [here] at listed ⊢
      exact found number pointer rfl nonzero listed _ (fits' _ (Nat.lt_succ_self _))

/-- A key on the stack is given a value on the stack. -/
theorem callUpdate
    {index keyPlace valuePlace : Nat} {key value : List UInt8} {id : MapId} {map map' : Map}
    {mode : UpdateMode} {code : Word} {result : Except MapError Unit}
    (listed : setup.code.lists position (.call .mapUpdate :: rest))
    (first : known.lookup 1 = some (mapHandle index)) (named : setup.maps[index]? = some id)
    (small : index < 2 ^ 32) (there : store.map? id = some map)
    (second : known.lookup 2 = some (stackPlace keyPlace)) (keySlot : (keyPlace, key) ∈ slots)
    (keySized : map.schema.keySize = key.length)
    (third : known.lookup 3 = some (stackPlace valuePlace))
    (valueSlot : (valuePlace, value) ∈ slots) (valueSized : map.schema.valueSize = value.length)
    (fourth : known.lookup 4 = some code) (means : UpdateMode.ofCode? code = some mode)
    (updated : (Map.updateFromWorker key.toArray value.toArray mode metadata.worker).run map =
      (result, map'))
    (continues : setup.code.lists (position + 1) rest →
      Delivers setup metadata post ⟨position + 1, packet, store.setMap id map',
        (0, Execution.codeOf result) :: known, slots, pointers, target?⟩) :
    Delivers setup metadata post ⟨position, packet, store, known, slots, pointers, target?⟩ := by
  intro machine fits
  refine of_call listed fits ?_ continues
  have cells : machine.memory.store = store := fits.store
  have first' : machine.counted.register .first = mapHandle index := fits.known _ _ first
  have second' : machine.counted.register .second = stackPlace keyPlace := fits.known _ _ second
  have third' : machine.counted.register .third = stackPlace valuePlace := fits.known _ _ third
  have fourth' : machine.counted.register .fourth = code := fits.known _ _ fourth
  have readKey := fits.read?_stack keySlot
  have readValue := fits.read?_stack valueSlot
  have mapped := run_mapOf small named (show machine.counted.memory.store.map? id = some map by
    rw [Machine.memory_counted, cells, there])
  have onMap : (Store.onMap id (Map.updateFromWorker key.toArray value.toArray mode
      machine.memory.metadata.worker)).run machine.memory.store =
        (result, store.setMap id map') := by
    rw [cells, fits.metadata, Store.run_onMap _ there, updated]
  rw [← show machine.redirectTarget? = target? from fits.target?]
  simp only [Execution.call, Execution.callMapUpdate]
  rw [Stateful.run_bind, Execution.run_read, first']
  dsimp only
  rw [Stateful.run_bind, mapped]
  dsimp only
  rw [Stateful.run_bind, Execution.run_read, second']
  dsimp only
  rw [Stateful.run_bind, Execution.run_readBytes, Machine.memory_counted, keySized, readKey]
  dsimp only
  rw [Stateful.run_bind, Execution.run_read, third']
  dsimp only
  rw [Stateful.run_bind, Execution.run_readBytes, Machine.memory_counted, valueSized, readValue]
  dsimp only
  rw [Stateful.run_bind, Execution.run_read, fourth']
  dsimp only
  rw [means]
  dsimp only
  rw [Stateful.run_bind, Stateful.run_get]
  dsimp only
  rw [Stateful.run_bind, Execution.run_onStore, Machine.memory_counted, onMap]
  rfl

/-- Bytes on the stack are put into a ring, or refused for lack of room. -/
theorem callOutput
    {index place : Nat} {length : Word} {id : MapId} {map : Map} {ring : Ring}
    (listed : setup.code.lists position (.call .ringOutput :: rest))
    (first : known.lookup 1 = some (mapHandle index)) (named : setup.maps[index]? = some id)
    (small : index < 2 ^ 32) (there : store.map? id = some map)
    (isRing : map.content = .ringBuffer ring)
    (second : known.lookup 2 = some (stackPlace place)) (third : known.lookup 3 = some length)
    (inside : place + length.toNat ≤ stackSize)
    (continues : ∀ (ring' : Ring) (code : Word), setup.code.lists (position + 1) rest →
      Delivers setup metadata post ⟨position + 1, packet,
        store.setMap id (map.setContent (.ringBuffer ring')), (0, code) :: known, slots, pointers,
        target?⟩) :
    Delivers setup metadata post ⟨position, packet, store, known, slots, pointers, target?⟩ := by
  intro machine fits
  have cells : machine.memory.store = store := fits.store
  have first' : machine.counted.register .first = mapHandle index := fits.known _ _ first
  have second' : machine.counted.register .second = stackPlace place := fits.known _ _ second
  have third' : machine.counted.register .third = length := fits.known _ _ third
  have mapped := run_mapOf small named (show machine.counted.memory.store.map? id = some map by
    rw [Machine.memory_counted, cells, there])
  have short : place < 2 ^ 32 := by
    rw [stackSize] at inside
    omega
  let data : Bytes := (machine.memory.stack.slice place length.toNat).toArray
  have read : machine.counted.memory.read? (stackPlace place) length.toNat = some data := by
    rw [Machine.memory_counted, Memory.read?_stack (Fits.stackPlace_names short),
      Bytes.read?_of_inside (inside.trans_eq fits.stack.symm), Option.map_some]
  have onRing : machine.memory.store.onRing id (fun ring => ring.output? data) =
      (some (ring.output? data).1,
        store.setMap id (map.setContent (.ringBuffer (ring.output? data).2))) := by
    rw [cells, Store.onRing, there]
    dsimp only
    rw [Map.onRing, isRing]
  have ringed : map.ring?.isSome = true := by
    rw [Map.ring?, isRing]
    rfl
  refine of_call listed fits ?_ (continues (ring.output? data).2
    (if (some (ring.output? data).1).join.isSome then 0 else Execution.codeOf (.error .ringFull)))
  rw [← show machine.redirectTarget? = target? from fits.target?]
  simp only [Execution.call, Execution.callRingOutput, Execution.ringOf]
  rw [Stateful.run_bind, Execution.run_read, first']
  dsimp only
  rw [Stateful.run_bind, Stateful.run_bind, mapped]
  dsimp only
  rw [ringed, if_pos rfl, Stateful.run_pure]
  dsimp only
  rw [Stateful.run_bind, Execution.run_read, second']
  dsimp only
  rw [Stateful.run_bind, Execution.run_read, third']
  dsimp only
  rw [Stateful.run_bind, Execution.run_readBytes, read]
  dsimp only
  rw [Stateful.run_bind, Stateful.run_get]
  dsimp only
  rw [Machine.memory_counted, onRing]
  rfl

end Delivers

end Stage

end PacketFilter
