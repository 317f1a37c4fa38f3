import PacketFilter.Proofs.Updating

/-!
# Accesses to the context

What may be done to the context is decided by its fields: a field that is no
pointer may be read in parts, and the scratch area may be written.  The machine
knows the same fields by their places.  A store that passed the check is
carried out by the machine and replaces the bytes that it addresses, and a load
that passed gives a word that is described by what the check made of it, unless
it takes a part of an attribute of the packet: the machine has these only whole.
-/

namespace PacketFilter

/-- The bytes from a place on have been replaced by others, and all bytes around them kept. -/
structure Bytes.ReplacedAt (before after : Bytes) (place : Nat) (data : List UInt8) : Prop where
  size : after.size = before.size
  there : after.Holds place data
  elsewhere : ∀ index, index < place ∨ place + data.length ≤ index →
    after[index]? = before[index]?

theorem Bytes.replacedAt_overwrite
    {bytes : Bytes} {place : Nat} {data : List UInt8}
    (inside : place + data.length ≤ bytes.size) :
    bytes.ReplacedAt (bytes.overwrite place data) place data where
  size := overwrite_size bytes place data
  there := holds_overwrite inside
  elsewhere index apart := by rw [overwrite_getElem?, if_neg (by omega)]

/-- The address of a byte of the context. -/
def Memory.contextAddress (offset : Int) : Word :=
  contextPointer + BitVec.ofInt 64 offset

section

variable {reading : Interpretation} {offset : Int} {size : AccessSize}
variable {stored? : Option AbstractValue} {value : AbstractValue}

theorem Memory.names_contextAddress
    {place : Nat}
    (small : place < 2 ^ 32) :
    RegionAddress.Names (contextAddress place) RegionAddress.context place :=
  RegionAddress.names_fixed rfl (by decide) small rfl

theorem contextLoad_sound
    (fits : reading.memory.metadata.Fits)
    (sized : reading.memory.scratch.size = ContextField.scratch.size)
    (zero : reading.valuation 0 = 0)
    (passed : checkContextAccess offset size.bytes none = .ok value) :
    (takesPart .context offset size.bytes = false ∧
        ∃ loaded, reading.memory.load? (Memory.contextAddress offset) size.bytes = some loaded ∧
          reading.Describes value loaded) ∨
      (takesPart .context offset size.bytes = true ∧
        reading.memory.load? (Memory.contextAddress offset) size.bytes = none) := by
  have short := size.bytes_le
  rcases place_of_checkContextAccess passed (by omega) with ⟨place, rfl, small⟩
  rw [Memory.load?_context (Memory.names_contextAddress small)]
  exact loadContext_sound fits sized zero passed size.bytes_le

theorem contextStore_sound
    {memory : Memory} {stored : AbstractValue}
    (sized : memory.scratch.size = ContextField.scratch.size)
    (passed : checkContextAccess offset size.bytes (some stored) = .ok value) (word : Word) :
    value = stored ∧ ∃ place scratch,
      offset = (ContextField.scratch.offset + place : Nat) ∧
        memory.store? (Memory.contextAddress offset) size.bytes word =
          some { memory with scratch } ∧
          memory.scratch.ReplacedAt scratch place (word.toBytes size.bytes) := by
  have short := size.bytes_le
  rcases place_of_checkContextAccess passed (by omega) with ⟨place, rfl, small⟩
  have names := Memory.names_contextAddress small
  rcases storeContext_eq word sized passed size.bytes_le with
    ⟨⟨same, start, inside⟩, stores⟩
  have moved : ContextField.scratch.offset + (place - 24) = place := by
    rw [ContextField.offset]
    omega
  refine ⟨same, place - 24, _, by rw [moved], (Memory.store?_context word names).trans stores, ?_⟩
  rw [← Memory.layOut_eq_toBytes size.bytes_le]
  exact Bytes.replacedAt_overwrite (by rwa [Memory.layOut_length])

end

/--
A load from the context that passed the check succeeds for every packet,
metadata and contents of the scratch area, with a word that is described by the
result of the check; it fails exactly when it takes a part of an attribute.  A
store that passed keeps the value stored and puts its low bytes, lowest first,
at the place addressed in the scratch area, and nothing else changes.
-/
theorem contextAccess_sound
    {reading : Interpretation} (fits : reading.memory.metadata.Fits)
    (sized : reading.memory.scratch.size = ContextField.scratch.size)
    (zero : reading.valuation 0 = 0) (offset : Int32) (size : AccessSize) :
    (∀ value, checkContextAccess offset.toInt size.bytes none = .ok value →
      (takesPart .context offset.toInt size.bytes = false ∧
          ∃ loaded,
            reading.memory.load? (Memory.contextAddress offset.toInt) size.bytes = some loaded ∧
              reading.Describes value loaded) ∨
        (takesPart .context offset.toInt size.bytes = true ∧
          reading.memory.load? (Memory.contextAddress offset.toInt) size.bytes = none)) ∧
      ∀ stored value, checkContextAccess offset.toInt size.bytes (some stored) = .ok value →
        ∀ word, value = stored ∧ ∃ place scratch,
          offset.toInt = (ContextField.scratch.offset + place : Nat) ∧
            reading.memory.store? (Memory.contextAddress offset.toInt) size.bytes word =
              some { reading.memory with scratch } ∧
              reading.memory.scratch.ReplacedAt scratch place (word.toBytes size.bytes) :=
  ⟨fun _ passed => contextLoad_sound fits sized zero passed,
    fun _ _ passed word => contextStore_sound sized passed word⟩

/-- A packet of four bytes from the seventh interface, and nothing else. -/
def seventhReading : Interpretation where
  scene := ⟨⟨.ingress, #[]⟩, [], #[1, 2, 3, 4], 512⟩
  memory :=
    { packet := #[1, 2, 3, 4]
      scratch := Array.replicate ContextField.scratch.size 0
      metadata := { interface := 7 }
      stack := Array.replicate 512 0
      store := {} }
  valuation _ := 0
  references := []

/-- The whole of the interface is loaded, and a half word is put at the end of the record. -/
theorem contextAccess_sound_seventh :
    (∃ loaded, seventhReading.memory.load? (Memory.contextAddress 16) 4 = some loaded ∧
        seventhReading.Describes (.scalar (.ofWidth 4)) loaded) ∧
      ∃ scratch, seventhReading.memory.store? (Memory.contextAddress 54) 2 0x0102 =
          some { seventhReading.memory with scratch } ∧
        seventhReading.memory.scratch.ReplacedAt scratch 30 [2, 1] := by
  have sound := @contextAccess_sound seventhReading ⟨by decide, by decide, by decide⟩
    Array.size_replicate rfl
  constructor
  · rcases (sound 16 .word).1 (.scalar (.ofWidth 4)) rfl with ⟨_, loads⟩ | ⟨part, _⟩
    · exact loads
    · exact absurd part (by decide)
  · rcases (sound 54 .half).2 (.constant 0x0102) (.constant 0x0102) rfl 0x0102 with
      ⟨_, place, scratch, moved, stores, replaced⟩
    have same : place = 30 := by
      change (54 : Int) = (24 + place : Nat) at moved
      omega
    subst same
    exact ⟨scratch, stores, replaced⟩

/-- The upper half of the queue passes the check, and the machine does not have it. -/
theorem contextAccess_half_misses :
    checkContextAccess 22 AccessSize.half.bytes none = .ok (.scalar (.ofWidth 2)) ∧
      seventhReading.memory.load? (Memory.contextAddress 22) AccessSize.half.bytes = none := by
  decide +kernel

end PacketFilter
