import PacketFilter.Proofs.Representation

/-!
# Descriptions that last

A memory follows another when no region has been taken back and nothing has
changed in size.  What an abstract value says of a word goes on being true in
a memory that follows, as long as its identity is read in the same way and,
for a pointer to a record, the record is still held.  The identity may have
been given another name.
-/

namespace PacketFilter

namespace Memory

/-- Nothing has been taken back and nothing has changed in size. -/
structure Follows (before after : Memory) : Prop where
  packet : after.packet.size = before.packet.size
  stack : after.stack.size = before.stack.size
  regions : ∀ (index : Nat) (region : Region),
    before.regions[index]? = some region → after.regions[index]? = some region

/-- Every memory follows itself. -/
theorem Follows.refl (memory : Memory) : memory.Follows memory :=
  ⟨rfl, rfl, fun _ _ there => there⟩

/-- What follows a later memory follows the earlier one. -/
theorem Follows.trans
    {first second third : Memory}
    (earlier : first.Follows second) (later : second.Follows third) :
    first.Follows third :=
  ⟨later.packet.trans earlier.packet, later.stack.trans earlier.stack,
    fun index region there => later.regions index region (earlier.regions index region there)⟩

theorem Follows.framePointer
    {before after : Memory}
    (follows : before.Follows after) :
    after.framePointer = before.framePointer := by
  rw [Memory.framePointer, follows.stack, Memory.framePointer]

theorem Follows.packetEnd
    {before after : Memory}
    (follows : before.Follows after) :
    after.packetEnd = before.packetEnd := by
  rw [Memory.packetEnd, follows.packet, Memory.packetEnd]

/-- An address keeps the region it points to. -/
theorem Follows.pointsTo
    {before after : Memory} {word : Word} {region : Region}
    (follows : before.Follows after) (there : before.PointsTo word region) :
    after.PointsTo word region := by
  rcases there with ⟨index, place, held⟩
  exact ⟨index, place, follows.regions index region held⟩

/-! ## Bases of regions -/

/-- The base address of a region is not wrapped, as long as the regions stay below the handles of
maps. -/
theorem toNat_base
    {memory : Memory} {index : Nat} {region : Region}
    (bound : RegionAddress.firstDynamic + memory.regions.size ≤ RegionAddress.mapHandle)
    (held : memory.regions[index]? = some region) :
    RegionAddress.firstDynamic + index < RegionAddress.mapHandle ∧
      (RegionAddress.make (RegionAddress.firstDynamic + index) 0).toNat =
        (RegionAddress.firstDynamic + index) * 2 ^ 32 := by
  have inside := (Array.getElem?_eq_some_iff.mp held).1
  have short : RegionAddress.firstDynamic + index < RegionAddress.mapHandle := by omega
  refine ⟨short, ?_⟩
  have limit : RegionAddress.mapHandle < 2 ^ 32 := by decide
  rw [RegionAddress.toNat_make, Nat.mod_eq_of_lt (by omega)]
  omega

/-- An address into a region is never zero. -/
theorem PointsTo.ne_zero
    {memory : Memory} {word : Word} {region : Region}
    (there : memory.PointsTo word region)
    (bound : RegionAddress.firstDynamic + memory.regions.size ≤ RegionAddress.mapHandle) :
    word ≠ 0 := by
  rcases there with ⟨index, place, held⟩
  have value := (toNat_base bound held).2
  rintro rfl
  rw [← place] at value
  simp [RegionAddress.firstDynamic] at value

/-- A word is the base of one region. -/
theorem PointsTo.unique
    {memory : Memory} {word : Word} {region region' : Region}
    (there : memory.PointsTo word region) (there' : memory.PointsTo word region')
    (bound : RegionAddress.firstDynamic + memory.regions.size ≤ RegionAddress.mapHandle) :
    region = region' := by
  rcases there with ⟨index, place, held⟩
  rcases there' with ⟨index', place', held'⟩
  have value := (toNat_base bound held).2
  have value' := (toNat_base bound held').2
  rw [← place] at value
  rw [← place', value] at value'
  have same : index = index' := by omega
  rw [same, held'] at held
  exact (Option.some.inj held).symm

end Memory

namespace Interpretation

variable {before after : Interpretation} {value : AbstractValue} {word : Word}

theorem describes_scalar
    {reading : Interpretation} {bounds : Bounds}
    (member : word ∈ bounds) :
    reading.Describes (.scalar bounds) word :=
  ⟨member, fun absurdity => Bool.noConfusion absurdity,
    show (0 : Int).natAbs < pointerOffsetLimit by decide⟩

theorem describes_constant (reading : Interpretation) (word : Word) :
    reading.Describes (.constant word) word :=
  describes_scalar (Bounds.mem_constant.mpr rfl)

theorem describes_uninitialized (reading : Interpretation) (word : Word) :
    reading.Describes .uninitialized word :=
  ⟨trivial, fun absurdity => Bool.noConfusion absurdity,
    show (0 : Int).natAbs < pointerOffsetLimit by decide⟩

/-- A word that a scalar describes lies in its bounds. -/
theorem Describes.mem_bounds
    {reading : Interpretation}
    (describes : reading.Describes value word) (scalar : value.kind = .scalar) :
    word ∈ value.bounds := by
  have byKind := describes.byKind
  simpa only [Matches, scalar] using byKind

/-- A scalar that is known to be constant is that constant. -/
theorem Describes.eq_constant
    {reading : Interpretation} {known : Word}
    (describes : reading.Describes value word) (constant : value.constant? = some known) :
    word = known := by
  rw [AbstractValue.constant?] at constant
  split at constant
  case isTrue scalar =>
    exact Bounds.eq_of_constant (describes.mem_bounds (beq_iff_eq.mp scalar)) constant
  case isFalse => cases constant

/-- The values differ in their identities only, and what the first stands for under the first
reading, the second stands for under the second. -/
structure Carries (before after : Interpretation) (value value' : AbstractValue) : Prop where
  scene : after.scene = before.scene
  memory : before.memory.Follows after.memory
  same : value' = { value with identity := value'.identity, reference := value'.reference }
  nonzero : value.identity ≠ 0 → value'.identity ≠ 0
  free : value.reference = 0 → value'.reference = 0
  named : value.reference = value.identity → value'.reference = value'.identity
  valuation : after.valuation value'.identity = before.valuation value.identity
  records : value.kind = .record → value.identity ∈ before.references →
    ∀ (number : Nat) (record : OpenRecord),
      before.memory.PointsTo (before.valuation value.identity) (.record number) →
        before.memory.record? number = some record →
          value'.identity ∈ after.references ∧ after.memory.record? number = some record

namespace Carries

variable {identity reference : Nat}

section

variable (carries : before.Carries after value { value with identity, reference })

include carries

/-- A pointer that is carried over still points to the same place. -/
theorem points (points : before.Points value word) :
    after.Points { value with identity, reference } word := by
  refine ⟨carries.nonzero points.identity, ?_, ?_⟩
  · rw [carries.valuation]
    exact points.place
  · rw [carries.valuation]
    exact points.nonNull

theorem isPacket (isPacket : before.IsPacket value word) :
    after.IsPacket { value with identity, reference } word := by
  constructor
  · rw [carries.valuation]
    exact isPacket.place
  · rw [carries.valuation]
    exact isPacket.change
  · rw [carries.valuation, carries.scene]
    exact isPacket.range

theorem isMapValue (isMapValue : before.IsMapValue value) :
    after.IsMapValue { value with identity, reference } := by
  intro nonNull
  rw [carries.valuation] at nonNull
  rcases isMapValue nonNull with ⟨id, there, declared⟩
  rw [carries.valuation, carries.scene]
  exact ⟨id, carries.memory.pointsTo there, declared⟩

theorem isRecord (kind : value.kind = .record) (isRecord : before.IsRecord value) :
    after.IsRecord { value with identity, reference } := by
  intro nonNull
  rw [carries.valuation] at nonNull
  rcases isRecord nonNull with ⟨held, number, record, there, opened, fits⟩
  rcases carries.records kind held number record there opened with ⟨held', opened'⟩
  rw [carries.valuation]
  exact ⟨held', number, record, carries.memory.pointsTo there, opened', fits⟩

theorem matches' (matches' : before.Matches value word) :
    after.Matches { value with identity, reference } word := by
  cases kind : value.kind with
  | uninitialized => simp only [Matches]
  | scalar | context | mapHandle => simpa only [Matches, kind] using matches'
  | stack =>
      simp only [Matches, kind] at matches' ⊢
      rw [carries.memory.framePointer]
      exact matches'
  | packet =>
      simp only [Matches, kind] at matches'
      simpa only [Matches, kind] using carries.isPacket matches'
  | packetEnd =>
      simp only [Matches, kind] at matches' ⊢
      rw [carries.memory.packetEnd]
      exact matches'
  | mapValue =>
      simp only [Matches, kind] at matches'
      rcases matches' with ⟨free, points, isMapValue⟩
      have both := And.intro (carries.points points) (carries.isMapValue isMapValue)
      simpa only [Matches, kind] using And.intro (carries.free free) both
  | record =>
      simp only [Matches, kind] at matches'
      rcases matches' with ⟨named, points, isRecord⟩
      have both := And.intro (carries.points points) (carries.isRecord kind isRecord)
      simpa only [Matches, kind] using And.intro (carries.named named) both

end

/-- A value that is carried over describes the same word in the memory that follows. -/
theorem describes
    {value' : AbstractValue}
    (carries : before.Carries after value value') (describes : before.Describes value word) :
    after.Describes value' word := by
  have same := carries.same
  generalize value'.identity = identity, value'.reference = reference at same
  subst same
  exact ⟨carries.matches' describes.byKind, describes.nullable, describes.near⟩

end Carries

/-- What the value stands for under the first reading is there under the second. -/
structure Keeps (before after : Interpretation) (value : AbstractValue) : Prop where
  scene : after.scene = before.scene
  memory : before.memory.Follows after.memory
  valuation : after.valuation value.identity = before.valuation value.identity
  records : value.kind = .record → value.identity ∈ before.references →
    ∀ (number : Nat) (record : OpenRecord),
      before.memory.PointsTo (before.valuation value.identity) (.record number) →
        before.memory.record? number = some record →
          value.identity ∈ after.references ∧ after.memory.record? number = some record

theorem Keeps.carries (keeps : before.Keeps after value) : before.Carries after value value :=
  { keeps with same := rfl, nonzero := id, free := id, named := id }

theorem Keeps.describes
    (keeps : before.Keeps after value) (describes : before.Describes value word) :
    after.Describes value word :=
  keeps.carries.describes describes

end Interpretation

end PacketFilter
