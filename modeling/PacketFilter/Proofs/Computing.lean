import PacketFilter.Proofs.Identities

/-!
# Arithmetic

The value that a check of an arithmetic instruction puts into the destination
describes the word that the machine puts there.  A packet pointer that is
advanced by a variable scalar gets an identity of its own, which stands for
the new variable part.
-/

namespace PacketFilter

namespace Word

theorem ofImmediate_low (value : Int32) : (ofImmediate value).setWidth 32 = value.toBitVec := by
  have short := value.toBitVec.isLt
  have sign := BitVec.toInt_eq_toNat_cond value.toBitVec
  apply BitVec.eq_of_toNat_eq
  rw [BitVec.toNat_setWidth, ofImmediate, BitVec.toNat_ofInt, Int32.toInt, sign]
  split <;> omega

theorem ofImmediate32_low (value : Int32) :
    (ofImmediate32 value).setWidth 32 = value.toBitVec := by
  have short := value.toBitVec.isLt
  apply BitVec.eq_of_toNat_eq
  rw [BitVec.toNat_setWidth, ofImmediate32, BitVec.zeroExtend, BitVec.toNat_setWidth]
  omega

end Word

namespace Interpretation

variable {reading : Interpretation} {pointer scalar value : AbstractValue} {word word' : Word}

/-- What has been initialized and is no pointer is a scalar. -/
theorem scalar_of_plain
    (initialized : value.kind ≠ .uninitialized) (plain : value.isPointer = false) :
    value.kind = .scalar := by
  rw [AbstractValue.isPointer] at plain
  cases kind : value.kind <;> simp_all [ValueKind.isPointer]

/-- A pointer moved by a constant. -/
theorem Describes.move
    {delta : Int}
    (describes : reading.Describes pointer word) (isPointer : pointer.isPointer = true)
    (checked : pointer.mayBeNull = false)
    (movable : pointer.kind ≠ .packetEnd ∧ pointer.kind ≠ .mapHandle)
    (near : (pointer.offset + delta).natAbs < pointerOffsetLimit) :
    reading.Describes { pointer with offset := pointer.offset + delta }
      (word + BitVec.ofInt 64 delta) := by
  have byKind := describes.byKind
  have points (points : reading.Points pointer word) :
      reading.Points { pointer with offset := pointer.offset + delta }
        (word + BitVec.ofInt 64 delta) := by
    refine ⟨points.identity, ?_, points.nonNull⟩
    rcases points.place with ⟨change, member, place, _⟩
    refine ⟨change, member, ?_, fun absurdity => absurd absurdity (by simp [checked])⟩
    rw [place, Word.moved_again]
  refine ⟨?_, describes.nullable, near⟩
  cases kind : pointer.kind with
  | uninitialized => simp [AbstractValue.isPointer, kind, ValueKind.isPointer] at isPointer
  | scalar => simp [AbstractValue.isPointer, kind, ValueKind.isPointer] at isPointer
  | packetEnd => exact absurd kind movable.1
  | mapHandle => exact absurd kind movable.2
  | context =>
      simp only [Matches, kind] at byKind ⊢
      rw [byKind, Word.moved_twice]
  | stack =>
      simp only [Matches, kind] at byKind ⊢
      rw [byKind, Word.moved_twice]
  | packet =>
      simp only [Matches, kind] at byKind ⊢
      refine ⟨?_, byKind.change, byKind.range⟩
      rw [byKind.place, Word.moved_again]
  | mapValue =>
      simp only [Matches, kind] at byKind ⊢
      have moved := points byKind.2.1
      rw [kind] at moved
      exact ⟨byKind.1, moved, byKind.2.2⟩
  | record =>
      simp only [Matches, kind] at byKind ⊢
      have moved := points byKind.2.1
      rw [kind] at moved
      exact ⟨byKind.1, moved, byKind.2.2⟩

/-- A pointer into a region handed out, moved by a variable. -/
theorem Describes.moveVariable
    {bounds : Bounds} {delta : Word}
    (describes : reading.Describes pointer word) (checked : pointer.mayBeNull = false)
    (kind : pointer.kind = .mapValue ∨ pointer.kind = .record)
    (closed : ∀ change ∈ pointer.bounds, change + delta ∈ bounds) :
    reading.Describes { pointer with bounds } (word + delta) := by
  have byKind := describes.byKind
  have points (points : reading.Points pointer word) :
      reading.Points { pointer with bounds } (word + delta) := by
    refine ⟨points.identity, ?_, points.nonNull⟩
    rcases points.place with ⟨change, member, place, _⟩
    refine ⟨change + delta, closed change member, ?_,
      fun absurdity => absurd absurdity (by simp [checked])⟩
    rw [place, BitVec.add_assoc]
  refine ⟨?_, describes.nullable, describes.near⟩
  rcases kind with kind | kind
  · simp only [Matches, kind] at byKind ⊢
    have moved := points byKind.2.1
    rw [kind] at moved
    exact ⟨byKind.1, moved, byKind.2.2⟩
  · simp only [Matches, kind] at byKind ⊢
    have moved := points byKind.2.1
    rw [kind] at moved
    exact ⟨byKind.1, moved, byKind.2.2⟩

end Interpretation

/-- The operation on a pointer and a scalar, with the pointer on the left. -/
def displaced (operation : Arithmetic) (base change : Word) : Word :=
  if operation = .add then base + change else base - change

section

variable {state : AbstractState} {scene : Scene} {valuation : Nat → Word} {memory : Memory}
variable {focus focus' : Focus} {pointer scalar value : AbstractValue} {word word' : Word}
variable {operation : Arithmetic}

/-- Some way of reading fresh identities makes the value describe the word. -/
def Finds (focus : Focus) (scene : Scene) (valuation : Nat → Word) (memory : Memory)
    (value : AbstractValue) (word : Word) : Prop :=
  ∃ valuation' : Nat → Word,
    (∀ identity ≤ focus.lastIdentity, valuation' identity = valuation identity) ∧
      (focus.state.reading scene valuation' memory).Describes value word

theorem finds_of_describes
    (describes : (focus.state.reading scene valuation memory).Describes value word) :
    Finds focus scene valuation memory value word :=
  ⟨valuation, fun _ _ => rfl, describes⟩

/-- A pointer moved by a constant describes the address moved by it. -/
theorem movePointer_sound
    {constant : Word}
    (describes : (focus.state.reading scene valuation memory).Describes pointer word)
    (isPointer : pointer.isPointer = true) (checked : pointer.mayBeNull = false)
    (movable : pointer.kind ≠ .packetEnd ∧ pointer.kind ≠ .mapHandle)
    (passed : movePointer operation pointer constant = .ok value) :
    (focus.state.reading scene valuation memory).Describes value
      (displaced operation word constant) := by
  simp only [movePointer, demand_bind_eq_ok] at passed
  rcases passed with ⟨near, made⟩
  cases made
  by_cases added : operation = .add
  · rw [if_pos added] at near ⊢
    rw [displaced, if_pos added]
    have moved := describes.move isPointer checked movable near
    rwa [BitVec.ofInt_toInt] at moved
  · rw [if_neg added] at near ⊢
    rw [displaced, if_neg added]
    rw [Int.sub_eq_add_neg] at near ⊢
    have moved := describes.move isPointer checked movable near
    rwa [BitVec.ofInt_neg, BitVec.ofInt_toInt, ← BitVec.sub_eq_add_neg] at moved

/-- A packet pointer that has moved by a scalar has an identity of its own. -/
theorem advance_sound
    {constant : Word}
    (describes : (focus.state.reading scene valuation memory).Describes pointer word)
    (scalarDescribes : constant ∈ scalar.bounds) (isPacket : pointer.kind = .packet) :
    Finds focus scene valuation memory
      { pointer with
        bounds := pointer.bounds.add scalar.bounds, identity := focus.lastIdentity + 1, range := 0 }
      (displaced .add word constant) := by
  have byKind := describes.byKind
  simp only [Interpretation.Matches, isPacket] at byKind
  have place := byKind.place
  have change := byKind.change
  simp only [AbstractState.reading] at place change
  refine ⟨fun other => if other = focus.lastIdentity + 1 then valuation pointer.identity + constant
    else valuation other, fun other old => if_neg (by omega), ?_, describes.nullable,
    describes.near⟩
  simp only [Interpretation.Matches, isPacket]
  constructor
  · simp only [AbstractState.reading, if_true]
    rw [displaced, if_pos rfl, place, BitVec.add_assoc]
  · simp only [AbstractState.reading, if_true]
    exact Bounds.add_mem change scalarDescribes
  · exact fun absurdity => absurd absurdity (Nat.lt_irrefl 0)

/-- A pointer into a region moves by a scalar within the bounds of both. -/
theorem shift_sound
    (describes : (focus.state.reading scene valuation memory).Describes pointer word)
    (scalarDescribes : word' ∈ scalar.bounds) (present : pointer.mayBeNull = false)
    (isRegion : pointer.kind = .mapValue ∨ pointer.kind = .record) :
    (focus.state.reading scene valuation memory).Describes
      { pointer with
        bounds := if operation = .add then pointer.bounds.add scalar.bounds
          else pointer.bounds.sub scalar.bounds }
      (displaced operation word word') := by
  rw [displaced]
  by_cases added : operation = .add
  · rw [if_pos added, if_pos added]
    exact describes.moveVariable present isRegion
      fun change member => Bounds.add_mem member scalarDescribes
  · rw [if_neg added, if_neg added, BitVec.sub_eq_add_neg]
    apply describes.moveVariable present isRegion
    intro change member
    rw [← BitVec.sub_eq_add_neg]
    exact Bounds.sub_mem member scalarDescribes

/-- A pointer moved by a scalar describes the address moved by the word, under some reading of its
identity. -/
theorem Focus.Offsets.sound
    (offsets : focus.Offsets operation pointer scalar value focus')
    (describes : (focus.state.reading scene valuation memory).Describes pointer word)
    (scalarDescribes : word' ∈ scalar.bounds) (isPointer : pointer.isPointer = true) :
    Finds focus scene valuation memory value (displaced operation word word') := by
  cases offsets.moves with
  | fixed known moves =>
      rw [Bounds.eq_of_constant scalarDescribes known]
      exact finds_of_describes
        (movePointer_sound describes isPointer offsets.present offsets.movable moves)
  | packet isPacket added =>
      subst added
      exact advance_sound describes scalarDescribes isPacket
  | region isRegion =>
      exact finds_of_describes (shift_sound describes scalarDescribes offsets.present isRegion)

/-- Arithmetic with pointers is described; a distance of pointers may be any number. -/
theorem Focus.Combines.sound
    {left right : AbstractValue}
    (combines : focus.Combines left right operation value focus')
    (leftDescribes : (focus.state.reading scene valuation memory).Describes left word)
    (rightDescribes : (focus.state.reading scene valuation memory).Describes right word')
    (leftKnown : left.kind ≠ .uninitialized) (rightKnown : right.kind ≠ .uninitialized) :
    Finds focus scene valuation memory value (operation.apply word word') := by
  cases combines with
  | distance =>
      exact finds_of_describes (Interpretation.describes_scalar (Bounds.mem_unknown _))
  | left isPointer plain offsets =>
      have scalar := Interpretation.scalar_of_plain rightKnown plain
      have found := offsets.sound leftDescribes (rightDescribes.mem_bounds scalar) isPointer
      rcases offsets.either with rfl | rfl
      · exact found
      · exact found
  | right plain isPointer offsets =>
      have scalar := Interpretation.scalar_of_plain leftKnown plain
      have found := offsets.sound rightDescribes (leftDescribes.mem_bounds scalar) isPointer
      have same : displaced .add word' word = Arithmetic.apply .add word word' :=
        BitVec.add_comm word' word
      rwa [same] at found

/-! ## Instructions -/

variable {machine : Machine} {twin : Bytes} {width : Width} {destination : RegisterName}
variable {operand : Operand}

theorem AbstractState.Represents.mem_scalar
    {name : RegisterName}
    (represents : state.Represents scene valuation machine twin)
    (scalar : (state.register name).kind = .scalar) :
    machine.register name ∈ (state.register name).bounds :=
  (represents.registers name).mem_bounds scalar

theorem operand_described
    (represents : focus.state.Represents scene valuation machine twin)
    (found : focus.operand operand = .ok value) :
    (focus.state.reading scene valuation machine.memory).Describes value
        (machine.operand operand) ∧
      value.kind ≠ .uninitialized := by
  cases operand with
  | register name =>
      rcases Focus.read_eq_ok.mp found with ⟨rfl, known⟩
      exact ⟨represents.registers name, known⟩
  | immediate constant =>
      cases found
      exact ⟨Interpretation.describes_constant _ _, fun absurdity => by cases absurdity⟩

/-- What an instruction leaves when it gives one register a word. -/
def Assigns (focus focus' : Focus) (scene : Scene) (valuation : Nat → Word) (memory : Memory)
    (destination : RegisterName) (word : Word) : Prop :=
  ∃ value, focus'.state = focus.state.setRegister destination value ∧
    Finds focus scene valuation memory value word

/-- A scalar describes any word within its bounds. -/
theorem assigns_scalar
    {bounds : Bounds}
    (member : word ∈ bounds) :
    Assigns focus (focus.write destination (.scalar bounds)) scene valuation memory destination
      word :=
  ⟨.scalar bounds, rfl, finds_of_describes (Interpretation.describes_scalar member)⟩

/-- The destination holds what the operation gives, and is described. -/
theorem compute_sound
    (represents : focus.state.Represents scene valuation machine twin)
    (within : focus.state.Within focus.lastIdentity)
    (computes : focus.Computes destination width operation operand focus') :
    Assigns focus focus' scene valuation machine.memory destination
      (Execution.evaluate width operation (machine.register destination)
        (machine.operand operand)) := by
  have leftDescribes := represents.registers destination
  cases computes with
  | negation scalar =>
      exact assigns_scalar (Bounds.neg_mem (represents.mem_scalar (beq_iff_eq.mp scalar)))
  | negation32 scalar =>
      have zero : (0 : Word) ∈ Bounds.constant 0 := Bounds.mem_constant.mpr rfl
      have same (left right : Word) :
          Execution.evaluate .half .neg left right = Arithmetic.apply32 .neg left 0 := by
        simp only [Execution.evaluate, Arithmetic.apply32, Arithmetic.apply]
      rw [same]
      exact assigns_scalar
        (Bounds.apply32_mem .neg (represents.mem_scalar (beq_iff_eq.mp scalar)) zero)
  | copy => exact ⟨_, rfl, finds_of_describes (represents.registers _)⟩
  | truncation known plain =>
      have member := Bounds.truncate32_mem
        (represents.mem_scalar (Interpretation.scalar_of_plain known plain))
      rw [← Word.zeroExtend_setWidth] at member
      exact assigns_scalar member
  | constant => exact ⟨_, rfl, finds_of_describes (Interpretation.describes_constant _ _)⟩
  | @constant32 immediate =>
      refine ⟨_, rfl, finds_of_describes ?_⟩
      show (focus.state.reading scene valuation machine.memory).Describes _
        (((Word.ofImmediate immediate).setWidth 32).zeroExtend 64)
      rw [Word.ofImmediate_low]
      exact Interpretation.describes_constant _ _
  | scalars known found plain =>
      rcases operand_described represents found with ⟨rightDescribes, rightKnown⟩
      exact assigns_scalar (Bounds.apply_mem operation
        (leftDescribes.mem_bounds (Interpretation.scalar_of_plain known plain.1))
        (rightDescribes.mem_bounds (Interpretation.scalar_of_plain rightKnown plain.2)))
  | scalars32 known found plain =>
      rcases operand_described represents found with ⟨rightDescribes, rightKnown⟩
      exact assigns_scalar (Bounds.apply32_mem operation
        (leftDescribes.mem_bounds (Interpretation.scalar_of_plain known plain.1))
        (rightDescribes.mem_bounds (Interpretation.scalar_of_plain rightKnown plain.2)))
  | @pointers _ _ right value after known found combines =>
      rcases operand_described represents found with ⟨rightDescribes, rightKnown⟩
      refine ⟨value, ?_, combines.sound leftDescribes rightDescribes known rightKnown⟩
      show after.state.setRegister destination value = _
      rw [(combines.yields (within.registers destination)
        (Focus.identity_of_operand within found)).state]

/-- The destination holds its bytes in the other order, and is described. -/
theorem convertOrder_sound
    {order : ByteOrder} {bits : Nat}
    (represents : focus.state.Represents scene valuation machine twin)
    (whole : bits = 16 ∨ bits = 32 ∨ bits = 64)
    (passed : checkConvertOrder focus order bits destination = .ok focus') :
    Assigns focus focus' scene valuation machine.memory destination
      (Execution.convertOrder order bits (machine.register destination)) := by
  rcases checkConvertOrder_eq_ok passed with ⟨scalar, rfl⟩
  have member := Bounds.convertOrder_mem (represents.mem_scalar (beq_iff_eq.mp scalar)) whole order
  cases order with
  | little => exact assigns_scalar member
  | big => exact assigns_scalar member

end

end PacketFilter
