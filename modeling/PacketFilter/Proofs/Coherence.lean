import PacketFilter.Proofs.Identities

/-!
# Coherent states

What is known at one point of a path fits together: copies of one pointer say
the same of what copies share, a pointer that may be null has not been moved,
only pointers into packets, map values and records have a variable part, and a
pointer to a record stands for one that is held.

A state stays coherent when it takes in one more value that fits the others,
when it loses some, and when all its values change alike.
-/

namespace PacketFilter

namespace AbstractValue

/-- What holds of a value by itself. -/
structure Proper (value : AbstractValue) : Prop where
  plain : value.isPointer = false →
    value.identity = 0 ∧ value.reference = 0 ∧ value.mayBeNull = false
  nullable : value.mayBeNull = true →
    value.identity ≠ 0 ∧ value.offset = 0 ∧ value.bounds = .constant 0
  fixed : value.isPointer = true →
    value.bounds = .constant 0 ∨
      value.kind = .packet ∨ value.kind = .mapValue ∨ value.kind = .record
  /-- A record has the number that identifies its pointers. -/
  record : value.reference ≠ 0 → value.kind = .record ∧ value.identity = value.reference

/-- What copies of one pointer share. -/
structure Copies (value other : AbstractValue) : Prop where
  kind : value.kind = other.kind
  mayBeNull : value.mayBeNull = other.mayBeNull
  reference : value.reference = other.reference
  packet : value.kind = .packet → value.bounds = other.bounds ∧ value.range = other.range

theorem Copies.refl (value : AbstractValue) : value.Copies value :=
  ⟨rfl, rfl, rfl, fun _ => ⟨rfl, rfl⟩⟩

theorem Copies.symm {value other : AbstractValue} (copies : value.Copies other) :
    other.Copies value :=
  ⟨copies.kind.symm, copies.mayBeNull.symm, copies.reference.symm, fun packet =>
    have shared := copies.packet (copies.kind.trans packet)
    ⟨shared.1.symm, shared.2.symm⟩⟩

/-- A value that has no copies to agree with: it is no nullable pointer, stands for no record and
has no variable part. -/
structure Anonymous (value : AbstractValue) : Prop where
  identity : value.identity = 0
  reference : value.reference = 0
  present : value.mayBeNull = false
  fixed : value.isPointer = true → value.bounds = .constant 0

variable {value : AbstractValue}

/-- A value without copies is proper by itself. -/
theorem Anonymous.proper (anonymous : value.Anonymous) : value.Proper where
  plain _ := ⟨anonymous.identity, anonymous.reference, anonymous.present⟩
  nullable absurdity := absurd (anonymous.present.symm.trans absurdity) Bool.false_ne_true
  fixed pointer := .inl (anonymous.fixed pointer)
  record absurdity := absurd anonymous.reference absurdity

theorem anonymous_uninitialized : uninitialized.Anonymous :=
  ⟨rfl, rfl, rfl, fun absurdity => absurd absurdity Bool.false_ne_true⟩

theorem anonymous_scalar (bounds : Bounds) : (scalar bounds).Anonymous :=
  ⟨rfl, rfl, rfl, fun absurdity => absurd absurdity Bool.false_ne_true⟩

theorem anonymous_pointer (kind : ValueKind) : (pointer kind).Anonymous :=
  ⟨rfl, rfl, rfl, fun _ => rfl⟩

theorem anonymous_mapHandle (mapIndex : Nat) : (mapHandle mapIndex).Anonymous :=
  ⟨rfl, rfl, rfl, fun _ => rfl⟩

/-- Whatever the bounds of a value that is no pointer. -/
theorem Proper.anonymous_withBounds
    (proper : value.Proper) (plain : value.isPointer = false) (bounds : Bounds) :
    Anonymous { value with bounds } := by
  rcases proper.plain plain with ⟨identity, reference, present⟩
  exact ⟨identity, reference, present, fun pointer =>
    absurd (plain.symm.trans pointer) Bool.false_ne_true⟩

theorem Proper.withOffset
    (proper : value.Proper) (present : value.mayBeNull = false) (offset : Int) :
    Proper { value with offset } :=
  ⟨proper.plain, fun nullable => absurd (present.symm.trans nullable) Bool.false_ne_true,
    proper.fixed, proper.record⟩

theorem Proper.withRange (proper : value.Proper) (range : Nat) : Proper { value with range } :=
  ⟨proper.plain, proper.nullable, proper.fixed, proper.record⟩

/-- Only pointers that may have a variable part are given other bounds. -/
theorem Proper.withBounds
    (proper : value.Proper) (present : value.mayBeNull = false)
    (indexable : value.kind = .packet ∨ value.kind = .mapValue ∨ value.kind = .record)
    (bounds : Bounds) :
    Proper { value with bounds } :=
  ⟨proper.plain, fun nullable => absurd (present.symm.trans nullable) Bool.false_ne_true,
    fun _ => .inr indexable, proper.record⟩

/-- A packet pointer stands for no record. -/
theorem Proper.reference_of_packet (proper : value.Proper) (packet : value.kind = .packet) :
    value.reference = 0 := by
  by_cases none : value.reference = 0
  · exact none
  · cases packet.symm.trans (proper.record none).1

/-- A packet pointer that has moved by a variable distance starts over. -/
theorem Proper.renew
    (proper : value.Proper) (packet : value.kind = .packet) (present : value.mayBeNull = false)
    (bounds : Bounds) (identity : Nat) :
    Proper { value with bounds, identity, range := 0 } where
  plain plain := by
    rw [isPointer, packet] at plain
    cases plain
  nullable nullable := absurd (present.symm.trans nullable) Bool.false_ne_true
  fixed _ := .inr (.inl packet)
  record stands := absurd (proper.reference_of_packet packet) stands

theorem proper_mapValueOrNull (mapIndex : Nat) {identity : Nat} (known : identity ≠ 0) :
    (mapValueOrNull mapIndex identity).Proper where
  plain absurdity := absurd absurdity.symm Bool.false_ne_true
  nullable _ := ⟨known, rfl, rfl⟩
  fixed _ := .inl rfl
  record absurdity := absurd rfl absurdity

theorem proper_recordOrNull (size : Nat) {reference : Nat} (stands : reference ≠ 0) :
    (recordOrNull size reference).Proper where
  plain absurdity := absurd absurdity.symm Bool.false_ne_true
  nullable _ := ⟨stands, rfl, rfl⟩
  fixed _ := .inl rfl
  record _ := ⟨rfl, rfl⟩

/-- What becomes of a value when the nullable pointers of an identity are settled. -/
def settle (identity : Nat) (isNull : Bool) (value : AbstractValue) : AbstractValue :=
  if value.identity ≠ identity ∨ !value.mayBeNull then value
  else if isNull then .constant 0
  else { value with mayBeNull := false }

/-- What becomes of a value when the packet pointers of an identity are granted a range. -/
def grant (identity range : Nat) (value : AbstractValue) : AbstractValue :=
  if value.kind = .packet ∧ value.identity = identity ∧ value.range < range then
    { value with range }
  else
    value

/-- A change that does the same to copies of one pointer. -/
structure Uniform (change : AbstractValue → AbstractValue) : Prop where
  frame : change (.stack 0) = .stack 0
  proper : ∀ value : AbstractValue, value.Proper → (change value).Proper
  initialized : ∀ value : AbstractValue,
    value.kind ≠ .uninitialized → (change value).kind ≠ .uninitialized
  identity : ∀ value, (change value).identity = 0 ∨ (change value).identity = value.identity
  reference : ∀ value, (change value).reference = 0 ∨ (change value).reference = value.reference
  copies : ∀ value other : AbstractValue,
    value.identity = other.identity → value.Copies other → (change value).Copies (change other)

theorem settle_cases (identity : Nat) (isNull : Bool) (value : AbstractValue) :
    value.settle identity isNull = value ∨ value.settle identity isNull = .constant 0 ∨
      value.settle identity isNull = { value with mayBeNull := false } := by
  unfold settle
  split
  · exact .inl rfl
  · split
    · exact .inr (.inl rfl)
    · exact .inr (.inr rfl)

/-- Settling does the same to copies, as these are nullable together. -/
theorem settle_uniform (identity : Nat) (isNull : Bool) : Uniform (settle identity isNull) := by
  constructor
  case frame => exact if_pos (.inr rfl)
  case proper =>
    intro value proper
    rcases value.settle_cases identity isNull with same | same | same <;> rw [same]
    · exact proper
    · exact (anonymous_scalar _).proper
    · exact ⟨fun plain => ⟨(proper.plain plain).1, (proper.plain plain).2.1, rfl⟩,
        fun absurdity => absurd absurdity Bool.false_ne_true, proper.fixed, proper.record⟩
  case initialized =>
    intro value initialized
    rcases value.settle_cases identity isNull with same | same | same <;> rw [same]
    · exact initialized
    · exact ValueKind.noConfusion
    · exact initialized
  case identity =>
    intro value
    rcases value.settle_cases identity isNull with same | same | same <;> rw [same]
    · exact .inr rfl
    · exact .inl rfl
    · exact .inr rfl
  case reference =>
    intro value
    rcases value.settle_cases identity isNull with same | same | same <;> rw [same]
    · exact .inr rfl
    · exact .inl rfl
    · exact .inr rfl
  case copies =>
    intro value other same copies
    unfold settle
    rw [← same, ← copies.mayBeNull]
    split
    · exact copies
    · split
      · exact .refl _
      · exact ⟨copies.kind, rfl, copies.reference, copies.packet⟩

theorem grant_cases (identity range : Nat) (value : AbstractValue) :
    value.grant identity range = value ∨ value.grant identity range = { value with range } := by
  unfold grant
  split
  · exact .inr rfl
  · exact .inl rfl

/-- Granting does the same to copies, as these have one range. -/
theorem grant_uniform (identity range : Nat) : Uniform (grant identity range) := by
  constructor
  case frame => exact if_neg fun absurdity => ValueKind.noConfusion absurdity.1
  case proper =>
    intro value proper
    rcases value.grant_cases identity range with same | same <;> rw [same]
    · exact proper
    · exact proper.withRange range
  case initialized =>
    intro value initialized
    rcases value.grant_cases identity range with same | same <;> rw [same] <;> exact initialized
  case identity =>
    intro value
    rcases value.grant_cases identity range with same | same <;> rw [same] <;> exact .inr rfl
  case reference =>
    intro value
    rcases value.grant_cases identity range with same | same <;> rw [same] <;> exact .inr rfl
  case copies =>
    intro value other same copies
    have alike : (other.kind = .packet ∧ other.identity = identity ∧ other.range < range) ↔
        (value.kind = .packet ∧ value.identity = identity ∧ value.range < range) := by
      rw [← copies.kind, ← same]
      exact and_congr_right fun packet => by rw [(copies.packet packet).2]
    unfold grant
    by_cases granted : value.kind = .packet ∧ value.identity = identity ∧ value.range < range
    · rw [if_pos granted, if_pos (alike.mpr granted)]
      exact ⟨copies.kind, copies.mayBeNull, copies.reference, fun packet =>
        ⟨(copies.packet packet).1, rfl⟩⟩
    · rw [if_neg granted, if_neg (mt alike.mp granted)]
      exact copies

end AbstractValue

/-- No register was spilled before it held a value. -/
def StackFrame.Initialized (frame : StackFrame) : Prop :=
  ∀ byte < size, ∀ value : AbstractValue,
    (frame.slotOf byte).spill? = some value → value.kind ≠ .uninitialized

namespace AbstractState

/-- The value is in a register or has been spilled. -/
inductive Holds (state : AbstractState) : AbstractValue → Prop
  | register (name : RegisterName) : state.Holds (state.register name)
  | spilled {byte : Nat} {value : AbstractValue} (inside : byte < StackFrame.size)
      (here : (state.stack.slotOf byte).spill? = some value) : state.Holds value

/-- What is known fits together. -/
structure Coherent (state : AbstractState) : Prop where
  frame : state.register RegisterName.frame = .stack 0
  initialized : state.stack.Initialized
  proper : ∀ {value : AbstractValue}, state.Holds value → value.Proper
  copies : ∀ {value other : AbstractValue}, state.Holds value → state.Holds other →
    value.identity ≠ 0 → value.identity = other.identity → value.Copies other
  /-- No record is held twice. -/
  distinct : state.references.Nodup
  held : ∀ {value : AbstractValue}, state.Holds value → value.reference ≠ 0 →
    value.reference ∈ state.references

/-- The value fits what is known. -/
structure Joins (state : AbstractState) (value : AbstractValue) : Prop where
  proper : value.Proper
  copies : ∀ {other : AbstractValue}, state.Holds other →
    value.identity ≠ 0 → value.identity = other.identity → value.Copies other
  held : value.reference ≠ 0 → value.reference ∈ state.references

variable {state state' : AbstractState} {value : AbstractValue} {last : Nat}

/-- Whatever is held has an identity that was handed out. -/
theorem Within.identity_le
    (within : state.Within last) (holds : state.Holds value) : value.identity ≤ last := by
  cases holds with
  | register name => exact within.registers name
  | spilled inside here => exact within.spills _ inside value here

/-! ## Values that fit -/

/-- A value without copies fits any state. -/
theorem joins_of_anonymous (state : AbstractState) (anonymous : value.Anonymous) :
    state.Joins value where
  proper := anonymous.proper
  copies _ absurdity := absurd anonymous.identity absurdity
  held absurdity := absurd anonymous.reference absurdity

/-- No value has an identity that is yet to be handed out. -/
theorem joins_of_fresh
    (within : ∀ {other : AbstractValue}, state.Holds other → other.identity ≤ last)
    (proper : value.Proper) (fresh : value.identity = last + 1)
    (held : value.reference ≠ 0 → value.reference ∈ state.references) :
    state.Joins value where
  proper := proper
  copies holds _ same := by
    have order := within holds
    omega
  held := held

/-- A copy of what is held fits. -/
theorem Coherent.joins (coherent : state.Coherent) (holds : state.Holds value) :
    state.Joins value :=
  ⟨coherent.proper holds, coherent.copies holds, coherent.held holds⟩

theorem Joins.withOffset
    (joins : state.Joins value) (present : value.mayBeNull = false) (offset : Int) :
    state.Joins { value with offset } where
  proper := joins.proper.withOffset present offset
  copies holds known same :=
    have copies := joins.copies holds known same
    ⟨copies.kind, copies.mayBeNull, copies.reference, copies.packet⟩
  held := joins.held

/-- Copies may lie apart in a map value or a record. -/
theorem Joins.withBounds
    (joins : state.Joins value) (present : value.mayBeNull = false)
    (indexable : value.kind = .mapValue ∨ value.kind = .record) (bounds : Bounds) :
    state.Joins { value with bounds } where
  proper := joins.proper.withBounds present (.inr indexable) bounds
  copies holds known same :=
    have copies := joins.copies holds known same
    ⟨copies.kind, copies.mayBeNull, copies.reference, fun packet => by
      rcases indexable with kind | kind <;> cases kind.symm.trans packet⟩
  held := joins.held

/-! ## Taking in a value -/

/-- A state that takes in a value that fits, and perhaps loses others, stays coherent. -/
theorem Coherent.take
    (coherent : state.Coherent) (joins : state.Joins value)
    (frame : state'.register RegisterName.frame = .stack 0) (initialized : state'.stack.Initialized)
    (references : state'.references = state.references)
    (holds : ∀ {other : AbstractValue}, state'.Holds other → other = value ∨ state.Holds other) :
    state'.Coherent := by
  constructor
  case frame => exact frame
  case initialized => exact initialized
  case proper =>
    intro other held
    rcases holds held with rfl | held
    · exact joins.proper
    · exact coherent.proper held
  case copies =>
    intro first second held held' known same
    rcases holds held with rfl | held
    · rcases holds held' with rfl | held'
      · exact .refl _
      · exact joins.copies held' known same
    · rcases holds held' with rfl | held'
      · exact (joins.copies held (same ▸ known) same.symm).symm
      · exact coherent.copies held held' known same
  case distinct =>
    rw [references]
    exact coherent.distinct
  case held =>
    intro other held stands
    rw [references]
    rcases holds held with rfl | held
    · exact joins.held stands
    · exact coherent.held held stands

/-- After a register is set, nothing is held but its value and what was held before. -/
theorem Holds.of_setRegister
    {name : RegisterName} {other : AbstractValue}
    (holds : (state.setRegister name value).Holds other) :
    other = value ∨ state.Holds other := by
  cases holds with
  | register held =>
      rw [register_setRegister]
      split
      case isTrue => exact .inl rfl
      case isFalse => exact .inr (.register held)
  | spilled inside here => exact .inr (.spilled inside here)

theorem Coherent.setRegister
    {name : RegisterName}
    (coherent : state.Coherent) (different : name ≠ RegisterName.frame)
    (joins : state.Joins value) :
    (state.setRegister name value).Coherent := by
  refine coherent.take joins ?_ coherent.initialized rfl Holds.of_setRegister
  rw [register_setRegister, if_neg different, coherent.frame]

theorem Coherent.setRegisters
    (coherent : state.Coherent) {names : List RegisterName} (apart : RegisterName.frame ∉ names) :
    (names.foldl (fun state name => state.setRegister name .uninitialized) state).Coherent := by
  induction names generalizing state with
  | nil => exact coherent
  | cons name rest hypothesis =>
      rw [List.mem_cons, not_or] at apart
      exact hypothesis (coherent.setRegister (Ne.symm apart.1)
        (joins_of_anonymous state AbstractValue.anonymous_uninitialized)) apart.2

theorem Coherent.forgetCallerSaved (coherent : state.Coherent) :
    state.forgetCallerSaved.Coherent :=
  coherent.setRegisters (by decide)

/-- A register that holds no pointer may hold any scalar. -/
theorem Coherent.setBounds
    {name : RegisterName}
    (coherent : state.Coherent) (plain : (state.register name).isPointer = false)
    (bounds : Bounds) :
    (state.setBounds name bounds).Coherent := by
  refine coherent.setRegister (fun same => ?_) (joins_of_anonymous state
    ((coherent.proper (.register name)).anonymous_withBounds plain bounds))
  rw [same, coherent.frame] at plain
  cases plain

/-- After a store into the frame, nothing is held but what was stored and what was held before. -/
theorem Holds.of_write
    {stack : StackFrame} {offset : Int} {length : Nat} {other : AbstractValue}
    (holds : Holds { state with stack } other)
    (written : state.stack.write offset length value = .ok stack) (short : length < 2 ^ 62) :
    other = value ∨ state.Holds other := by
  cases holds with
  | register name => exact .inr (.register name)
  | spilled inside here =>
      exact (StackFrame.spill?_of_write written short inside here).imp_right (.spilled inside)

theorem Holds.of_writeData
    {stack : StackFrame} {offset : Int} {length : Nat}
    (holds : Holds { state with stack } value)
    (written : state.stack.writeData offset length = .ok stack) (short : length < 2 ^ 62) :
    state.Holds value := by
  cases holds with
  | register name => exact .register name
  | spilled inside here =>
      exact .spilled inside (StackFrame.spill?_of_writeData written short inside here)

/-- A value that fits may be spilled. -/
theorem Coherent.write
    {stack : StackFrame} {offset : Int} {length : Nat}
    (coherent : state.Coherent) (joins : state.Joins value)
    (initialized : value.kind ≠ .uninitialized)
    (written : state.stack.write offset length value = .ok stack) (short : length < 2 ^ 62) :
    Coherent { state with stack } := by
  refine coherent.take joins coherent.frame (fun byte inside other spilled => ?_) rfl
    fun holds => holds.of_write written short
  rcases StackFrame.spill?_of_write written short inside spilled with rfl | before
  · exact initialized
  · exact coherent.initialized byte inside other before

theorem Coherent.writeData
    {stack : StackFrame} {offset : Int} {length : Nat}
    (coherent : state.Coherent)
    (written : state.stack.writeData offset length = .ok stack) (short : length < 2 ^ 62) :
    Coherent { state with stack } := by
  refine coherent.take (joins_of_anonymous state AbstractValue.anonymous_uninitialized)
    coherent.frame (fun byte inside value spilled => ?_) rfl
    fun holds => .inr (holds.of_writeData written short)
  exact coherent.initialized byte inside value
    (StackFrame.spill?_of_writeData written short inside spilled)

/-- What is read from the frame was spilled there, or is a scalar. -/
theorem Coherent.joins_read
    {offset : Int} {length : Nat}
    (coherent : state.Coherent) (found : state.stack.read offset length = .ok value)
    (short : length < 2 ^ 62) :
    state.Joins value := by
  rcases StackFrame.read_eq_ok found short with ⟨first, inside, reads⟩
  cases reads with
  | spilled _ _ spilled => exact coherent.joins (.spilled inside.start spilled)
  | zeros _ _ => exact joins_of_anonymous state (AbstractValue.anonymous_scalar _)
  | data _ => exact joins_of_anonymous state (AbstractValue.anonymous_scalar _)

/-! ## Records -/

theorem Holds.of_withReferences
    {references : List Nat}
    (holds : Holds { state with references } value) :
    state.Holds value := by
  cases holds with
  | register name => exact .register name
  | spilled inside here => exact .spilled inside here

/-- Other records may be held as long as those that pointers stand for are among them. -/
theorem Coherent.withReferences
    {references : List Nat}
    (coherent : state.Coherent) (distinct : references.Nodup)
    (held : ∀ {value : AbstractValue}, state.Holds value → value.reference ≠ 0 →
      value.reference ∈ references) :
    Coherent { state with references } where
  frame := coherent.frame
  initialized := coherent.initialized
  proper holds := coherent.proper holds.of_withReferences
  copies holds holds' := coherent.copies holds.of_withReferences holds'.of_withReferences
  distinct := distinct
  held holds := held holds.of_withReferences

/-- A record with a new number may be held. -/
theorem Coherent.acquire
    {reference : Nat}
    (coherent : state.Coherent) (fresh : reference ∉ state.references) :
    (state.acquire reference).Coherent := by
  refine coherent.withReferences ?_ fun holds stands =>
    List.mem_append_left _ (coherent.held holds stands)
  refine List.nodup_append.mpr ⟨coherent.distinct, List.pairwise_singleton _ _, ?_⟩
  intro old held new listed same
  rw [List.mem_singleton.mp listed] at same
  exact fresh (same ▸ held)

/-- Forget the pointers to a record, which stays held. -/
def forgetRecord (state : AbstractState) (reference : Nat) : AbstractState :=
  { state with
    registers := state.registers.map fun value =>
      if value.reference = reference then .uninitialized else value
    stack := state.stack.breakUpWhere fun value => value.reference == reference }

/-- A release forgets the pointers to the record and then the record. -/
theorem release?_eq_some
    {reference : Nat}
    (released : state.release? reference = some state') :
    state' = { state.forgetRecord reference with
      references := state.references.erase reference } := by
  unfold release? at released
  split at released
  case isTrue =>
    cases released
    rfl
  case isFalse => cases released

theorem register_forgetRecord (state : AbstractState) (reference : Nat) (name : RegisterName) :
    (state.forgetRecord reference).register name =
      if (state.register name).reference = reference then .uninitialized
      else state.register name := by
  rw [register, forgetRecord, RegisterFile.read_map, register]

theorem spill?_of_forgetRecord
    {reference byte : Nat}
    (inside : byte < StackFrame.size)
    (spilled : ((state.forgetRecord reference).stack.slotOf byte).spill? = some value) :
    (state.stack.slotOf byte).spill? = some value ∧ value.reference ≠ reference := by
  rw [forgetRecord, state.stack.slotOf_breakUpWhere _ inside] at spilled
  split at spilled
  case isTrue =>
    rw [StackSlot.breakUp_spill] at spilled
    cases spilled
  case isFalse other =>
    refine ⟨spilled, fun same => other ?_⟩
    rw [spilled, Option.any_some, beq_iff_eq]
    exact same

/-- What is left after forgetting a record stands for none, or for another. -/
theorem Holds.of_forgetRecord
    {reference : Nat}
    (holds : (state.forgetRecord reference).Holds value) :
    value = .uninitialized ∨ state.Holds value ∧ value.reference ≠ reference := by
  cases holds with
  | register name =>
      rw [register_forgetRecord]
      split
      case isTrue => exact .inl rfl
      case isFalse other => exact .inr ⟨.register name, other⟩
  | spilled inside here =>
      rcases spill?_of_forgetRecord inside here with ⟨here, other⟩
      exact .inr ⟨.spilled inside here, other⟩

theorem Coherent.forgetRecord
    {reference : Nat}
    (coherent : state.Coherent) (stands : reference ≠ 0) :
    (state.forgetRecord reference).Coherent := by
  refine coherent.take (joins_of_anonymous state AbstractValue.anonymous_uninitialized) ?_ ?_ rfl
    fun holds => holds.of_forgetRecord.imp_right And.left
  · rw [register_forgetRecord, coherent.frame]
    exact if_neg (Ne.symm stands)
  · exact fun byte inside value spilled =>
      coherent.initialized byte inside value (spill?_of_forgetRecord inside spilled).1

/-- Nothing that is known speaks of a record that was released. -/
theorem Coherent.release
    {reference : Nat}
    (coherent : state.Coherent) (stands : reference ≠ 0)
    (released : state.release? reference = some state') :
    state'.Coherent := by
  rw [release?_eq_some released]
  have forgotten := coherent.forgetRecord stands
  refine forgotten.withReferences (coherent.distinct.erase reference) fun holds stands' => ?_
  rcases holds.of_forgetRecord with rfl | ⟨held, other⟩
  · exact absurd rfl stands'
  · exact (List.mem_erase_of_ne other).mpr (coherent.held held stands')

/-! ## Changing all values alike -/

section

variable {change : AbstractValue → AbstractValue}

theorem spill?_of_mapValues
    {byte : Nat}
    (inside : byte < StackFrame.size)
    (spilled : ((state.mapValues change).stack.slotOf byte).spill? = some value) :
    ∃ old, (state.stack.slotOf byte).spill? = some old ∧ change old = value := by
  rw [mapValues, state.stack.slotOf_mapSpills change inside] at spilled
  exact Option.map_eq_some_iff.mp spilled

/-- After changing all values, what is held is a value held before, changed. -/
theorem Holds.of_mapValues
    (holds : (state.mapValues change).Holds value) :
    ∃ old, state.Holds old ∧ change old = value := by
  cases holds with
  | register name => exact ⟨_, .register name, (register_mapValues state change name).symm⟩
  | spilled inside here =>
      rcases spill?_of_mapValues inside here with ⟨old, here, same⟩
      exact ⟨old, .spilled inside here, same⟩

/-- Changing all values in a way that treats copies alike keeps them copies. -/
theorem Coherent.mapValues
    (coherent : state.Coherent) (uniform : AbstractValue.Uniform change) :
    (state.mapValues change).Coherent := by
  constructor
  case frame => rw [register_mapValues, coherent.frame, uniform.frame]
  case initialized =>
    intro byte inside value spilled
    rcases spill?_of_mapValues inside spilled with ⟨old, before, rfl⟩
    exact uniform.initialized old (coherent.initialized byte inside old before)
  case proper =>
    intro value holds
    rcases holds.of_mapValues with ⟨old, before, rfl⟩
    exact uniform.proper old (coherent.proper before)
  case copies =>
    intro value other holds holds' known same
    rcases holds.of_mapValues with ⟨old, before, rfl⟩
    rcases holds'.of_mapValues with ⟨old', before', rfl⟩
    have identity := (uniform.identity old).resolve_left known
    have identity' := (uniform.identity old').resolve_left (same ▸ known)
    have shared : old.identity = old'.identity := by rw [← identity, same, identity']
    exact uniform.copies old old' shared
      (coherent.copies before before' (identity ▸ known) shared)
  case distinct => exact coherent.distinct
  case held =>
    intro value holds stands
    rcases holds.of_mapValues with ⟨old, before, rfl⟩
    have reference := (uniform.reference old).resolve_left stands
    rw [reference] at stands ⊢
    exact coherent.held before stands

end

theorem Coherent.learnRange
    (coherent : state.Coherent) (pointer : AbstractValue) (comparison : Comparison) :
    (state.learnRange pointer comparison).Coherent := by
  unfold AbstractState.learnRange
  split
  case h_1 range _ =>
    exact coherent.mapValues (AbstractValue.grant_uniform pointer.identity range)
  case h_2 => exact coherent

/-- For a pointer with an identity, settling changes all its copies, and on the null edge drops its
record. -/
theorem settleNull_eq
    {pointer : AbstractValue} (isNull : Bool)
    (known : pointer.identity ≠ 0) :
    state.settleNull pointer isNull =
      if isNull ∧ pointer.reference ≠ 0 then
        { state.mapValues (AbstractValue.settle pointer.identity isNull) with
          references := state.references.filter (· != pointer.reference) }
      else
        state.mapValues (AbstractValue.settle pointer.identity isNull) :=
  if_neg known

/-- Every copy of a nullable pointer is settled with it, so on the null edge none is left that
stands for the record that was not reserved. -/
theorem Coherent.settleNull
    {pointer : AbstractValue}
    (coherent : state.Coherent) (joins : state.Joins pointer) (nullable : pointer.mayBeNull = true)
    (isNull : Bool) :
    (state.settleNull pointer isNull).Coherent := by
  have known := (joins.proper.nullable nullable).1
  have settled := coherent.mapValues (AbstractValue.settle_uniform pointer.identity isNull)
  rw [settleNull_eq isNull known]
  split
  case isFalse => exact settled
  case isTrue dropped =>
    refine settled.withReferences (coherent.distinct.filter _) fun holds stands => ?_
    refine List.mem_filter.mpr ⟨settled.held holds stands, bne_iff_ne.mpr fun same => ?_⟩
    rcases holds.of_mapValues with ⟨old, before, rfl⟩
    unfold AbstractValue.settle at stands same
    rw [if_pos dropped.1] at stands same
    split at same
    case isFalse settles =>
      rw [if_neg settles] at stands
      exact stands rfl
    case isTrue spared =>
      rw [if_pos spared] at stands
      have own := ((coherent.proper before).record stands).2
      have identity : pointer.identity = old.identity := by
        rw [(joins.proper.record dropped.2).2, own, same]
      have copies := joins.copies before known identity
      rw [← copies.mayBeNull, nullable] at spared
      rcases spared with other | absurdity
      · exact other identity.symm
      · cases absurdity

/-- At entry every register holds a value without copies, and nothing has been spilled. -/
theorem entry_coherent : entry.Coherent := by
  have registers (name : RegisterName) : (entry.register name).Anonymous := by
    have kinds : ∀ name : RegisterName, entry.register name = .uninitialized ∨
        entry.register name = .context ∨ entry.register name = .stack 0 := by decide
    rcases kinds name with same | same | same <;> rw [same]
    · exact AbstractValue.anonymous_uninitialized
    · exact AbstractValue.anonymous_pointer .context
    · exact AbstractValue.anonymous_pointer .stack
  have anonymous {value : AbstractValue} (holds : entry.Holds value) : value.Anonymous := by
    cases holds with
    | register name => exact registers name
    | spilled inside here =>
        rw [show entry.stack = .fresh from rfl, StackFrame.slotOf_fresh] at here
        cases here
  constructor
  case frame => decide
  case initialized =>
    intro byte _ value spilled
    rw [show entry.stack = .fresh from rfl, StackFrame.slotOf_fresh] at spilled
    cases spilled
  case proper => exact fun holds => (anonymous holds).proper
  case copies => exact fun holds _ known => absurd (anonymous holds).identity known
  case distinct => exact List.nodup_nil
  case held => exact fun holds stands => absurd (anonymous holds).reference stands

end AbstractState

end PacketFilter
