import Mathlib.Data.List.Forall2
import PacketFilter.Proofs.Changing

/-!
# Corresponding states

Two values correspond when they agree on everything but their identities, and
those are related; two states correspond when all that they say does.  Every
change of a state that looks at identities only to compare them takes states
that correspond to states that correspond, as long as no identity is related
to two.
-/

namespace PacketFilter

variable {relates relates' : Nat → Nat → Prop}

/-! ## Values -/

/-- The values agree but for their identities, and those are related. -/
structure AbstractValue.Corresponds (relates : Nat → Nat → Prop) (value value' : AbstractValue) :
    Prop where
  kind : value.kind = value'.kind
  mayBeNull : value.mayBeNull = value'.mayBeNull
  readOnly : value.readOnly = value'.readOnly
  offset : value.offset = value'.offset
  bounds : value.bounds = value'.bounds
  mapIndex : value.mapIndex = value'.mapIndex
  range : value.range = value'.range
  size : value.size = value'.size
  identity : relates value.identity value'.identity
  reference : relates value.reference value'.reference

namespace AbstractValue.Corresponds

variable {value value' value'' : AbstractValue}

/-- Values that correspond under a relation do so under a weaker one. -/
theorem mono
    (corresponds : value.Corresponds relates value')
    (weaker : ∀ identity identity', relates identity identity' → relates' identity identity') :
    value.Corresponds relates' value' :=
  { corresponds with
    identity := weaker _ _ corresponds.identity
    reference := weaker _ _ corresponds.reference }

theorem symm (corresponds : value.Corresponds relates value') :
    value'.Corresponds (flip relates) value where
  kind := corresponds.kind.symm
  mayBeNull := corresponds.mayBeNull.symm
  readOnly := corresponds.readOnly.symm
  offset := corresponds.offset.symm
  bounds := corresponds.bounds.symm
  mapIndex := corresponds.mapIndex.symm
  range := corresponds.range.symm
  size := corresponds.size.symm
  identity := corresponds.identity
  reference := corresponds.reference

/-- Correspondence carries over from one relation to the next. -/
theorem trans
    (first : value.Corresponds relates value') (second : value'.Corresponds relates' value'') :
    value.Corresponds (Relation.Comp relates relates') value'' where
  kind := first.kind.trans second.kind
  mayBeNull := first.mayBeNull.trans second.mayBeNull
  readOnly := first.readOnly.trans second.readOnly
  offset := first.offset.trans second.offset
  bounds := first.bounds.trans second.bounds
  mapIndex := first.mapIndex.trans second.mapIndex
  range := first.range.trans second.range
  size := first.size.trans second.size
  identity := ⟨_, first.identity, second.identity⟩
  reference := ⟨_, first.reference, second.reference⟩

/-- A value without identities corresponds to itself. -/
theorem plain
    (zero : relates 0 0) (identity : value.identity = 0) (reference : value.reference = 0) :
    value.Corresponds relates value :=
  ⟨rfl, rfl, rfl, rfl, rfl, rfl, rfl, rfl, identity ▸ zero, reference ▸ zero⟩

theorem scalar (zero : relates 0 0) (bounds : Bounds) :
    (AbstractValue.scalar bounds).Corresponds relates (.scalar bounds) :=
  plain zero rfl rfl

theorem uninitialized (zero : relates 0 0) :
    AbstractValue.uninitialized.Corresponds relates .uninitialized :=
  plain zero rfl rfl

theorem isPointer (corresponds : value.Corresponds relates value') :
    value'.isPointer = value.isPointer := by
  rw [AbstractValue.isPointer, AbstractValue.isPointer, corresponds.kind]

theorem isScalar (corresponds : value.Corresponds relates value') :
    value'.isScalar = value.isScalar := by
  rw [AbstractValue.isScalar, AbstractValue.isScalar, corresponds.kind]

theorem constant? (corresponds : value.Corresponds relates value') :
    value'.constant? = value.constant? := by
  rw [AbstractValue.constant?, AbstractValue.constant?, corresponds.isScalar, corresponds.bounds]

end AbstractValue.Corresponds

/-! ## Optional values and lists -/

section

variable {α β γ : Type} {related : α → β → Prop} {related' : β → γ → Prop}

theorem rel_symm
    {value? : Option α} {value?' : Option β} (both : Option.Rel related value? value?') :
    Option.Rel (flip related) value?' value? := by
  cases both with
  | some same => exact .some same
  | none => exact .none

theorem rel_trans
    {value? : Option α} {value?' : Option β} {value?'' : Option γ}
    (first : Option.Rel related value? value?') (second : Option.Rel related' value?' value?'') :
    Option.Rel (Relation.Comp related related') value? value?'' := by
  cases first with
  | some same =>
      cases second with
      | some same' => exact .some ⟨_, same, same'⟩
  | none =>
      cases second with
      | none => exact .none

theorem rel_mono
    {weaker : α → β → Prop} {value? : Option α} {value?' : Option β}
    (both : Option.Rel related value? value?')
    (mono : ∀ value value', related value value' → weaker value value') :
    Option.Rel weaker value? value?' := by
  cases both with
  | some same => exact .some (mono _ _ same)
  | none => exact .none

theorem rel_map
    {δ : Type} {changed : γ → δ → Prop} {change : α → γ} {change' : β → δ}
    {value? : Option α} {value?' : Option β} (both : Option.Rel related value? value?')
    (keeps : ∀ value value', related value value' → changed (change value) (change' value')) :
    Option.Rel changed (value?.map change) (value?'.map change') := by
  cases both with
  | some same => exact .some (keeps _ _ same)
  | none => exact .none

theorem rel_any
    {value? : Option α} {value?' : Option β} {test : α → Bool} {test' : β → Bool}
    (both : Option.Rel related value? value?')
    (same : ∀ value value', related value value' → test' value' = test value) :
    value?'.any test' = value?.any test := by
  cases both with
  | some related => exact same _ _ related
  | none => rfl

theorem rel_toList
    {value? : Option α} {value?' : Option β} (both : Option.Rel related value? value?') :
    List.Forall₂ related value?.toList value?'.toList := by
  cases both with
  | some same => exact .cons same .nil
  | none => exact .nil

theorem forall₂_trans {list : List α} {list' : List β} {list'' : List γ}
    (first : List.Forall₂ related list list') (second : List.Forall₂ related' list' list'') :
    List.Forall₂ (Relation.Comp related related') list list'' := by
  induction first generalizing list'' with
  | nil =>
      cases second
      exact .nil
  | cons same _ continues =>
      cases second with
      | cons same' rest => exact .cons ⟨_, same, same'⟩ (continues rest)

/-- Two choices made alike. -/
theorem related_ite
    {condition condition' : Prop} [Decidable condition] [Decidable condition'] {yes no : α}
    {yes' no' : β} (same : condition ↔ condition') (first : condition → related yes yes')
    (second : ¬ condition → related no no') :
    related (if condition then yes else no) (if condition' then yes' else no') := by
  by_cases holds : condition
  · rw [if_pos holds, if_pos (same.mp holds)]
    exact first holds
  · rw [if_neg holds, if_neg fun holds' => holds (same.mpr holds')]
    exact second holds

theorem forall₂_erase
    [DecidableEq α] [DecidableEq β] (oneToOne : Relator.BiUnique related) {list : List α}
    {list' : List β} {value : α} {value' : β} (both : List.Forall₂ related list list')
    (same : related value value') :
    List.Forall₂ related (list.erase value) (list'.erase value') := by
  induction both with
  | nil => exact .nil
  | cons here rest continues =>
      rw [List.erase_cons, List.erase_cons]
      refine @related_ite _ _ (List.Forall₂ related) _ _ _ _ _ _ _ _ ?_ (fun _ => rest)
        fun _ => .cons here continues
      rw [beq_iff_eq, beq_iff_eq]
      exact Relator.rel_eq oneToOne here same

end

/-! ## Frames -/

/-- The slots have the same bytes and hold values that correspond, or none. -/
structure StackSlot.Corresponds (relates : Nat → Nat → Prop) (slot slot' : StackSlot) : Prop where
  bytes : slot.bytes = slot'.bytes
  spills : Option.Rel (AbstractValue.Corresponds relates) slot.spill? slot'.spill?

namespace StackSlot.Corresponds

variable {slot slot' slot'' : StackSlot}

theorem mono
    (corresponds : slot.Corresponds relates slot')
    (weaker : ∀ identity identity', relates identity identity' → relates' identity identity') :
    slot.Corresponds relates' slot' :=
  ⟨corresponds.bytes, rel_mono corresponds.spills fun _ _ same => same.mono weaker⟩

theorem symm (corresponds : slot.Corresponds relates slot') :
    slot'.Corresponds (flip relates) slot :=
  ⟨corresponds.bytes.symm, rel_mono (rel_symm corresponds.spills) fun _ _ same => same.symm⟩

theorem trans
    (first : slot.Corresponds relates slot') (second : slot'.Corresponds relates' slot'') :
    slot.Corresponds (Relation.Comp relates relates') slot'' := by
  refine ⟨first.bytes.trans second.bytes, rel_mono (rel_trans first.spills second.spills) ?_⟩
  rintro value value'' ⟨value', same, same'⟩
  exact same.trans same'

theorem plain (bytes : Vector StackByte 8) :
    StackSlot.Corresponds relates ⟨bytes, none⟩ ⟨bytes, none⟩ :=
  ⟨rfl, .none⟩

theorem breakUp (corresponds : slot.Corresponds relates slot') :
    slot.breakUp.Corresponds relates slot'.breakUp := by
  rcases slot with ⟨bytes, spill?⟩
  rcases slot' with ⟨bytes', spill?'⟩
  rcases corresponds with ⟨rfl, spills⟩
  cases spills with
  | some same => exact plain _
  | none => exact plain _

theorem holdsPointer (corresponds : slot.Corresponds relates slot') :
    slot'.holdsPointer = slot.holdsPointer :=
  rel_any corresponds.spills fun _ _ same => same.isPointer

end StackSlot.Corresponds

/-- The frames correspond slot by slot. -/
def StackFrame.Corresponds (relates : Nat → Nat → Prop) (frame frame' : StackFrame) : Prop :=
  ∀ byte : Nat, (frame.slotOf byte).Corresponds relates (frame'.slotOf byte)

namespace StackFrame.Corresponds

variable {frame frame' frame'' : StackFrame}

theorem mono
    (corresponds : frame.Corresponds relates frame')
    (weaker : ∀ identity identity', relates identity identity' → relates' identity identity') :
    frame.Corresponds relates' frame' :=
  fun byte => (corresponds byte).mono weaker

theorem symm (corresponds : frame.Corresponds relates frame') :
    frame'.Corresponds (flip relates) frame :=
  fun byte => (corresponds byte).symm

theorem trans
    (first : frame.Corresponds relates frame') (second : frame'.Corresponds relates' frame'') :
    frame.Corresponds (Relation.Comp relates relates') frame'' :=
  fun byte => (first byte).trans (second byte)

/-- Only the bytes of the frame matter. -/
theorem of_inside
    (inside : ∀ byte < size, (frame.slotOf byte).Corresponds relates (frame'.slotOf byte)) :
    frame.Corresponds relates frame' := by
  intro byte
  by_cases small : byte < size
  · exact inside byte small
  · have beyond : 64 ≤ byte / 8 := by
      unfold size at small
      omega
    rw [slotOf, slotOf, Vector.getElem?_eq_none beyond, Vector.getElem?_eq_none beyond]
    exact .plain _

theorem fresh : StackFrame.fresh.Corresponds relates .fresh := by
  intro byte
  rw [slotOf_fresh]
  exact .plain _

theorem byteAt (corresponds : frame.Corresponds relates frame') (byte : Nat) :
    frame'.byteAt byte = frame.byteAt byte := by
  rw [StackFrame.byteAt, StackFrame.byteAt, (corresponds byte).bytes]

/-- One slot replaced. -/
theorem replace
    {slot slot' : StackSlot} (corresponds : frame.Corresponds relates frame')
    (slots : slot.Corresponds relates slot') (index : Nat) :
    StackFrame.Corresponds relates ⟨frame.slots.setIfInBounds index slot⟩
      ⟨frame'.slots.setIfInBounds index slot'⟩ := by
  intro byte
  rw [slotOf, slotOf, Vector.getElem?_setIfInBounds, Vector.getElem?_setIfInBounds]
  split
  · split
    · exact slots
    · exact .plain _
  · exact corresponds byte

theorem mapSlots
    {change change' : StackSlot → StackSlot} (corresponds : frame.Corresponds relates frame')
    (keeps : ∀ slot slot' : StackSlot, slot.Corresponds relates slot' →
      (change slot).Corresponds relates (change' slot')) :
    StackFrame.Corresponds relates ⟨frame.slots.map change⟩ ⟨frame'.slots.map change'⟩ := by
  refine of_inside fun byte inside => ?_
  rw [slotOf_mapSlots frame change inside, slotOf_mapSlots frame' change' inside]
  exact keeps _ _ (corresponds byte)

theorem setByte
    (corresponds : frame.Corresponds relates frame') (content : StackByte) (byte : Nat) :
    (frame.setByte content byte).Corresponds relates (frame'.setByte content byte) := by
  have broken := (corresponds byte).breakUp
  have slots : StackSlot.Corresponds relates
      { (frame.slotOf byte).breakUp with
        bytes := (frame.slotOf byte).breakUp.bytes.setIfInBounds (byte % 8) content }
      { (frame'.slotOf byte).breakUp with
        bytes := (frame'.slotOf byte).breakUp.bytes.setIfInBounds (byte % 8) content } :=
    ⟨by rw [broken.bytes], broken.spills⟩
  exact corresponds.replace slots (byte / 8)

theorem fill
    (corresponds : frame.Corresponds relates frame') (first length : Nat) (content : StackByte) :
    (frame.fill first length content).Corresponds relates (frame'.fill first length content) := by
  rw [StackFrame.fill, StackFrame.fill]
  induction StackFrame.bytesFrom first length generalizing frame frame' with
  | nil => exact corresponds
  | cons byte rest continues => exact continues (corresponds.setByte content byte)

theorem spill
    {value value' : AbstractValue} (corresponds : frame.Corresponds relates frame')
    (values : value.Corresponds relates value') (first : Nat) :
    (frame.spill first value).Corresponds relates (frame'.spill first value') := by
  have slots : StackSlot.Corresponds relates ⟨Vector.replicate 8 .spilled, some value⟩
      ⟨Vector.replicate 8 .spilled, some value'⟩ :=
    ⟨rfl, .some values⟩
  exact corresponds.replace slots (first / 8)

theorem mapSpills
    {change change' : AbstractValue → AbstractValue}
    (corresponds : frame.Corresponds relates frame')
    (keeps : ∀ value value' : AbstractValue, value.Corresponds relates value' →
      (change value).Corresponds relates (change' value')) :
    (frame.mapSpills change).Corresponds relates (frame'.mapSpills change') :=
  corresponds.mapSlots fun _ _ slots => ⟨slots.bytes, rel_map slots.spills keeps⟩

theorem breakUpWhere
    {condition condition' : AbstractValue → Bool} (corresponds : frame.Corresponds relates frame')
    (same : ∀ value value' : AbstractValue, value.Corresponds relates value' →
      condition' value' = condition value) :
    (frame.breakUpWhere condition).Corresponds relates (frame'.breakUpWhere condition') := by
  refine corresponds.mapSlots fun slot slot' slots => ?_
  rw [rel_any slots.spills same]
  split
  · exact slots.breakUp
  · exact slots

end StackFrame.Corresponds

/-! ## States -/

/-- The states say the same of registers, frame and records held. -/
structure AbstractState.Corresponds (relates : Nat → Nat → Prop) (state state' : AbstractState) :
    Prop where
  registers : ∀ name : RegisterName,
    (state.register name).Corresponds relates (state'.register name)
  stack : state.stack.Corresponds relates state'.stack
  references : List.Forall₂ relates state.references state'.references

namespace AbstractState.Corresponds

variable {state state' state'' : AbstractState}

theorem mono
    (corresponds : state.Corresponds relates state')
    (weaker : ∀ identity identity', relates identity identity' → relates' identity identity') :
    state.Corresponds relates' state' where
  registers name := (corresponds.registers name).mono weaker
  stack := corresponds.stack.mono weaker
  references := corresponds.references.imp weaker

theorem symm (corresponds : state.Corresponds relates state') :
    state'.Corresponds (flip relates) state where
  registers name := (corresponds.registers name).symm
  stack := corresponds.stack.symm
  references := corresponds.references.flip

theorem trans
    (first : state.Corresponds relates state') (second : state'.Corresponds relates' state'') :
    state.Corresponds (Relation.Comp relates relates') state'' where
  registers name := (first.registers name).trans (second.registers name)
  stack := first.stack.trans second.stack
  references := forall₂_trans first.references second.references

theorem entry (zero : relates 0 0) : AbstractState.entry.Corresponds relates .entry where
  registers name := by
    have plain : ∀ name : RegisterName, (AbstractState.entry.register name).identity = 0 ∧
        (AbstractState.entry.register name).reference = 0 := by decide
    exact .plain zero (plain name).1 (plain name).2
  stack := .fresh
  references := .nil

theorem setRegister
    {value value' : AbstractValue} (corresponds : state.Corresponds relates state')
    (name : RegisterName) (values : value.Corresponds relates value') :
    (state.setRegister name value).Corresponds relates (state'.setRegister name value') := by
  refine ⟨fun other => ?_, corresponds.stack, corresponds.references⟩
  rw [register_setRegister, register_setRegister]
  split
  · exact values
  · exact corresponds.registers other

theorem withStack
    {frame frame' : StackFrame} (corresponds : state.Corresponds relates state')
    (frames : frame.Corresponds relates frame') :
    Corresponds relates { state with stack := frame } { state' with stack := frame' } :=
  ⟨corresponds.registers, frames, corresponds.references⟩

theorem mapValues
    {change change' : AbstractValue → AbstractValue}
    (corresponds : state.Corresponds relates state')
    (keeps : ∀ value value' : AbstractValue, value.Corresponds relates value' →
      (change value).Corresponds relates (change' value')) :
    (state.mapValues change).Corresponds relates (state'.mapValues change') := by
  refine ⟨fun name => ?_, corresponds.stack.mapSpills keeps, corresponds.references⟩
  rw [register_mapValues, register_mapValues]
  exact keeps _ _ (corresponds.registers name)

theorem acquire
    {reference reference' : Nat} (corresponds : state.Corresponds relates state')
    (related : relates reference reference') :
    (state.acquire reference).Corresponds relates (state'.acquire reference') :=
  ⟨corresponds.registers, corresponds.stack,
    List.rel_append corresponds.references (.cons related .nil)⟩

theorem forgetCallerSaved
    (corresponds : state.Corresponds relates state') (zero : relates 0 0) :
    state.forgetCallerSaved.Corresponds relates state'.forgetCallerSaved := by
  rw [AbstractState.forgetCallerSaved, AbstractState.forgetCallerSaved]
  induction RegisterName.callerSaved generalizing state state' with
  | nil => exact corresponds
  | cons name rest continues =>
      exact continues (corresponds.setRegister name (.uninitialized zero))

/-- A record is held on both sides or on neither, and releasing it keeps the states
corresponding. -/
theorem release
    (zero : relates 0 0) (oneToOne : Relator.BiUnique relates) {reference reference' : Nat}
    (corresponds : state.Corresponds relates state')
    (related : relates reference reference') :
    Option.Rel (Corresponds relates) (state.release? reference) (state'.release? reference') := by
  have names : ∀ value value' : AbstractValue, value.Corresponds relates value' →
      (value.reference = reference ↔ value'.reference = reference') :=
    fun _ _ values => Relator.rel_eq oneToOne values.reference related
  have held : state.references.contains reference ↔ state'.references.contains reference' := by
    rw [List.contains_iff_mem, List.contains_iff_mem]
    exact List.rel_mem oneToOne related corresponds.references
  refine @related_ite _ _ (Option.Rel (Corresponds relates)) _ _ _ _ _ _ _ _ held
    (fun _ => .some ?_) fun _ => .none
  refine ⟨fun name => ?_, corresponds.stack.breakUpWhere fun value value' values => ?_,
    forall₂_erase oneToOne corresponds.references related⟩
  · have values := corresponds.registers name
    rw [register, register, RegisterFile.read_map, RegisterFile.read_map]
    exact related_ite (names _ _ values) (fun _ => .uninitialized zero) fun _ => values
  · rw [Bool.eq_iff_iff, beq_iff_eq, beq_iff_eq]
    exact (names value value' values).symm

/-- Settling corresponding pointers settles copies that correspond. -/
theorem settleNull
    (zero : relates 0 0) (oneToOne : Relator.BiUnique relates) {pointer pointer' : AbstractValue}
    (corresponds : state.Corresponds relates state')
    (pointers : pointer.Corresponds relates pointer') (isNull : Bool) :
    (state.settleNull pointer isNull).Corresponds relates (state'.settleNull pointer' isNull) := by
  have named : pointer.identity = 0 ↔ pointer'.identity = 0 :=
    Relator.rel_eq oneToOne pointers.identity zero
  have holds : pointer.reference = 0 ↔ pointer'.reference = 0 :=
    Relator.rel_eq oneToOne pointers.reference zero
  refine @related_ite _ _ (Corresponds relates) _ _ _ _ _ _ _ _ named (fun _ => corresponds)
    fun _ => ?_
  have settled : Corresponds relates
      (state.mapValues fun value =>
        if value.identity ≠ pointer.identity ∨ !value.mayBeNull then value
        else if isNull then .constant 0
        else { value with mayBeNull := false })
      (state'.mapValues fun value =>
        if value.identity ≠ pointer'.identity ∨ !value.mayBeNull then value
        else if isNull then .constant 0
        else { value with mayBeNull := false }) := by
    refine corresponds.mapValues fun value value' values => ?_
    have same : value.identity = pointer.identity ↔ value'.identity = pointer'.identity :=
      Relator.rel_eq oneToOne values.identity pointers.identity
    rw [← values.mayBeNull]
    refine related_ite (or_congr (not_congr same) Iff.rfl) (fun _ => values) fun _ => ?_
    refine related_ite Iff.rfl (fun _ => .scalar zero _) fun _ => ?_
    exact { values with mayBeNull := rfl }
  refine @related_ite _ _ (Corresponds relates) _ _ _ _ _ _ _ _
    (and_congr Iff.rfl (not_congr holds)) (fun _ => ?_) fun _ => settled
  refine ⟨settled.registers, settled.stack, List.rel_filter (fun _ _ related => ?_)
    settled.references⟩
  have same := not_congr (Relator.rel_eq oneToOne related pointers.reference)
  exact (bne_iff_ne.trans same).trans bne_iff_ne.symm

/-- The range shown is the same, and goes to copies that correspond. -/
theorem learnRange
    (oneToOne : Relator.BiUnique relates) {pointer pointer' : AbstractValue}
    (corresponds : state.Corresponds relates state')
    (pointers : pointer.Corresponds relates pointer') (comparison : Comparison) :
    (state.learnRange pointer comparison).Corresponds relates
      (state'.learnRange pointer' comparison) := by
  have shown : rangeShown? pointer' comparison = rangeShown? pointer comparison := by
    simp only [rangeShown?, pointers.offset]
  rw [AbstractState.learnRange, AbstractState.learnRange, shown]
  split
  case h_1 range _ =>
    refine corresponds.mapValues fun value value' values => ?_
    have same : value.identity = pointer.identity ↔ value'.identity = pointer'.identity :=
      Relator.rel_eq oneToOne values.identity pointers.identity
    have granted : (value.kind = .packet ∧ value.identity = pointer.identity ∧
        value.range < range) ↔ (value'.kind = .packet ∧ value'.identity = pointer'.identity ∧
        value'.range < range) := by
      rw [values.kind, values.range, same]
    refine related_ite granted (fun _ => ?_) fun _ => values
    exact { values with range := rfl }
  case h_2 => exact corresponds

end AbstractState.Corresponds

end PacketFilter
