import PacketFilter.Proofs.Changing
import PacketFilter.Proofs.Passing

/-!
# Identities in use

A state only mentions identities that have been handed out, and every check
keeps it so: it hands out the next identity or passes on those it has found.
-/

namespace PacketFilter

namespace StackFrame

/-- The registers spilled into the frame have identities that have been handed out. -/
def Within (frame : StackFrame) (last : Nat) : Prop :=
  ∀ byte < size, ∀ value : AbstractValue,
    (frame.slotOf byte).spill? = some value → value.identity ≤ last

variable {frame frame' : StackFrame} {last last' : Nat}

/-- Identities that stay below a number stay below every greater one. -/
theorem Within.mono (within : frame.Within last) (order : last ≤ last') : frame.Within last' :=
  fun byte small value spilled => (within byte small value spilled).trans order

theorem fresh_within (last : Nat) : fresh.Within last := by
  intro byte small value spilled
  rw [slotOf_fresh] at spilled
  cases spilled

/-- A write brings no identity into the frame but that of the value. -/
theorem Within.write
    {offset : Int} {length : Nat} {value : AbstractValue}
    (within : frame.Within last) (identity : value.identity ≤ last)
    (written : frame.write offset length value = .ok frame') (short : length < 2 ^ 62) :
    frame'.Within last := by
  intro byte small other spilled
  rcases spill?_of_write written short small spilled with rfl | before
  · exact identity
  · exact within byte small other before

/-- A write of data brings no identity into the frame. -/
theorem Within.writeData
    {offset : Int} {length : Nat}
    (within : frame.Within last) (written : frame.writeData offset length = .ok frame')
    (short : length < 2 ^ 62) :
    frame'.Within last :=
  fun byte small value spilled =>
    within byte small value (spill?_of_writeData written short small spilled)

theorem Within.mapSpills
    {change : AbstractValue → AbstractValue}
    (within : frame.Within last)
    (changed : ∀ value : AbstractValue, value.identity ≤ last → (change value).identity ≤ last) :
    (frame.mapSpills change).Within last := by
  intro byte small value spilled
  rw [frame.slotOf_mapSpills change small] at spilled
  rcases Option.map_eq_some_iff.mp spilled with ⟨old, held, rfl⟩
  exact changed old (within byte small old held)

theorem Within.breakUpWhere
    (within : frame.Within last) (condition : AbstractValue → Bool) :
    (frame.breakUpWhere condition).Within last := by
  intro byte small value spilled
  rw [frame.slotOf_breakUpWhere condition small] at spilled
  split at spilled
  case isTrue =>
    rw [StackSlot.breakUp_spill] at spilled
    cases spilled
  case isFalse => exact within byte small value spilled

end StackFrame

namespace AbstractState

/-- All identities of the state have been handed out. -/
structure Within (state : AbstractState) (last : Nat) : Prop where
  registers : ∀ name : RegisterName, (state.register name).identity ≤ last
  spills : state.stack.Within last
  references : ∀ reference ∈ state.references, reference ≤ last

variable {state state' : AbstractState} {last last' : Nat}

theorem Within.mono (within : state.Within last) (order : last ≤ last') : state.Within last' :=
  ⟨fun name => (within.registers name).trans order, within.spills.mono order,
    fun reference held => (within.references reference held).trans order⟩

/-- The state at the entry has no identities. -/
theorem entry_within (last : Nat) : entry.Within last := by
  refine ⟨fun name => ?_, StackFrame.fresh_within last, fun reference held => ?_⟩
  · have none : ∀ name : RegisterName, (entry.register name).identity = 0 := by decide
    rw [none name]
    exact Nat.zero_le last
  · cases held

/-- A register may take any value whose identity was handed out. -/
theorem Within.setRegister
    {value : AbstractValue}
    (within : state.Within last) (name : RegisterName) (identity : value.identity ≤ last) :
    (state.setRegister name value).Within last := by
  refine ⟨fun other => ?_, within.spills, within.references⟩
  rw [register_setRegister]
  split
  case isTrue => exact identity
  case isFalse => exact within.registers other

theorem Within.mapValues
    {change : AbstractValue → AbstractValue}
    (within : state.Within last)
    (changed : ∀ value : AbstractValue, value.identity ≤ last → (change value).identity ≤ last) :
    (state.mapValues change).Within last := by
  refine ⟨fun name => ?_, within.spills.mapSpills changed, within.references⟩
  rw [register_mapValues]
  exact changed _ (within.registers name)

theorem Within.setRegisters
    (within : state.Within last) (names : List RegisterName) :
    (names.foldl (fun state name => state.setRegister name .uninitialized) state).Within last := by
  induction names generalizing state with
  | nil => exact within
  | cons name rest hypothesis =>
      exact hypothesis (within.setRegister name (Nat.zero_le last))

theorem Within.forgetCallerSaved
    (within : state.Within last) :
    state.forgetCallerSaved.Within last :=
  within.setRegisters RegisterName.callerSaved

/-- Identities that have not been handed out may be read in any way. -/
theorem Represents.revalue
    {scene : Scene} {valuation valuation' : Nat → Word} {machine : Machine} {twin : Bytes}
    (represents : state.Represents scene valuation machine twin) (within : state.Within last)
    (agree : ∀ identity ≤ last, valuation' identity = valuation identity) :
    state.Represents scene valuation' machine twin := by
  have keeps {value : AbstractValue} {word : Word} (identity : value.identity ≤ last)
      (describes : (state.reading scene valuation machine.memory).Describes value word) :
      (state.reading scene valuation' machine.memory).Describes value word := by
    apply Interpretation.Keeps.describes _ describes
    refine ⟨rfl, .refl machine.memory, agree value.identity identity, ?_⟩
    intro _ held number record _ opened
    exact ⟨held, opened⟩
  refine represents.weaken represents.sound rfl ?_ ?_ (fun _ _ => .inl rfl) ?_ ?_
  · rw [agree 0 (Nat.zero_le last)]
    exact represents.zero
  · intro name word describes
    exact keeps (within.registers name) describes
  · intro byte small value spilled
    exact ⟨value, spilled, fun word describes => keeps (within.spills byte small value spilled)
      describes⟩
  · exact represents.tracks.follow (.refl machine.memory) represents.sound.regions rfl rfl
      fun reference held => agree reference (within.references reference held)

/-- A release of a reference makes no identity. -/
theorem Within.release
    {reference : Nat}
    (within : state.Within last) (released : state.release? reference = some state') :
    state'.Within last := by
  simp only [release?] at released
  split at released
  case isTrue =>
    cases released
    refine ⟨fun name => ?_, within.spills.breakUpWhere _, fun other held => ?_⟩
    · simp only [register, RegisterFile.read_map]
      split
      · exact Nat.zero_le last
      · exact within.registers name
    · exact within.references other (List.mem_of_mem_erase held)
  case isFalse => cases released

/-- A null check makes no identity on either edge. -/
theorem Within.settleNull
    (within : state.Within last) (pointer : AbstractValue) (isNull : Bool) :
    (state.settleNull pointer isNull).Within last := by
  simp only [AbstractState.settleNull]
  split
  case isTrue => exact within
  case isFalse =>
    have settled := @Within.mapValues state last (fun value =>
      if value.identity ≠ pointer.identity ∨ !value.mayBeNull then value
      else if isNull then .constant 0
      else { value with mayBeNull := false }) within (by
        intro value identity
        split
        · exact identity
        · split
          · exact Nat.zero_le last
          · exact identity)
    split
    case isTrue =>
      exact ⟨settled.registers, settled.spills,
        fun reference held => settled.references reference (List.mem_filter.mp held).1⟩
    case isFalse => exact settled

theorem Within.learnRange
    (within : state.Within last) (pointer : AbstractValue) (comparison : Comparison) :
    (state.learnRange pointer comparison).Within last := by
  simp only [AbstractState.learnRange]
  split
  case h_1 range _ =>
    apply within.mapValues
    intro value identity
    split
    · exact identity
    · exact identity
  case h_2 => exact within

end AbstractState

/-! ## Checks -/

/-- A value that is read from the frame has an identity that was handed out. -/
theorem StackFrame.Within.read
    {frame : StackFrame} {last length : Nat} {offset : Int} {value : AbstractValue}
    (within : frame.Within last) (found : frame.read offset length = .ok value)
    (short : length < 2 ^ 62) :
    value.identity ≤ last := by
  rcases StackFrame.read_eq_ok found short with ⟨first, inside, reads⟩
  cases reads with
  | spilled _ _ spilled => exact within first inside.start value spilled
  | zeros _ _ => exact Nat.zero_le last
  | data _ => exact Nat.zero_le last

theorem checkContextAccess_identity
    {offset : Int} {size last : Nat} {stored? : Option AbstractValue} {value : AbstractValue}
    (passed : checkContextAccess offset size stored? = .ok value)
    (stored : ∀ source ∈ stored?, source.identity ≤ last) :
    value.identity ≤ last := by
  rcases checkContextAccess_eq_ok passed with ⟨field, _, _, grants⟩
  cases grants with
  | load _ => cases field <;> exact Nat.zero_le last
  | store _ _ => exact stored value rfl

/-- What a check of an access leaves. -/
structure Focus.Passes (before after : Focus) (value : AbstractValue) : Prop where
  last : after.lastIdentity = before.lastIdentity
  within : after.state.Within after.lastIdentity
  identity : value.identity ≤ after.lastIdentity

theorem accessed_identity
    {last size : Nat} {stored? : Option AbstractValue}
    (stored : ∀ source ∈ stored?, source.identity ≤ last) :
    (accessed stored? size).identity ≤ last := by
  cases stored? with
  | none => exact Nat.zero_le last
  | some source => exact stored source rfl

/-- An access that is granted keeps the identities below the last one, and so is the one of the
value it yields. -/
theorem Focus.Grants.passes
    {setting : Setting} {focus focus' : Focus} {pointer value : AbstractValue} {offset : Int}
    {size : Nat} {stored? : Option AbstractValue}
    (grants : focus.Grants setting pointer offset size stored? value focus')
    (within : focus.state.Within focus.lastIdentity)
    (stored : ∀ source ∈ stored?, source.identity ≤ focus.lastIdentity) (short : size < 2 ^ 62) :
    focus.Passes focus' value := by
  cases grants with
  | context _ lies => exact ⟨rfl, within, checkContextAccess_identity lies stored⟩
  | spill _ writes =>
      have identity := stored value rfl
      exact ⟨rfl, ⟨within.registers, within.spills.write identity writes short,
        within.references⟩, identity⟩
  | fill _ reads => exact ⟨rfl, within, within.spills.read reads short⟩
  | packet _ _ _ => exact ⟨rfl, within, accessed_identity stored⟩
  | mapValue _ _ _ => exact ⟨rfl, within, accessed_identity stored⟩
  | record _ _ => exact ⟨rfl, within, accessed_identity stored⟩

/-- Identities are handed out in order and none comes out of nowhere. -/
structure Focus.Grows (before after : Focus) : Prop where
  last : before.lastIdentity ≤ after.lastIdentity
  within : after.state.Within after.lastIdentity

/-- A step that grows may write its value into a register. -/
theorem Focus.Grows.write
    {before after : Focus} {value : AbstractValue}
    (grows : before.Grows after) (name : RegisterName)
    (identity : value.identity ≤ after.lastIdentity) :
    before.Grows (after.write name value) :=
  ⟨grows.last, grows.within.setRegister name identity⟩

section

variable {setting : Setting} {focus focus' : Focus}

theorem Focus.Grows.refl (within : focus.state.Within focus.lastIdentity) : focus.Grows focus :=
  ⟨Nat.le_refl _, within⟩

theorem Focus.identity_of_read
    {name : RegisterName} {value : AbstractValue}
    (within : focus.state.Within focus.lastIdentity) (reads : focus.read name = .ok value) :
    value.identity ≤ focus.lastIdentity := by
  rw [(Focus.read_eq_ok.mp reads).1]
  exact within.registers name

theorem Focus.identity_of_operand
    {operand : Operand} {value : AbstractValue}
    (within : focus.state.Within focus.lastIdentity) (found : focus.operand operand = .ok value) :
    value.identity ≤ focus.lastIdentity := by
  cases operand with
  | register name => exact Focus.identity_of_read within found
  | immediate constant =>
      cases found
      exact Nat.zero_le _

theorem identity_of_storedValue
    {size : AccessSize} {operand : Operand} {value : AbstractValue}
    (within : focus.state.Within focus.lastIdentity)
    (found : storedValue focus size operand = .ok value) :
    value.identity ≤ focus.lastIdentity := by
  cases operand with
  | register name => exact Focus.identity_of_read within found
  | immediate constant =>
      cases found
      exact Nat.zero_le _

/-- What a check leaves beside a value that it makes. -/
structure Focus.Yields (before after : Focus) (value : AbstractValue) : Prop where
  state : after.state = before.state
  last : before.lastIdentity ≤ after.lastIdentity
  identity : value.identity ≤ after.lastIdentity

/-- A value that a step yields may be written into a register. -/
theorem Focus.Yields.write
    {value : AbstractValue}
    (yields : focus.Yields focus' value) (within : focus.state.Within focus.lastIdentity)
    (name : RegisterName) :
    focus.Grows (focus'.write name value) := by
  refine ⟨yields.last, ?_⟩
  show (focus'.state.setRegister name value).Within focus'.lastIdentity
  rw [yields.state]
  exact (within.mono yields.last).setRegister name yields.identity

/-- A pointer that is moved has the identity of the pointer, or a fresh one. -/
theorem Focus.Offsets.yields
    {operation : Arithmetic} {pointer scalar value : AbstractValue}
    (offsets : focus.Offsets operation pointer scalar value focus')
    (identity : pointer.identity ≤ focus.lastIdentity) :
    focus.Yields focus' value := by
  cases offsets.moves with
  | fixed _ moves =>
      simp only [movePointer, demand_bind_eq_ok] at moves
      cases moves.2
      exact ⟨rfl, Nat.le_refl _, identity⟩
  | packet _ _ => exact ⟨rfl, Nat.le_succ _, Nat.le_refl _⟩
  | region _ => exact ⟨rfl, Nat.le_refl _, identity⟩

/-- What arithmetic combines has an identity that was handed out. -/
theorem Focus.Combines.yields
    {operation : Arithmetic} {left right value : AbstractValue}
    (combines : focus.Combines left right operation value focus')
    (leftIdentity : left.identity ≤ focus.lastIdentity)
    (rightIdentity : right.identity ≤ focus.lastIdentity) :
    focus.Yields focus' value := by
  cases combines with
  | distance => exact ⟨rfl, Nat.le_refl _, Nat.zero_le _⟩
  | left _ _ offsets => exact offsets.yields leftIdentity
  | right _ _ offsets => exact offsets.yields rightIdentity

/-- Arithmetic hands out identities only in their order. -/
theorem Focus.Computes.grows
    {width : Width} {operation : Arithmetic} {destination : RegisterName} {operand : Operand}
    (computes : focus.Computes destination width operation operand focus')
    (within : focus.state.Within focus.lastIdentity) :
    focus.Grows focus' := by
  have grows := Focus.Grows.refl within
  have scalar (bounds : Bounds) : focus.Grows (focus.write destination (.scalar bounds)) :=
    grows.write destination (Nat.zero_le _)
  cases computes with
  | negation _ => exact scalar _
  | negation32 _ => exact scalar _
  | copy => exact grows.write destination (within.registers _)
  | truncation _ _ => exact scalar _
  | constant => exact scalar _
  | constant32 => exact scalar _
  | scalars _ _ _ => exact scalar _
  | scalars32 _ _ _ => exact scalar _
  | pointers _ found combines =>
      exact (combines.yields (within.registers destination)
        (Focus.identity_of_operand within found)).write within destination

/-- The target of an atomic operation keeps the identities in their order. -/
theorem Focus.Targets.grows
    {pointer : AbstractValue} {offset : Int} {size : Nat}
    (targets : focus.Targets setting pointer offset size focus')
    (within : focus.state.Within focus.lastIdentity) (short : size < 2 ^ 62) :
    focus.Grows focus' := by
  cases targets with
  | stack _ _ writes =>
      exact ⟨Nat.le_refl _, within.registers, within.spills.writeData writes short,
        within.references⟩
  | mapValue _ _ _ => exact .refl within

/-- An atomic operation that passes keeps the identities in their order. -/
theorem checkAtomic_grows
    {operation : AtomicOperation} {size : AccessSize} {base source : RegisterName} {offset : Int}
    (within : focus.state.Within focus.lastIdentity)
    (passed : checkAtomic setting focus operation size base source offset = .ok focus') :
    focus.Grows focus' := by
  rcases exchanges_of_checkAtomic passed with ⟨updated, exchanges, rfl⟩
  have grows := exchanges.targets.grows within (by cases size <;> decide)
  split
  case h_1 receiver _ => exact grows.write receiver (Nat.zero_le _)
  case h_2 => exact grows

/-! ## Branches -/

/-- The states on both edges mention only identities that have been handed out. -/
structure Edges.Within (edges : Edges) (last : Nat) : Prop where
  taken : ∀ state ∈ edges.taken?, state.Within last
  fall : ∀ state ∈ edges.fall?, state.Within last

variable {state : AbstractState} {last : Nat}

theorem Edges.within_of_both
    {taken fall : AbstractState}
    (taken' : taken.Within last) (fall' : fall.Within last) :
    Edges.Within ⟨some taken, some fall⟩ last := by
  constructor
  · rintro _ ⟨⟩
    exact taken'
  · rintro _ ⟨⟩
    exact fall'

theorem AbstractState.Refines.within
    {comparison : Comparison} {left : RegisterName} {right : Operand}
    {leftBounds rightBounds : Bounds} {edge : AbstractState}
    (refines : state.Refines comparison left right leftBounds rightBounds edge)
    (within : state.Within last) :
    edge.Within last := by
  cases refines with
  | unchanged => exact within
  | @refined narrowed _ =>
      have first : (state.setBounds left narrowed.1).Within last :=
        within.setRegister left (within.registers left)
      cases right with
      | register name => exact first.setRegister name (first.registers name)
      | immediate value => exact first

theorem nullCheckEdges_within
    {comparison : Comparison} {left right : AbstractValue} {edges : Edges}
    (within : state.Within last)
    (found : nullCheckEdges? state comparison left right = some edges) :
    edges.Within last := by
  rcases Option.bind_eq_some_iff.mp found with ⟨pointer, _, found⟩
  have isNull := within.settleNull pointer true
  have isThere := within.settleNull pointer false
  split at found
  case h_1 =>
    cases found
    exact Edges.within_of_both isNull isThere
  case h_2 =>
    cases found
    exact Edges.within_of_both isThere isNull
  case h_3 => cases found

/-- Both edges of a branch have only identities that were handed out. -/
theorem checkBranch_within
    {width : Width} {comparison : Comparison} {left : RegisterName} {right : Operand}
    {edges : Edges}
    (within : focus.state.Within last)
    (passed : checkBranch focus width comparison left right = .ok edges) :
    edges.Within last := by
  cases branches_of_checkBranch passed with
  | scalars _ _ _ found =>
      rcases refines_of_scalarEdges found with ⟨taken, fall⟩
      exact ⟨fun edge isEdge => (taken edge isEdge).within within,
        fun edge isEdge => (fall edge isEdge).within within⟩
  | nullCheck _ _ checked => exact nullCheckEdges_within within checked
  | packetEnd _ _ _ => exact Edges.within_of_both (within.learnRange _ _) (within.learnRange _ _)
  | pointers => exact Edges.within_of_both within within

/-! ## Calls -/

/-- The result of a call has the next identity, or none. -/
theorem callResult_grows
    {rule : ResultRule} {arguments : CallArguments} {value : AbstractValue}
    (within : focus.state.Within focus.lastIdentity)
    (called : callResult focus rule arguments = (value, focus')) :
    focus.Grows focus' ∧ value.identity ≤ focus'.lastIdentity := by
  have grows := Focus.Grows.refl within
  cases rule with
  | anyScalar =>
      cases called
      exact ⟨grows, Nat.zero_le _⟩
  | scalar32 =>
      cases called
      exact ⟨grows, Nat.zero_le _⟩
  | redirectVerdict =>
      cases called
      exact ⟨grows, Nat.zero_le _⟩
  | zero =>
      cases called
      exact ⟨grows, Nat.zero_le _⟩
  | mapValueOrNull =>
      cases called
      exact ⟨⟨Nat.le_succ _, within.mono (Nat.le_succ _)⟩, Nat.le_refl _⟩
  | recordOrNull =>
      cases called
      have grown := within.mono (Nat.le_succ focus.lastIdentity)
      refine ⟨⟨Nat.le_succ _, grown.registers, grown.spills, fun reference held => ?_⟩,
        Nat.le_refl _⟩
      rcases List.mem_append.mp held with old | new
      · exact grown.references reference old
      · rw [List.mem_singleton.mp new]

/-- A reference that a call releases takes no identity with it. -/
theorem Focus.Releases.within
    {reference : Nat}
    (releases : focus.Releases reference focus') (within : focus.state.Within focus.lastIdentity) :
    focus'.lastIdentity = focus.lastIdentity ∧ focus'.state.Within focus'.lastIdentity := by
  cases releases with
  | none => exact ⟨rfl, within⟩
  | one _ released => exact ⟨rfl, within.release released⟩

/-- A call that passes keeps the identities in their order. -/
theorem checkCall_grows
    {immediate : Int32}
    (within : focus.state.Within focus.lastIdentity)
    (passed : checkCall setting focus immediate = .ok focus') :
    focus.Grows focus' := by
  rcases calls_of_checkCall passed with ⟨helper, arguments, released, value, after, calls, rfl⟩
  have within₀ : focus.counted.state.Within focus.counted.lastIdentity := within
  rcases calls.releases.within within₀ with ⟨kept, within'⟩
  rcases callResult_grows within' calls.called with ⟨grows, identity⟩
  refine ⟨?_, grows.within.forgetCallerSaved.setRegister _ identity⟩
  exact (show focus.lastIdentity = released.lastIdentity from kept.symm).trans_le grows.last

/-- The states that a course leads to. -/
def Course.edges : Course → Edges
  | .branch taken? fall? => ⟨taken?, fall?⟩
  | _ => ⟨none, none⟩

theorem Edges.within_none (last : Nat) : Edges.Within ⟨none, none⟩ last := by
  constructor
  · rintro _ ⟨⟩
  · rintro _ ⟨⟩

/-- Every check hands identities on or hands out new ones. -/
theorem transfer_grows
    {operation : Operation} {course : Course}
    (within : focus.state.Within focus.lastIdentity)
    (passed : transfer setting focus operation = .ok (focus', course)) :
    focus.Grows focus' ∧ course.edges.Within focus'.lastIdentity := by
  have none := Edges.within_none focus'.lastIdentity
  cases operation with
  | compute width arithmetic destination operand =>
      rcases Checked.bind_eq_ok.mp passed with ⟨after, computes, made⟩
      cases made
      exact ⟨(computes_of_checkCompute computes).grows within, none⟩
  | convertOrder order bits destination =>
      rcases Checked.bind_eq_ok.mp passed with ⟨after, converts, made⟩
      cases made
      rcases checkConvertOrder_eq_ok converts with ⟨_, rfl⟩
      exact ⟨(Focus.Grows.refl within).write destination (Nat.zero_le _), none⟩
  | load size destination base offset =>
      rcases Checked.bind_eq_ok.mp passed with ⟨after, loads, made⟩
      cases made
      rcases grants_of_checkLoad loads with ⟨value, accessed, _, grants, rfl⟩
      have passes := grants.passes within (fun _ absurdity => by cases absurdity)
        (by cases size <;> decide)
      exact ⟨Focus.Grows.write ⟨passes.last.ge, passes.within⟩ destination passes.identity, none⟩
  | store size base offset operand =>
      rcases Checked.bind_eq_ok.mp passed with ⟨after, stores, made⟩
      cases made
      rcases grants_of_checkStore stores with ⟨value, answer, values, _, grants⟩
      have identity := identity_of_storedValue within values
      have passes := grants.passes within (fun source same => by cases same; exact identity)
        (by cases size <;> decide)
      exact ⟨⟨passes.last.ge, passes.within⟩, none⟩
  | atomic operation size base source offset =>
      rcases Checked.bind_eq_ok.mp passed with ⟨after, updates, made⟩
      cases made
      exact ⟨checkAtomic_grows within updates, none⟩
  | loadConstant destination value =>
      cases passed
      exact ⟨(Focus.Grows.refl within).write destination (Nat.zero_le _), none⟩
  | loadMap destination index =>
      rcases Checked.bind_eq_ok.mp passed with ⟨after, loads, made⟩
      cases made
      cases checkLoadMap_eq_ok loads
      exact ⟨(Focus.Grows.refl within).write destination (Nat.zero_le _), none⟩
  | jump =>
      cases passed
      exact ⟨.refl within, none⟩
  | branch width comparison left right =>
      rcases Checked.bind_eq_ok.mp passed with ⟨edges, branches, made⟩
      cases made
      exact ⟨.refl within, checkBranch_within within branches⟩
  | call helper =>
      rcases Checked.bind_eq_ok.mp passed with ⟨after, calls, made⟩
      cases made
      exact ⟨checkCall_grows within calls, none⟩
  | exit =>
      rcases Checked.bind_eq_ok.mp passed with ⟨_, _, made⟩
      cases made
      exact ⟨.refl within, none⟩

end

end PacketFilter
