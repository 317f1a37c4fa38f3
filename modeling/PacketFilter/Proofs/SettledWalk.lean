import PacketFilter.Proofs.CoherentWalk
import PacketFilter.Proofs.DerivedBounds
import PacketFilter.Proofs.ScalarBranches

/-!
# The walk keeps bounds settled

Every scalar that a check makes has bounds from a synchronisation, a constant
or an operand, and what is refined on an edge has been synchronised again.
Hence in all the states that a walk comes to, the bounds of the scalars are
settled, in registers as in the frame.

The refinement of settled bounds does not overflow.  So the one way for a
branch on scalars to be left without edges is not open to a walk, over any code
and for any number of iterations.
-/

namespace PacketFilter

namespace AbstractValue

/-- If the value is a scalar, its bounds are settled.  A pointer keeps the variable part of its
offset in its bounds, and these are never refined. -/
def Settled (value : AbstractValue) : Prop :=
  value.isScalar = true → value.bounds.Settled

variable {value : AbstractValue} {bounds : Bounds}

theorem settled_scalar (settled : bounds.Settled) : (scalar bounds).Settled :=
  fun _ => settled

theorem settled_ofWidth (size : Nat) : (scalar (.ofWidth size)).Settled :=
  settled_scalar (Bounds.ofWidth_settled size)

theorem settled_constant (word : Word) : (constant word).Settled :=
  settled_scalar (Bounds.constant_settled word)

theorem settled_of_kind (other : value.kind ≠ .scalar) : value.Settled :=
  fun scalar => absurd (beq_iff_eq.mp scalar) other

theorem settled_uninitialized : uninitialized.Settled :=
  settled_of_kind ValueKind.noConfusion

theorem settled_of_pointer (pointer : value.isPointer = true) : value.Settled := by
  refine settled_of_kind fun scalar => ?_
  rw [isPointer, scalar] at pointer
  cases pointer

theorem Settled.settle (settled : value.Settled) (identity : Nat) (isNull : Bool) :
    (value.settle identity isNull).Settled := by
  rcases value.settle_cases identity isNull with same | same | same <;> rw [same]
  · exact settled
  · exact settled_constant 0
  · exact settled

theorem Settled.grant (settled : value.Settled) (identity range : Nat) :
    (value.grant identity range).Settled := by
  rcases value.grant_cases identity range with same | same <;> rw [same] <;> exact settled

end AbstractValue

namespace AbstractState

/-- The scalars in registers and in the frame have settled bounds. -/
def Settled (state : AbstractState) : Prop :=
  ∀ value : AbstractValue, state.Holds value → value.Settled

variable {state state' : AbstractState} {value : AbstractValue}

theorem entry_settled : entry.Settled := by
  intro value holds
  cases holds with
  | register name =>
      have kinds : ∀ name : RegisterName, (entry.register name).kind ≠ .scalar := by decide
      exact AbstractValue.settled_of_kind (kinds name)
  | spilled inside here =>
      rw [show entry.stack = .fresh from rfl, StackFrame.slotOf_fresh] at here
      cases here

theorem Settled.take
    (settled : state.Settled) (made : value.Settled)
    (holds : ∀ {other : AbstractValue}, state'.Holds other → other = value ∨ state.Holds other) :
    state'.Settled := by
  intro other held
  rcases holds held with rfl | before
  · exact made
  · exact settled other before

theorem Settled.setRegister
    (settled : state.Settled) (name : RegisterName) (made : value.Settled) :
    (state.setRegister name value).Settled :=
  settled.take made Holds.of_setRegister

theorem Settled.setRegisters (settled : state.Settled) (names : List RegisterName) :
    (names.foldl (fun state name => state.setRegister name .uninitialized) state).Settled := by
  induction names generalizing state with
  | nil => exact settled
  | cons name rest hypothesis =>
      exact hypothesis (settled.setRegister name AbstractValue.settled_uninitialized)

theorem Settled.forgetCallerSaved (settled : state.Settled) : state.forgetCallerSaved.Settled :=
  settled.setRegisters RegisterName.callerSaved

theorem Settled.setBounds
    {bounds : Bounds}
    (settled : state.Settled) (name : RegisterName) (made : bounds.Settled) :
    (state.setBounds name bounds).Settled :=
  settled.setRegister name fun _ => made

theorem Settled.write
    {stack : StackFrame} {offset : Int} {length : Nat}
    (settled : state.Settled) (made : value.Settled)
    (written : state.stack.write offset length value = .ok stack) (short : length < 2 ^ 62) :
    Settled { state with stack } :=
  settled.take made fun holds => holds.of_write written short

theorem Settled.writeData
    {stack : StackFrame} {offset : Int} {length : Nat}
    (settled : state.Settled) (written : state.stack.writeData offset length = .ok stack)
    (short : length < 2 ^ 62) :
    Settled { state with stack } :=
  fun value holds => settled value (holds.of_writeData written short)

theorem Settled.read
    {offset : Int} {length : Nat}
    (settled : state.Settled) (found : state.stack.read offset length = .ok value)
    (short : length < 2 ^ 62) :
    value.Settled := by
  rcases StackFrame.read_eq_ok found short with ⟨first, inside, reads⟩
  cases reads with
  | spilled _ _ spilled => exact settled value (.spilled inside.start spilled)
  | zeros _ _ => exact AbstractValue.settled_constant 0
  | data _ => exact AbstractValue.settled_ofWidth length

theorem Settled.release
    {reference : Nat}
    (settled : state.Settled) (released : state.release? reference = some state') :
    state'.Settled := by
  rw [release?_eq_some released]
  intro value holds
  rcases holds.of_withReferences.of_forgetRecord with rfl | ⟨before, _⟩
  · exact AbstractValue.settled_uninitialized
  · exact settled value before

theorem Settled.mapValues
    {change : AbstractValue → AbstractValue}
    (settled : state.Settled)
    (changed : ∀ value : AbstractValue, value.Settled → (change value).Settled) :
    (state.mapValues change).Settled := by
  intro value holds
  rcases holds.of_mapValues with ⟨old, before, rfl⟩
  exact changed old (settled old before)

theorem Settled.learnRange
    (settled : state.Settled) (pointer : AbstractValue) (comparison : Comparison) :
    (state.learnRange pointer comparison).Settled := by
  unfold AbstractState.learnRange
  split
  case h_1 range _ =>
    exact settled.mapValues fun value made => made.grant pointer.identity range
  case h_2 => exact settled

theorem Settled.settleNull
    (settled : state.Settled) (pointer : AbstractValue) (isNull : Bool) :
    (state.settleNull pointer isNull).Settled := by
  by_cases known : pointer.identity = 0
  · rwa [AbstractState.settleNull, if_pos known]
  · have changed := settled.mapValues fun value made => made.settle pointer.identity isNull
    rw [settleNull_eq isNull known]
    split
    case isTrue => exact fun value holds => changed value holds.of_withReferences
    case isFalse => exact changed

end AbstractState

section

variable {setting : Setting} {focus focus' : Focus} {value : AbstractValue}

/-! ## Arithmetic -/

/-- A register that holds something other than a pointer holds a scalar. -/
theorem AbstractState.Settled.bounds_of_plain
    (settled : focus.state.Settled) {name : RegisterName}
    (known : (focus.state.register name).kind ≠ .uninitialized)
    (plain : (focus.state.register name).isPointer = false) :
    (focus.state.register name).bounds.Settled :=
  settled _ (.register name) (beq_iff_eq.mpr (Interpretation.scalar_of_plain known plain))

theorem Focus.bounds_of_operand
    {operand : Operand}
    (settled : focus.state.Settled) (found : focus.operand operand = .ok value)
    (plain : value.isPointer = false) :
    value.bounds.Settled := by
  cases operand with
  | register name =>
      rcases Focus.read_eq_ok.mp found with ⟨rfl, known⟩
      exact settled.bounds_of_plain known plain
  | immediate constant =>
      cases found
      exact Bounds.constant_settled _

theorem Focus.Offsets.settled
    {operation : Arithmetic} {pointer scalar : AbstractValue}
    (offsets : focus.Offsets operation pointer scalar value focus')
    (isPointer : pointer.isPointer = true) :
    focus'.state = focus.state ∧ value.Settled := by
  cases offsets.moves with
  | fixed _ moves =>
      simp only [movePointer, demand_bind_eq_ok] at moves
      cases moves.2
      exact ⟨rfl, AbstractValue.settled_of_pointer isPointer⟩
  | packet _ _ => exact ⟨rfl, AbstractValue.settled_of_pointer isPointer⟩
  | region _ => exact ⟨rfl, AbstractValue.settled_of_pointer isPointer⟩

theorem Focus.Combines.settled
    {operation : Arithmetic} {left right : AbstractValue}
    (combines : focus.Combines left right operation value focus') :
    focus'.state = focus.state ∧ value.Settled := by
  cases combines with
  | distance => exact ⟨rfl, AbstractValue.settled_scalar Bounds.unknown_settled⟩
  | left isPointer _ offsets => exact offsets.settled isPointer
  | right _ isPointer offsets => exact offsets.settled isPointer

theorem Focus.Computes.settled
    {width : Width} {operation : Arithmetic} {destination : RegisterName} {operand : Operand}
    (computes : focus.Computes destination width operation operand focus')
    (settled : focus.state.Settled) :
    focus'.state.Settled := by
  have scalar {bounds : Bounds} (made : bounds.Settled) :
      (focus.write destination (.scalar bounds)).state.Settled :=
    settled.setRegister destination (AbstractValue.settled_scalar made)
  cases computes with
  | negation _ => exact scalar (Bounds.synchronized_settled _)
  | negation32 isScalar =>
      exact scalar (Bounds.apply32_settled _ (settled _ (.register destination) isScalar)
        (Bounds.constant_settled 0))
  | copy => exact settled.setRegister destination (settled _ (.register _))
  | truncation known plain =>
      exact scalar (Bounds.truncate32_settled (settled.bounds_of_plain known plain))
  | constant => exact scalar (Bounds.constant_settled _)
  | constant32 => exact scalar (Bounds.constant_settled _)
  | scalars known found plain =>
      exact scalar (Bounds.apply_settled _ (settled.bounds_of_plain known plain.1)
        (Focus.bounds_of_operand settled found plain.2))
  | scalars32 known found plain =>
      exact scalar (Bounds.apply32_settled _ (settled.bounds_of_plain known plain.1)
        (Focus.bounds_of_operand settled found plain.2))
  | @pointers _ _ _ _ focus' _ _ combines =>
      rcases combines.settled with ⟨same, made⟩
      have before : focus'.state.Settled := by rwa [same]
      exact before.setRegister destination made

/-! ## Memory -/

theorem ContextField.loaded_settled (field : ContextField) (size : Nat) :
    (field.loaded size).Settled := by
  unfold ContextField.loaded
  split
  · exact AbstractValue.settled_of_pointer rfl
  · exact AbstractValue.settled_of_pointer rfl
  · exact AbstractValue.settled_ofWidth size

/-- What is stored is settled to begin with; what is loaded is by the check. -/
theorem Focus.Grants.settled
    {pointer : AbstractValue} {offset : Int} {size : Nat} {stored? : Option AbstractValue}
    (grants : focus.Grants setting pointer offset size stored? value focus')
    (settled : focus.state.Settled) (stored : ∀ source ∈ stored?, source.Settled)
    (short : size < 2 ^ 62) :
    focus'.state.Settled ∧ value.Settled := by
  have answer : (accessed stored? size).Settled := by
    cases stored? with
    | none => exact AbstractValue.settled_ofWidth size
    | some source => exact stored source rfl
  cases grants with
  | context _ lies =>
      rcases checkContextAccess_eq_ok lies with ⟨field, _, _, grants⟩
      cases grants with
      | load _ => exact ⟨settled, field.loaded_settled size⟩
      | store _ _ => exact ⟨settled, stored value rfl⟩
  | spill _ writes => exact ⟨settled.write (stored value rfl) writes short, stored value rfl⟩
  | fill _ reads => exact ⟨settled, settled.read reads short⟩
  | packet _ _ _ => exact ⟨settled, answer⟩
  | mapValue _ _ _ => exact ⟨settled, answer⟩
  | record _ _ => exact ⟨settled, answer⟩

theorem storedValue_settled
    {size : AccessSize} {operand : Operand}
    (settled : focus.state.Settled) (found : storedValue focus size operand = .ok value) :
    value.Settled := by
  cases operand with
  | register name =>
      rw [(Focus.read_eq_ok.mp found).1]
      exact settled _ (.register name)
  | immediate immediate =>
      cases found
      exact AbstractValue.settled_constant _

theorem checkAtomic_settled
    {operation : AtomicOperation} {size : AccessSize} {base source : RegisterName} {offset : Int}
    (settled : focus.state.Settled)
    (passed : checkAtomic setting focus operation size base source offset = .ok focus') :
    focus'.state.Settled := by
  rcases exchanges_of_checkAtomic passed with ⟨updated, exchanges, rfl⟩
  have changed : updated.state.Settled := by
    cases exchanges.targets with
    | stack _ _ writes => exact settled.writeData writes (by cases size <;> decide)
    | mapValue _ _ _ => exact settled
  split
  case h_1 receiver _ => exact changed.setRegister receiver (AbstractValue.settled_ofWidth _)
  case h_2 => exact changed

/-! ## Branches -/

/-- The states on both edges are settled. -/
structure Edges.Settled (edges : Edges) : Prop where
  taken : ∀ state ∈ edges.taken?, state.Settled
  fall : ∀ state ∈ edges.fall?, state.Settled

variable {state : AbstractState}

theorem Edges.settled_of_both
    {taken fall : AbstractState}
    (taken' : taken.Settled) (fall' : fall.Settled) :
    Edges.Settled ⟨some taken, some fall⟩ := by
  constructor
  · rintro _ ⟨⟩
    exact taken'
  · rintro _ ⟨⟩
    exact fall'

theorem AbstractState.Refines.settled
    {comparison : Comparison} {left : RegisterName} {right : Operand}
    {leftBounds rightBounds : Bounds} {edge : AbstractState}
    (refines : state.Refines comparison left right leftBounds rightBounds edge)
    (settled : state.Settled) :
    edge.Settled := by
  cases refines with
  | unchanged => exact settled
  | @refined narrowed refined =>
      rcases Bounds.refine?_settles refined narrowed rfl with ⟨leftSettled, rightSettled⟩
      have first := settled.setBounds left leftSettled
      cases right with
      | register name => exact first.setBounds name rightSettled
      | immediate value => exact first

theorem nullCheckEdges_settled
    {comparison : Comparison} {left right : AbstractValue} {edges : Edges}
    (settled : state.Settled)
    (found : nullCheckEdges? state comparison left right = some edges) :
    edges.Settled := by
  rcases Option.bind_eq_some_iff.mp found with ⟨pointer, _, found⟩
  have isNull := settled.settleNull pointer true
  have isThere := settled.settleNull pointer false
  split at found
  case h_1 =>
    cases found
    exact Edges.settled_of_both isNull isThere
  case h_2 =>
    cases found
    exact Edges.settled_of_both isThere isNull
  case h_3 => cases found

theorem checkBranch_settled
    {width : Width} {comparison : Comparison} {left : RegisterName} {right : Operand}
    {edges : Edges}
    (settled : focus.state.Settled)
    (passed : checkBranch focus width comparison left right = .ok edges) :
    edges.Settled := by
  cases branches_of_checkBranch passed with
  | scalars _ _ _ found =>
      rcases refines_of_scalarEdges found with ⟨taken, fall⟩
      exact ⟨fun edge isEdge => (taken edge isEdge).settled settled,
        fun edge isEdge => (fall edge isEdge).settled settled⟩
  | nullCheck _ _ checked => exact nullCheckEdges_settled settled checked
  | packetEnd _ _ _ =>
      exact Edges.settled_of_both (settled.learnRange _ _) (settled.learnRange _ _)
  | pointers => exact Edges.settled_of_both settled settled

theorem comparand_settled
    {width : Width} {comparison : Comparison} {operand : Operand}
    (settled : focus.state.Settled)
    (found : comparand focus width comparison operand = .ok value) :
    value.Settled := by
  cases operand with
  | register name =>
      rw [(Focus.read_eq_ok.mp found).1]
      exact settled _ (.register name)
  | immediate constant =>
      simp only [comparand] at found
      split at found <;> cases found <;> exact AbstractValue.settled_constant _

/-- Whatever is compared in a settled state, scalars have their edges. -/
theorem checkBranch_of_settled
    {width : Width} {comparison : Comparison} {left : RegisterName} {right : Operand}
    (settled : focus.state.Settled) (leftScalar : (focus.state.register left).isScalar = true)
    (compared : comparand focus width comparison right = .ok value)
    (rightScalar : value.isScalar = true) :
    ∃ edges, checkBranch focus width comparison left right = .ok edges := by
  have leftSettled := settled _ (.register left) leftScalar
  have rightSettled := comparand_settled settled compared rightScalar
  rcases @AbstractState.scalarEdges?_of_endsSettled focus.state width comparison left right
      (focus.state.register left).bounds value.bounds
      (fun _ => ⟨leftSettled.ends, rightSettled.ends⟩) with ⟨edges, found⟩
  exact ⟨edges, by rw [checkBranch_of_scalars leftScalar compared rightScalar, found]⟩

/-! ## Calls -/

theorem Focus.Releases.settled
    {reference : Nat}
    (releases : focus.Releases reference focus') (settled : focus.state.Settled) :
    focus'.state.Settled := by
  cases releases with
  | none => exact settled
  | one _ released => exact settled.release released

theorem callResult_settled
    {rule : ResultRule} {arguments : CallArguments}
    (settled : focus.state.Settled)
    (called : callResult focus rule arguments = (value, focus')) :
    focus'.state.Settled ∧ value.Settled := by
  cases rule with
  | anyScalar =>
      cases called
      exact ⟨settled, AbstractValue.settled_scalar Bounds.unknown_settled⟩
  | scalar32 =>
      cases called
      exact ⟨settled, AbstractValue.settled_ofWidth 4⟩
  | redirectVerdict =>
      cases called
      exact ⟨settled, AbstractValue.settled_scalar (Bounds.ofInterval_settled 0 4)⟩
  | zero =>
      cases called
      exact ⟨settled, AbstractValue.settled_constant 0⟩
  | mapValueOrNull =>
      cases called
      exact ⟨settled, AbstractValue.settled_of_pointer rfl⟩
  | recordOrNull =>
      cases called
      exact ⟨fun value holds => settled value holds.of_withReferences,
        AbstractValue.settled_of_pointer rfl⟩

theorem checkCall_settled
    {immediate : Int32}
    (settled : focus.state.Settled) (passed : checkCall setting focus immediate = .ok focus') :
    focus'.state.Settled := by
  rcases calls_of_checkCall passed with ⟨helper, arguments, released, value, after, calls, rfl⟩
  have counted : focus.counted.state.Settled := settled
  rcases callResult_settled (calls.releases.settled counted) calls.called with ⟨answered, made⟩
  exact answered.forgetCallerSaved.setRegister _ made

/-! ## Operations and walks -/

theorem Edges.settled_none : Edges.Settled ⟨none, none⟩ := by
  constructor
  · rintro _ ⟨⟩
  · rintro _ ⟨⟩

/-- Every check keeps the bounds of all scalars settled, on each edge that it opens. -/
theorem transfer_settled
    {operation : Operation} {course : Course}
    (settled : focus.state.Settled)
    (passed : transfer setting focus operation = .ok (focus', course)) :
    focus'.state.Settled ∧ course.edges.Settled := by
  have none := Edges.settled_none
  cases operation with
  | compute width arithmetic destination operand =>
      rcases Checked.bind_eq_ok.mp passed with ⟨after, computes, made⟩
      cases made
      exact ⟨(computes_of_checkCompute computes).settled settled, none⟩
  | convertOrder order bits destination =>
      rcases Checked.bind_eq_ok.mp passed with ⟨after, converts, made⟩
      cases made
      rcases checkConvertOrder_eq_ok converts with ⟨isScalar, rfl⟩
      exact ⟨settled.setRegister destination (AbstractValue.settled_scalar
        (Bounds.convertOrder_settled (settled _ (.register destination) isScalar) order
          bits)), none⟩
  | load size destination base offset =>
      rcases Checked.bind_eq_ok.mp passed with ⟨after, loads, made⟩
      cases made
      rcases grants_of_checkLoad loads with ⟨value, accessed, _, grants, rfl⟩
      rcases grants.settled settled (fun _ absurdity => by cases absurdity)
        (by cases size <;> decide) with ⟨after, loaded⟩
      exact ⟨after.setRegister destination loaded, none⟩
  | store size base offset operand =>
      rcases Checked.bind_eq_ok.mp passed with ⟨after, stores, made⟩
      cases made
      rcases grants_of_checkStore stores with ⟨value, answer, values, _, grants⟩
      have stored := storedValue_settled settled values
      exact ⟨(grants.settled settled (fun source same => by cases same; exact stored)
        (by cases size <;> decide)).1, none⟩
  | atomic operation size base source offset =>
      rcases Checked.bind_eq_ok.mp passed with ⟨after, updates, made⟩
      cases made
      exact ⟨checkAtomic_settled settled updates, none⟩
  | loadConstant destination word =>
      cases passed
      exact ⟨settled.setRegister destination (AbstractValue.settled_constant word), none⟩
  | loadMap destination index =>
      rcases Checked.bind_eq_ok.mp passed with ⟨after, loads, made⟩
      cases made
      cases checkLoadMap_eq_ok loads
      exact ⟨settled.setRegister destination (AbstractValue.settled_of_pointer rfl), none⟩
  | jump =>
      cases passed
      exact ⟨settled, none⟩
  | branch width comparison left right =>
      rcases Checked.bind_eq_ok.mp passed with ⟨edges, branches, made⟩
      cases made
      exact ⟨settled, checkBranch_settled settled branches⟩
  | call helper =>
      rcases Checked.bind_eq_ok.mp passed with ⟨after, calls, made⟩
      cases made
      exact ⟨checkCall_settled settled calls, none⟩
  | exit =>
      rcases Checked.bind_eq_ok.mp passed with ⟨_, _, made⟩
      cases made
      exact ⟨settled, none⟩

end

namespace Walk

variable {journey : Journey} {walk : Walk}

/-- What is known here and at the places put aside has settled bounds. -/
def Settled (walk : Walk) : Prop :=
  ∀ place ∈ walk.place :: walk.aside, place.2.Settled

theorem start_settled (journey : Journey) (log : Log) : (start journey log).Settled := by
  rintro place (_ | ⟨_, absurdity⟩)
  · exact AbstractState.entry_settled
  · cases absurdity

theorem Visits.settled
    {focus : Focus} {places : List Place}
    (visits : walk.Visits journey focus places) (settled : walk.focus.state.Settled) :
    ∀ place ∈ places, place.2.Settled := by
  rcases visits with ⟨instruction, operation, course, _, _, passed, _, rfl⟩
  rcases transfer_settled settled passed with ⟨after, edges⟩
  intro place listed
  rcases Course.of_mem_leads listed with same | taken | fall
  · exact same ▸ after
  · exact edges.taken place.2 taken
  · exact edges.fall place.2 fall

theorem step_settled
    {next : Walk}
    (settled : walk.Settled) (continues : walk.step journey = .continue next) :
    next.Settled := by
  rcases step_goes journey walk with
    ⟨log, rejection, rejected⟩ | ⟨focus, places, explored, handles, _, goes⟩
  · rw [rejected] at continues
    cases continues
  · have led : ∀ place ∈ places, place.2.Settled := by
      cases handles with
      | pruned _ => exact fun _ listed => by cases listed
      | visited _ visits => exact visits.settled (settled walk.place List.mem_cons_self)
    rw [continues] at goes
    cases goes with
    | «continue» next opens _ _ =>
        have opens : next.place :: next.aside = places ++ walk.aside := opens
        intro place listed
        rw [opens] at listed
        rcases List.mem_append.mp listed with here | waiting
        · exact led place here
        · exact settled place (List.mem_cons_of_mem _ waiting)

theorem trail_settled
    {later : Walk} {budget index : Nat}
    (settled : walk.Settled) (there : (walk.trail journey budget)[index]? = some later) :
    later.Settled :=
  @trail_invariant journey (fun _ later => later.Settled) step_settled budget _ _ 0 _ settled there

/-- At the start of every iteration of a walk the bounds of all scalars are settled, so that a
branch on two of them has its edges. -/
theorem walked_scalars_have_edges
    (log : Log) {budget index : Nat} {width : Width} {comparison : Comparison}
    {left : RegisterName} {right : Operand} {value : AbstractValue}
    (here : ((Walk.start journey log).trail journey budget)[index]? = some walk)
    (leftScalar : (walk.focus.state.register left).isScalar = true)
    (compared : comparand walk.focus width comparison right = .ok value)
    (rightScalar : value.isScalar = true) :
    walk.focus.state.Settled ∧
      ∃ edges, checkBranch walk.focus width comparison left right = .ok edges := by
  have settled : walk.focus.state.Settled :=
    trail_settled (start_settled journey log) here walk.place List.mem_cons_self
  exact ⟨settled, checkBranch_of_settled settled leftScalar compared rightScalar⟩

end Walk

end PacketFilter
