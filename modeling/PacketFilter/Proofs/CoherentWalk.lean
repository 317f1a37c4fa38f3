import PacketFilter.Proofs.Coherence
import PacketFilter.Proofs.Safety
import PacketFilter.Proofs.WellFormedCode

/-!
# The walk keeps states coherent

Every check hands on a coherent state, and so every edge it opens, provided it
was given one whose identities have been handed out.  It hands out at most one
identity.  Hence at the start of every iteration of a walk the current state
and those put aside are coherent, and no more identities are in use than
iterations have gone by.
-/

namespace PacketFilter

open AbstractState (joins_of_anonymous joins_of_fresh)
open AbstractValue (anonymous_scalar anonymous_pointer)

section

variable {setting : Setting} {focus focus' : Focus} {value : AbstractValue}

/-! ## Arithmetic -/

/-- What a check leaves: a coherent state and at most one new identity. -/
structure Focus.Advances (before after : Focus) : Prop where
  coherent : after.state.Coherent
  last : after.lastIdentity ≤ before.lastIdentity + 1

theorem Focus.Advances.refl (coherent : focus.state.Coherent) : focus.Advances focus :=
  ⟨coherent, Nat.le_succ _⟩

theorem Focus.Advances.write
    {name : RegisterName}
    (advances : focus.Advances focus') (different : name ≠ RegisterName.frame)
    (joins : focus'.state.Joins value) :
    focus.Advances (focus'.write name value) :=
  ⟨advances.coherent.setRegister different joins, advances.last⟩

/-- What a check leaves beside a value that it makes for the same state. -/
structure Focus.Makes (before after : Focus) (value : AbstractValue) : Prop where
  state : after.state = before.state
  joins : before.state.Joins value
  last : after.lastIdentity ≤ before.lastIdentity + 1

theorem Focus.Makes.write
    {name : RegisterName}
    (makes : focus.Makes focus' value) (coherent : focus.state.Coherent)
    (different : name ≠ RegisterName.frame) :
    focus.Advances (focus'.write name value) := by
  have coherent' : focus'.state.Coherent := by rwa [makes.state]
  have joins : focus'.state.Joins value := by rw [makes.state]; exact makes.joins
  exact Focus.Advances.write ⟨coherent', makes.last⟩ different joins

theorem Focus.joins_of_read
    {name : RegisterName}
    (coherent : focus.state.Coherent) (reads : focus.read name = .ok value) :
    focus.state.Joins value := by
  rw [(Focus.read_eq_ok.mp reads).1]
  exact coherent.joins (.register name)

theorem Focus.joins_of_operand
    {operand : Operand}
    (coherent : focus.state.Coherent) (found : focus.operand operand = .ok value) :
    focus.state.Joins value := by
  cases operand with
  | register name => exact Focus.joins_of_read coherent found
  | immediate constant =>
      cases found
      exact joins_of_anonymous _ (anonymous_scalar _)

/-- A register that holds no pointer is not the frame register. -/
theorem Focus.ne_frame_of_scalar
    {name : RegisterName}
    (coherent : focus.state.Coherent) (reads : focus.read name = .ok value)
    (scalar : value.isScalar = true) :
    name ≠ RegisterName.frame := by
  rintro rfl
  rw [(Focus.read_eq_ok.mp reads).1, coherent.frame] at scalar
  cases scalar

/-- A pointer that is moved fits: it keeps its identity, or gets the next one. -/
theorem Focus.Offsets.makes
    {operation : Arithmetic} {pointer scalar : AbstractValue}
    (offsets : focus.Offsets operation pointer scalar value focus')
    (within : focus.state.Within focus.lastIdentity) (joins : focus.state.Joins pointer) :
    focus.Makes focus' value := by
  have present := offsets.present
  cases offsets.moves with
  | fixed _ moves =>
      simp only [movePointer, demand_bind_eq_ok] at moves
      cases moves.2
      exact ⟨rfl, joins.withOffset present _, Nat.le_succ _⟩
  | packet isPacket _ =>
      have reference := joins.proper.reference_of_packet isPacket
      exact ⟨rfl, joins_of_fresh within.identity_le (joins.proper.renew isPacket present _ _) rfl
        (absurd reference), Nat.le_refl _⟩
  | region isRegion => exact ⟨rfl, joins.withBounds present isRegion _, Nat.le_succ _⟩

theorem Focus.Combines.makes
    {operation : Arithmetic} {left right : AbstractValue}
    (combines : focus.Combines left right operation value focus')
    (within : focus.state.Within focus.lastIdentity) (joins : focus.state.Joins left)
    (joins' : focus.state.Joins right) :
    focus.Makes focus' value := by
  cases combines with
  | distance => exact ⟨rfl, joins_of_anonymous _ (anonymous_scalar _), Nat.le_succ _⟩
  | left _ _ offsets => exact offsets.makes within joins
  | right _ _ offsets => exact offsets.makes within joins'

/-- Arithmetic leaves a coherent state, whichever operands it has. -/
theorem Focus.Computes.advances
    {width : Width} {operation : Arithmetic} {destination : RegisterName} {operand : Operand}
    (computes : focus.Computes destination width operation operand focus')
    (coherent : focus.state.Coherent) (within : focus.state.Within focus.lastIdentity)
    (different : destination ≠ RegisterName.frame) :
    focus.Advances focus' := by
  have advances := Focus.Advances.refl coherent
  have scalar (bounds : Bounds) : focus.Advances (focus.write destination (.scalar bounds)) :=
    advances.write different (joins_of_anonymous _ (anonymous_scalar bounds))
  cases computes with
  | negation _ => exact scalar _
  | negation32 _ => exact scalar _
  | copy => exact advances.write different (coherent.joins (.register _))
  | truncation _ _ => exact scalar _
  | constant => exact scalar _
  | constant32 => exact scalar _
  | scalars _ _ _ => exact scalar _
  | scalars32 _ _ _ => exact scalar _
  | pointers _ found combines =>
      exact (combines.makes within (coherent.joins (.register destination))
        (Focus.joins_of_operand coherent found)).write coherent different

/-! ## Memory -/

/-- What a check of an access leaves; what was stored may by then lie in the frame. -/
structure Focus.Accesses (before after : Focus) (stored? : Option AbstractValue)
    (value : AbstractValue) : Prop where
  coherent : after.state.Coherent
  joins : stored? = none → after.state.Joins value
  last : after.lastIdentity = before.lastIdentity

theorem ContextField.anonymous_loaded (field : ContextField) (size : Nat) :
    (field.loaded size).Anonymous := by
  unfold ContextField.loaded
  split
  · exact anonymous_pointer .packet
  · exact anonymous_pointer .packetEnd
  · exact anonymous_scalar _

/-- An access leaves a coherent state, and what was loaded fits it. -/
theorem Focus.Grants.accesses
    {pointer : AbstractValue} {offset : Int} {size : Nat} {stored? : Option AbstractValue}
    (grants : focus.Grants setting pointer offset size stored? value focus')
    (coherent : focus.state.Coherent)
    (stored : ∀ source ∈ stored?, focus.state.Joins source ∧ source.kind ≠ .uninitialized)
    (short : size < 2 ^ 62) :
    focus.Accesses focus' stored? value := by
  have loaded (none : stored? = none) : focus.state.Joins (accessed stored? size) := by
    rw [none]
    exact joins_of_anonymous _ (anonymous_scalar _)
  cases grants with
  | context _ lies =>
      refine ⟨coherent, fun none => ?_, rfl⟩
      subst none
      rcases checkContextAccess_eq_ok lies with ⟨field, _, _, grants⟩
      cases grants with
      | load _ => exact joins_of_anonymous _ (field.anonymous_loaded size)
  | spill _ writes =>
      rcases stored value rfl with ⟨joins, initialized⟩
      exact ⟨coherent.write joins initialized writes short,
        fun absurdity => absurd absurdity (Option.some_ne_none value), rfl⟩
  | fill _ reads => exact ⟨coherent, fun _ => coherent.joins_read reads short, rfl⟩
  | packet _ _ _ => exact ⟨coherent, loaded, rfl⟩
  | mapValue _ _ _ => exact ⟨coherent, loaded, rfl⟩
  | record _ _ => exact ⟨coherent, loaded, rfl⟩

/-- A load puts a value that fits into a register other than the frame register. -/
theorem checkLoad_advances
    {size : AccessSize} {destination base : RegisterName} {offset : Int}
    (coherent : focus.state.Coherent) (different : destination ≠ RegisterName.frame)
    (passed : checkLoad setting focus size destination base offset = .ok focus') :
    focus.Advances focus' := by
  rcases grants_of_checkLoad passed with ⟨value, accessed, _, grants, rfl⟩
  have accesses := grants.accesses coherent (fun _ absurdity => by cases absurdity)
    (by cases size <;> decide)
  exact Focus.Advances.write ⟨accesses.coherent, accesses.last.trans_le (Nat.le_succ _)⟩ different
    (accesses.joins rfl)

/-- A store takes a register that has been initialized, or a constant. -/
theorem storedValue_joins
    {size : AccessSize} {operand : Operand}
    (coherent : focus.state.Coherent) (found : storedValue focus size operand = .ok value) :
    focus.state.Joins value ∧ value.kind ≠ .uninitialized := by
  cases operand with
  | register name =>
      exact ⟨Focus.joins_of_read coherent found, (Focus.read_eq_ok.mp found).2⟩
  | immediate immediate =>
      cases found
      exact ⟨joins_of_anonymous _ (anonymous_scalar _), ValueKind.noConfusion⟩

/-- What is stored has been read from a register or is a constant, and so fits. -/
theorem checkStore_advances
    {size : AccessSize} {base : RegisterName} {offset : Int} {operand : Operand}
    (coherent : focus.state.Coherent)
    (passed : checkStore setting focus size base offset operand = .ok focus') :
    focus.Advances focus' := by
  rcases grants_of_checkStore passed with ⟨value, answer, values, _, grants⟩
  have joins := storedValue_joins coherent values
  have accesses := grants.accesses coherent (fun source same => by cases same; exact joins)
    (by cases size <;> decide)
  exact ⟨accesses.coherent, accesses.last.trans_le (Nat.le_succ _)⟩

theorem Focus.Targets.advances
    {pointer : AbstractValue} {offset : Int} {size : Nat}
    (targets : focus.Targets setting pointer offset size focus') (coherent : focus.state.Coherent)
    (short : size < 2 ^ 62) :
    focus.Advances focus' := by
  cases targets with
  | stack _ _ writes => exact ⟨coherent.writeData writes short, Nat.le_succ _⟩
  | mapValue _ _ _ => exact .refl coherent

/-- The old value goes to the register that held the operand, a scalar, or to that of results. -/
theorem receiver_ne_frame
    {operation : AtomicOperation} {source receiver : RegisterName} {done : Unit}
    (coherent : focus.state.Coherent)
    (operands : checkAtomicOperands focus operation source = .ok done)
    (receives : operation.receiver? source = some receiver) :
    receiver ≠ RegisterName.frame := by
  rcases Checked.bind_eq_ok.mp operands with ⟨operand, reads, operands⟩
  rw [demand_bind_eq_ok] at operands
  have apart := Focus.ne_frame_of_scalar coherent reads operands.1
  cases operation with
  | combine arithmetic fetches =>
      cases fetches with
      | false => cases receives
      | true =>
          cases receives
          exact apart
  | exchange =>
      cases receives
      exact apart
  | compareExchange =>
      cases receives
      decide

/-- An atomic operation leaves data in memory and a scalar in a register. -/
theorem checkAtomic_advances
    {operation : AtomicOperation} {size : AccessSize} {base source : RegisterName} {offset : Int}
    (coherent : focus.state.Coherent)
    (passed : checkAtomic setting focus operation size base source offset = .ok focus') :
    focus.Advances focus' := by
  rcases exchanges_of_checkAtomic passed with ⟨updated, exchanges, rfl⟩
  have advances := exchanges.targets.advances coherent (by cases size <;> decide)
  split
  case h_1 receiver receives =>
    exact advances.write (receiver_ne_frame coherent exchanges.operands receives)
      (joins_of_anonymous _ (anonymous_scalar _))
  case h_2 => exact advances

/-! ## Branches -/

/-- The states on both edges are coherent. -/
structure Edges.Coherent (edges : Edges) : Prop where
  taken : ∀ state ∈ edges.taken?, state.Coherent
  fall : ∀ state ∈ edges.fall?, state.Coherent

variable {state : AbstractState}

theorem Edges.coherent_of_both
    {taken fall : AbstractState}
    (taken' : taken.Coherent) (fall' : fall.Coherent) :
    Edges.Coherent ⟨some taken, some fall⟩ := by
  constructor
  · rintro _ ⟨⟩
    exact taken'
  · rintro _ ⟨⟩
    exact fall'

/-- Refining the bounds of scalars touches nothing that copies share. -/
theorem AbstractState.Refines.coherent
    {comparison : Comparison} {left : RegisterName} {right : Operand}
    {leftBounds rightBounds : Bounds} {edge : AbstractState}
    (refines : state.Refines comparison left right leftBounds rightBounds edge)
    (coherent : state.Coherent) (plain : (state.register left).isPointer = false)
    (plain' : ∀ name, right = .register name → (state.register name).isPointer = false) :
    edge.Coherent := by
  cases refines with
  | unchanged => exact coherent
  | @refined narrowed _ =>
      have first := coherent.setBounds plain narrowed.1
      cases right with
      | register name =>
          refine first.setBounds ?_ narrowed.2
          rw [AbstractState.setBounds, AbstractState.register_setRegister]
          split
          case isTrue => exact plain
          case isFalse => exact plain' name rfl
      | immediate value => exact first

/-- Settling a pointer that is held settles all its copies. -/
theorem nullCheckEdges_coherent
    {comparison : Comparison} {left right : AbstractValue} {edges : Edges}
    (coherent : state.Coherent) (joins : state.Joins left) (joins' : state.Joins right)
    (found : nullCheckEdges? state comparison left right = some edges) :
    edges.Coherent := by
  rcases Option.bind_eq_some_iff.mp found with ⟨pointer, checks, found⟩
  have settled (isNull : Bool) : (state.settleNull pointer isNull).Coherent := by
    unfold nullChecked? at checks
    split at checks
    case isTrue nullable =>
      cases checks
      exact coherent.settleNull joins nullable.1 isNull
    case isFalse =>
      split at checks
      case isTrue nullable =>
        cases checks
        exact coherent.settleNull joins' nullable.1 isNull
      case isFalse => cases checks
  split at found
  case h_1 =>
    cases found
    exact Edges.coherent_of_both (settled true) (settled false)
  case h_2 =>
    cases found
    exact Edges.coherent_of_both (settled false) (settled true)
  case h_3 => cases found

theorem comparand_joins
    {width : Width} {comparison : Comparison} {operand : Operand}
    (coherent : focus.state.Coherent)
    (found : comparand focus width comparison operand = .ok value) :
    focus.state.Joins value := by
  cases operand with
  | register name => exact Focus.joins_of_read coherent found
  | immediate constant =>
      simp only [comparand] at found
      split at found <;> cases found <;> exact joins_of_anonymous _ (anonymous_scalar _)

theorem AbstractValue.plain_of_scalar (scalar : value.isScalar = true) :
    value.isPointer = false := by
  rw [AbstractValue.isPointer, beq_iff_eq.mp scalar]
  rfl

/-- Every edge of a branch leads to a coherent state. -/
theorem checkBranch_coherent
    {width : Width} {comparison : Comparison} {left : RegisterName} {right : Operand}
    {edges : Edges}
    (coherent : focus.state.Coherent)
    (passed : checkBranch focus width comparison left right = .ok edges) :
    edges.Coherent := by
  cases branches_of_checkBranch passed with
  | scalars compared leftScalar rightScalar found =>
      have plain := AbstractValue.plain_of_scalar leftScalar
      have plain' : ∀ name, right = .register name →
          (focus.state.register name).isPointer = false := by
        rintro name rfl
        rw [← (Focus.read_eq_ok.mp compared).1]
        exact AbstractValue.plain_of_scalar rightScalar
      rcases refines_of_scalarEdges found with ⟨taken, fall⟩
      exact ⟨fun edge isEdge => (taken edge isEdge).coherent coherent plain plain',
        fun edge isEdge => (fall edge isEdge).coherent coherent plain plain'⟩
  | nullCheck compared _ checked =>
      exact nullCheckEdges_coherent coherent (coherent.joins (.register left))
        (comparand_joins coherent compared) checked
  | packetEnd _ _ _ =>
      exact Edges.coherent_of_both (coherent.learnRange _ _) (coherent.learnRange _ _)
  | pointers => exact Edges.coherent_of_both coherent coherent

/-! ## Calls -/

theorem Focus.Releases.coherent
    {reference : Nat}
    (releases : focus.Releases reference focus') (coherent : focus.state.Coherent) :
    focus'.state.Coherent := by
  cases releases with
  | none => exact coherent
  | one stands released => exact coherent.release stands released

/-- The result fits what is known once the registers that the call does not preserve are
forgotten. -/
theorem callResult_advances
    {rule : ResultRule} {arguments : CallArguments}
    (coherent : focus.state.Coherent) (within : focus.state.Within focus.lastIdentity)
    (called : callResult focus rule arguments = (value, focus')) :
    focus'.state.forgetCallerSaved.Coherent ∧ focus'.state.forgetCallerSaved.Joins value ∧
      focus'.lastIdentity ≤ focus.lastIdentity + 1 := by
  have forgotten := coherent.forgetCallerSaved
  have within' := within.forgetCallerSaved
  have scalar (bounds : Bounds) : focus.state.forgetCallerSaved.Joins (.scalar bounds) :=
    joins_of_anonymous _ (anonymous_scalar bounds)
  cases rule with
  | anyScalar =>
      cases called
      exact ⟨forgotten, scalar _, Nat.le_succ _⟩
  | scalar32 =>
      cases called
      exact ⟨forgotten, scalar _, Nat.le_succ _⟩
  | redirectVerdict =>
      cases called
      exact ⟨forgotten, scalar _, Nat.le_succ _⟩
  | zero =>
      cases called
      exact ⟨forgotten, scalar _, Nat.le_succ _⟩
  | mapValueOrNull =>
      cases called
      exact ⟨forgotten, joins_of_fresh within'.identity_le
        (AbstractValue.proper_mapValueOrNull _ (Nat.succ_ne_zero _)) rfl (absurd rfl),
        Nat.le_refl _⟩
  | recordOrNull =>
      cases called
      have fresh : focus.lastIdentity + 1 ∉ focus.state.forgetCallerSaved.references :=
        fun held => Nat.not_succ_le_self _ (within'.references _ held)
      -- The record becomes held before the registers are forgotten, which comes to the same.
      have acquired := forgotten.acquire fresh
      have within'' {other : AbstractValue}
          (holds : (focus.state.forgetCallerSaved.acquire (focus.lastIdentity + 1)).Holds other) :
          other.identity ≤ focus.lastIdentity :=
        within'.identity_le (AbstractState.Holds.of_withReferences holds)
      exact ⟨acquired, joins_of_fresh within''
        (AbstractValue.proper_recordOrNull _ (Nat.succ_ne_zero _)) rfl
        fun _ => List.mem_append_right _ List.mem_cons_self, Nat.le_refl _⟩

/-- A call leaves a coherent state: what it forgets and what it gives back fit. -/
theorem checkCall_advances
    {immediate : Int32}
    (coherent : focus.state.Coherent) (within : focus.state.Within focus.lastIdentity)
    (passed : checkCall setting focus immediate = .ok focus') :
    focus.Advances focus' := by
  rcases calls_of_checkCall passed with ⟨helper, arguments, released, value, after, calls, rfl⟩
  have coherent₀ : focus.counted.state.Coherent := coherent
  have within₀ : focus.counted.state.Within focus.counted.lastIdentity := within
  rcases calls.releases.within within₀ with ⟨kept, within'⟩
  rcases callResult_advances (calls.releases.coherent coherent₀) within' calls.called with
    ⟨forgotten, joins, last⟩
  rw [kept] at last
  exact ⟨forgotten.setRegister (by decide) joins, last⟩

/-! ## Operations and walks -/

theorem Edges.coherent_none : Edges.Coherent ⟨none, none⟩ := by
  constructor
  · rintro _ ⟨⟩
  · rintro _ ⟨⟩

/-- Every check keeps the state coherent, and hands out at most one identity. -/
theorem transfer_advances
    {operation : Operation} {course : Course}
    (coherent : focus.state.Coherent) (within : focus.state.Within focus.lastIdentity)
    (spares : operation.overwritten? ≠ some RegisterName.frame)
    (passed : transfer setting focus operation = .ok (focus', course)) :
    focus.Advances focus' ∧ course.edges.Coherent := by
  have none := Edges.coherent_none
  have advances := Focus.Advances.refl coherent
  have different {name : RegisterName} (overwrites : operation.overwritten? = some name) :
      name ≠ RegisterName.frame :=
    fun same => spares (same ▸ overwrites)
  cases operation with
  | compute width arithmetic destination operand =>
      rcases Checked.bind_eq_ok.mp passed with ⟨after, computes, made⟩
      cases made
      exact ⟨(computes_of_checkCompute computes).advances coherent within (different rfl), none⟩
  | convertOrder order bits destination =>
      rcases Checked.bind_eq_ok.mp passed with ⟨after, converts, made⟩
      cases made
      rcases checkConvertOrder_eq_ok converts with ⟨_, rfl⟩
      exact ⟨advances.write (different rfl) (joins_of_anonymous _ (anonymous_scalar _)), none⟩
  | load size destination base offset =>
      rcases Checked.bind_eq_ok.mp passed with ⟨after, loads, made⟩
      cases made
      exact ⟨checkLoad_advances coherent (different rfl) loads, none⟩
  | store size base offset operand =>
      rcases Checked.bind_eq_ok.mp passed with ⟨after, stores, made⟩
      cases made
      exact ⟨checkStore_advances coherent stores, none⟩
  | atomic operation size base source offset =>
      rcases Checked.bind_eq_ok.mp passed with ⟨after, updates, made⟩
      cases made
      exact ⟨checkAtomic_advances coherent updates, none⟩
  | loadConstant destination value =>
      cases passed
      exact ⟨advances.write (different rfl) (joins_of_anonymous _ (anonymous_scalar _)), none⟩
  | loadMap destination index =>
      rcases Checked.bind_eq_ok.mp passed with ⟨after, loads, made⟩
      cases made
      cases checkLoadMap_eq_ok loads
      exact ⟨advances.write (different rfl)
        (joins_of_anonymous _ (AbstractValue.anonymous_mapHandle _)), none⟩
  | jump =>
      cases passed
      exact ⟨advances, none⟩
  | branch width comparison left right =>
      rcases Checked.bind_eq_ok.mp passed with ⟨edges, branches, made⟩
      cases made
      exact ⟨advances, checkBranch_coherent coherent branches⟩
  | call helper =>
      rcases Checked.bind_eq_ok.mp passed with ⟨after, calls, made⟩
      cases made
      exact ⟨checkCall_advances coherent within calls, none⟩
  | exit =>
      rcases Checked.bind_eq_ok.mp passed with ⟨_, _, made⟩
      cases made
      exact ⟨advances, none⟩

end

namespace Walk

variable {journey : Journey} {walk : Walk}

/-- What is known here and at the places put aside is coherent and mentions only identities handed
out. -/
def Coherent (walk : Walk) : Prop :=
  walk.Within ∧ ∀ place ∈ walk.place :: walk.aside, place.2.Coherent

theorem start_coherent (journey : Journey) (log : Log) : (start journey log).Coherent := by
  refine ⟨start_within journey log, ?_⟩
  rintro place (_ | ⟨_, absurdity⟩)
  · exact AbstractState.entry_coherent
  · cases absurdity

/-- The places that a visit leads to are coherent. -/
theorem Visits.coherent
    {focus : Focus} {places : List Place}
    (wellFormed : journey.code.WellFormed) (visits : walk.Visits journey focus places)
    (coherent : walk.focus.state.Coherent)
    (within : walk.focus.state.Within walk.focus.lastIdentity) :
    focus.lastIdentity ≤ walk.focus.lastIdentity + 1 ∧ ∀ place ∈ places, place.2.Coherent := by
  rcases visits with ⟨instruction, operation, course, _, decoded, passed, _, rfl⟩
  rcases transfer_advances coherent within (wellFormed.overwritten?_ne_frame decoded) passed with
    ⟨advances, edges⟩
  refine ⟨advances.last, fun place listed => ?_⟩
  rcases Course.of_mem_leads listed with same | taken | fall
  · exact same ▸ advances.coherent
  · exact edges.taken place.2 taken
  · exact edges.fall place.2 fall

/-- One iteration keeps the walk coherent, and hands out at most one identity. -/
theorem step_coherent
    {next : Walk}
    (wellFormed : journey.code.WellFormed) (coherent : walk.Coherent)
    (continues : walk.step journey = .continue next) :
    next.Coherent ∧ next.focus.lastIdentity ≤ walk.focus.lastIdentity + 1 := by
  have here : walk.place ∈ walk.place :: walk.aside := List.mem_cons_self
  rcases step_goes journey walk with
    ⟨log, rejection, rejected⟩ | ⟨focus, places, explored, handles, _, goes⟩
  · rw [rejected] at continues
    cases continues
  · rcases handles.grows coherent.1 with ⟨order, within⟩
    have leads : focus.lastIdentity ≤ walk.focus.lastIdentity + 1 ∧
        ∀ place ∈ places, place.2.Coherent := by
      cases handles with
      | pruned _ => exact ⟨Nat.le_succ _, fun _ listed => by cases listed⟩
      | visited _ visits =>
          exact visits.coherent wellFormed (coherent.2 walk.place here) (coherent.1 walk.place here)
    rw [continues] at goes
    cases goes with
    | «continue» next opens last _ =>
        have opens : next.place :: next.aside = places ++ walk.aside := opens
        have last : next.focus.lastIdentity = focus.lastIdentity := last
        refine ⟨⟨fun place listed => ?_, fun place listed => ?_⟩, last ▸ leads.1⟩
        · rw [last]
          rw [opens] at listed
          rcases List.mem_append.mp listed with led | waiting
          · exact within place led
          · exact (coherent.1 place (List.mem_cons_of_mem _ waiting)).mono order
        · rw [opens] at listed
          rcases List.mem_append.mp listed with led | waiting
          · exact leads.2 place led
          · exact coherent.2 place (List.mem_cons_of_mem _ waiting)

/-- The states of a walk are those of its places. -/
theorem mem_places
    {state : AbstractState} (walk : Walk)
    (listed : state ∈ walk.focus.state :: walk.pending.map PendingPath.state) :
    ∃ place ∈ walk.place :: walk.aside, place.2 = state := by
  rcases List.mem_cons.mp listed with rfl | waiting
  · exact ⟨walk.place, List.mem_cons_self, rfl⟩
  · rcases List.mem_map.mp waiting with ⟨path, there, rfl⟩
    exact ⟨path.place, List.mem_cons_of_mem _ (List.mem_map_of_mem there), rfl⟩

/-- A walk stays coherent as long as it goes on. -/
theorem trail_coherent
    {later : Walk} {budget index : Nat}
    (wellFormed : journey.code.WellFormed) (coherent : walk.Coherent)
    (there : (walk.trail journey budget)[index]? = some later) :
    later.Coherent ∧ later.focus.lastIdentity ≤ walk.focus.lastIdentity + index := by
  have start : walk.Coherent ∧ walk.focus.lastIdentity ≤ walk.focus.lastIdentity + 0 :=
    ⟨coherent, Nat.le_refl _⟩
  have kept := @trail_invariant journey
    (fun count later =>
      later.Coherent ∧ later.focus.lastIdentity ≤ walk.focus.lastIdentity + count)
    (fun holds steps => by
      rcases step_coherent wellFormed holds.1 steps with ⟨coherent', one⟩
      exact ⟨coherent', one.trans (Nat.succ_le_succ holds.2)⟩) budget _ _ _ _ start there
  rwa [Nat.zero_add] at kept

end Walk

namespace Verifier

/-- Before the walk the program is found to be well formed. -/
theorem wellFormed_of_prepare
    {find? : String → Option (MapId × Schema)} {limits : Limits} {program : Program}
    {journey : Journey} {maps : List MapId}
    (prepared : prepare find? limits program = .ok (journey, maps)) :
    journey.code.WellFormed := by
  rw [(prepares_of_prepare prepared).code]
  simp only [prepare] at prepared
  rcases Checked.bind_eq_ok.mp prepared with ⟨_, structured, _⟩
  exact Code.wellFormed_of_checkStructure structured

/-- At the start of every iteration of the walk over a program, whether it is let through or not and
however long it may be walked, the current state and those put aside are coherent and mention only
identities handed out; no more of these are in use than iterations have gone by. -/
theorem walked_states_coherent
    {find? : String → Option (MapId × Schema)} {limits : Limits} {program : Program}
    {journey : Journey} {maps : List MapId}
    (prepared : prepare find? limits program = .ok (journey, maps)) (log : Log)
    {budget index : Nat} {walk : Walk}
    (here : ((Walk.start journey log).trail journey budget)[index]? = some walk) :
    walk.focus.lastIdentity ≤ index ∧
      ∀ state ∈ walk.focus.state :: walk.pending.map PendingPath.state,
        state.Coherent ∧ state.Within walk.focus.lastIdentity := by
  rcases Walk.trail_coherent (wellFormed_of_prepare prepared) (Walk.start_coherent journey log)
    here with ⟨coherent, last⟩
  refine ⟨last.trans_eq (Nat.zero_add index), fun state listed => ?_⟩
  rcases walk.mem_places listed with ⟨place, there, rfl⟩
  exact ⟨coherent.2 place there, coherent.1 place there⟩

/-- After the lookup one state knows that nothing was found, and the one put aside that something
was. -/
theorem looked_up_states_coherent :
    ∃ journey maps walk, prepare hashStore.binding? {} lookupProgram = .ok (journey, maps) ∧
      ((Walk.start journey { level := .error, sizeLimit := 0 }).trail journey 7)[6]? = some walk ∧
      walk.pending.length = 1 ∧ walk.focus.lastIdentity ≤ 6 ∧
        ∀ state ∈ walk.focus.state :: walk.pending.map PendingPath.state,
          state.Coherent ∧ state.Within walk.focus.lastIdentity := by
  have forks : (prepare hashStore.binding? {} lookupProgram).toOption.any (fun prepared =>
      ((Walk.start prepared.1 { level := .error, sizeLimit := 0 }).trail prepared.1 7)[6]?.any
        fun walk => walk.pending.length == 1) = true := by
    decide +kernel
  cases prepared : prepare hashStore.binding? {} lookupProgram with
  | error rejection =>
      rw [prepared] at forks
      cases forks
  | ok found =>
      rw [prepared] at forks
      rcases (Option.any_eq_true _ _).mp forks with ⟨_, same, forks⟩
      cases same
      rcases (Option.any_eq_true _ _).mp forks with ⟨walk, here, aside⟩
      exact ⟨found.1, found.2, walk, rfl, here, beq_iff_eq.mp aside,
        walked_states_coherent prepared _ here⟩

end Verifier

end PacketFilter
