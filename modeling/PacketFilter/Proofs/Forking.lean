import PacketFilter.Proofs.Branching
import PacketFilter.Proofs.Computing

/-!
# Branches

On the edge that a machine takes, the state of that edge describes it: bounds
are refined by a comparison that holds, a pointer that may be null is settled
by what it is, and a packet pointer gains the bytes that its comparison with
the end of the packet shows to be there.

The one comparison left out is a test for null that looks at the low half of
the pointer alone.
-/

namespace PacketFilter

/-- A swapped comparison holds of swapped words when the comparison holds. -/
theorem Comparison.holds_swap
    {width : Nat} (comparison : Comparison) (left right : BitVec width) :
    comparison.swap.holds right left = comparison.holds left right := by
  cases comparison with
  | equal => exact Bool.beq_comm
  | differ => simp only [swap, holds, bne_comm]
  | sharesBit => simp only [swap, holds, BitVec.and_comm]
  | sharesNone => simp only [swap, holds, BitVec.and_comm]
  | above => rfl
  | atLeast => rfl
  | below => rfl
  | atMost => rfl
  | signedAbove => rfl
  | signedAtLeast => rfl
  | signedBelow => rfl
  | signedAtMost => rfl

section

variable {state : AbstractState} {scene : Scene} {valuation : Nat → Word}
variable {machine : Machine} {twin : Bytes} {focus : Focus} {width : Width}
variable {comparison : Comparison} {left : RegisterName} {right : Operand}
variable {pointer value : AbstractValue} {word word' : Word}

/-! ## Comparisons of scalars -/

/-- A scalar register may get narrower bounds, as long as the word that is there stays in them. -/
theorem AbstractState.Represents.setBounds
    {bounds : Bounds} {name : RegisterName}
    (represents : state.Represents scene valuation machine twin)
    (scalar : (state.register name).kind = .scalar) (member : machine.register name ∈ bounds) :
    (state.setBounds name bounds).Represents scene valuation machine twin := by
  have describes := represents.registers name
  apply represents.refineRegister name
  refine ⟨?_, describes.nullable, describes.near⟩
  simp only [Interpretation.Matches, scalar]
  exact member

theorem AbstractState.Represents.setOperandBounds
    {bounds : Bounds × Bounds}
    (represents : state.Represents scene valuation machine twin)
    (leftScalar : (state.register left).kind = .scalar)
    (rightScalar : ∀ name, right = .register name → (state.register name).kind = .scalar)
    (leftMember : machine.register left ∈ bounds.1)
    (rightMember : ∀ name, right = .register name → machine.register name ∈ bounds.2) :
    (state.setOperandBounds left right bounds).Represents scene valuation machine twin := by
  have first := represents.setBounds leftScalar leftMember
  cases right with
  | immediate constant => exact first
  | register name =>
      apply first.setBounds _ (rightMember name rfl)
      simp only [AbstractState.setBounds, AbstractState.register_setRegister]
      split
      case isTrue => exact leftScalar
      case isFalse => exact rightScalar name rfl

/-- The state on the edge that a comparison with this outcome takes. -/
def Edges.followed? (edges : Edges) (outcome : Bool) : Option AbstractState :=
  if outcome then edges.taken? else edges.fall?

/-- A comparison that holds between members has an edge, whose bounds keep both of them. -/
theorem refinedEdge?_of_mem
    {leftBounds rightBounds : Bounds} {edge? : Option AbstractState}
    (leftMember : word ∈ leftBounds) (rightMember : word' ∈ rightBounds)
    (satisfied : comparison.holds word word' = true)
    (found : refinedEdge? state comparison left right leftBounds rightBounds = some edge?) :
    ∃ narrowed : Bounds × Bounds, word ∈ narrowed.1 ∧ word' ∈ narrowed.2 ∧
      edge? = some (state.setOperandBounds left right narrowed) := by
  rcases Bounds.refine_mem comparison leftMember rightMember satisfied with
    ⟨narrowed, refined, inLeft, inRight⟩
  rw [refinedEdge?, refined] at found
  exact ⟨narrowed, inLeft, inRight, (Option.some.inj found).symm⟩

/-- Where something is shown, the machine compares whole words. -/
theorem holds_of_fits
    {leftBounds rightBounds : Bounds}
    (leftMember : word ∈ leftBounds) (rightMember : word' ∈ rightBounds)
    (fits : ¬ (width = .half ∧
      !(leftBounds.fitsHalf comparison && rightBounds.fitsHalf comparison))) :
    Execution.holds width comparison word word' = comparison.holds word word' := by
  cases width with
  | whole => rfl
  | half =>
      have both : (leftBounds.fitsHalf comparison && rightBounds.fitsHalf comparison) = true := by
        simpa using fits
      rw [Bool.and_eq_true] at both
      exact Bounds.holds_half_of_fitsHalf comparison leftMember rightMember both.1 both.2

/-- The edge that a comparison of members takes is there, and keeps both of them. -/
theorem scalarEdges_of_mem
    {leftBounds rightBounds : Bounds} {edges : Edges}
    (found : scalarEdges? state width comparison left right leftBounds rightBounds = some edges)
    (leftMember : word ∈ leftBounds) (rightMember : word' ∈ rightBounds) :
    ∃ edge ∈ edges.followed? (Execution.holds width comparison word word'),
      edge = state ∨ ∃ narrowed : Bounds × Bounds, word ∈ narrowed.1 ∧ word' ∈ narrowed.2 ∧
        edge = state.setOperandBounds left right narrowed := by
  by_cases open' : width = .half ∧
      !(leftBounds.fitsHalf comparison && rightBounds.fitsHalf comparison)
  · rw [scalarEdges?, if_pos open'] at found
    cases found
    exact ⟨state, by unfold Edges.followed?; split <;> rfl, .inl rfl⟩
  · rw [scalarEdges?, if_neg open'] at found
    rw [holds_of_fits leftMember rightMember open']
    cases settled : Bounds.decide? comparison leftBounds rightBounds with
    | some answer =>
        rw [settled] at found
        rw [Bounds.decide_sound comparison leftMember rightMember settled]
        cases answer with
        | true =>
            cases found
            exact ⟨state, rfl, .inl rfl⟩
        | false =>
            cases found
            exact ⟨state, rfl, .inl rfl⟩
    | none =>
        rw [settled] at found
        rcases Option.bind_eq_some_iff.mp found with ⟨taken?, taken, found⟩
        rcases Option.bind_eq_some_iff.mp found with ⟨fall?, fall, found⟩
        cases found
        cases holds : comparison.holds word word' with
        | true =>
            rcases refinedEdge?_of_mem leftMember rightMember holds taken with
              ⟨narrowed, inLeft, inRight, refined⟩
            exact ⟨_, refined, .inr ⟨narrowed, inLeft, inRight, rfl⟩⟩
        | false =>
            have opposite : comparison.negate.holds word word' = true := by
              rw [Comparison.holds_negate, holds]
              rfl
            rcases refinedEdge?_of_mem leftMember rightMember opposite fall with
              ⟨narrowed, inLeft, inRight, refined⟩
            exact ⟨_, refined, .inr ⟨narrowed, inLeft, inRight, rfl⟩⟩

/-- The state on the edge that a comparison of scalars takes. -/
theorem scalarEdges_sound
    {leftBounds rightBounds : Bounds} {edges : Edges}
    (represents : state.Represents scene valuation machine twin)
    (leftScalar : (state.register left).kind = .scalar)
    (rightScalar : ∀ name, right = .register name → (state.register name).kind = .scalar)
    (found : scalarEdges? state width comparison left right leftBounds rightBounds = some edges)
    (leftMember : machine.register left ∈ leftBounds) (rightMember : word' ∈ rightBounds)
    (same : ∀ name, right = .register name → machine.register name = word') :
    ∃ edge ∈ edges.followed? (Execution.holds width comparison (machine.register left) word'),
      edge.Represents scene valuation machine twin := by
  rcases scalarEdges_of_mem found leftMember rightMember with
    ⟨edge, taken, rfl | ⟨narrowed, inLeft, inRight, rfl⟩⟩
  · exact ⟨edge, taken, represents⟩
  · refine ⟨_, taken, represents.setOperandBounds leftScalar rightScalar inLeft ?_⟩
    intro name isName
    rw [same name isName]
    exact inRight

/-! ## Tests for null -/

/-- A pointer that may be null still points, and a reference that it carries is its identity. -/
theorem Interpretation.Describes.nullable_points
    {reading : Interpretation}
    (describes : reading.Describes value word) (nullable : value.mayBeNull = true) :
    reading.Points value word ∧
      (value.reference ≠ 0 → value.reference = value.identity) := by
  have byKind := describes.byKind
  rcases describes.nullable nullable with kind | kind
  · simp only [Matches, kind] at byKind
    exact ⟨byKind.2.1, fun named => absurd byKind.1 named⟩
  · simp only [Matches, kind] at byKind
    exact ⟨byKind.2.1, fun _ => byKind.1⟩

/-- A pointer that may be null is the base that its identity stands for. -/
theorem Interpretation.Points.eq_base
    {reading : Interpretation}
    (points : reading.Points value word) (nullable : value.mayBeNull = true) :
    word = reading.valuation value.identity := by
  rcases points.place with ⟨change, _, place, unmoved⟩
  rcases unmoved nullable with ⟨offset, rfl⟩
  rw [place, offset]
  simp

/-- A pointer known not to be null. -/
theorem Interpretation.Describes.there
    {reading : Interpretation}
    (describes : reading.Describes value word)
    (nonNull : reading.valuation value.identity ≠ 0) :
    reading.Describes { value with mayBeNull := false } word := by
  have points (points : reading.Points value word) :
      reading.Points { value with mayBeNull := false } word := by
    refine ⟨points.identity, ?_, fun _ => nonNull⟩
    rcases points.place with ⟨change, member, place, _⟩
    exact ⟨change, member, place, fun absurdity => by cases absurdity⟩
  refine ⟨?_, (fun absurdity => by cases absurdity), describes.near⟩
  have byKind := describes.byKind
  cases kind : value.kind with
  | uninitialized => simp only [Matches]
  | scalar => simpa only [Matches, kind] using byKind
  | context => simpa only [Matches, kind] using byKind
  | stack => simpa only [Matches, kind] using byKind
  | packet =>
      simp only [Matches, kind] at byKind ⊢
      exact ⟨byKind.place, byKind.change, byKind.range⟩
  | packetEnd => simpa only [Matches, kind] using byKind
  | mapHandle => simpa only [Matches, kind] using byKind
  | mapValue =>
      simp only [Matches, kind] at byKind ⊢
      have there := points byKind.2.1
      rw [kind] at there
      exact ⟨byKind.1, there, byKind.2.2⟩
  | record =>
      simp only [Matches, kind] at byKind ⊢
      have there := points byKind.2.1
      rw [kind] at there
      exact ⟨byKind.1, there, byKind.2.2⟩

/-- A state in which every value has come to say less. -/
theorem AbstractState.Represents.mapValues
    {change : AbstractValue → AbstractValue} {references : List Nat}
    (represents : state.Represents scene valuation machine twin)
    (changed : ∀ (value : AbstractValue) (word : Word),
      (state.reading scene valuation machine.memory).Describes value word →
        (({ state.mapValues change with references } : AbstractState).reading scene valuation
          machine.memory).Describes (change value) word)
    (tracks : (({ state.mapValues change with references } : AbstractState).reading scene valuation
      machine.memory).Tracks) :
    ({ state.mapValues change with references } : AbstractState).Represents scene valuation machine
      twin := by
  refine represents.weaken represents.sound rfl represents.zero ?_ ?_ ?_ tracks
  · intro name word describes
    rw [show ({ state.mapValues change with references } : AbstractState).register name =
      change (state.register name) from state.register_mapValues change name]
    exact changed _ word describes
  · intro byte small
    exact .inl (state.stack.byteAt_mapSpills change small)
  · intro byte small value' spilled
    rw [show ({ state.mapValues change with references } : AbstractState).stack =
      state.stack.mapSpills change from rfl, state.stack.slotOf_mapSpills change small] at spilled
    rcases Option.map_eq_some_iff.mp spilled with ⟨value, held, rfl⟩
    exact ⟨value, held, changed value⟩

/-- The pointer is not null. -/
theorem settleThere_sound
    (represents : state.Represents scene valuation machine twin)
    (describes : (state.reading scene valuation machine.memory).Describes pointer word)
    (nullable : pointer.mayBeNull = true) (there : word ≠ 0) :
    (state.settleNull pointer false).Represents scene valuation machine twin := by
  have points := (describes.nullable_points nullable).1
  have nonNull : valuation pointer.identity ≠ 0 := by
    have base := points.eq_base nullable
    rwa [base] at there
  simp only [AbstractState.settleNull, points.identity, if_false, Bool.false_eq_true, false_and]
  apply represents.mapValues _ represents.tracks
  intro value word describes'
  split
  case isTrue => exact describes'
  case isFalse same =>
    rw [not_or, not_not] at same
    apply describes'.there
    rw [same.1]
    exact nonNull

/-- A reference that stands for null can be dropped. -/
theorem Interpretation.Tracks.drop
    {reading : Interpretation} {reference : Nat}
    (tracks : reading.Tracks) (null : reading.valuation reference = 0)
    (bound : RegionAddress.firstDynamic + reading.memory.regions.size ≤ RegionAddress.mapHandle) :
    ({ reading with references := reading.references.filter (· != reference) } :
      Interpretation).Tracks := by
  have kept {other : Nat} (held : other ∈ reading.references.filter (· != reference)) :
      other ∈ reading.references :=
    (List.mem_filter.mp held).1
  constructor
  case nodup => exact tracks.nodup.filter _
  case opened => exact fun other held nonNull => tracks.opened other (kept held) nonNull
  case known =>
    intro number isOpen
    rcases tracks.known number isOpen with ⟨other, held, opens⟩
    refine ⟨other, List.mem_filter.mpr ⟨held, ?_⟩, opens⟩
    rw [bne_iff_ne]
    rintro rfl
    exact opens.1.ne_zero bound null
  case distinct =>
    exact fun first held second held' number opens opens' =>
      tracks.distinct first (kept held) second (kept held') number opens opens'

/-- The pointer is null, and nothing is held under its name. -/
theorem settleNull_sound
    (represents : state.Represents scene valuation machine twin)
    (describes : (state.reading scene valuation machine.memory).Describes pointer 0)
    (nullable : pointer.mayBeNull = true) :
    (state.settleNull pointer true).Represents scene valuation machine twin := by
  rcases describes.nullable_points nullable with ⟨points, named⟩
  have null : valuation pointer.identity = 0 := (points.eq_base nullable).symm
  have bound := represents.sound.regions
  let settle (value : AbstractValue) : AbstractValue :=
    if value.identity ≠ pointer.identity ∨ !value.mayBeNull then value
    else .constant 0
  have settled (references : List Nat)
      (kept : ∀ identity ∈ state.references, valuation identity ≠ 0 → identity ∈ references) :
      ∀ (value : AbstractValue) (word : Word),
        (state.reading scene valuation machine.memory).Describes value word →
          (({ state.mapValues settle with references } : AbstractState).reading scene valuation
            machine.memory).Describes (settle value) word := by
    intro value word describes'
    simp only [settle]
    split
    case isTrue =>
      apply Interpretation.Keeps.describes _ describes'
      refine ⟨rfl, .refl machine.memory, rfl, fun _ held number record there opened => ?_⟩
      exact ⟨kept value.identity held (there.ne_zero bound), opened⟩
    case isFalse same =>
      rw [not_or, not_not, Bool.not_eq_true, Bool.not_eq_false'] at same
      have base := (describes'.nullable_points same.2).1.eq_base same.2
      rw [same.1] at base
      rw [base]
      show Interpretation.Describes _ _ (valuation pointer.identity)
      rw [null]
      exact Interpretation.describes_constant _ _
  simp only [AbstractState.settleNull, points.identity, if_false, if_true, true_and]
  split
  case isTrue hasReference =>
    have tracks := @Interpretation.Tracks.drop _ pointer.reference represents.tracks (by
      rw [named hasReference]
      exact null) bound
    apply represents.mapValues (settled _ _) tracks
    intro identity held nonNull
    refine List.mem_filter.mpr ⟨held, ?_⟩
    rw [bne_iff_ne]
    rintro rfl
    rw [named hasReference] at nonNull
    exact nonNull null
  case isFalse =>
    exact represents.mapValues (settled _ fun _ held _ => held) represents.tracks

/-! ## The end of the packet -/

theorem Memory.toNat_packetEnd (memory : Memory) :
    memory.packetEnd.toNat = 2 * 2 ^ 32 + min memory.packet.size 0xffffffff := by
  have short : min memory.packet.size 0xffffffff < 2 ^ 32 := by omega
  rw [Memory.packetEnd, RegionAddress.toNat_make, Nat.mod_eq_of_lt short]
  rfl

/-- The bytes before a packet pointer that does not lie behind the end are there. -/
theorem range_of_shown
    {range : Nat}
    (sound : machine.memory.Sound scene)
    (describes : (state.reading scene valuation machine.memory).Describes pointer word)
    (isPacket : pointer.kind = .packet) (shown : rangeShown? pointer comparison = some range)
    (satisfied : comparison.holds word machine.memory.packetEnd = true)
    (small : (valuation pointer.identity).toNat ≤ packetOffsetLimit) :
    (valuation pointer.identity).toNat + range ≤ scene.packet.size := by
  have byKind := describes.byKind
  have near := describes.near
  simp only [Interpretation.Matches, isPacket] at byKind
  have limit : pointerOffsetLimit = 0x20000000 := rfl
  have limit' : packetOffsetLimit = 0xffff := rfl
  unfold rangeShown? at shown
  split at shown
  case isTrue => cases shown
  case isFalse positive =>
    have value : word.toNat =
        2 * 2 ^ 32 + (pointer.offset.toNat + (valuation pointer.identity).toNat) := by
      rw [byKind.place]
      apply RegionAddress.toNat_moved
      · rw [RegionAddress.toNat_make]
        simp only [AbstractState.reading, RegionAddress.packet]
        omega
      · omega
    have last := machine.memory.toNat_packetEnd
    rw [sound.packetSize] at last
    split at shown
    case h_1 =>
      cases shown
      simp only [Comparison.holds, BitVec.ule, decide_eq_true_eq] at satisfied
      omega
    case h_2 =>
      cases shown
      simp only [Comparison.holds, BitVec.ult, decide_eq_true_eq] at satisfied
      omega
    case h_3 => cases shown

/-- On the edge where a packet pointer compares with the packet's end, the range learnt from it is
one that the packet has. -/
theorem learnRange_sound
    (represents : state.Represents scene valuation machine twin)
    (describes : (state.reading scene valuation machine.memory).Describes pointer word)
    (isPacket : pointer.kind = .packet)
    (satisfied : comparison.holds word machine.memory.packetEnd = true) :
    (state.learnRange pointer comparison).Represents scene valuation machine twin := by
  rw [AbstractState.learnRange]
  split
  case h_1 range shown =>
    have there := range_of_shown represents.sound describes isPacket shown satisfied
    apply represents.mapValues _ represents.tracks
    intro value word describes'
    split
    case isTrue meets =>
      have byKind := describes'.byKind
      simp only [Interpretation.Matches, meets.1] at byKind
      refine ⟨?_, describes'.nullable, describes'.near⟩
      simp only [Interpretation.Matches, meets.1]
      refine ⟨byKind.place, byKind.change, fun _ small => ?_⟩
      simp only [AbstractState.reading, meets.2.1] at small ⊢
      exact there small
    case isFalse => exact describes'
  case h_2 => exact represents

/-! ## Branches -/

/-- The branch tests a pointer for null by its low half. -/
def Focus.testsHalf (focus : Focus) : Operation → Bool
  | .branch .half comparison left right =>
    match comparand focus .half comparison right with
    | .ok value =>
      !((focus.state.register left).isScalar && value.isScalar) &&
        (nullCheckEdges? focus.state comparison (focus.state.register left) value).isSome
    | .error _ => false
  | _ => false

/-- An immediate is compared as a constant on which the comparison comes out as it does at run
time. -/
theorem comparand_immediate
    (focus : Focus) (width : Width) (comparison : Comparison) (constant : Int32) :
    ∃ word' : Word, comparand focus width comparison (.immediate constant) = .ok (.constant word') ∧
      (∀ word, Execution.holds width comparison word (Word.ofImmediate constant) =
        Execution.holds width comparison word word') ∧
        (width = .whole → word' = Word.ofImmediate constant) := by
  simp only [comparand]
  split
  case isTrue zeroExtended =>
    refine ⟨_, rfl, fun word => ?_, fun whole => ?_⟩
    · rw [zeroExtended.1]
      simp only [Execution.holds, Word.ofImmediate_low, Word.ofImmediate32_low]
    · rw [whole] at zeroExtended
      cases zeroExtended.1
  case isFalse => exact ⟨_, rfl, fun _ => rfl, fun _ => rfl⟩

/-- The comparand stands for a word on which the comparison comes out as it does at run time. -/
theorem comparand_described
    (represents : focus.state.Represents scene valuation machine twin)
    (found : comparand focus width comparison right = .ok value) :
    ∃ word', (focus.state.reading scene valuation machine.memory).Describes value word' ∧
      (∀ word, Execution.holds width comparison word (machine.operand right) =
        Execution.holds width comparison word word') ∧
        (∀ name, right = .register name →
          value = focus.state.register name ∧ machine.register name = word') ∧
          (width = .whole → word' = machine.operand right) := by
  cases right with
  | register name =>
      rcases Focus.read_eq_ok.mp found with ⟨rfl, _⟩
      refine ⟨machine.register name, represents.registers name, fun _ => rfl, ?_, fun _ => rfl⟩
      rintro _ ⟨⟩
      exact ⟨rfl, rfl⟩
  | immediate constant =>
      rcases comparand_immediate focus width comparison constant with ⟨word', compared, same, asIs⟩
      cases compared.symm.trans found
      exact ⟨word', Interpretation.describes_constant _ _, same, by rintro _ ⟨⟩, asIs⟩

/-- A null check has a pointer that may be null on one side and the constant zero on the other. -/
theorem nullChecked_eq_some
    {leftValue rightValue : AbstractValue}
    (found : nullChecked? leftValue rightValue = some pointer) :
    pointer.mayBeNull = true ∧
      (pointer = leftValue ∧ rightValue.constant? = some 0 ∨
        pointer = rightValue ∧ leftValue.constant? = some 0) := by
  unfold nullChecked? at found
  split at found
  case isTrue met =>
    cases found
    exact ⟨met.1, .inl ⟨rfl, met.2⟩⟩
  case isFalse =>
    split at found
    case isTrue met =>
      cases found
      exact ⟨met.1, .inr ⟨rfl, met.2⟩⟩
    case isFalse => cases found

/-- Both edges of a null check represent the machine that takes them. -/
theorem nullCheck_sound
    {leftValue rightValue : AbstractValue} {edges : Edges}
    (represents : state.Represents scene valuation machine twin)
    (leftDescribes : (state.reading scene valuation machine.memory).Describes leftValue word)
    (rightDescribes : (state.reading scene valuation machine.memory).Describes rightValue word')
    (found : nullCheckEdges? state comparison leftValue rightValue = some edges) :
    ∃ edge ∈ (if comparison.holds word word' then edges.taken? else edges.fall?),
      edge.Represents scene valuation machine twin := by
  rcases Option.bind_eq_some_iff.mp found with ⟨pointer, checked, found⟩
  rcases nullChecked_eq_some checked with ⟨nullable, sides⟩
  have settled :
      (word = word' → (state.settleNull pointer true).Represents scene valuation machine twin) ∧
        (word ≠ word' →
          (state.settleNull pointer false).Represents scene valuation machine twin) := by
    rcases sides with ⟨rfl, zero⟩ | ⟨rfl, zero⟩
    · have right := rightDescribes.eq_constant zero
      subst right
      constructor
      · rintro rfl
        exact settleNull_sound represents leftDescribes nullable
      · exact fun there => settleThere_sound represents leftDescribes nullable there
    · have left := leftDescribes.eq_constant zero
      subst left
      constructor
      · rintro rfl
        exact settleNull_sound represents rightDescribes nullable
      · exact fun there => settleThere_sound represents rightDescribes nullable (Ne.symm there)
  by_cases same : word = word'
  · have represents' := settled.1 same
    split at found
    case h_1 =>
      cases found
      exact ⟨_, by simp [Comparison.holds, same], represents'⟩
    case h_2 =>
      cases found
      exact ⟨_, by simp [Comparison.holds, same], represents'⟩
    case h_3 => cases found
  · have represents' := settled.2 same
    split at found
    case h_1 =>
      cases found
      exact ⟨_, by simp [Comparison.holds, same], represents'⟩
    case h_2 =>
      cases found
      exact ⟨_, by simp [Comparison.holds, same], represents'⟩
    case h_3 => cases found

/-- Both edges of a comparison with the packet's end represent the machine that takes them. -/
theorem packetEdges_sound
    {leftValue rightValue : AbstractValue} {oriented : Comparison}
    (represents : state.Represents scene valuation machine twin)
    (leftDescribes : (state.reading scene valuation machine.memory).Describes leftValue word)
    (rightDescribes : (state.reading scene valuation machine.memory).Describes rightValue word')
    (found : packetEndComparison? leftValue rightValue comparison = some oriented) :
    ∃ edge ∈ (if comparison.holds word word' then
        (packetEdges state oriented leftValue rightValue).taken?
      else (packetEdges state oriented leftValue rightValue).fall?),
      edge.Represents scene valuation machine twin := by
  have edge {pointer : AbstractValue} {base : Word}
      (describes : (state.reading scene valuation machine.memory).Describes pointer base)
      (isPacket : pointer.kind = .packet) {answer : Bool}
      (holds : oriented.holds base machine.memory.packetEnd = answer) :
      ∃ edge ∈ (if answer then some (state.learnRange pointer oriented)
        else some (state.learnRange pointer oriented.negate)),
        edge.Represents scene valuation machine twin := by
    cases answer with
    | true => exact ⟨_, rfl, learnRange_sound represents describes isPacket holds⟩
    | false =>
        refine ⟨_, rfl, learnRange_sound represents describes isPacket ?_⟩
        rw [Comparison.holds_negate, holds]
        rfl
  unfold packetEndComparison? at found
  split at found
  case h_1 isPacket isEnd =>
    cases found
    have last := rightDescribes.byKind
    simp only [Interpretation.Matches, isEnd] at last
    subst last
    simp only [packetEdges, isPacket, if_true]
    exact edge leftDescribes isPacket rfl
  case h_2 isEnd isPacket =>
    cases found
    have last := leftDescribes.byKind
    simp only [Interpretation.Matches, isEnd] at last
    subst last
    have other : ¬ leftValue.kind = .packet := by
      rw [isEnd]
      decide
    simp only [packetEdges, if_neg other]
    exact edge rightDescribes isPacket (Comparison.holds_swap comparison _ _)
  case h_3 => cases found

/-- The state on the edge that a branch takes. -/
theorem branch_sound
    {edges : Edges}
    (represents : focus.state.Represents scene valuation machine twin)
    (whole : focus.testsHalf (.branch width comparison left right) = false)
    (passed : checkBranch focus width comparison left right = .ok edges) :
    ∃ edge ∈ (if Execution.holds width comparison (machine.register left) (machine.operand right)
        then edges.taken? else edges.fall?),
      edge.Represents scene valuation machine twin := by
  have leftDescribes := represents.registers left
  cases branches_of_checkBranch passed with
  | scalars compared leftScalar rightScalar found =>
      rcases comparand_described represents compared with
        ⟨word', rightDescribes, same, registers, _⟩
      rw [same]
      have leftKind := beq_iff_eq.mp leftScalar
      have rightKind := beq_iff_eq.mp rightScalar
      exact scalarEdges_sound represents leftKind
        (fun name isName => (registers name isName).1 ▸ rightKind) found
        (leftDescribes.mem_bounds leftKind) (rightDescribes.mem_bounds rightKind)
        fun name isName => (registers name isName).2
  | nullCheck compared pointer checked =>
      rcases comparand_described represents compared with ⟨word', rightDescribes, same, _⟩
      rw [same]
      cases width with
      | whole => exact nullCheck_sound represents leftDescribes rightDescribes checked
      | half =>
          simp [Focus.testsHalf, compared, checked] at whole
          exact absurd whole pointer
  | packetEnd compared isWhole found =>
      rcases comparand_described represents compared with ⟨word', rightDescribes, same, _⟩
      rw [same]
      subst isWhole
      exact packetEdges_sound represents leftDescribes rightDescribes found
  | pointers => exact ⟨focus.state, by split <;> rfl, represents⟩

end

end PacketFilter
