import Mathlib.Data.List.Nodup
import PacketFilter.Instruction.Assembler
import PacketFilter.Proofs.ControlSafety

/-!
# Labels

A program is put together by calls: some create labels, some bind one to the
slot that comes next, some add slots, and some add a jump that waits for a
label.  What the calls ask for is read off them without an assembly: the slots
in order, the labels with the positions that they are bound to, and the jumps
with the labels that they wait for.

`Assembly.Records` says that an assembly has kept all of this, `Records.perform`
that every call keeps it so.  Finishing then settles the jumps one by one: each
is resolved, or is the first that cannot be.
-/

namespace PacketFilter

/-! ## Calls -/

/-- A call on an assembly in progress. -/
inductive AssemblyCall where
  | newLabel
  | bind (label : Nat)
  /-- Any of the calls that add one slot as it is. -/
  | slot (instruction : Instruction)
  | loadConstant (destination : UInt8) (value : Word)
  | loadMap (destination : UInt8) (index : Int32)
  | leaveWith (code : Int32)
  | jump (label : Nat)
  | branchImmediate (operation destination : UInt8) (immediate : Int32) (label : Nat)
  | branchRegister (operation destination source : UInt8) (label : Nat)
  | branch32Immediate (operation destination : UInt8) (immediate : Int32) (label : Nat)
  | branch32Register (operation destination source : UInt8) (label : Nat)
  deriving DecidableEq, Repr

namespace AssemblyCall

def perform (assembly : Assembly) : AssemblyCall → Assembly
  | newLabel => assembly.newLabel.2
  | bind label => assembly.bind label
  | slot instruction => assembly.slot instruction
  | loadConstant destination value => assembly.loadConstant destination value
  | loadMap destination index => assembly.loadMap destination index
  | leaveWith code => assembly.leaveWith code
  | jump label => assembly.jump label
  | branchImmediate operation destination immediate label =>
    assembly.branchImmediate operation destination immediate label
  | branchRegister operation destination source label =>
    assembly.branchRegister operation destination source label
  | branch32Immediate operation destination immediate label =>
    assembly.branch32Immediate operation destination immediate label
  | branch32Register operation destination source label =>
    assembly.branch32Register operation destination source label

/-- The jump that the call adds, with the label that it waits for. -/
def jump? : AssemblyCall → Option (Instruction × Nat)
  | jump label => some (⟨Family.jump.code, 0, 0, 0, 0⟩, label)
  | branchImmediate operation destination immediate label =>
    some (⟨Family.jump.code ||| operation, destination, 0, 0, immediate⟩, label)
  | branchRegister operation destination source label =>
    some (⟨Family.jump.code ||| operation ||| Opcode.registerOperand, destination, source, 0, 0⟩,
      label)
  | branch32Immediate operation destination immediate label =>
    some (⟨Family.jump32.code ||| operation, destination, 0, 0, immediate⟩, label)
  | branch32Register operation destination source label =>
    some (⟨Family.jump32.code ||| operation ||| Opcode.registerOperand, destination, source, 0, 0⟩,
      label)
  | _ => none

/-- The slots that the call adds. -/
def slots : AssemblyCall → List Instruction
  | slot instruction => [instruction]
  | loadConstant destination value =>
    [⟨Opcode.wideLoad, destination, 0, 0, Int32.ofBitVec (value.setWidth 32)⟩,
      ⟨0, 0, 0, 0, Int32.ofBitVec ((value >>> 32).setWidth 32)⟩]
  | loadMap destination index =>
    [⟨Opcode.wideLoad, destination, Instruction.mapHandleMarker, 0, index⟩, ⟨0, 0, 0, 0, 0⟩]
  | leaveWith code =>
    [⟨Family.arithmetic.code ||| Arithmetic.move.code, 0, 0, 0, code⟩,
      ⟨Family.jump.code ||| Opcode.exit, 0, 0, 0, 0⟩]
  | call => (call.jump?.map Prod.fst).toList

/-- The label that the call binds. -/
def bound? : AssemblyCall → Option Nat
  | bind label => some label
  | _ => none

/-- The label that the call's jump waits for. -/
def awaited? (call : AssemblyCall) : Option Nat :=
  call.jump?.map Prod.snd

/-- How many labels the call creates. -/
def created : AssemblyCall → Nat
  | newLabel => 1
  | _ => 0

/-! ## Series of calls -/

/-- The labels that the calls bind, with the slots that they bind them to, when the first call is
made at a position. -/
def bindingsFrom (position : Nat) : List AssemblyCall → List (Nat × Nat)
  | [] => []
  | call :: calls =>
    (call.bound?.map (·, position)).toList ++ bindingsFrom (position + call.slots.length) calls

/-- The slots of the jumps that the calls add, with the labels that they wait for. -/
def jumpsFrom (position : Nat) : List AssemblyCall → List (Nat × Nat)
  | [] => []
  | call :: calls =>
    (call.awaited?.map (position, ·)).toList ++ jumpsFrom (position + call.slots.length) calls

/-- The calls name no label before it has been created, when so many have been created before. -/
def OwnFrom (labels : Nat) : List AssemblyCall → Prop
  | [] => True
  | call :: calls =>
    (∀ label ∈ call.bound?, label < labels) ∧ (∀ label ∈ call.awaited?, label < labels) ∧
      OwnFrom (labels + call.created) calls

instance decidableOwnFrom :
    (labels : Nat) → (calls : List AssemblyCall) → Decidable (OwnFrom labels calls)
  | _, [] => inferInstanceAs (Decidable True)
  | labels, call :: calls =>
    have := decidableOwnFrom (labels + call.created) calls
    inferInstanceAs (Decidable (_ ∧ _ ∧ _))

end AssemblyCall

/-- The assembly that a series of calls comes to. -/
def Assembly.ofCalls (calls : List AssemblyCall) : Assembly :=
  calls.foldl AssemblyCall.perform .empty

/-! ## What an assembly keeps of its calls -/

/-- The assembly has kept which slots were added, which labels were bound and where, which jumps
wait, and how many labels there are; of labels bound twice it remembers the first. -/
structure Assembly.Records (assembly : Assembly) (slots : List Instruction)
    (bindings jumps : List (Nat × Nat)) (labels : Nat) : Prop where
  code : assembly.code.toList = slots
  waiting : assembly.waiting.toList = jumps
  size : assembly.labels.size = labels
  bound : ∀ label < labels, assembly.labels[label]? = some (bindings.lookup label)
  ownBindings : ∀ binding ∈ bindings, binding.1 < labels
  ownJumps : ∀ jump ∈ jumps, jump.2 < labels
  /-- No two jumps are at one slot. -/
  apart : (jumps.map Prod.fst).Nodup
  inside : ∀ jump ∈ jumps, jump.1 < slots.length
  fine : (bindings.map Prod.fst).Nodup → assembly.misuse? = none
  misused : ∀ earlier label position later, bindings = earlier ++ (label, position) :: later →
    (earlier.map Prod.fst).Nodup → label ∈ earlier.map Prod.fst →
      assembly.misuse? = some (.duplicateLabel label)

/-- A label that is bound later is found only where it had no place before. -/
theorem lookup_bound
    {bindings : List (Nat × Nat)} (label position other : Nat) :
    (bindings ++ [(label, position)]).lookup other =
      (bindings.lookup other).or (if other = label then some position else none) := by
  rw [List.lookup_append, List.lookup_cons, List.lookup_nil]
  by_cases same : other = label
  · rw [if_pos same, beq_iff_eq.mpr same]
  · rw [if_neg same, beq_eq_false_iff_ne.mpr same]

/-- Labels that are bound once are found where they are bound. -/
theorem lookup_eq_some_iff_of_nodup
    {bindings : List (Nat × Nat)} (distinct : (bindings.map Prod.fst).Nodup) {label target : Nat} :
    bindings.lookup label = some target ↔ (label, target) ∈ bindings := by
  rw [List.lookup_eq_some_iff]
  constructor
  · rintro ⟨earlier, later, rfl, _⟩
    exact List.mem_append_right _ List.mem_cons_self
  · intro listed
    rcases List.append_of_mem listed with ⟨earlier, later, rfl⟩
    refine ⟨earlier, later, rfl, fun binding before => ?_⟩
    rw [List.map_append, List.map_cons, List.nodup_append] at distinct
    rw [bne_iff_ne]
    exact (distinct.2.2 _ (List.mem_map_of_mem before) _ List.mem_cons_self).symm

/-- A label that is bound once has one place. -/
theorem target_unique {bindings : List (Nat × Nat)} (distinct : (bindings.map Prod.fst).Nodup)
    {label first second : Nat} (left : (label, first) ∈ bindings)
    (right : (label, second) ∈ bindings) : first = second := by
  rw [← lookup_eq_some_iff_of_nodup distinct] at left right
  exact Option.some.inj (left.symm.trans right)

/-- A jump in a program leads to its target, when that lies inside. -/
theorem Code.mem_successors_of_isJump {code : Code} {position target : Nat}
    {instruction : Instruction} (fetched : code[position]? = some instruction)
    (jumps : instruction.isJump)
    (leads : instruction.offset.toInt = Assembly.distance position target)
    (inside : target < code.size) : target ∈ code.successors position := by
  have lands : instruction.jumpTarget? position code.size = some target := by
    have destination : instruction.jumpDestination position = target := by
      rw [Instruction.jumpDestination, leads, Assembly.distance]
      omega
    rw [Instruction.jumpTarget?, destination, if_pos (by omega), Int.toNat_natCast]
  rw [Instruction.isJump, Bool.or_eq_true] at jumps
  rcases jumps with always | conditional
  · exact (edge_iff_of_isJumpAlways fetched always).mpr lands
  · exact (edge_iff_of_isConditionalJump fetched conditional).mpr (.inr lands)

namespace Assembly

variable {assembly : Assembly} {slots : List Instruction} {bindings jumps : List (Nat × Nat)}
variable {labels label : Nat}

theorem records_empty : empty.Records [] [] [] 0 where
  code := rfl
  waiting := rfl
  size := rfl
  bound label absurdity := absurd absurdity (Nat.not_lt_zero label)
  ownBindings binding absurdity := by cases absurdity
  ownJumps jump absurdity := by cases absurdity
  apart := List.nodup_nil
  inside jump absurdity := by cases absurdity
  fine _ := rfl
  misused earlier label position later parts := by simp at parts

namespace Records

/-- A new label is bound to nothing. -/
theorem newLabel (records : assembly.Records slots bindings jumps labels) :
    assembly.newLabel.2.Records slots bindings jumps (labels + 1) :=
  { records with
    size := (Array.size_push none).trans (congrArg (· + 1) records.size)
    bound := by
      intro label inside
      show (assembly.labels.push none)[label]? = _
      rw [Array.getElem?_push, records.size]
      split
      case isTrue fresh =>
        have absent : bindings.lookup label = none := by
          rw [List.lookup_eq_none_iff]
          intro binding listed
          have own := records.ownBindings binding listed
          rw [bne_iff_ne]
          omega
        rw [absent]
      case isFalse old => exact records.bound label (by omega)
    ownBindings := fun binding listed => Nat.lt_succ_of_lt (records.ownBindings binding listed)
    ownJumps := fun jump listed => Nat.lt_succ_of_lt (records.ownJumps jump listed) }

/-- An emitted slot is recorded behind the ones there are. -/
theorem slot (records : assembly.Records slots bindings jumps labels) (instruction : Instruction) :
    (assembly.slot instruction).Records (slots ++ [instruction]) bindings jumps labels :=
  { records with
    code := by rw [Assembly.slot, Array.toList_push, records.code]
    inside := fun jump listed => by
      rw [List.length_append]
      exact Nat.lt_add_right _ (records.inside jump listed) }

/-- A jump waits at the slot that it takes. -/
theorem emitJump (records : assembly.Records slots bindings jumps labels) (own : label < labels)
    (code destination source : UInt8) (immediate : Int32) :
    (assembly.emitJump code destination source immediate label).Records
      (slots ++ [⟨code, destination, source, 0, immediate⟩]) bindings
      (jumps ++ [(slots.length, label)]) labels := by
  have size : assembly.code.size = slots.length := by
    rw [← records.code, Array.length_toList]
  refine
    { records with
      code := by rw [Assembly.emitJump, emit, Assembly.slot, Array.toList_push, records.code]
      waiting := ?_
      ownJumps := ?_
      apart := ?_
      inside := ?_ }
  · show (assembly.waiting.push (assembly.code.size, label)).toList = _
    rw [Array.toList_push, records.waiting, size]
  · intro jump listed
    rcases List.mem_append.mp listed with earlier | last
    · exact records.ownJumps jump earlier
    · rw [List.mem_singleton.mp last]
      exact own
  · rw [List.map_append, List.map_singleton, List.nodup_append]
    refine ⟨records.apart, List.nodup_singleton _, fun position listed last listed' => ?_⟩
    rcases List.mem_map.mp listed with ⟨jump, earlier, rfl⟩
    rw [List.mem_singleton.mp listed']
    exact Nat.ne_of_lt (records.inside jump earlier)
  · intro jump listed
    rw [List.length_append]
    rcases List.mem_append.mp listed with earlier | last
    · exact Nat.lt_add_right _ (records.inside jump earlier)
    · rw [List.mem_singleton.mp last]
      exact Nat.lt_succ_self _

/-- A misuse that has been remembered is the one that will be reported. -/
theorem misused_append
    (records : assembly.Records slots bindings jumps labels) {bound : Nat × Nat}
    {earlier later : List (Nat × Nat)} {position : Nat} {misuse? : Option AssemblyError}
    (parts : bindings ++ [bound] = earlier ++ (label, position) :: later)
    (distinct : (earlier.map Prod.fst).Nodup) (again : label ∈ earlier.map Prod.fst)
    (keeps : ∀ error, assembly.misuse? = some error → misuse? = some error)
    (here : earlier = bindings → bound.1 = label → misuse? = some (.duplicateLabel label)) :
    misuse? = some (.duplicateLabel label) := by
  rcases List.eq_nil_or_concat later with rfl | ⟨later, last, rfl⟩
  · rcases List.append_inj' parts rfl with ⟨same, last⟩
    cases last
    exact here same.symm rfl
  · rw [List.concat_eq_append, ← List.cons_append, ← List.append_assoc] at parts
    rcases List.append_inj' parts rfl with ⟨same, _⟩
    exact keeps _ (records.misused earlier label position later same distinct again)

theorem ownBindings_append (records : assembly.Records slots bindings jumps labels)
    (own : label < labels) (position : Nat) :
    ∀ binding ∈ bindings ++ [(label, position)], binding.1 < labels := by
  intro binding listed
  rcases List.mem_append.mp listed with earlier | last
  · exact records.ownBindings binding earlier
  · rw [List.mem_singleton.mp last]
    exact own

/-- A label that has not been bound is bound to the slot that comes next. -/
theorem bind_first (records : assembly.Records slots bindings jumps labels) (own : label < labels)
    (sought : bindings.lookup label = none) :
    (assembly.bind label).Records slots (bindings ++ [(label, slots.length)]) jumps labels := by
  have size : assembly.code.size = slots.length := by
    rw [← records.code, Array.length_toList]
  have binds : assembly.bind label =
      { assembly with
        labels := assembly.labels.setIfInBounds label (some assembly.code.size) } := by
    rw [Assembly.bind, records.bound label own, sought]
  have fresh : label ∉ bindings.map Prod.fst := by
    intro again
    rcases List.mem_map.mp again with ⟨binding, listed, same⟩
    exact bne_iff_ne.mp (List.lookup_eq_none_iff.mp sought binding listed) same.symm
  rw [binds]
  refine
    { records with
      size := Array.size_setIfInBounds.trans records.size
      bound := ?_
      ownBindings := records.ownBindings_append own _
      fine := ?_
      misused := ?_ }
  · intro other inside
    rw [Array.getElem?_setIfInBounds, lookup_bound, records.size, size]
    by_cases same : label = other
    · subst same
      rw [if_pos rfl, if_pos inside, if_pos rfl, sought, Option.none_or]
    · rw [if_neg same, records.bound other inside, if_neg (Ne.symm same), Option.or_none]
  · intro distinct
    rw [List.map_append, List.nodup_append] at distinct
    exact records.fine distinct.1
  · intro earlier label' position later parts distinct again
    refine records.misused_append parts distinct again (fun _ held => held) fun all same => ?_
    rw [all, ← same] at again
    exact absurd again fresh

/-- A label that has been bound stays where it is, and that is remembered. -/
theorem bind_again (records : assembly.Records slots bindings jumps labels) (own : label < labels)
    {position : Nat} (sought : bindings.lookup label = some position) :
    (assembly.bind label).Records slots (bindings ++ [(label, slots.length)]) jumps labels := by
  have binds : assembly.bind label = assembly.complain (.duplicateLabel label) := by
    rw [Assembly.bind, records.bound label own, sought]
  have before : label ∈ bindings.map Prod.fst := by
    rcases List.lookup_eq_some_iff.mp sought with ⟨earlier, later, rfl, _⟩
    rw [List.map_append, List.map_cons]
    exact List.mem_append_right _ List.mem_cons_self
  rw [binds]
  refine
    { records with
      bound := ?_
      ownBindings := records.ownBindings_append own _
      fine := ?_
      misused := ?_ }
  · intro other inside
    show assembly.labels[other]? = _
    rw [records.bound other inside, lookup_bound]
    by_cases same : other = label
    · rw [same, sought, Option.some_or]
    · rw [if_neg same, Option.or_none]
  · intro distinct
    rw [List.map_append, List.nodup_append] at distinct
    exact absurd rfl (distinct.2.2 label before label List.mem_cons_self)
  · intro earlier label' position' later parts distinct again
    refine records.misused_append parts distinct again (fun error held => ?_) fun all same => ?_
    · rw [complain, held]
      rfl
    · rw [all] at distinct
      rw [complain, records.fine distinct, ← same]
      rfl

/-- A bound label is recorded with the place of the next slot. -/
theorem bind (records : assembly.Records slots bindings jumps labels) (own : label < labels) :
    (assembly.bind label).Records slots (bindings ++ [(label, slots.length)]) jumps labels := by
  rcases sought : bindings.lookup label with _ | position
  · exact records.bind_first own sought
  · exact records.bind_again own sought

/-- Every call keeps the records. -/
theorem perform (records : assembly.Records slots bindings jumps labels) (call : AssemblyCall)
    (ownBound : ∀ label ∈ call.bound?, label < labels)
    (ownAwaited : ∀ label ∈ call.awaited?, label < labels) :
    (call.perform assembly).Records (slots ++ call.slots)
      (bindings ++ (call.bound?.map (·, slots.length)).toList)
      (jumps ++ (call.awaited?.map (slots.length, ·)).toList) (labels + call.created) := by
  have pair (first second : Instruction) :
      ((assembly.slot first).slot second).Records (slots ++ [first, second]) (bindings ++ [])
        (jumps ++ []) labels := by
    rw [List.append_cons, List.append_nil, List.append_nil]
    exact (records.slot first).slot second
  cases call with
  | newLabel =>
    show assembly.newLabel.2.Records (slots ++ []) (bindings ++ []) (jumps ++ []) (labels + 1)
    rw [List.append_nil, List.append_nil, List.append_nil]
    exact records.newLabel
  | bind label =>
    show (assembly.bind label).Records (slots ++ []) _ (jumps ++ []) labels
    rw [List.append_nil, List.append_nil]
    exact records.bind (ownBound label rfl)
  | slot instruction =>
    show (assembly.slot instruction).Records _ (bindings ++ []) (jumps ++ []) labels
    rw [List.append_nil, List.append_nil]
    exact records.slot instruction
  | loadConstant => exact pair _ _
  | loadMap => exact pair _ _
  | leaveWith => exact pair _ _
  | jump label | branchImmediate _ _ _ label | branchRegister _ _ _ label
  | branch32Immediate _ _ _ label | branch32Register _ _ _ label =>
    show (assembly.emitJump _ _ _ _ label).Records _ (bindings ++ []) _ labels
    rw [List.append_nil]
    exact records.emitJump (ownAwaited label rfl) _ _ _ _

/-- A series of calls keeps the records. -/
theorem foldl (calls : List AssemblyCall) :
    ∀ {assembly slots bindings jumps labels},
      assembly.Records slots bindings jumps labels → AssemblyCall.OwnFrom labels calls →
      ∃ total, (calls.foldl AssemblyCall.perform assembly).Records
        (slots ++ calls.flatMap AssemblyCall.slots)
        (bindings ++ AssemblyCall.bindingsFrom slots.length calls)
        (jumps ++ AssemblyCall.jumpsFrom slots.length calls) total := by
  induction calls with
  | nil =>
    intro assembly slots bindings jumps labels records _
    refine ⟨labels, ?_⟩
    show assembly.Records (slots ++ []) (bindings ++ []) (jumps ++ []) labels
    rw [List.append_nil, List.append_nil, List.append_nil]
    exact records
  | cons call calls ih =>
    intro assembly slots bindings jumps labels records own
    rcases ih (records.perform call own.1 own.2.1) own.2.2 with ⟨total, after⟩
    refine ⟨total, ?_⟩
    rw [List.length_append] at after
    simpa only [List.foldl_cons, List.flatMap_cons, AssemblyCall.bindingsFrom,
      AssemblyCall.jumpsFrom, List.append_assoc] using after

end Records

/-! ## Resolving the jumps -/

/-- The distance between the slots fits in a jump. -/
def Reaches (position target : Nat) : Prop :=
  -0x8000 ≤ distance position target ∧ distance position target < 0x8000
  deriving Decidable

/-- The jump's label is bound, and near enough. -/
def Resolves (bindings : List (Nat × Nat)) (jump : Nat × Nat) : Prop :=
  ∃ target, (jump.2, target) ∈ bindings ∧ Reaches jump.1 target

instance decidableResolves (bindings : List (Nat × Nat)) (jump : Nat × Nat) :
    Decidable (Resolves bindings jump) :=
  decidable_of_iff (∃ binding ∈ bindings, binding.1 = jump.2 ∧ Reaches jump.1 binding.2) <| by
    constructor
    · rintro ⟨⟨label, target⟩, listed, rfl, near⟩
      exact ⟨target, listed, near⟩
    · rintro ⟨target, listed, near⟩
      exact ⟨_, listed, rfl, near⟩

/-- What is wrong with a jump that cannot be resolved. -/
inductive Fails (bindings : List (Nat × Nat)) : Nat × Nat → AssemblyError → Prop where
  | unbound {position label : Nat} (absent : label ∉ bindings.map Prod.fst) :
    Fails bindings (position, label) (.unboundLabel label)
  | tooFar {position label target : Nat} (listed : (label, target) ∈ bindings)
    (far : ¬ Reaches position target) :
    Fails bindings (position, label) (.jumpTooFar position target)

/-- A waiting jump either has its distance or fails with an error of its own. -/
theorem resolves_or_fails (bindings : List (Nat × Nat)) (jump : Nat × Nat) :
    Resolves bindings jump ∨ ∃ error, Fails bindings jump error := by
  by_cases listed : jump.2 ∈ bindings.map Prod.fst
  · rcases List.mem_map.mp listed with ⟨⟨label, target⟩, listed, rfl⟩
    by_cases near : Reaches jump.1 target
    · exact .inl ⟨target, listed, near⟩
    · exact .inr ⟨_, .tooFar listed near⟩
  · exact .inr ⟨_, .unbound listed⟩

namespace Records

/-- A jump to a bound label is given its distance. -/
theorem resolve_of_listed (records : assembly.Records slots bindings jumps labels)
    (distinct : (bindings.map Prod.fst).Nodup) {position target : Nat}
    (listed : (label, target) ∈ bindings) (code : Code) :
    resolve assembly.labels code (position, label) =
      if Reaches position target then
        .ok (code.modify position fun instruction =>
          { instruction with offset := Int16.ofInt (distance position target) })
      else .error (.jumpTooFar position target) := by
  have found := records.bound label (records.ownBindings _ listed)
  rw [(lookup_eq_some_iff_of_nodup distinct).mpr listed] at found
  rw [resolve, found]
  rfl

/-- A jump that fails stops the assembler with its error. -/
theorem resolve_of_fails (records : assembly.Records slots bindings jumps labels)
    (distinct : (bindings.map Prod.fst).Nodup) {jump : Nat × Nat} (waits : jump ∈ jumps)
    {error : AssemblyError} (fails : Fails bindings jump error) (code : Code) :
    resolve assembly.labels code jump = .error error := by
  cases fails with
  | unbound absent =>
    have found := records.bound _ (records.ownJumps _ waits)
    rw [List.lookup_eq_none_iff.mpr fun binding listed => ?_] at found
    · rw [resolve, found]
      rfl
    · rw [bne_iff_ne]
      rintro rfl
      exact absent (List.mem_map_of_mem listed)
  | tooFar listed far => rw [records.resolve_of_listed distinct listed, if_neg far]

/-- Jumps that can be resolved are, each in its own slot. -/
theorem foldlM_resolve (records : assembly.Records slots bindings jumps labels)
    (distinct : (bindings.map Prod.fst).Nodup) {pending : List (Nat × Nat)} :
    (pending.map Prod.fst).Nodup → (∀ jump ∈ pending, Resolves bindings jump) →
    ∀ code : Code, ∃ final : Code,
      pending.foldlM (resolve assembly.labels) code = .ok final ∧
      final.size = code.size ∧
      (∀ position, position ∉ pending.map Prod.fst → final[position]? = code[position]?) ∧
      ∀ position label target, (position, label) ∈ pending → (label, target) ∈ bindings →
        final[position]? = code[position]?.map fun instruction =>
          { instruction with offset := Int16.ofInt (distance position target) } := by
  induction pending with
  | nil =>
    intro _ _ code
    exact ⟨code, rfl, rfl, fun _ _ => rfl, fun _ _ _ absurdity => by cases absurdity⟩
  | cons jump pending ih =>
    intro apart resolves code
    rcases jump with ⟨here, awaited⟩
    rcases resolves _ List.mem_cons_self with ⟨goal, bound, near⟩
    rw [List.map_cons, List.nodup_cons] at apart
    rcases ih apart.2 (fun jump listed => resolves jump (List.mem_cons_of_mem _ listed))
        (code.modify here fun instruction =>
          { instruction with offset := Int16.ofInt (distance here goal) })
      with ⟨final, run, size, kept, patched⟩
    refine ⟨final, ?_, size.trans Array.size_modify, ?_, ?_⟩
    · rw [List.foldlM_cons, records.resolve_of_listed distinct bound, if_pos near]
      exact run
    · intro position other
      rw [List.map_cons, List.mem_cons, not_or] at other
      rw [kept position other.2, Array.getElem?_modify, if_neg (Ne.symm other.1)]
    · intro position label target listed bound'
      rcases List.mem_cons.mp listed with same | later
      · cases same
        rw [kept here apart.1, Array.getElem?_modify, if_pos rfl,
          target_unique distinct bound bound']
      · rw [patched position label target later bound', Array.getElem?_modify, if_neg]
        intro same
        exact apart.1 (List.mem_map.mpr ⟨_, later, same.symm⟩)

end Records

/-- Among bindings of which a label is repeated, there is a first that repeats one. -/
theorem exists_duplicate {bindings : List (Nat × Nat)}
    (repeated : ¬ (bindings.map Prod.fst).Nodup) :
    ∃ earlier label position later, bindings = earlier ++ (label, position) :: later ∧
      (earlier.map Prod.fst).Nodup ∧ label ∈ earlier.map Prod.fst := by
  induction bindings using List.reverseRecOn with
  | nil => exact absurd List.nodup_nil repeated
  | append_singleton bindings binding ih =>
    by_cases distinct : (bindings.map Prod.fst).Nodup
    · refine ⟨bindings, binding.1, binding.2, [], rfl, distinct, ?_⟩
      rw [List.map_append, List.map_singleton, List.nodup_append_comm, List.singleton_append,
        List.nodup_cons, not_and_or, not_not] at repeated
      exact repeated.resolve_right (not_not_intro distinct)
    · rcases ih distinct with ⟨earlier, label, position, later, rfl, rest⟩
      exact ⟨earlier, label, position, later ++ [binding], by rw [List.append_assoc]; rfl, rest⟩

/-- Among jumps of which one cannot be resolved, there is a first. -/
theorem exists_fails {bindings jumps : List (Nat × Nat)}
    (stuck : ¬ ∀ jump ∈ jumps, Resolves bindings jump) :
    ∃ earlier jump later error, jumps = earlier ++ jump :: later ∧
      (∀ jump ∈ earlier, Resolves bindings jump) ∧ Fails bindings jump error := by
  induction jumps using List.reverseRecOn with
  | nil => exact absurd (fun _ absurdity => by cases absurdity) stuck
  | append_singleton jumps jump ih =>
    by_cases before : ∀ jump ∈ jumps, Resolves bindings jump
    · rcases resolves_or_fails bindings jump with resolves | ⟨error, fails⟩
      · refine absurd (fun other listed => ?_) stuck
        rcases List.mem_append.mp listed with earlier | last
        · exact before other earlier
        · rw [List.mem_singleton.mp last]
          exact resolves
      · exact ⟨jumps, jump, [], error, rfl, before, fails⟩
    · rcases ih before with ⟨earlier, first, later, error, rfl, rest⟩
      exact ⟨earlier, first, later ++ [jump], error, by rw [List.append_assoc]; rfl, rest⟩

/-! ## Finishing -/

namespace Records

/-- What is reported is the first label that was bound again. -/
theorem finish_of_duplicate (records : assembly.Records slots bindings jumps labels)
    {earlier later : List (Nat × Nat)} {position : Nat}
    (parts : bindings = earlier ++ (label, position) :: later)
    (distinct : (earlier.map Prod.fst).Nodup) (again : label ∈ earlier.map Prod.fst) :
    assembly.finish = .error (.duplicateLabel label) := by
  rw [finish, records.misused earlier label position later parts distinct again]

/-- Over labels bound once, all that is left to finish is to resolve the jumps. -/
theorem finish_of_nodup (records : assembly.Records slots bindings jumps labels)
    (distinct : (bindings.map Prod.fst).Nodup) :
    assembly.finish = jumps.foldlM (resolve assembly.labels) assembly.code := by
  rw [finish, records.fine distinct, records.waiting]

/-- What is reported is the first jump that cannot be resolved, when no label was bound again. -/
theorem finish_of_fails (records : assembly.Records slots bindings jumps labels)
    (distinct : (bindings.map Prod.fst).Nodup) {earlier later : List (Nat × Nat)}
    {jump : Nat × Nat} {error : AssemblyError} (parts : jumps = earlier ++ jump :: later)
    (resolves : ∀ jump ∈ earlier, Resolves bindings jump) (fails : Fails bindings jump error) :
    assembly.finish = .error error := by
  have apart := records.apart
  rw [parts, List.map_append, List.nodup_append] at apart
  rcases records.foldlM_resolve distinct apart.1 resolves assembly.code with ⟨code, run, -⟩
  have waits : jump ∈ jumps := by
    rw [parts]
    exact List.mem_append_right _ List.mem_cons_self
  rw [records.finish_of_nodup distinct, parts, List.foldlM_append, run]
  show (jump :: later).foldlM (resolve assembly.labels) code = _
  rw [List.foldlM_cons, records.resolve_of_fails distinct waits fails]
  rfl

/-- An assembler that finishes has bound each label at most once and resolved every jump. -/
theorem resolves_of_finish (records : assembly.Records slots bindings jumps labels) {code : Code}
    (ends : assembly.finish = .ok code) :
    (bindings.map Prod.fst).Nodup ∧ ∀ jump ∈ jumps, Resolves bindings jump := by
  have distinct : (bindings.map Prod.fst).Nodup := by
    by_contra repeated
    rcases exists_duplicate repeated with ⟨earlier, label, position, later, parts, first, again⟩
    rw [records.finish_of_duplicate parts first again] at ends
    cases ends
  refine ⟨distinct, ?_⟩
  by_contra stuck
  rcases exists_fails stuck with ⟨earlier, jump, later, error, parts, resolves, fails⟩
  rw [records.finish_of_fails distinct parts resolves fails] at ends
  cases ends

/-- An assembler finishes if each label is bound at most once and every jump can be resolved. -/
theorem exists_finish (records : assembly.Records slots bindings jumps labels)
    (distinct : (bindings.map Prod.fst).Nodup) (resolves : ∀ jump ∈ jumps, Resolves bindings jump) :
    ∃ code, assembly.finish = .ok code := by
  rcases records.foldlM_resolve distinct records.apart resolves assembly.code with ⟨code, run, -⟩
  exact ⟨code, (records.finish_of_nodup distinct).trans run⟩

/-- A program that was finished has the slots that were added, with the distances put in. -/
theorem finished (records : assembly.Records slots bindings jumps labels) {code : Code}
    (ends : assembly.finish = .ok code) :
    code.size = slots.length ∧
      (∀ position, position ∉ jumps.map Prod.fst → code[position]? = slots[position]?) ∧
      ∀ position label target, (position, label) ∈ jumps → (label, target) ∈ bindings →
        ∃ emitted offset, slots[position]? = some emitted ∧
          code[position]? = some { emitted with offset } ∧
          offset.toInt = distance position target := by
  rcases records.resolves_of_finish ends with ⟨distinct, resolves⟩
  rcases records.foldlM_resolve distinct records.apart resolves assembly.code with
    ⟨final, run, size, kept, patched⟩
  rw [records.finish_of_nodup distinct, run] at ends
  cases ends
  have read (position : Nat) : assembly.code[position]? = slots[position]? := by
    rw [← records.code, Array.getElem?_toList]
  refine ⟨?_, fun position other => (kept position other).trans (read position), ?_⟩
  · rw [size, ← records.code, Array.length_toList]
  · intro position label target waits bound
    rcases resolves _ waits with ⟨goal, bound', near⟩
    rw [target_unique distinct bound' bound] at near
    have emitted := List.getElem?_eq_getElem (records.inside _ waits)
    have fetched := patched position label target waits bound
    rw [read, emitted] at fetched
    exact ⟨_, _, emitted, fetched, Int16.toInt_ofInt_of_le near.1 near.2⟩

end Records

/-- The program that the calls come to, by what is read off them: the slots, the bindings and the
jumps. -/
theorem finish_ofCalls (calls : List AssemblyCall) (own : AssemblyCall.OwnFrom 0 calls) :
    let slots := calls.flatMap AssemblyCall.slots
    let bindings := AssemblyCall.bindingsFrom 0 calls
    let jumps := AssemblyCall.jumpsFrom 0 calls
    let result := (ofCalls calls).finish
    ((∃ code, result = .ok code) ↔
      (bindings.map Prod.fst).Nodup ∧ ∀ jump ∈ jumps, Resolves bindings jump) ∧
    (∀ code, result = .ok code →
      code.size = slots.length ∧
      (∀ position, position ∉ jumps.map Prod.fst → code[position]? = slots[position]?) ∧
      ∀ position label target, (position, label) ∈ jumps → (label, target) ∈ bindings →
        ∃ emitted offset, slots[position]? = some emitted ∧
          code[position]? = some { emitted with offset } ∧
          offset.toInt = distance position target ∧
          (emitted.isJump → target < code.size → target ∈ code.successors position)) ∧
    (∀ earlier label position later, bindings = earlier ++ (label, position) :: later →
      (earlier.map Prod.fst).Nodup → label ∈ earlier.map Prod.fst →
        result = .error (.duplicateLabel label)) ∧
    ((bindings.map Prod.fst).Nodup → ∀ earlier jump later error,
      jumps = earlier ++ jump :: later → (∀ jump ∈ earlier, Resolves bindings jump) →
        Fails bindings jump error → result = .error error) := by
  intro slots bindings jumps result
  rcases records_empty.foldl calls own with ⟨total, records⟩
  replace records : (ofCalls calls).Records slots bindings jumps total := records
  refine ⟨⟨?_, ?_⟩, ?_, ?_, ?_⟩
  · rintro ⟨code, ends⟩
    exact records.resolves_of_finish ends
  · rintro ⟨distinct, resolves⟩
    exact records.exists_finish distinct resolves
  · intro code ends
    rcases records.finished ends with ⟨size, kept, patched⟩
    refine ⟨size, kept, fun position label target waits bound => ?_⟩
    rcases patched position label target waits bound with ⟨emitted, offset, added, fetched, leads⟩
    exact ⟨emitted, offset, added, fetched, leads, fun jumping inside =>
      Code.mem_successors_of_isJump fetched jumping leads inside⟩
  · intro earlier label position later parts distinct again
    exact records.finish_of_duplicate parts distinct again
  · intro distinct earlier jump later error parts resolves fails
    exact records.finish_of_fails distinct parts resolves fails

/-- Count a register up to three: a jump back to the top, and one out of the loop. -/
def counting : List AssemblyCall :=
  [.newLabel, .newLabel, .slot ⟨0xb7, 1, 0, 0, 0⟩, .bind 0, .branchImmediate 0x10 1 3 1,
    .slot ⟨0x07, 1, 0, 0, 1⟩, .jump 0, .bind 1, .leaveWith 2]

theorem finish_counting :
    AssemblyCall.OwnFrom 0 counting ∧ ∃ code, (ofCalls counting).finish = .ok code ∧
      code.size = 6 ∧ 4 ∈ code.successors 1 ∧ 1 ∈ code.successors 3 := by
  have own : AssemblyCall.OwnFrom 0 counting := by decide
  rcases finish_ofCalls counting own with ⟨fine, good, -⟩
  rcases fine.mpr (by decide) with ⟨code, ends⟩
  rcases good code ends with ⟨size, -, leads⟩
  replace size : code.size = 6 := size
  rcases leads 1 1 4 (by decide) (by decide) with ⟨out, _, atOut, -, -, goesOut⟩
  rcases leads 3 0 1 (by decide) (by decide) with ⟨back, _, atBack, -, -, goesBack⟩
  cases atOut
  cases atBack
  exact ⟨own, code, ends, size, goesOut (by decide) (by omega), goesBack (by decide) (by omega)⟩

/-- An operation is taken as it is given.  With the one of an exit, what waits for the label leaves
the program instead, and the label is not among its successors. -/
theorem finish_exit_to_label :
    let exit : Instruction := ⟨0x95, 0, 0, 0, 0⟩
    let calls := [.newLabel, .branchImmediate Opcode.exit 0 0 0, .slot exit, .bind 0, .slot exit]
    AssemblyCall.OwnFrom 0 calls ∧
      AssemblyCall.jumpsFrom 0 calls = [(0, 0)] ∧ AssemblyCall.bindingsFrom 0 calls = [(0, 2)] ∧
      ∃ code : Code, (ofCalls calls).finish = .ok code ∧ 2 < code.size ∧
        2 ∉ code.successors 0 := by
  exact ⟨by decide, rfl, rfl, #[⟨0x95, 0, 0, 1, 0⟩, ⟨0x95, 0, 0, 0, 0⟩, ⟨0x95, 0, 0, 0, 0⟩], rfl,
    by decide, by decide⟩

end Assembly

end PacketFilter
