import PacketFilter.Proofs.Actions
import PacketFilter.Proofs.Reachable
import PacketFilter.Proofs.Reservations

/-!
# Control safety

A run of a program that passed the structural checks, and from which control
cannot run off the end, goes along the edges of the control-flow graph.  So it
stays at reachable slots, each of which starts an instruction that can be
carried out, and is never refused one.
-/

namespace PacketFilter

/-! ## Instructions that pass control on -/

namespace Instruction

variable {instruction : Instruction} {operation : Operation}

/-- The instruction neither exits nor jumps. -/
def IsCalm (instruction : Instruction) : Prop :=
  instruction.isExit = false ∧ instruction.isJumpAlways = false ∧
    instruction.isConditionalJump = false

theorem isCalm_of_family
    {family : Family} (same : instruction.family = family)
    (whole : (family == .jump) = false) (half : (family == .jump32) = false) :
    instruction.IsCalm := by
  rw [IsCalm, isExit, isJumpAlways, isConditionalJump, isJumpFamily, same, whole, half]
  exact ⟨rfl, rfl, rfl⟩

theorem isCalm_of_isCall (calls : instruction.isCall) : instruction.IsCalm := by
  rw [isCall, Bool.and_eq_true, beq_iff_eq, beq_iff_eq] at calls
  rw [IsCalm, isExit, isJumpAlways, isConditionalJump, isJumpFamily, calls.1, calls.2]
  exact ⟨rfl, rfl, rfl⟩

/-- An instruction whose operation is straight neither exits nor jumps. -/
theorem Encodes.isCalm
    (encodes : instruction.Encodes operation) (straight : operation.isStraight = true) :
    instruction.IsCalm := by
  cases encodes with
  | compute family =>
      rcases family with family | family
      · exact isCalm_of_family family rfl rfl
      · exact isCalm_of_family family rfl rfl
  | convertOrder family => exact isCalm_of_family family rfl rfl
  | load family => exact isCalm_of_family family rfl rfl
  | store family =>
      rcases family with family | family
      · exact isCalm_of_family family rfl rfl
      · exact isCalm_of_family family rfl rfl
  | atomic family => exact isCalm_of_family family rfl rfl
  | loadConstant wide => exact isCalm_of_family (family_of_isWideLoad wide) rfl rfl
  | loadMap wide => exact isCalm_of_family (family_of_isWideLoad wide) rfl rfl
  | call calls => exact isCalm_of_isCall calls
  | jump => cases straight
  | branch => cases straight
  | exit => cases straight

/-- An instruction that makes a comparison is a conditional jump, and nothing else. -/
theorem isConditionalJump_of_named
    {comparison : Comparison} (jumps : instruction.isJumpFamily)
    (named : Comparison.ofCode? instruction.operationField = some comparison) :
    instruction.isConditionalJump = true ∧ instruction.isJumpAlways = false ∧
      instruction.isExit = false := by
  have other (field : UInt8) (unnamed : Comparison.ofCode? field = none) :
      (instruction.operationField == field) = false := by
    rw [beq_eq_false_iff_ne]
    intro same
    rw [same, unnamed] at named
    cases named
  rw [isConditionalJump, isJumpAlways, isExit, jumps, bne, bne, bne,
    other Opcode.jumpAlways (by decide), other Opcode.call (by decide),
    other Opcode.exit (by decide), Bool.and_false]
  exact ⟨rfl, rfl, rfl⟩

/-- No instruction is a jump and an exit at once. -/
theorem isExit_of_isJumpAlways (jumps : instruction.isJumpAlways) : instruction.isExit = false := by
  rw [isJumpAlways, Bool.and_eq_true, beq_iff_eq, beq_iff_eq] at jumps
  rw [isExit, jumps.1, jumps.2]
  rfl

theorem isWideLoad_of_isJumpFamily (jumps : instruction.isJumpFamily) :
    instruction.isWideLoad = false := by
  rw [Bool.eq_false_iff]
  intro wide
  rw [isJumpFamily, family_of_isWideLoad wide] at jumps
  cases jumps

/-- Jumps take one slot. -/
theorem span_of_isJumpFamily (jumps : instruction.isJumpFamily) : instruction.span = 1 := by
  rw [span, isWideLoad_of_isJumpFamily jumps]
  rfl

theorem isJumpFamily_of_isJumpAlways (jumps : instruction.isJumpAlways) :
    instruction.isJumpFamily := by
  rw [isJumpAlways, Bool.and_eq_true] at jumps
  rw [isJumpFamily, jumps.1]
  rfl

theorem isJumpFamily_of_isExit (exits : instruction.isExit) : instruction.isJumpFamily := by
  rw [isExit, Bool.and_eq_true] at exits
  rw [isJumpFamily, exits.1]
  rfl

end Instruction

namespace Code

variable {code : Code} {slot target : Nat} {instruction : Instruction} {operation : Operation}

/-- The only edge from an instruction that neither exits nor jumps leads to the one after it. -/
theorem edge_iff_of_isCalm
    (fetched : code[slot]? = some instruction) (calm : instruction.IsCalm) :
    code.Edge slot target ↔
      target = slot + instruction.span ∧ slot + instruction.span < code.size := by
  rw [← mem_after?_iff]
  unfold Edge successors Instruction.span
  rw [fetched]
  dsimp only
  split
  case isTrue => rfl
  case isFalse =>
    rw [calm.1, calm.2.1, calm.2.2]
    rfl

/-- The only edge from an unconditional jump leads to its target. -/
theorem edge_iff_of_isJumpAlways
    (fetched : code[slot]? = some instruction) (jumps : instruction.isJumpAlways) :
    code.Edge slot target ↔ instruction.jumpTarget? slot code.size = some target := by
  have narrow := Instruction.isWideLoad_of_isJumpFamily
    (Instruction.isJumpFamily_of_isJumpAlways jumps)
  rw [← Option.mem_toList]
  unfold Edge successors
  rw [fetched]
  dsimp only
  rw [narrow, Instruction.isExit_of_isJumpAlways jumps, jumps]
  rfl

/-- The edges from a conditional jump lead to the instruction after it and to its target. -/
theorem edge_iff_of_isConditionalJump
    (fetched : code[slot]? = some instruction) (jumps : instruction.isConditionalJump) :
    code.Edge slot target ↔
      (target = slot + 1 ∧ slot + 1 < code.size) ∨
        instruction.jumpTarget? slot code.size = some target := by
  have parts := jumps
  rw [Instruction.isConditionalJump, Bool.and_eq_true, Bool.and_eq_true, Bool.and_eq_true,
    bne_iff_ne, bne_iff_ne, bne_iff_ne] at parts
  rcases parts with ⟨⟨⟨family, other⟩, -⟩, stays⟩
  have narrow := Instruction.isWideLoad_of_isJumpFamily family
  have unconditional : instruction.isJumpAlways = false := by
    rw [Instruction.isJumpAlways, beq_eq_false_iff_ne.mpr other, Bool.and_false]
  have remains : instruction.isExit = false := by
    rw [Instruction.isExit, beq_eq_false_iff_ne.mpr stays, Bool.and_false]
  rw [← mem_after?_iff, ← Option.mem_toList]
  unfold Edge successors
  rw [fetched]
  dsimp only
  rw [narrow, remains, unconditional, jumps]
  simp only [Bool.false_eq_true, if_false, if_true, List.mem_append, List.mem_filter,
    Bool.not_eq_true', List.contains_eq_mem, decide_eq_false_iff_not]
  by_cases next : target ∈ (code.after? slot 1).toList
  · exact iff_of_true (.inl next) (.inl next)
  · exact or_congr_right (and_iff_left next)

/-- The edges from a comparison lead to the instruction after it and to its target. -/
theorem edge_iff_of_named
    {comparison : Comparison} (fetched : code[slot]? = some instruction)
    (jumps : instruction.isJumpFamily)
    (named : Comparison.ofCode? instruction.operationField = some comparison) :
    code.Edge slot target ↔
      (target = slot + 1 ∧ slot + 1 < code.size) ∨
        instruction.jumpTarget? slot code.size = some target :=
  edge_iff_of_isConditionalJump fetched (Instruction.isConditionalJump_of_named jumps named).1

/-- Nothing comes after an exit. -/
theorem not_edge_of_isExit
    (fetched : code[slot]? = some instruction) (exits : instruction.isExit) :
    ¬ code.Edge slot target := by
  have narrow := Instruction.isWideLoad_of_isJumpFamily
    (Instruction.isJumpFamily_of_isExit exits)
  unfold Edge successors
  rw [fetched]
  dsimp only
  rw [narrow, exits]
  exact List.not_mem_nil

/-- Control stays at slots at which instructions start. -/
theorem WellFormed.starts_of_edge
    (wellFormed : code.WellFormed) (starts : slot ∈ code.starts) (edge : code.Edge slot target) :
    target ∈ code.starts := by
  rcases wellFormed.exists_operation starts with ⟨instruction, operation, fetched, decoded⟩
  have lands (jumps : instruction.isJump)
      (leads : instruction.jumpTarget? slot code.size = some target) : target ∈ code.starts := by
    rcases wellFormed.lands slot starts instruction fetched jumps with ⟨other, known, leads'⟩
    cases leads.symm.trans leads'
    exact known
  have encodes := Instruction.encodes_of_decode? decoded
  by_cases straight : operation.isStraight = true
  · rcases (edge_iff_of_isCalm fetched (encodes.isCalm straight)).mp edge with ⟨rfl, inside⟩
    exact span_mem_startsFrom starts fetched inside
  · cases encodes with
    | jump jumps =>
        refine lands ?_ ((edge_iff_of_isJumpAlways fetched jumps).mp edge)
        rw [Instruction.isJump, jumps, Bool.true_or]
    | branch jumps named =>
        rcases (edge_iff_of_named fetched jumps named).mp edge with ⟨rfl, inside⟩ | leads
        · rw [← Instruction.span_of_isJumpFamily jumps] at inside ⊢
          exact span_mem_startsFrom starts fetched inside
        · refine lands ?_ leads
          rw [Instruction.isJump, (Instruction.isConditionalJump_of_named jumps named).1,
            Bool.or_true]
    | exit exits => exact absurd edge (not_edge_of_isExit fetched exits)
    | _ => exact absurd rfl straight

/-- Every reachable slot starts an instruction. -/
theorem WellFormed.starts_of_reachable
    (wellFormed : code.WellFormed) (reached : Relation.ReflTransGen code.Edge 0 slot) :
    slot ∈ code.starts := by
  induction reached with
  | refl => exact zero_mem_starts wellFormed.nonempty
  | tail _ edge starts => exact wellFormed.starts_of_edge starts edge

/-- What the check for missing exits establishes of a reachable slot. -/
theorem inside_of_checkFallThrough
    (nonempty : 0 < code.size) (closed : code.checkFallThrough (Graph.ofCode code) = .ok ())
    (reached : Relation.ReflTransGen code.Edge 0 slot) (fetched : code[slot]? = some instruction)
    (goesOn : instruction.isExit = false ∧ instruction.isJumpAlways = false) :
    slot + instruction.span < code.size := by
  unfold checkFallThrough at closed
  split at closed
  case h_1 => cases closed
  case h_2 clean =>
    have stays := List.find?_eq_none.mp clean slot ((Graph.mem_reachable_iff nonempty).mpr reached)
    rw [runsOffAt, fetched] at stays
    dsimp only at stays
    rw [goesOn.1, goesOn.2] at stays
    simpa using stays

end Code

/-! ## Actions that are never refused -/

namespace Execution

variable {α : Type}

/-- The action, wherever it is begun, does not fail for an invalid instruction. -/
def Willing (action : Execution α) : Prop :=
  ∀ machine, match (action.run machine).1 with
    | .ok _ => True
    | .error fault => ∀ position, fault ≠ .invalidInstruction position

theorem Built.willing {action : Execution α} (built : action.Built) : action.Willing := by
  intro machine
  have stays := built.stays machine
  generalize action.run machine = ran at stays ⊢
  rcases ran with ⟨fault | result, after⟩
  · rintro position rfl
    cases stays.1
  · trivial

end Execution

/-! ## Steps -/

namespace Machine

/-- The machine stands at a slot that control can reach. -/
def Stands (code : Code) (machine : Machine) : Prop :=
  Relation.ReflTransGen code.Edge 0 machine.position

/-- What a step may come to in a program: it ends the run, goes along an edge, or fails, but not for
an invalid instruction. -/
def Follows (code : Code) (machine : Machine) : Except Fault (Option Word) × Machine → Prop
  | (.ok (some _), _) => True
  | (.ok none, next) => code.Edge machine.position next.position
  | (.error fault, _) => ∀ position, fault ≠ .invalidInstruction position

end Machine

section

variable {code : Code} {setup : Setup} {machine : Machine} {instruction : Instruction}

/-- A jump with a target goes there. -/
theorem Execution.run_jump
    {target : Nat}
    (leads : instruction.jumpTarget? machine.position setup.code.size = some target) :
    (jump setup instruction).run machine = (.ok (), { machine with position := target }) := by
  simp only [jump, Stateful.run_bind, Stateful.run_get, leads, run_moveTo]

/-- A jump of well-formed code lands on its target. -/
theorem Execution.run_jump_of_isJump
    (wellFormed : code.WellFormed) (runs : setup.code = code) (stands : machine.Stands code)
    (fetched : code[machine.position]? = some instruction) (isJump : instruction.isJump) :
    ∃ target, instruction.jumpTarget? machine.position code.size = some target ∧
      (jump setup instruction).run machine = (.ok (), { machine with position := target }) := by
  have starts := wellFormed.starts_of_reachable stands
  rcases wellFormed.lands _ starts instruction fetched isJump with ⟨target, _, leads⟩
  subst runs
  exact ⟨target, leads, run_jump leads⟩

theorem perform_follows_of_isStraight
    (wellFormed : code.WellFormed) (closed : code.checkFallThrough (Graph.ofCode code) = .ok ())
    (stands : machine.Stands code) (fetched : code[machine.position]? = some instruction)
    {operation : Operation} (encodes : instruction.Encodes operation)
    (straight : operation.isStraight = true) :
    machine.Follows code ((Execution.perform setup instruction operation).run machine) := by
  have calm := encodes.isCalm straight
  have inside := Code.inside_of_checkFallThrough wellFormed.nonempty closed stands fetched
    ⟨calm.1, calm.2.1⟩
  have willing := (Execution.built_effect setup operation).willing machine
  rw [Execution.perform_straight setup instruction straight, Execution.run_onward]
  generalize (Execution.effect setup operation).run machine = ran at willing ⊢
  rcases ran with ⟨fault | done, after⟩
  · exact willing
  · exact (Code.edge_iff_of_isCalm fetched calm).mpr ⟨rfl, inside⟩

theorem perform_follows_of_branch
    (wellFormed : code.WellFormed) (closed : code.checkFallThrough (Graph.ofCode code) = .ok ())
    (runs : setup.code = code) (stands : machine.Stands code)
    (fetched : code[machine.position]? = some instruction) (jumps : instruction.isJumpFamily)
    {comparison : Comparison}
    (named : Comparison.ofCode? instruction.operationField = some comparison)
    (width : Width) (left : RegisterName) (right : Operand) :
    machine.Follows code
      ((Execution.perform setup instruction (.branch width comparison left right)).run
        machine) := by
  rcases Instruction.isConditionalJump_of_named jumps named with ⟨isConditional, stays⟩
  simp only [Execution.perform, Stateful.run_bind, Stateful.run_get, Execution.run_read,
    Execution.run_operand]
  split
  case isTrue =>
    have isJump : instruction.isJump := by
      rw [Instruction.isJump, isConditional, Bool.or_true]
    rcases Execution.run_jump_of_isJump wellFormed runs stands fetched isJump with
      ⟨target, leads, goes⟩
    have edge := (Code.edge_iff_of_named fetched jumps named).mpr (.inr leads)
    simp only [Stateful.run_bind, goes, Stateful.run_pure]
    exact edge
  case isFalse =>
    have inside := Code.inside_of_checkFallThrough wellFormed.nonempty closed stands fetched
      stays.symm
    rw [Instruction.span_of_isJumpFamily jumps] at inside
    have edge := (Code.edge_iff_of_named fetched jumps named).mpr (.inl ⟨rfl, inside⟩)
    simp only [Stateful.run_bind, Execution.run_moveTo, Stateful.run_pure,
      Instruction.span_of_isJumpFamily jumps]
    exact edge

/-- What every operation of a well-formed program leads to at a reachable slot. -/
theorem perform_follows
    (wellFormed : code.WellFormed) (closed : code.checkFallThrough (Graph.ofCode code) = .ok ())
    (runs : setup.code = code) (stands : machine.Stands code)
    (fetched : code[machine.position]? = some instruction) {operation : Operation}
    (encodes : instruction.Encodes operation) :
    machine.Follows code ((Execution.perform setup instruction operation).run machine) := by
  by_cases straight : operation.isStraight = true
  · exact perform_follows_of_isStraight wellFormed closed stands fetched encodes straight
  · cases encodes with
    | jump jumps =>
        have isJump : instruction.isJump := by
          rw [Instruction.isJump, jumps, Bool.true_or]
        rcases Execution.run_jump_of_isJump wellFormed runs stands fetched isJump with
          ⟨target, leads, goes⟩
        have edge := (Code.edge_iff_of_isJumpAlways fetched jumps).mpr leads
        simp only [Execution.perform, Stateful.run_bind, Stateful.run_get, goes, Stateful.run_pure]
        exact edge
    | branch jumps named =>
        exact perform_follows_of_branch wellFormed closed runs stands fetched jumps named _ _ _
    | exit exits => exact trivial
    | _ => exact absurd rfl straight

/-- A step from a reachable slot ends the run, goes along an edge, or fails, but not for an invalid
instruction. -/
theorem step_follows
    (wellFormed : code.WellFormed) (closed : code.checkFallThrough (Graph.ofCode code) = .ok ())
    (runs : setup.code = code) (stands : machine.Stands code) :
    machine.Follows code ((Execution.step setup).run machine) := by
  rcases wellFormed.exists_operation (wellFormed.starts_of_reachable stands) with
    ⟨instruction, operation, fetched, decoded⟩
  have operates : setup.code.operation? machine.position = some operation := by
    rw [runs, Code.operation?, fetched]
    exact decoded
  have fetches : setup.code[machine.position]? = some instruction := by
    rw [runs, fetched]
  simp only [Execution.step, Stateful.run_bind, Stateful.run_modify, Stateful.run_get, fetches,
    operates]
  have begun : Machine.Stands code { machine with steps := machine.steps + 1 } := stands
  exact perform_follows wellFormed closed runs begun fetched
    (Instruction.encodes_of_decode? decoded)

/-! ## Runs -/

/-- The machine stands at a reachable slot after every step. -/
theorem stands_after?
    (wellFormed : code.WellFormed) (closed : code.checkFallThrough (Graph.ofCode code) = .ok ())
    (runs : setup.code = code) {steps : Nat} {reached : Machine}
    (stands : machine.Stands code) (goes : machine.after? setup steps = some reached) :
    reached.Stands code := by
  induction steps generalizing machine with
  | zero =>
      cases goes
      exact stands
  | succ steps continues =>
      have follows := step_follows wellFormed closed runs stands
      unfold Machine.after? at goes
      split at goes
      case h_1 next moves =>
        rw [moves] at follows
        exact continues (Relation.ReflTransGen.tail stands follows) goes
      case h_2 => cases goes

/-- A run does not fail for an invalid instruction. -/
theorem runWithin_accepted
    (wellFormed : code.WellFormed) (closed : code.checkFallThrough (Graph.ofCode code) = .ok ())
    (runs : setup.code = code) (steps : Nat) (stands : machine.Stands code) (position : Nat) :
    (machine.runWithin setup steps).1 ≠ .error (.invalidInstruction position) := by
  induction steps generalizing machine with
  | zero => exact fun absurdity => by cases absurdity
  | succ steps continues =>
      have follows := step_follows wellFormed closed runs stands
      unfold Machine.runWithin
      generalize (Execution.step setup).run machine = ran at follows ⊢
      rcases ran with ⟨fault | code? , next⟩
      · exact fun same => follows position (Except.error.inj same)
      · cases code? with
        | none => exact continues (Relation.ReflTransGen.tail stands follows)
        | some code => exact fun absurdity => by cases absurdity

/-- Closing a run makes no instruction invalid. -/
theorem Machine.close_accepted
    {result : Except Fault Word} {position : Nat}
    (accepted : result ≠ .error (.invalidInstruction position)) (machine : Machine) :
    (machine.close result).1 ≠ .error (.invalidInstruction position) := by
  cases result with
  | error fault => exact accepted
  | ok code =>
      rw [close]
      split
      · exact fun absurdity => by cases absurdity
      · exact fun absurdity => by cases absurdity

/-- A run of a program that passed the structural checks, and from which control cannot run off the
end, stays at reachable slots.  They are slots of the program at which an instruction starts, so no
second slot of a two-slot load is among them, the instruction can be carried out, and a jump has
a target that is such a slot too.  However the run ends, it does not end for an invalid
instruction. -/
theorem checked_run_stays_reachable
    {code : Code} {limit : Nat} (structured : code.checkStructure limit = .ok ())
    (closed : code.checkFallThrough (Graph.ofCode code) = .ok ())
    {setup : Setup} (runs : setup.code = code) {machine : Machine} (begins : machine.position = 0) :
    (∀ steps reached, machine.after? setup steps = some reached →
      reached.position ∈ (Graph.ofCode code).reachable ∧ reached.position < code.size ∧
        (∀ first load, code[first]? = some load → load.isWideLoad →
          reached.position ≠ first + 1) ∧
        ∃ instruction operation, code[reached.position]? = some instruction ∧
          code.operation? reached.position = some operation ∧
          (instruction.isJump → ∃ target ∈ code.starts,
            instruction.jumpTarget? reached.position code.size = some target)) ∧
      ∀ position, (machine.run setup).1 ≠ .error (.invalidInstruction position) := by
  have wellFormed := Code.wellFormed_of_checkStructure structured
  have stands : machine.Stands code := by
    rw [Machine.Stands, begins]
  constructor
  · intro steps reached goes
    have stands := stands_after? wellFormed closed runs stands goes
    have starts := wellFormed.starts_of_reachable stands
    refine ⟨(Graph.mem_reachable_iff wellFormed.nonempty).mpr stands,
      Code.lt_of_mem_startsFrom starts, fun first load fetched wide second => ?_, ?_⟩
    · have coded : load.code ≠ 0 := by
        rw [Instruction.isWideLoad_iff.mp wide]
        decide
      have within : first + 1 < first + load.span := by
        rw [Instruction.span, if_pos wide]
        exact Nat.lt_succ_self (first + 1)
      rw [second] at starts
      exact Code.not_mem_startsFrom_of_within (wellFormed.starts_of_code_ne_zero fetched coded)
        fetched (Nat.lt_succ_self first) within starts
    · rcases wellFormed.exists_operation starts with ⟨instruction, operation, fetched, decoded⟩
      refine ⟨instruction, operation, fetched, ?_,
        fun jumps => wellFormed.lands _ starts instruction fetched jumps⟩
      rw [Code.operation?, fetched]
      exact decoded
  · intro position
    have accepted := runWithin_accepted wellFormed closed runs setup.budget stands position
    exact Machine.close_accepted accepted _

end

/-- A two-slot load, a test of what was loaded with a way round an addition, and an exit. -/
def forkedCode : Code :=
  #[⟨0x18, 0, 0, 0, 5⟩, ⟨0, 0, 0, 0, 1⟩, ⟨0x56, 0, 0, 1, 5⟩, ⟨0x04, 0, 0, 0, 1⟩, ⟨0x95, 0, 0, 0, 0⟩]

/-- The forked code with no maps, and with more budget than it needs. -/
def forkedSetup : Setup where
  code := forkedCode
  maps := []
  attach := .ingress
  clock := .still 0
  budget := 10

/-- A machine about to start on an empty memory. -/
def forkedMachine : Machine :=
  .start { packet := #[], scratch := #[], metadata := {}, stack := #[], store := {} }

theorem forked_run_stays_reachable :
    forkedCode.checkStructure 5 = .ok () ∧
      forkedCode.checkFallThrough (Graph.ofCode forkedCode) = .ok () ∧
      (∃ reached, forkedMachine.after? forkedSetup 2 = some reached ∧
        reached.position ∈ (Graph.ofCode forkedCode).reachable) ∧
      ∀ position, (forkedMachine.run forkedSetup).1 ≠ .error (.invalidInstruction position) := by
  have structured : forkedCode.checkStructure 5 = .ok () := by decide +kernel
  have closed : forkedCode.checkFallThrough (Graph.ofCode forkedCode) = .ok () := by
    decide +kernel
  have stays := @checked_run_stays_reachable _ _ structured closed forkedSetup rfl forkedMachine rfl
  have goes : (forkedMachine.after? forkedSetup 2).isSome := by decide +kernel
  rcases Option.isSome_iff_exists.mp goes with ⟨reached, goes⟩
  exact ⟨structured, closed, ⟨reached, goes, (stays.1 2 reached goes).1⟩, stays.2⟩

end PacketFilter
