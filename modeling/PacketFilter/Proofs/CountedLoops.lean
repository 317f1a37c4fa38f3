import PacketFilter.Proofs.BasicBlocks
import PacketFilter.Proofs.CounterSteps
import PacketFilter.Proofs.Forking
import PacketFilter.Proofs.LoopBodies

/-!
# Counted loops

What is found of a loop holds of every machine that goes round it.  On the way
from the header to the latch the counter changes by constants of one sign, and
at least once; so however the way goes, it ends further on by the least step at
least.  What the counter is compared with stays as it is, and the branch that
makes the comparison lies on the way and leaves the loop when the comparison
fails.
-/

namespace PacketFilter

/-! ## Tests -/

/-- What the limit of a loop is in a machine. -/
inductive LoopLimit.Reads : LoopLimit → (Machine → Word) → Prop
  | constant (value : Word) : Reads (.constant value) fun _ => value
  | register {number : UInt8} {name : RegisterName}
      (named : RegisterName.ofNumber? number = some name) :
      Reads (.register number) fun machine => machine.register name

/-- A machine that comes to the slot goes on to the one place or to the other, as the test says, and
nothing else changes. -/
structure LoopTest.Decides (test : LoopTest) (code : Code) (slot inner outer : Nat)
    (counter : RegisterName) (limit : Machine → Word) : Prop where
  names : RegisterName.ofNumber? test.counter = some counter
  reads : test.limit.Reads limit
  goes : ∀ setup machine, setup.code = code → machine.position = slot →
    (Execution.step setup).run machine =
      (.ok none, { machine with
        steps := machine.steps + 1
        position :=
          if test.comparison.holds (machine.register counter) (limit machine) then inner
          else outer })

/-- Of two registers that are compared, either may be taken for the counter. -/
theorem LoopTest.Decides.reading
    {test reading : LoopTest} {code : Code} {slot inner outer : Nat} {counter : RegisterName}
    {limit : Machine → Word} (decides : test.Decides code slot inner outer counter limit)
    (listed : reading ∈ test.readings) :
    ∃ counter limit, reading.Decides code slot inner outer counter limit := by
  rcases test with ⟨number, ⟨value⟩ | ⟨other⟩, comparison⟩
  · cases List.mem_singleton.mp listed
    exact ⟨counter, limit, decides⟩
  · rcases decides with ⟨counts, reads, goes⟩
    change LoopLimit.Reads (.register other) limit at reads
    cases reads with
    | @register _ name named =>
        rcases List.mem_cons.mp listed with rfl | swapped
        · exact ⟨counter, _, counts, .register named, goes⟩
        · cases List.mem_singleton.mp swapped
          refine ⟨name, _, named, .register counts, fun setup machine runs stands => ?_⟩
          simp only [Comparison.holds_swap]
          exact goes setup machine runs stands

theorem Execution.run_branch
    {setup : Setup} {machine : Machine} {instruction : Instruction} {comparison : Comparison}
    {left : RegisterName} {right : Operand} {target : Nat}
    (leads : instruction.jumpTarget? machine.position setup.code.size = some target)
    (short : instruction.span = 1) :
    (perform setup instruction (.branch .whole comparison left right)).run machine =
      (.ok none, { machine with
        position :=
          if comparison.holds (machine.register left) (machine.operand right) then target
          else machine.position + 1 }) := by
  simp only [perform, Stateful.run_bind, Stateful.run_get, run_read, run_operand, Stateful.run_ite,
    run_jump leads, run_moveTo, Stateful.run_pure, short]
  rw [holds]
  split
  · rfl
  · rfl

/-- A conditional jump on whole words compares its destination with its operand. -/
theorem Instruction.operation_of_conditional
    {instruction : Instruction} {next? : Option Instruction} {operation : Operation}
    {comparison : Comparison} (decoded : instruction.decode? next? = some operation)
    (family : instruction.family = .jump) (conditional : instruction.isConditionalJump = true)
    (named : Comparison.ofCode? instruction.operationField = some comparison) :
    ∃ left right, RegisterName.ofNumber? instruction.destination = some left ∧
      RegisterName.ofNumber? instruction.source = some right ∧
      operation = .branch .whole comparison left (instruction.operand right) := by
  rcases Option.bind_eq_some_iff.mp decoded with ⟨left, writes, decoded⟩
  rcases Option.bind_eq_some_iff.mp decoded with ⟨right, reads, decoded⟩
  refine ⟨left, right, writes, reads, ?_⟩
  simp only [isConditionalJump, Bool.and_eq_true, bne_iff_ne] at conditional
  have exits : instruction.isExit = false := by
    rw [isExit, beq_false_of_ne conditional.2, Bool.and_false]
  have calls : instruction.isCall = false := by
    rw [isCall, beq_false_of_ne conditional.1.2, Bool.and_false]
  have jumps : instruction.isJumpAlways = false := by
    rw [isJumpAlways, beq_false_of_ne conditional.1.1.2, Bool.and_false]
  rw [family, exits, calls, jumps, branch?, named] at decoded
  exact (Option.some.inj decoded).symm

namespace Code

variable {code : Code} {body : List Nat} {slot : Nat} {test : LoopTest}

theorem loopTest?_eq_some (found : code.loopTest? body slot = some test) :
    ∃ instruction target comparison, code[slot]? = some instruction ∧
      instruction.family = .jump ∧ instruction.isConditionalJump = true ∧
      instruction.jumpTarget? slot code.size = some target ∧
      Comparison.ofCode? instruction.operationField = some comparison ∧
      test.counter = instruction.destination ∧
      test.limit =
        (if instruction.hasRegisterOperand then .register instruction.source
        else .constant (Word.ofImmediate instruction.immediate)) ∧
      (target ∈ body ∧ slot + 1 ∉ body ∧ test.comparison = comparison ∨
        target ∉ body ∧ slot + 1 ∈ body ∧ test.comparison = comparison.negate) := by
  unfold loopTest? at found
  simp only [Option.bind_eq_bind, Option.bind_eq_some_iff, Option.guard_eq_some',
    Option.pure_def] at found
  rcases found with
    ⟨instruction, fetched, _, ⟨family, conditional⟩, target, leads, comparison, named,
    found⟩
  refine ⟨instruction, target, comparison, fetched, family, conditional, leads, named, ?_⟩
  split at found
  case h_1 inside outside =>
    cases found
    refine ⟨rfl, rfl, .inl ⟨List.contains_iff_mem.mp inside, fun listed => ?_, rfl⟩⟩
    rw [List.contains_iff_mem.mpr listed] at outside
    cases outside
  case h_2 outside inside =>
    cases found
    refine ⟨rfl, rfl, .inr ⟨fun listed => ?_, List.contains_iff_mem.mp inside, rfl⟩⟩
    rw [List.contains_iff_mem.mpr listed] at outside
    cases outside
  case h_3 => cases found

/-- The test that is found at a slot is the one that the branch there makes: while it holds, the
branch stays in the body. -/
theorem WellFormed.exists_decides
    (wellFormed : code.WellFormed) (starts : slot ∈ code.starts)
    (within : ∀ slot ∈ body, slot < code.size) (found : code.loopTest? body slot = some test) :
    ∃ inner ∈ body, ∃ outer, outer ∉ body ∧ code.Edge slot inner ∧
      (code.Edge slot outer ∨ outer = code.size) ∧
      ∃ counter limit, test.Decides code slot inner outer counter limit := by
  rcases loopTest?_eq_some found with
    ⟨instruction, target, comparison, fetched, family, conditional,
    leads, named, counts, reads, either⟩
  rcases wellFormed.run_step starts with ⟨_, operation, fetched', decoded, steps⟩
  cases fetched'.symm.trans fetched
  rcases Instruction.operation_of_conditional decoded family conditional named with
    ⟨left, right, writes, reads', rfl⟩
  have jumps : instruction.isJumpFamily := by
    rw [Instruction.isJumpFamily, family]
    rfl
  have edge {next : Nat} : code.Edge slot next ↔
      (next = slot + 1 ∧ slot + 1 < code.size) ∨
        instruction.jumpTarget? slot code.size = some next := edge_iff_of_named fetched jumps named
  have onward : code.Edge slot (slot + 1) ∨ slot + 1 = code.size :=
    (Nat.lt_or_eq_of_le (lt_of_mem_startsFrom starts)).imp_left fun more =>
      edge.mpr (.inl ⟨rfl, more⟩)
  have limit : test.limit.Reads fun machine => machine.operand (instruction.operand right) := by
    rw [reads, Instruction.operand]
    split
    · exact .register reads'
    · exact .constant _
  have run (setup : Setup) (machine : Machine) (runs : setup.code = code)
      (stands : machine.position = slot) :
      (Execution.step setup).run machine = (.ok none, { machine with
        steps := machine.steps + 1
        position :=
          if comparison.holds (machine.register left) (machine.operand (instruction.operand right))
          then target else slot + 1 }) := by
    rw [steps setup machine runs stands]
    subst runs stands
    exact Execution.run_branch leads (Instruction.span_of_isJumpFamily jumps)
  rcases either with ⟨inside, outside, same⟩ | ⟨outside, inside, same⟩
  · refine ⟨target, inside, slot + 1, outside, edge.mpr (.inr leads), onward, left, _,
      counts ▸ writes, limit, fun setup machine runs stands => ?_⟩
    rw [same]
    exact run setup machine runs stands
  · refine ⟨slot + 1, inside, target, outside, edge.mpr (.inl ⟨rfl, within _ inside⟩),
      .inl (edge.mpr (.inr leads)), left, _, counts ▸ writes, limit,
      fun setup machine runs stands => ?_⟩
    rw [run setup machine runs stands, same, Comparison.holds_negate]
    cases comparison.holds (machine.register left) (machine.operand (instruction.operand right))
    · rfl
    · rfl

/-! ## Ways round -/

variable {latch header : Nat} {slots : List Nat}

/-- A route that avoids the header stays in the loop. -/
theorem Route.loops
    (route : code.Route slot latch slots) (reached : Relation.ReflTransGen code.Edge 0 slot)
    (avoids : header ∉ slots) : ∀ place ∈ slots, code.Loops header latch place := by
  induction route with
  | here slot =>
      intro place listed
      cases List.mem_singleton.mp listed
      exact .inr ⟨reached, [slot], .here slot, avoids⟩
  | @along slot next latch slots edge onward continues =>
      have later : header ∉ slots := fun listed => avoids (List.mem_cons_of_mem slot listed)
      refine List.forall_mem_cons.mpr
        ⟨.inr ⟨reached, slot :: slots, .along edge onward, avoids⟩, ?_⟩
      exact continues (reached.tail edge) later

/-- A route from the header that does not come by it again stays in the loop. -/
theorem Route.loops_of_header
    (route : code.Route header latch slots) (reached : Relation.ReflTransGen code.Edge 0 header)
    (once : header ∉ slots.tail) : ∀ place ∈ slots, code.Loops header latch place := by
  cases route with
  | here => exact List.forall_mem_cons.mpr ⟨.inl rfl, fun place listed => by cases listed⟩
  | along edge onward =>
      exact List.forall_mem_cons.mpr ⟨.inl rfl, onward.loops (reached.tail edge) once⟩

theorem Route.once_of_nodup
    (route : code.Route header latch slots) (distinct : slots.Nodup) : header ∉ slots.tail := by
  cases route with
  | here => exact List.not_mem_nil
  | along edge onward => exact (List.nodup_cons.mp distinct).1

/-- A route from inside a block comes by its last instruction, or it ends before it. -/
theorem WellFormed.last_mem_or_holds
    {block : Block} (wellFormed : code.WellFormed) (listed : block ∈ code.blocks)
    (starts : slot ∈ code.starts) (holds : block.Holds slot)
    (route : code.Route slot latch slots) :
    block.last ∈ slots ∨ slot ≤ latch ∧ block.Holds latch ∧ latch ∈ code.starts := by
  induction route with
  | here slot => exact .inr ⟨Nat.le_refl slot, holds, starts⟩
  | @along slot next latch slots edge onward continues =>
      have fetched := Array.getElem?_eq_getElem (lt_of_mem_startsFrom starts)
      rcases wellFormed.edge_of_holds listed starts holds fetched edge with
        ⟨rfl, inside⟩ | ⟨same, _⟩
      · rcases continues (wellFormed.starts_of_edge starts edge) inside with passed | ⟨before, rest⟩
        · exact .inl (List.mem_cons_of_mem slot passed)
        · exact .inr ⟨Nat.le_trans (Nat.le_add_right _ _) before, rest⟩
      · rw [← same]
        exact .inl List.mem_cons_self

/-- Every way round comes by the end of the header's block. -/
theorem WellFormed.last_mem_of_round
    {block : Block} (wellFormed : code.WellFormed) (listed : block ∈ code.blocks)
    (starts : header ∈ code.starts) (holds : block.Holds header)
    (route : code.Route header latch slots) (edge : code.Edge latch header) :
    block.last ∈ slots := by
  rcases wellFormed.last_mem_or_holds listed starts holds route with
    passed | ⟨before, inside, starts'⟩
  · exact passed
  · -- Inside the block control goes forwards only, so it goes back from its last instruction.
    have short := lt_of_mem_startsFrom starts'
    have fetched := Array.getElem?_eq_getElem short
    rcases wellFormed.edge_of_holds listed starts' inside fetched edge with ⟨next, _⟩ | ⟨same, _⟩
    · have moves := code[latch].span_pos
      omega
    · rw [← same]
      exact route.last_mem

end Code

/-! ## Recognized loops -/

namespace CountedLoop

/-- A way round: it goes from the header to the latch and comes by the header only once. -/
structure Round (loop : CountedLoop) (code : Code) (slots : List Nat) : Prop where
  route : code.Route loop.header loop.latch slots
  once : loop.header ∉ slots.tail

/-- The loop is what it claims to be: `counter` is its counter, `limit` what the counter is compared
with, and `change` says by how much each instruction of the body changes the counter.  A change is
an integer, and so small that words tell it apart from any other. -/
structure Shaped (loop : CountedLoop) (code : Code) (counter : RegisterName)
    (limit : Machine → Word) (change : Nat → Int) : Prop where
  /-- The loop is closed by a back edge, and there is a way round. -/
  closes : (loop.latch, loop.header) ∈ (Graph.ofCode code).backEdges
  turns : ∃ slots, loop.Round code slots
  /-- The body is the header and every reachable slot from which control comes to the latch without
  passing the header. -/
  body : ∀ slot, slot ∈ loop.body ↔
    slot = loop.header ∨ Relation.ReflTransGen code.Edge 0 slot ∧
      ∃ slots, code.Route slot loop.latch slots ∧ loop.header ∉ slots
  names : RegisterName.ofNumber? loop.counter = some counter
  reads : loop.limit.Reads limit
  moves : loop.step ≠ 0
  small : ∀ slot, (change slot).natAbs ≤ 2 ^ 31
  /-- Inside the body the counter changes by constants only, all of the sign of the step. -/
  changes : ∀ slot ∈ loop.body,
    change slot = 0 ∧ code.Spares slot counter ∨
      (change slot).sign = loop.step.sign ∧ code.Adds slot counter (change slot)
  /-- Inside the body nothing changes the limit. -/
  fixed : ∀ slot ∈ loop.body, ∀ setup machine, setup.code = code → machine.position = slot →
    limit ((Execution.step setup).run machine).2 = limit machine
  /-- A way round stays in the body and comes by the branch.  It changes the counter, in the
  direction of the step and at least as far. -/
  rounds : ∀ slots, loop.Round code slots →
    (∀ slot ∈ slots, slot ∈ loop.body) ∧ loop.branch ∈ slots ∧
      (∃ slot ∈ slots, change slot ≠ 0) ∧
      (slots.map change).sum.sign = loop.step.sign ∧
      loop.step.natAbs ≤ (slots.map change).sum.natAbs
  /-- So it does for every machine that goes that way. -/
  runs : ∀ slots, loop.Round code slots → ∀ setup machine final, setup.code = code →
    machine.Passes setup slots final →
      final.register counter =
        machine.register counter + BitVec.ofInt 64 (slots.map change).sum ∧
        limit final = limit machine
  /-- The branch goes on in the body as long as the comparison holds, and leaves the body when it
  fails.  Outside lies one of its successors, or the end of the program. -/
  leaves : ∃ inner ∈ loop.body, ∃ outer, outer ∉ loop.body ∧ code.Edge loop.branch inner ∧
    (code.Edge loop.branch outer ∨ outer = code.size) ∧
    ∀ setup machine, setup.code = code → machine.position = loop.branch →
      (Execution.step setup).run machine =
        (.ok none, { machine with
          steps := machine.steps + 1
          position :=
            if loop.comparison.holds (machine.register counter) (limit machine) then inner
            else outer })

end CountedLoop

section

variable {code : Code} {graph : Graph} {latch header : Nat} {loop : CountedLoop}

/-- The loop that a reading of a test bounds. -/
theorem LoopTest.loop?_eq_some
    {test : LoopTest} {body : List Nat} {branch : Nat}
    (found : test.loop? code body latch header branch = some loop) :
    ∃ step sites, code.counterSteps? body test.counter = some (step, sites) ∧
      test.limitIsFixed code body = true ∧
      code.hasWayAround body sites header latch = false ∧
      loop = ⟨header, latch, body, test.counter, step, test.limit, test.comparison, branch⟩ := by
  unfold loop? at found
  simp only [Option.bind_eq_bind, Option.bind_eq_some_iff, Option.guard_eq_some',
    Option.pure_def, Option.some.injEq] at found
  rcases found with ⟨⟨step, sites⟩, counts, _, fixed, _, _, _, closed, rfl⟩
  rw [Bool.not_eq_true'] at closed
  exact ⟨step, sites, counts, fixed, closed, rfl⟩

/-- The test of a recognized loop is made at its latch or at the end of the header's block. -/
theorem Graph.countedLoop?_eq_some (found : graph.countedLoop? code latch header = some loop) :
    ∃ branch test, (branch = latch ∨
        branch = ((graph.blockOf? header).map Block.last).getD header) ∧
      code.loopTest? (graph.naturalLoop code latch header) branch = some test ∧
      ∃ reading ∈ test.readings,
        reading.loop? code (graph.naturalLoop code latch header) latch header branch =
          some loop := by
  rcases List.exists_of_findSome?_eq_some found with ⟨branch, listed, found⟩
  rcases Option.bind_eq_some_iff.mp found with ⟨test, tests, found⟩
  rcases List.exists_of_findSome?_eq_some found with ⟨reading, among, found⟩
  refine ⟨branch, test, ?_, tests, reading, among, found⟩
  split at listed
  case isTrue => exact .inl (List.mem_singleton.mp listed)
  case isFalse =>
    rcases List.mem_cons.mp listed with rfl | last
    · exact .inl rfl
    · exact .inr (List.mem_singleton.mp last)

/-- Every way round comes by the places at which the test is looked for. -/
theorem Code.WellFormed.branch_mem_of_round
    {branch : Nat} {slots : List Nat} (wellFormed : code.WellFormed)
    (starts : header ∈ code.starts) (edge : code.Edge latch header)
    (route : code.Route header latch slots)
    (branches : branch = latch ∨
      branch = (((Graph.ofCode code).blockOf? header).map Block.last).getD header) :
    branch ∈ slots := by
  rcases branches with rfl | rfl
  · exact route.last_mem
  · cases lies : (Graph.ofCode code).blockOf? header with
    | none => exact route.first_mem
    | some block =>
        rcases (Graph.blockOf?_eq_some_iff wellFormed).mp lies with ⟨listed, holds⟩
        exact wellFormed.last_mem_of_round listed starts holds route edge

/-- The limit of a test that was found fixed is changed nowhere in the body. -/
theorem LoopTest.limit_fixed
    {test : LoopTest} {body : List Nat} {limit : Machine → Word} (wellFormed : code.WellFormed)
    (known : ∀ slot ∈ body, slot ∈ code.starts) (reads : test.limit.Reads limit)
    (fixed : test.limitIsFixed code body = true) :
    ∀ slot ∈ body, ∀ setup machine, setup.code = code → machine.position = slot →
      limit ((Execution.step setup).run machine).2 = limit machine := by
  rcases test with ⟨number, ⟨value⟩ | ⟨other⟩, comparison⟩
  · change LoopLimit.Reads (.constant value) limit at reads
    cases reads
    exact fun slot listed setup machine runs stands => rfl
  · change LoopLimit.Reads (.register other) limit at reads
    cases reads with
    | register named =>
        intro slot listed setup machine runs stands
        have never := List.all_eq_true.mp fixed slot listed
        rw [Bool.not_eq_true'] at never
        exact wellFormed.spares (known slot listed) named never setup machine runs stands

/-- A recognized loop is what it claims to be; its changes are the constants that its instructions
add to the counter or subtract from it. -/
theorem Code.WellFormed.shaped_of_countedLoop?
    (wellFormed : code.WellFormed)
    (noted : (latch, header) ∈ (Graph.ofCode code).backEdges)
    (found : (Graph.ofCode code).countedLoop? code latch header = some loop) :
    ∃ counter limit, loop.Shaped code counter limit (code.changeAt loop.counter) := by
  rcases Graph.route_of_backEdge wellFormed.nonempty noted with
    ⟨reached, edge, turn, back, distinct⟩
  have reached' := reached.tail edge
  have starts := wellFormed.starts_of_reachable reached'
  have belongs {slot : Nat} :
      slot ∈ (Graph.ofCode code).naturalLoop code latch header ↔ code.Loops header latch slot :=
    Graph.mem_naturalLoop_iff wellFormed reached edge
  rcases Graph.countedLoop?_eq_some found with
    ⟨branch, test, branches, tests, reading, among, found⟩
  generalize (Graph.ofCode code).naturalLoop code latch header = body at belongs tests found
  rcases LoopTest.loop?_eq_some found with ⟨step, sites, counts, fixed, closed, rfl⟩
  have known : ∀ slot ∈ body, slot ∈ code.starts := by
    intro slot listed
    rcases belongs.mp listed with rfl | ⟨begins, _⟩
    · exact starts
    · exact wellFormed.starts_of_reachable begins
  have passes {slots : List Nat} (route : code.Route header latch slots) : branch ∈ slots :=
    wellFormed.branch_mem_of_round starts edge route branches
  have inside {slots : List Nat} (route : code.Route header latch slots)
      (once : header ∉ slots.tail) : ∀ slot ∈ slots, slot ∈ body :=
    fun slot listed => belongs.mpr (route.loops_of_header reached' once slot listed)
  have once := back.once_of_nodup distinct
  have standing := known branch (inside back once branch (passes back))
  rcases wellFormed.exists_decides standing
    (fun slot listed => Code.lt_of_mem_startsFrom (known slot listed)) tests with
    ⟨inner, within, outer, without, stays, leaves, _, _, decides⟩
  rcases decides.reading among with ⟨counter, limit, names, reads, decides⟩
  have changes := wellFormed.changes_counter known names counts
  have unchanged := LoopTest.limit_fixed wellFormed known reads fixed
  have turns {slots : List Nat} (route : code.Route header latch slots)
      (once : header ∉ slots.tail) := wellFormed.changes_along known names counts
    (inside route once) (Code.exists_site_of_hasWayAround (Code.lt_of_mem_startsFrom starts) closed
      route (inside route once) once)
  exact ⟨counter, limit, {
    closes := noted
    turns := ⟨turn, back, once⟩
    body := fun slot => belongs
    names := names
    reads := reads
    moves := (Code.counterSteps?_eq_some counts).1
    small := code.natAbs_changeAt_le reading.counter
    changes := fun slot listed =>
      (changes slot listed).imp_right fun adds => ⟨adds.1.1, adds.2⟩
    fixed := unchanged
    rounds := fun slots round =>
      ⟨inside round.route round.once, passes round.route, turns round.route round.once⟩
    runs := fun slots round setup machine final runs goes => by
      have within := inside round.route round.once
      subst runs
      exact ⟨goes.register_eq fun slot passed =>
          (changes slot (within slot passed)).imp_right And.right,
        goes.limit_eq fun slot passed machine =>
          unchanged slot (within slot passed) setup machine rfl⟩
    leaves := ⟨inner, within, outer, without, stays, leaves, decides⟩ }⟩

end

namespace Graph

deriving instance DecidableEq for CountedLoop

/-- Every loop that is recognized in a program that passed the structural checks is what it claims
to be, with the constants in its instructions for changes of the counter. -/
theorem countedLoops_shaped
    {code : Code} {limit : Nat} {loops : List CountedLoop}
    (structured : code.checkStructure limit = .ok ())
    (found : (ofCode code).countedLoops code = .ok loops) :
    ∀ loop ∈ loops, ∃ counter limit,
      loop.Shaped code counter limit (code.changeAt loop.counter) := by
  intro loop listed
  rcases Checked.exists_item_of_mapM found listed with ⟨⟨latch, header⟩, noted, made⟩
  dsimp only at made
  split at made
  case h_1 counted =>
    cases made
    exact (Code.wellFormed_of_checkStructure structured).shaped_of_countedLoop? noted counted
  case h_2 => cases made

/-- Count up to what is in a register, by one or by three; the limit is compared with the counter,
and not the counter with the limit. -/
def hastenedCode : Code :=
  #[⟨0xb7, 1, 0, 0, 0⟩, ⟨0xb7, 2, 0, 0, 10⟩, ⟨0x15, 3, 0, 1, 0⟩, ⟨0x07, 1, 0, 0, 2⟩,
    ⟨0x07, 1, 0, 0, 1⟩, ⟨0x2d, 2, 1, -4, 0⟩, ⟨0x95, 0, 0, 0, 0⟩]

/-- The loop from slot five back to slot two, which goes on while the counter is below the second
register; one way round adds one, the other three. -/
def hastenedLoop : CountedLoop :=
  ⟨2, 5, [2, 3, 4, 5], 1, 1, .register 2, .below, 5⟩

theorem countedLoops_shaped_hastened :
    hastenedCode.checkStructure 7 = .ok () ∧
      (ofCode hastenedCode).countedLoops hastenedCode = .ok [hastenedLoop] ∧
      ∃ counter limit,
        hastenedLoop.Shaped hastenedCode counter limit (hastenedCode.changeAt 1) := by
  have structured : hastenedCode.checkStructure 7 = .ok () := by decide +kernel
  have found : (ofCode hastenedCode).countedLoops hastenedCode = .ok [hastenedLoop] := by
    decide +kernel
  exact ⟨structured, found,
    countedLoops_shaped structured found hastenedLoop (List.mem_singleton_self _)⟩

end Graph

end PacketFilter
