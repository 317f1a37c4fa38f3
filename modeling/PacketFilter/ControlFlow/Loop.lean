import PacketFilter.ControlFlow.Graph
import PacketFilter.Instruction.Atomic
import PacketFilter.Rejection

/-!
# Counted loops

Every back edge of an acceptable program closes a counted loop: some register
is changed in the loop only by constant steps of one sign, is stepped on every
way round, and is compared with a constant or with a register that the loop
leaves alone, by a branch that leaves the loop.  `countedLoops` finds that
register and that branch for every back edge or rejects the program.
-/

namespace PacketFilter

/-- What a loop counter is compared with. -/
inductive LoopLimit where
  | constant (value : Word)
  | register (number : UInt8)
  deriving DecidableEq, Repr

/-- The shape of a counted loop. -/
structure CountedLoop where
  header : Nat
  /-- The source of the back edge. -/
  latch : Nat
  body : List Nat
  counter : UInt8
  /-- The step of least magnitude. -/
  step : Int
  limit : LoopLimit
  /-- The comparison under which the loop goes on, with the counter on the left. -/
  comparison : Comparison
  /-- The branch that makes the comparison. -/
  branch : Nat
  deriving Repr

namespace Instruction

/-- The registers that the instruction may overwrite. -/
def writtenRegisters (instruction : Instruction) : List UInt8 :=
  match instruction.family with
  | .arithmetic | .arithmetic32 | .load => [instruction.destination]
  | .wideLoad => if instruction.isWideLoad then [instruction.destination] else []
  | .storeRegister =>
    if instruction.isAtomic then
      if instruction.immediate = AtomicOperation.compareExchangeCode then [0]
      else if AtomicOperation.fetches instruction.immediate then [instruction.source]
      else []
    else []
  | .jump => if instruction.isCall then [0, 1, 2, 3, 4, 5] else []
  | .storeImmediate | .jump32 => []

/-- The step, when the instruction adds a constant other than zero to a register or subtracts
one. -/
def counterStep? (instruction : Instruction) : Option Int :=
  if instruction.family ≠ .arithmetic ∨ instruction.hasRegisterOperand ∨
      instruction.immediate = 0 then
    none
  else if instruction.operationField = Arithmetic.add.code then
    some instruction.immediate.toInt
  else if instruction.operationField = Arithmetic.sub.code then
    some (-instruction.immediate.toInt)
  else
    none

end Instruction

namespace Code

/-- The instruction in the slot may leave the register with another value; past the end there is
none. -/
def writesRegister (code : Code) (slot : Nat) (register : UInt8) : Bool :=
  (code[slot]?.map fun instruction => instruction.writtenRegisters.contains register).getD false

/-- The step that the instruction at a slot applies to the register, when that is all it does to
it. -/
def stepAt? (code : Code) (register : UInt8) (slot : Nat) : Option Int := do
  let instruction ← code[slot]?
  if instruction.destination = register then instruction.counterStep? else none

/-- Of two steps of one sign, the one of lesser magnitude, the first when they are equal. -/
def lesserStep? (first second : Int) : Option Int :=
  if first.sign ≠ second.sign then none
  else if second.natAbs < first.natAbs then some second
  else some first

/-- The least step among those of one sign. -/
def leastStep? : List Int → Option Int
  | [] => none
  | first :: rest => rest.foldlM lesserStep? first

/-- The least step by which a loop changes the register and the slots that step it; nothing when
the loop leaves the register alone or changes it in any other way. -/
def counterSteps? (code : Code) (body : List Nat) (register : UInt8) :
    Option (Int × List Nat) := do
  let sites := body.filter fun slot => code.writesRegister slot register
  let steps ← sites.mapM (code.stepAt? register)
  let least ← leastStep? steps
  return (least, sites)

/-- No instruction of the body writes the register. -/
def leavesAlone (code : Code) (body : List Nat) (register : UInt8) : Bool :=
  body.all fun slot => !code.writesRegister slot register

/-- Whether the goal can be reached inside the body, from the listed slots on, without coming by
`start` again or passing a slot to avoid. -/
def reachesAvoiding (code : Code) (body : Array Bool) (start goal : Nat) :
    Nat → List Nat → Array Bool → Bool
  | 0, _, _ => false
  | _ + 1, [], _ => false
  | allowance + 1, slot :: work, avoided =>
    if avoided[slot]?.getD true then
      reachesAvoiding code body start goal allowance work avoided
    else if slot = goal then
      true
    else
      let next := (code.successors slot).filter fun target =>
        (body[target]?.getD false) && target != start
      reachesAvoiding code body start goal allowance (next ++ work)
        (avoided.setIfInBounds slot true)

/-- Whether some way from header to latch inside the body passes none of the sites. -/
def hasWayAround (code : Code) (body sites : List Nat) (header latch : Nat) : Bool :=
  code.reachesAvoiding (Graph.marks code.size body) header latch (2 * code.size + 2) [header]
    (Graph.marks code.size sites)

end Code

/-- A comparison of this kind comes to fail when the counter moves by steps of this sign. -/
def Comparison.isApproachedBy (comparison : Comparison) (step : Int) : Bool :=
  match comparison with
  | .below | .atMost | .signedBelow | .signedAtMost => 0 < step
  | .above | .atLeast | .signedAbove | .signedAtLeast => step < 0
  | .differ => step.natAbs == 1
  | .equal | .sharesBit | .sharesNone => false

/-- A test that may leave a loop: a register, what it is compared with, and the comparison under
which the loop goes on. -/
structure LoopTest where
  counter : UInt8
  limit : LoopLimit
  comparison : Comparison
  deriving Repr

namespace Code

/-- The test made by the branch at a slot, when exactly one of its edges stays in the body. -/
def loopTest? (code : Code) (body : List Nat) (slot : Nat) : Option LoopTest := do
  let instruction ← code[slot]?
  guard (instruction.family = .jump ∧ instruction.isConditionalJump)
  let target ← instruction.jumpTarget? slot code.size
  let comparison ← Comparison.ofCode? instruction.operationField
  let continued ←
    match body.contains target, body.contains (slot + 1) with
    | true, false => some comparison
    | false, true => some comparison.negate
    | _, _ => none
  let limit :=
    if instruction.hasRegisterOperand then LoopLimit.register instruction.source
    else .constant (Word.ofImmediate instruction.immediate)
  return ⟨instruction.destination, limit, continued⟩

end Code

namespace LoopTest

/-- The readings of a test: of two compared registers either may be the counter. -/
def readings (test : LoopTest) : List LoopTest :=
  match test.limit with
  | .constant _ => [test]
  | .register number => [test, ⟨number, .register test.counter, test.comparison.swap⟩]

/-- The limit stays the same all through the loop. -/
def limitIsFixed (test : LoopTest) (code : Code) (body : List Nat) : Bool :=
  match test.limit with
  | .constant _ => true
  | .register number => code.leavesAlone body number

/-- The loop that the test bounds, when its counter is stepped towards the limit on every way
round. -/
def loop? (test : LoopTest) (code : Code) (body : List Nat) (latch header branch : Nat) :
    Option CountedLoop := do
  let (step, sites) ← code.counterSteps? body test.counter
  guard (test.limitIsFixed code body)
  guard (test.comparison.isApproachedBy step)
  guard !(code.hasWayAround body sites header latch)
  return {
    header, latch, body, step, branch
    counter := test.counter
    limit := test.limit
    comparison := test.comparison }

end LoopTest

namespace Graph

/-- The counted loop that a back edge closes; the test is looked for at the latch and at the end
of the header's block. -/
def countedLoop? (graph : Graph) (code : Code) (latch header : Nat) : Option CountedLoop :=
  let body := graph.naturalLoop code latch header
  let headerEnd := ((graph.blockOf? header).map Block.last).getD header
  let branches := if headerEnd = latch then [latch] else [latch, headerEnd]
  branches.findSome? fun branch =>
    (code.loopTest? body branch).bind fun test =>
      test.readings.findSome? fun reading => reading.loop? code body latch header branch

/-- The counted loops of all back edges, in the order of the edges. -/
def countedLoops (graph : Graph) (code : Code) : Except Rejection (List CountedLoop) :=
  graph.backEdges.mapM fun (latch, header) =>
    match graph.countedLoop? code latch header with
    | some loop => .ok loop
    | none => .error (.atSlot latch (.uncountedLoop header))

end Graph

end PacketFilter
