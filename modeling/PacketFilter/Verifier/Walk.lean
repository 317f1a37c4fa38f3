import PacketFilter.Abstract.Renaming
import PacketFilter.ControlFlow.Loop
import PacketFilter.ControlFlow.TripCount
import PacketFilter.Verifier.Log
import PacketFilter.Verifier.Statistics
import PacketFilter.Verifier.Transfer

/-!
# The walk over all paths

Every feasible path of a program is followed, depth first: a branch with two
feasible edges puts the one that falls through aside and goes on with the
other, and at the end of a path the one put aside last is taken up.  At the
start of a block a state like one seen there before ends the path.

Going round a loop is allowed only while the bounds of its counter show that
it ends within the trip limit.

`Walk.step` is one iteration; `Walk.run` repeats it within a budget of
instructions, which is what makes the walk end.
-/

namespace PacketFilter

/-- What the verifier is willing to spend on a program. -/
structure Limits where
  /-- The greatest number of slots. -/
  length : Nat := 4096
  /-- The greatest number of instructions checked over all paths. -/
  complexity : Nat := 1000000
  /-- The greatest number of states kept for one instruction. -/
  states : Nat := 64
  /-- The greatest number of trips that a loop may still have before it. -/
  trips : Nat := 65536
  deriving DecidableEq, Repr

/-- What stays the same during a walk. -/
structure Journey where
  code : Code
  setting : Setting
  limits : Limits
  graph : Graph
  loops : List CountedLoop

/-- A path put aside. -/
structure PendingPath where
  state : AbstractState
  position : Nat
  depth : Nat

/-- A walk in progress. -/
structure Walk where
  focus : Focus
  /-- The instruction about to be checked. -/
  position : Nat
  /-- How many instructions lead here on this path. -/
  depth : Nat
  /-- The paths put aside, the latest first. -/
  pending : List PendingPath
  /-- For every slot, the states seen there. -/
  explored : Array (List AbstractState)
  statistics : Statistics
  log : Log

/-- What one iteration of the walk leads to. -/
inductive Progress where
  | continue (walk : Walk)
  | finished (walk : Walk)
  | rejected (log : Log) (rejection : Rejection)

namespace Journey

/-- States are compared at the start of every block. -/
def isBlockStart (journey : Journey) (position : Nat) : Bool :=
  journey.graph.blocks.any fun block => block.start == position

/-- The limit that a loop counter is compared with, as far as it is known. -/
def limitBounds (state : AbstractState) : LoopLimit → Checked Bounds
  | .constant value => .ok (.constant value)
  | .register number => do
    let value := (state.registers[number.toNat]?).getD .uninitialized
    demand value.isScalar (.limitNotScalar number)
    return value.bounds

/-- The counter of the loop, with the state at its back edge, leaves it within the trip limit. -/
def checkTrips (journey : Journey) (loop : CountedLoop) (state : AbstractState) :
    Checked Unit := do
  let counter := (state.registers[loop.counter.toNat]?).getD .uninitialized
  demand counter.isScalar (.counterNotScalar loop.counter)
  let limit ← limitBounds state loop.limit
  match remainingTrips? loop.comparison counter.bounds limit loop.step with
  | none => throw (.unboundedTrips loop.header loop.counter)
  | some trips => demand (trips ≤ journey.limits.trips) (.tooManyTrips trips journey.limits.trips)

/-- An edge may be followed: if it closes a loop, the loop is known to end. -/
def checkEdge (journey : Journey) (source target : Nat) (state : AbstractState) :
    Checked Unit :=
  if journey.graph.isBackEdge source target then
    match journey.loops.find? fun loop => loop.latch == source && loop.header == target with
    | some loop => journey.checkTrips loop state
    | none => .error (.unknownBackEdge target)
  else
    .ok ()

end Journey

namespace Walk

/-- The walk at the first instruction. -/
def start (journey : Journey) (log : Log) : Walk where
  focus := { state := .entry }
  position := 0
  depth := 0
  pending := []
  explored := Array.replicate journey.code.size []
  statistics := { length := journey.code.size, loops := journey.loops.length }
  log

/-- End the path and take up the one put aside last, if there is one. -/
def takePending (walk : Walk) : Progress :=
  match walk.pending with
  | [] => .finished walk
  | path :: pending =>
    .continue
      { walk with
        focus := { walk.focus with state := path.state }
        position := path.position
        depth := path.depth
        pending }

/-- Refuse the program at the current instruction. -/
def refuse (walk : Walk) (cause : RejectionCause) : Progress :=
  .rejected walk.log (.atSlot walk.position cause)

/-- Go on to an instruction, if the edge there may be followed. -/
def advance (walk : Walk) (journey : Journey) (target : Nat) : Progress :=
  match journey.checkEdge walk.position target walk.focus.state with
  | .error cause => walk.refuse cause
  | .ok () => .continue { walk with position := target, depth := walk.depth + 1 }

/-- Put a path aside. -/
def putAside (walk : Walk) (state : AbstractState) (target : Nat) : Walk :=
  let pending := ⟨state, target, walk.depth + 1⟩ :: walk.pending
  { walk with
    pending
    statistics := { walk.statistics with
      branches := walk.statistics.branches + 1
      peakPending := max walk.statistics.peakPending pending.length } }

/-- Replace what is known at the current place. -/
def withState (walk : Walk) (state : AbstractState) : Walk :=
  { walk with focus := { walk.focus with state } }

/-- Follow the feasible edges of a branch. -/
def followBranch (walk : Walk) (journey : Journey) (target : Nat)
    (taken? fall? : Option AbstractState) : Progress :=
  let next := walk.position + 1
  match taken?, fall? with
  | some taken, some fall =>
    let walk := { walk with log := walk.log.addBranch walk.position "unknown" target }
    match journey.checkEdge walk.position next fall with
    | .error cause => walk.refuse cause
    | .ok () => ((walk.putAside fall next).withState taken).advance journey target
  | some taken, none =>
    let walk := { walk with log := walk.log.addBranch walk.position "always taken" target }
    (walk.withState taken).advance journey target
  | none, some fall =>
    let walk := { walk with log := walk.log.addBranch walk.position "never taken" next }
    (walk.withState fall).advance journey next
  | none, none => walk.takePending

/-- Go where an instruction leads. -/
def follow (walk : Walk) (journey : Journey) (instruction : Instruction) (course : Course) :
    Progress :=
  let target? := instruction.jumpTarget? walk.position journey.code.size
  match course, target? with
  | .next, _ => walk.advance journey (walk.position + instruction.span)
  | .exit, _ => walk.takePending
  | .jump, some target => walk.advance journey target
  | .branch taken? fall?, some target => walk.followBranch journey target taken? fall?
  | .jump, none | .branch _ _, none => walk.refuse (.jumpOutOfRange instruction.offset.toInt)

/-- A call is noted once it is known to be permitted, before its arguments are looked at. -/
def noteCall (walk : Walk) (journey : Journey) (operation : Operation) : Walk :=
  match operation with
  | .call immediate =>
    match permittedHelper journey.setting.attach immediate with
    | .ok helper => { walk with log := walk.log.addCall walk.position helper }
    | .error _ => walk
  | _ => walk

/-- Check the current instruction and go where it leads. -/
def visit (walk : Walk) (journey : Journey) : Progress :=
  match journey.code[walk.position]? with
  | none => walk.refuse .leftProgram
  | some instruction =>
    let log := walk.log.addInstruction journey.code walk.position walk.focus.state
    let walk := { walk with log }
    match journey.code.operation? walk.position with
    | none => walk.refuse (.undecodable instruction.code)
    | some operation =>
      let walk := walk.noteCall journey operation
      match transfer journey.setting walk.focus operation with
      | .error cause => walk.refuse cause
      | .ok (focus, course) => { walk with focus }.follow journey instruction course

/-- A state like the current one has been seen at this instruction. -/
def hasSeen (walk : Walk) : Bool :=
  (walk.explored[walk.position]?.getD []).any walk.focus.state.isAlike

/-- Keep the current state to compare with, unless enough are kept. -/
def remember (walk : Walk) (journey : Journey) : Walk :=
  let seen := walk.explored[walk.position]?.getD []
  if seen.length < journey.limits.states then
    { walk with
      explored := walk.explored.setIfInBounds walk.position (walk.focus.state :: seen)
      statistics := { walk.statistics with stored := walk.statistics.stored + 1 } }
  else
    walk

/-- Count the current instruction. -/
def count (walk : Walk) : Walk :=
  { walk with statistics := { walk.statistics with
      processed := walk.statistics.processed + 1
      depth := max walk.statistics.depth walk.depth } }

/-- End a path whose continuation has been explored. -/
def prune (walk : Walk) : Progress :=
  takePending
    { walk with
      log := walk.log.addPruned walk.position
      statistics := { walk.statistics with pruned := walk.statistics.pruned + 1 } }

/-- One iteration of the walk. -/
def step (journey : Journey) (walk : Walk) : Progress :=
  let walk := walk.count
  if journey.isBlockStart walk.position then
    if walk.hasSeen then walk.prune else (walk.remember journey).visit journey
  else
    walk.visit journey

/-- Iterate until the walk is over or as many instructions have been checked as are allowed. -/
def run (journey : Journey) (walk : Walk) : Nat → Progress
  | 0 => walk.refuse (.tooComplex journey.limits.complexity)
  | budget + 1 =>
    match walk.step journey with
    | .continue walk => run journey walk budget
    | outcome => outcome

end Walk

end PacketFilter
