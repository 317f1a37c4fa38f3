import PacketFilter.Machine.Step
import PacketFilter.Program

/-!
# Runs

A run carries out a program on one packet until it exits, fails or has used up
its budget of instructions.  Whatever way it ends, the records that it still
holds are discarded; ending on its own while it holds some is a fault.
-/

namespace PacketFilter

namespace Machine

/-- Step at most so many times; the code at exit or the fault, and the machine at the end. -/
def runWithin (setup : Setup) : Nat → Machine → Except Fault Word × Machine
  | 0, machine => (.error (.budgetExceeded setup.budget), machine)
  | steps + 1, machine =>
    match (Execution.step setup).run machine with
    | (.error fault, machine) => (.error fault, machine)
    | (.ok (some code), machine) => (.ok code, machine)
    | (.ok none, machine) => runWithin setup steps machine

/-- Discard the records still held; holding any at an exit is a fault. -/
def close (result : Except Fault Word) (machine : Machine) : Except Fault Word × Machine :=
  let closed := { machine with memory := machine.memory.discardOpen }
  match result with
  | .error fault => (.error fault, closed)
  | .ok code =>
    if machine.memory.openRecords.isEmpty then (.ok code, closed)
    else (.error .unreleasedReservation, closed)

/-- Run a machine to its end. -/
def run (setup : Setup) (machine : Machine) : Except Fault Word × Machine :=
  let (result, machine) := machine.runWithin setup setup.budget
  machine.close result

end Machine

/-- What a program sees of one packet, and what became of it. -/
structure PacketContext where
  packet : Bytes
  metadata : Metadata := {}
  scratch : Bytes := Array.replicate ContextField.scratch.size 0
  /-- The verdict of the last run. -/
  verdict? : Option Verdict := none
  deriving Repr

/-- The stack that a worker keeps from run to run. -/
structure WorkArea where
  stack : Bytes
  deriving Repr

namespace WorkArea

/-- A stack of the size, all zeros. -/
def zeroed (size : Nat) : WorkArea :=
  ⟨Array.replicate size 0⟩

/-- Get ready for a program that touches at most `frame` bytes at the end of the stack.  Only
those are cleared, unless the size changes. -/
def reset (area : WorkArea) (size frame : Nat) : WorkArea :=
  if area.stack.size ≠ size then
    zeroed size
  else
    let frame := min frame size
    ⟨Bytes.overwrite area.stack (size - frame) (List.replicate frame 0)⟩

end WorkArea

/-- How programs are run. -/
structure Engine where
  /-- How many instructions a run may take. -/
  budget : Nat := 1000000
  stackSize : Nat := 512
  deriving DecidableEq, Repr

/-- What a run leaves behind. -/
structure RunResult where
  outcome : Except Fault Verdict
  context : PacketContext
  area : WorkArea
  store : Store

namespace Engine

/-- A work area of the size that the engine uses. -/
def workArea (engine : Engine) : WorkArea :=
  .zeroed engine.stackSize

/-- What a run of a program works with. -/
def setup (engine : Engine) (clock : Clock) (program : VerifiedProgram) : Setup where
  code := program.program.code
  maps := program.maps
  attach := program.program.attach
  clock
  budget := engine.budget

/-- The memory at the start of a run. -/
def memory (context : PacketContext) (area : WorkArea) (store : Store) : Memory where
  packet := context.packet
  scratch := context.scratch
  metadata := context.metadata
  stack := area.stack
  store

/-- Run a program on a packet.  The verdict also stays in the context, where a failed run counts
as an error. -/
def run (engine : Engine) (clock : Clock) (program : VerifiedProgram) (context : PacketContext)
    (area : WorkArea) (store : Store) : RunResult :=
  let area := area.reset engine.stackSize program.statistics.stackDepth
  let machine := Machine.start (memory context area store)
  let (result, machine) := machine.run (engine.setup clock program)
  let outcome := result.bind fun code => Verdict.ofCode code machine.redirectTarget?
  let verdict := match outcome with
    | .ok verdict => verdict
    | .error _ => .error
  { outcome
    context :=
      { context with
        packet := machine.memory.packet
        scratch := machine.memory.scratch
        verdict? := some verdict }
    area := ⟨machine.memory.stack⟩
    store := machine.memory.store }

end Engine

end PacketFilter
