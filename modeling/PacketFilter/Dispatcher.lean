import PacketFilter.Machine.Run
import PacketFilter.Text.Quoted

/-!
# The dispatcher

Runs the attached program on every packet that is received, turns its verdict
into an action under the attachment's own failure policy, and counts verdicts.
Each worker has a stack of its own that is kept from packet to packet.
-/

namespace PacketFilter

/-- A program in force, and what happens to packets on which it fails. -/
structure Attachment where
  program : VerifiedProgram
  policy : FailurePolicy
  deriving Repr

/-- Why a program cannot be attached. -/
inductive AttachError where
  /-- An array per worker was made for fewer workers than there are. -/
  | tooFewCopies (map : String) (copies workers : Nat)
  deriving DecidableEq, Repr

namespace AttachError

/-- The wording of the error. -/
def message : AttachError → String
  | tooFewCopies map copies workers =>
    "map " ++ Text.Quoted.quote map ++
      s!" has {copies} per-worker copies but {workers} workers receive packets"

end AttachError

/-- How many packets were received and what became of them, each counter modulo 2^64. -/
structure PacketCounts where
  packets : Word := 0
  forwarded : Word := 0
  dropped : Word := 0
  bounced : Word := 0
  redirected : Word := 0
  errors : Word := 0
  /-- Packets received while no program was attached. -/
  withoutProgram : Word := 0
  deriving DecidableEq, Repr

namespace PacketCounts

def addVerdict (counts : PacketCounts) : Verdict → PacketCounts
  | .forward => { counts with forwarded := counts.forwarded + 1 }
  | .drop => { counts with dropped := counts.dropped + 1 }
  | .bounce => { counts with bounced := counts.bounced + 1 }
  | .redirect _ => { counts with redirected := counts.redirected + 1 }
  | .error => { counts with errors := counts.errors + 1 }

end PacketCounts

/-- How far a packet got. -/
inductive PacketStage where
  | received
  | dispatched
  | verdicted
  /-- The host has carried out the action. -/
  | applied
  deriving DecidableEq, Repr

namespace PacketStage

/-- The stage as a single word. -/
def name : PacketStage → String
  | received => "Received"
  | dispatched => "Dispatched"
  | verdicted => "Verdicted"
  | applied => "Applied"

end PacketStage

/-- What became of a packet. -/
structure Dispatch where
  verdict : Verdict
  action : Action
  stage : PacketStage
  /-- The packet as the program left it. -/
  packet : Bytes
  deriving Repr

/-- Runs the attached program on received packets. -/
structure Dispatcher where
  engine : Engine
  /-- The policy of attachments that do not name one. -/
  policy : FailurePolicy
  attachment? : Option Attachment := none
  /-- One stack for every worker. -/
  areas : Array WorkArea
  counts : PacketCounts := {}
  deriving Repr

namespace Dispatcher

/-- A dispatcher for at least one worker, with no program attached. -/
def create (engine : Engine) (workers : Nat) (policy : FailurePolicy) : Dispatcher :=
  { engine, policy, areas := Array.replicate (max 1 workers) engine.workArea }

def workers (dispatcher : Dispatcher) : Nat :=
  dispatcher.areas.size

/-- The map of a number as an array per worker that was made for too few workers, if it is one. -/
def copyProblem? (dispatcher : Dispatcher) (store : Store) (id : MapId) : Option AttachError := do
  let map ← store.map? id
  let copies ← map.workers?
  if copies < dispatcher.workers then
    some (.tooFewCopies map.name copies dispatcher.workers)
  else
    none

/-- Put a program in force; the attachment before it. -/
def attach (dispatcher : Dispatcher) (store : Store) (program : VerifiedProgram)
    (policy : FailurePolicy) : Except AttachError (Option Attachment × Dispatcher) :=
  match program.maps.findSome? (dispatcher.copyProblem? store) with
  | some error => .error error
  | none =>
    let attachment? := some { program, policy }
    .ok (dispatcher.attachment?, { dispatcher with attachment? })

/-- Put no program in force; the attachment before. -/
def detach (dispatcher : Dispatcher) : Option Attachment × Dispatcher :=
  (dispatcher.attachment?, { dispatcher with attachment? := none })

/-- Run a program for a worker; the verdict and the packet afterwards.  Where there is no such
worker nothing is run. -/
def runFor (dispatcher : Dispatcher) (clock : Clock) (program : VerifiedProgram) (packet : Bytes)
    (metadata : Metadata) (store : Store) : Verdict × Bytes × Dispatcher × Store :=
  match dispatcher.areas[metadata.worker]? with
  | none => (.error, packet, dispatcher, store)
  | some area =>
    let result := dispatcher.engine.run clock program { packet, metadata } area store
    let areas := dispatcher.areas.setIfInBounds metadata.worker result.area
    (result.context.verdict?.getD .error, result.context.packet, { dispatcher with areas },
      result.store)

def countPacket (dispatcher : Dispatcher) : Dispatcher :=
  { dispatcher with
    counts := { dispatcher.counts with packets := dispatcher.counts.packets + 1 } }

/-- Receive a packet: run the attached program on it and decide what to do.  With no program
attached it is forwarded. -/
def receive (dispatcher : Dispatcher) (clock : Clock) (packet : Bytes) (metadata : Metadata)
    (store : Store) : Dispatch × Dispatcher × Store :=
  let dispatcher := dispatcher.countPacket
  match dispatcher.attachment? with
  | none =>
    let counts :=
      { dispatcher.counts with withoutProgram := dispatcher.counts.withoutProgram + 1 }
    (⟨.forward, .forward, .verdicted, packet⟩, { dispatcher with counts }, store)
  | some attachment =>
    let (verdict, packet, dispatcher, store) :=
      dispatcher.runFor clock attachment.program packet metadata store
    let action := Action.ofVerdict attachment.policy verdict
    (⟨verdict, action, .verdicted, packet⟩,
      { dispatcher with counts := dispatcher.counts.addVerdict verdict }, store)

end Dispatcher

/-- A host that keeps what it was told to do with which packet. -/
structure HostRecord where
  applied : Array (Action × Bytes) := #[]
  deriving Repr

namespace HostRecord

/-- Carry out an action. -/
def apply (host : HostRecord) (action : Action) (packet : Bytes) : HostRecord :=
  ⟨host.applied.push (action, packet)⟩

/-- How many packets met with an action. -/
def count (host : HostRecord) (action : Action) : Nat :=
  host.applied.countP (·.1 = action)

end HostRecord

/-- Receive a packet and have the host carry out the action. -/
def Dispatcher.process (dispatcher : Dispatcher) (clock : Clock) (packet : Bytes)
    (metadata : Metadata) (store : Store) (host : HostRecord) :
    Dispatch × Dispatcher × Store × HostRecord :=
  let (dispatch, dispatcher, store) := dispatcher.receive clock packet metadata store
  ({ dispatch with stage := .applied }, dispatcher, store,
    host.apply dispatch.action dispatch.packet)

end PacketFilter
