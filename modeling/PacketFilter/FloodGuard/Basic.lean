import PacketFilter.FloodGuard.Program

/-!
# The flood guard

Keeps floods of packets away: packets of blocked sources are dropped, and so
are packets of a flow beyond a threshold.  Packets are counted per flow until
the control plane starts a new window.
-/

namespace PacketFilter

/-- What the guard can be told when it is set up. -/
structure FloodGuardConfig where
  /-- How many packets a flow may send in a window; zero for no limit. -/
  threshold : Word := 100
  /-- The capacity of the table of flows. -/
  maxFlows : Nat := 65536
  /-- The capacity of the block list. -/
  maxBlocked : Nat := 16384
  /-- How many reports of drops can wait to be read. -/
  eventSlots : Nat := 1024
  deriving DecidableEq, Repr

/-- The report of a dropped packet.  Packets of blocked sources are dropped before their ports are
looked at, which are zero in the report. -/
structure DropEvent where
  flow : Flow
  reason : DropReason
  /-- The reading of the clock. -/
  time : Word
  deriving DecidableEq, Repr

namespace DropEvent

/-- Read a record of the ring: the flow without its padding, the reason, two bytes that do not
matter, and the time. -/
def ofBytes? (record : Bytes) : Option DropEvent :=
  if record.size < FloodGuard.eventSize then
    none
  else do
    let flow ← Flow.ofBytes? (record.extract 0 Flow.size)
    let reason ← DropReason.ofCode? (Header.byteAt record 13)
    return { flow, reason, time := Word.ofBytes (Bytes.slice record 16 8) }

end DropEvent

/-- What the guard has counted, over all workers. -/
structure FloodCounts where
  /-- Forwarded as part of a flow. -/
  passed : Word
  blocked : Word
  rateLimited : Word
  /-- Forwarded without being part of a flow. -/
  untracked : Word
  deriving DecidableEq, Repr

/-- The maps of a guard. -/
structure FloodGuard where
  /-- Blocked sources, with the packets dropped since they were blocked. -/
  blocklist : TypedTable Address Word
  /-- The packets counted for each flow. -/
  flows : TypedTable Flow Word
  counters : WorkerArray Word
  settings : TypedArray Word
  events : RecordQueue
  bindings : List MapBinding

namespace FloodGuard

open ApplicationAction

/-- Addresses as keys. -/
def addressLayout : Layout Address where
  size := 4
  encode address := address.toList.toArray
  decode? bytes := Address.ofList? bytes.toList

/-- Counts of eight bytes. -/
def countLayout : Layout Word :=
  .word 8

/-- The maps of a guard, in the order of the program. -/
def schemas (config : FloodGuardConfig) : List (String × Schema) :=
  [("ddos_blocklist", .hash 4 8 config.maxBlocked),
    ("ddos_flows", .recencyHash Flow.size 8 config.maxFlows),
    ("ddos_stats", .perWorkerArray 8 counterCount),
    ("ddos_config", .array 8 1),
    ("ddos_events", .ringBuffer eventSize config.eventSlots)]

/-- The views of the maps that have been created for a guard. -/
def ofMaps (config : FloodGuardConfig) (maps : List MapId) : StoreAction FloodGuard := do
  let map (number : Int32) : MapId := maps[number.toNatClampNeg]?.getD 0
  return {
    blocklist := ← TypedTable.ofMap .hash (map blocklistMap) addressLayout countLayout
    flows := ← TypedTable.ofMap .recencyHash (map flowsMap) Flow.layout countLayout
    counters := ← WorkerArray.ofMap (map countersMap) countLayout
    settings := ← TypedArray.ofMap (map settingsMap) countLayout
    events := ← RecordQueue.ofMap (map eventsMap)
    bindings := (schemas config).map fun entry => .ofSchema entry.1 entry.2 }

/-- Change the threshold, from the next packet on. -/
def setThreshold (guard : FloodGuard) (threshold : Word) : ApplicationAction Unit :=
  onMaps (guard.settings.set thresholdSetting threshold)

/-- Create the maps of a guard and set its threshold. -/
def create (config : FloodGuardConfig) : ApplicationAction FloodGuard := do
  let maps ← createMaps (schemas config)
  let guard ← onMaps (ofMaps config maps)
  guard.setThreshold config.threshold
  return guard

/-- Insert an address that is not in the block list. -/
def insertBlocked (guard : FloodGuard) (address : Address) : StoreAction Unit :=
  guard.blocklist.insert address 0 .createOnly

/-- Drop all packets of a source; nothing changes when it is blocked already. -/
def block (guard : FloodGuard) (address : Address) : ApplicationAction Unit :=
  onMaps do
    try guard.insertBlocked address
    catch error =>
      if error = .keyExists then return else throw error

/-- Stop dropping packets of a source; whether it was blocked. -/
def unblock (guard : FloodGuard) (address : Address) : ApplicationAction Bool := do
  return (← onMaps (guard.blocklist.remove address)).isSome

/-- How many packets of a source have been dropped since it was blocked, if it is. -/
def hits (guard : FloodGuard) (address : Address) : ApplicationAction (Option Word) :=
  onMaps (guard.blocklist.get address)

/-- Whether packets from the address are dropped at once. -/
def isBlocked (guard : FloodGuard) (address : Address) : ApplicationAction Bool := do
  return (← guard.hits address).isSome

def blocked (guard : FloodGuard) : ApplicationAction (List Address) :=
  onMaps guard.blocklist.keys

/-- How many packets a flow may send in one window; zero until it is set. -/
def threshold (guard : FloodGuard) : ApplicationAction Word := do
  return (← onMaps (guard.settings.get thresholdSetting)).getD 0

/-- The packets counted for a flow in this window; counts as a use of its entry. -/
def flowCount (guard : FloodGuard) (flow : Flow) : ApplicationAction (Option Word) :=
  onMaps (guard.flows.get flow)

/-- How many flows are being counted. -/
def flowsTracked (guard : FloodGuard) : ApplicationAction Nat :=
  onMaps guard.flows.size

/-- Remove a flow that may not be there; whether it was. -/
def forgetFlow (guard : FloodGuard) (flow : Flow) : StoreAction Bool := do
  try return (← guard.flows.remove flow).isSome
  catch _ => return false

/-- Start a new window by forgetting every flow; how many there were. -/
def resetWindow (guard : FloodGuard) : ApplicationAction Nat :=
  onMaps do
    let removed ← (← guard.flows.keys).mapM guard.forgetFlow
    return removed.count true

/-- What has been counted, over all workers. -/
def counts (guard : FloodGuard) : ApplicationAction FloodCounts :=
  onMaps do
    return {
      passed := ← guard.counters.sum passedCounter
      blocked := ← guard.counters.sum blockedCounter
      rateLimited := ← guard.counters.sum rateLimitedCounter
      untracked := ← guard.counters.sum untrackedCounter }

/-- Take the reports that wait to be read. -/
def drainEvents (guard : FloodGuard) : ApplicationAction (List DropEvent) := do
  return (← onMaps guard.events.drain).filterMap DropEvent.ofBytes?

/-- How many reports were lost for lack of room. -/
def eventsLost (guard : FloodGuard) : ApplicationAction Nat :=
  onMaps guard.events.refused

def program (guard : FloodGuard) : Except ApplicationError Program :=
  Application.program "ddos_filter" assembly guard.bindings

/-- Verify the packet program against the maps of a store. -/
def load (guard : FloodGuard) (store : Store) (elapsed : String) :
    Except ApplicationError VerifiedProgram := do
  Application.load (← guard.program) store elapsed

end FloodGuard

end PacketFilter
