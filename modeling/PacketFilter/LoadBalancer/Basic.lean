import PacketFilter.Digest
import PacketFilter.LoadBalancer.Program

/-!
# The load balancer

Spreads connections over a set of backends and keeps each one where it began.

Flows are spread over slots, and each slot belongs to the backend whose digest
under the number of the slot is greatest.  A backend that comes or goes
therefore moves no slots but those it wins or held.
-/

namespace PacketFilter

/-- A server that packets are sent to. -/
structure Backend where
  address : Address
  port : UInt16
  deriving DecidableEq, Repr

namespace Backend

/-- The backend as address and port. -/
def text (backend : Backend) : String :=
  backend.address.textWithPort backend.port

/-- The bytes that tell backends apart. -/
def identity (backend : Backend) : List UInt8 :=
  backend.address.toList ++ Header.numberBytes backend.port

end Backend

/-- The entry of a backend in its map. -/
structure BackendEntry where
  address : Address
  port : UInt16
  flags : UInt8
  deriving DecidableEq, Repr

namespace BackendEntry

/-- The entry of a backend that is in use. -/
def ofBackend (backend : Backend) : BackendEntry :=
  ⟨backend.address, backend.port, LoadBalancer.activeFlag⟩

/-- The entry stands for a backend, and not for one that has been removed. -/
def isActive (entry : BackendEntry) : Bool :=
  entry.flags &&& LoadBalancer.activeFlag != 0

/-- Address, port, flags and a zero. -/
def layout : Layout BackendEntry where
  size := 8
  encode entry :=
    (entry.address.toList ++ Header.numberBytes entry.port ++ [entry.flags, 0]).toArray
  decode? bytes :=
    if bytes.size = 8 then
      some
        { address := Header.addressAt bytes 0
          port := Header.numberAt bytes 4
          flags := Header.byteAt bytes 6 }
    else
      none

end BackendEntry

/-- The maps of a balancer and the backends it knows. -/
structure LoadBalancer where
  /-- The backend of each connection. -/
  connections : TypedTable Flow Word
  backendEntries : TypedArray BackendEntry
  /-- The backend that each slot belongs to. -/
  slots : TypedArray Word
  /-- The backends by their numbers. -/
  backendTable : Array (Option Backend)
  bindings : List MapBinding

namespace LoadBalancer

open ApplicationAction

/-- The capacity of the connection table when none is asked for. -/
def defaultConnections : Nat := 65536

/-- What stands in a slot that belongs to no backend. -/
def noBackend : Nat := 0xffffffff

/-- The maps of a balancer, in the order of the program. -/
def schemas (maxConnections : Nat) : List (String × Schema) :=
  [("lb_conntrack", .recencyHash Flow.size 8 maxConnections),
    ("lb_backends", .array BackendEntry.layout.size backendCount),
    ("lb_slots", .array 4 slotCount)]

/-- The slot of a flow. -/
def slotOf (flow : Flow) : Nat :=
  (Digest.ofBytes flow.toList).toNat % slotCount

/-- How strongly a backend claims a slot. -/
def score (slot : Nat) (backend : Backend) : Nat :=
  (Digest.ofSeededBytes (UInt32.ofNat slot) backend.identity).toNat

/-- The backends in use, with their numbers. -/
def activeBackends (balancer : LoadBalancer) : List (Nat × Backend) :=
  balancer.backendTable.toList.zipIdx.filterMap fun entry =>
    entry.1.map fun backend => (entry.2, backend)

/-- The stronger of two claims, each a score and the number of a backend; of equal scores the
greater number wins. -/
def stronger (left right : Nat × Nat) : Nat × Nat :=
  if left.1 < right.1 ∨ (left.1 = right.1 ∧ left.2 < right.2) then right else left

/-- The backend with the strongest claim on a slot. -/
def strongest? (slot : Nat) (backends : List (Nat × Backend)) : Option Nat :=
  match backends.map fun entry => (score slot entry.2, entry.1) with
  | [] => none
  | claim :: claims => some (claims.foldl stronger claim).2

/-- Give a slot to the one of the backends that it belongs to, if it has another. -/
def assignSlot (balancer : LoadBalancer) (backends : List (Nat × Backend)) (slot : Nat) :
    StoreAction Unit := do
  let owner := (strongest? slot backends).getD noBackend
  let owner : Word := BitVec.ofNat 64 owner
  unless (← balancer.slots.get slot) = some owner do
    balancer.slots.set slot owner

/-- Give every slot to the backend that it belongs to. -/
def assignSlots (balancer : LoadBalancer) : StoreAction Unit :=
  (List.range slotCount).forM (balancer.assignSlot balancer.activeBackends)

/-- The views of the maps that have been created for a balancer. -/
def ofMaps (maxConnections : Nat) (maps : List MapId) : StoreAction LoadBalancer := do
  let map (number : Int32) : MapId := maps[number.toNatClampNeg]?.getD 0
  return {
    connections := ← TypedTable.ofMap .recencyHash (map connectionsMap) Flow.layout (.word 8)
    backendEntries := ← TypedArray.ofMap (map backendsMap) BackendEntry.layout
    slots := ← TypedArray.ofMap (map slotsMap) (.word 4)
    backendTable := Array.replicate backendCount none
    bindings := (schemas maxConnections).map fun entry => .ofSchema entry.1 entry.2 }

/-- Create the maps of a balancer, which has no backends yet. -/
def create (maxConnections : Nat) : ApplicationAction LoadBalancer := do
  let maps ← createMaps (schemas maxConnections)
  onMaps do
    let balancer ← ofMaps maxConnections maps
    (List.range slotCount).forM fun slot =>
      balancer.slots.set slot (BitVec.ofNat 64 noBackend)
    return balancer

/-- The number of a backend that is in use. -/
def find? (balancer : LoadBalancer) (backend : Backend) : Option Nat :=
  balancer.backendTable.findIdx? (· = some backend)

/-- Put a backend under a number that is free. -/
def addUnder (balancer : LoadBalancer) (number : Nat) (backend : Backend) :
    StoreAction LoadBalancer := do
  balancer.backendEntries.set number (.ofBackend backend)
  let backendTable := balancer.backendTable.setIfInBounds number (some backend)
  let balancer := { balancer with backendTable }
  balancer.assignSlots
  return balancer

/-- Add a backend, unless it is in use; its number. -/
def addBackend (balancer : LoadBalancer) (backend : Backend) :
    ApplicationAction (Nat × LoadBalancer) := do
  match balancer.find? backend with
  | some number => return (number, balancer)
  | none =>
    match balancer.backendTable.findIdx? Option.isNone with
    | none => throw (.backendsFull backendCount)
    | some number => return (number, ← onMaps (balancer.addUnder number backend))

/-- Forget a connection if it has the given backend.  Looking at it counts as a use. -/
def forgetConnection (balancer : LoadBalancer) (number : Nat) (flow : Flow) :
    StoreAction Unit := do
  if (← balancer.connections.get flow) = some (BitVec.ofNat 64 number) then
    let _ ← balancer.connections.remove flow

/-- Take a backend out of use. -/
def removeFrom (balancer : LoadBalancer) (number : Nat) (backend : Backend) :
    StoreAction LoadBalancer := do
  balancer.backendEntries.set number { BackendEntry.ofBackend backend with flags := 0 }
  let backendTable := balancer.backendTable.setIfInBounds number none
  let balancer := { balancer with backendTable }
  balancer.assignSlots
  (← balancer.connections.keys).forM (balancer.forgetConnection number)
  return balancer

/-- Remove a backend: its slots go to others and its connections are forgotten. -/
def removeBackend (balancer : LoadBalancer) (number : Nat) :
    ApplicationAction (Backend × LoadBalancer) := do
  match (balancer.backendTable[number]?).join with
  | none => throw (.unknownBackend number)
  | some backend => return (backend, ← onMaps (balancer.removeFrom number backend))

/-- The program may send packets to the backend of a number. -/
def isActive (balancer : LoadBalancer) (number : Nat) : ApplicationAction Bool := do
  return (← onMaps (balancer.backendEntries.get number)).any BackendEntry.isActive

/-- The backend that a slot belongs to. -/
def slotOwner (balancer : LoadBalancer) (slot : Nat) : ApplicationAction (Option Nat) := do
  let owner? ← onMaps (balancer.slots.get slot)
  return (owner?.map BitVec.toNat).filter (· ≠ noBackend)

/-- The backend that a new connection is sent to. -/
def hashedBackend (balancer : LoadBalancer) (flow : Flow) : ApplicationAction (Option Nat) :=
  balancer.slotOwner (slotOf flow)

/-- The backend that the connection table has for a flow; counts as a use of the entry. -/
def connection (balancer : LoadBalancer) (flow : Flow) : ApplicationAction (Option Nat) := do
  return (← onMaps (balancer.connections.get flow)).map fun number => number.low32.toNat

/-- The backend that the program picks for a flow: that of its connection if it has one, else that
of its slot. -/
def selectBackend (balancer : LoadBalancer) (flow : Flow) :
    ApplicationAction (Option (Nat × Backend)) := do
  let number? ←
    match ← balancer.connection flow with
    | some number => pure (some number)
    | none => balancer.hashedBackend flow
  return number?.bind fun number =>
    (balancer.backendTable[number]?).join.map fun backend => (number, backend)

/-- How many connections are remembered. -/
def connectionCount (balancer : LoadBalancer) : ApplicationAction Nat :=
  onMaps balancer.connections.size

def program (balancer : LoadBalancer) : Except ApplicationError Program :=
  Application.program "l4_lb" assembly balancer.bindings

/-- Verify the packet program against the maps of a store. -/
def load (balancer : LoadBalancer) (store : Store) (elapsed : String) :
    Except ApplicationError VerifiedProgram := do
  Application.load (← balancer.program) store elapsed

end LoadBalancer

end PacketFilter
