import PacketFilter.Application
import PacketFilter.Verdict

/-!
# The packet program of the load balancer

Sends every packet of a connection to the same backend: the one that the
connection table remembers, or else the one to which the digest of the flow
leads.  The destination in the packet is rewritten.  A packet without ports, or
one whose backend is not there, is forwarded as it is.
-/

namespace PacketFilter

namespace LoadBalancer

/-! ## The maps, by their order in the program -/

/-- The index under which the program declares the connections. -/
def connectionsMap : Int32 := 0

/-- The index of the map of backends. -/
def backendsMap : Int32 := 1

/-- The index of the slots, each with the backend that owns it. -/
def slotsMap : Int32 := 2

/-- How many slots flows are spread over, a prime. -/
def slotCount : Nat := 1021

/-- How many backends there can be. -/
def backendCount : Nat := 64

/-- The flag of a backend that is in use. -/
def activeFlag : UInt8 := 1

/-- Where on the stack the entry of the backend is kept. -/
def backendSlot : Int16 := -40

end LoadBalancer

namespace LoadBalancer.Pieces

open Assembling

/-- Put the backend that the connection table has for the flow into register 8. -/
def findConnection (miss haveBackend : Nat) : Assembling Unit := do
  emit fun assembly => assembly
    |>.moveImmediate 7 0
    |>.loadMap 1 connectionsMap
  pointTo 2 flowSlot
  callHelper .mapLookup
  emit fun assembly => assembly
    |>.jumpIf .equal 0 0 miss
    |>.load double 8 0 0
    |>.jump haveBackend

/-- Put the backend of the slot of the flow into register 8, and remember in register 7 that the
connection is new. -/
def chooseBackend (pass : Nat) : Assembling Unit := do
  pointTo 1 flowSlot
  emit (·.moveImmediate 2 (Int32.ofNat Flow.size))
  callHelper .digest
  emit fun assembly => assembly
    |>.withImmediate .mod 0 (Int32.ofNat slotCount)
    |>.storeRegister word frame 0 indexSlot
  lookup slotsMap indexSlot pass
  emit fun assembly => assembly
    |>.load word 8 0 0
    |>.moveImmediate 7 1

/-- Copy the entry of the backend to the stack if it is in use.  The mark of an empty slot is no
backend, so nothing is found for it. -/
def loadBackend (pass : Nat) : Assembling Unit := do
  emit (·.storeRegister word frame 8 indexSlot)
  lookup backendsMap indexSlot pass
  emit fun assembly => assembly
    |>.load byte 1 0 6
    |>.withImmediate .and 1 (Int32.ofNat activeFlag.toNat)
    |>.jumpIf .equal 1 0 pass
    |>.load double 1 0 0
    |>.storeRegister double frame 1 backendSlot

/-- Remember the backend of a new connection. -/
def rememberConnection (known : Nat) : Assembling Unit := do
  emit fun assembly => assembly
    |>.jumpIf .equal 7 0 known
    |>.storeRegister double frame 8 valueSlot
    |>.loadMap 1 connectionsMap
  pointTo 2 flowSlot
  pointTo 3 valueSlot
  emit (·.moveImmediate 4 0)
  callHelper .mapUpdate

/-- Rewrite the destination of the packet and send it to the backend. -/
def sendToBackend : Assembling Unit := do
  emit fun assembly => assembly
    |>.load word 1 frame backendSlot
    |>.storeRegister word 6 1 (displacement Header.destinationOffset)
    |>.load half 1 frame (backendSlot + 4)
    |>.storeRegister half 9 1 2
    |>.moveRegister 1 8
    |>.moveImmediate 2 0
  callHelper .redirect
  emit (·.exit)

/-- The program: find the flow among the connections, or the owner of its slot and remember it, then
rewrite the packet for the backend and redirect it. -/
def whole : Assembling Unit := do
  let pass ← newLabel
  let miss ← newLabel
  let haveBackend ← newLabel
  let rewrite ← newLabel
  parseNetworkHeader pass
  parsePorts 9 pass pass
  findConnection miss haveBackend
  bind miss
  chooseBackend pass
  bind haveBackend
  loadBackend pass
  rememberConnection rewrite
  bind rewrite
  sendToBackend
  bind pass
  emit (·.leaveWith (Int32.ofNat Verdict.forward.code))

end LoadBalancer.Pieces

/-- The packet program of the load balancer. -/
def LoadBalancer.assembly : Assembly :=
  Assembling.assemble LoadBalancer.Pieces.whole

end PacketFilter
