import PacketFilter.Application
import PacketFilter.Verdict

/-!
# The packet program of the flood guard

Drops packets of blocked sources and packets of flows that have sent more than
a threshold; both kinds of drop are counted and reported.  Whatever it cannot
attribute to a flow it forwards and counts as untracked.

The flow is put together on the stack and serves as key; its first four bytes
are the source address, which is the key of the block list.
-/

namespace PacketFilter

/-- Why a packet was dropped. -/
inductive DropReason where
  | blocked
  | rateLimited
  deriving DecidableEq, Repr

namespace DropReason

/-- The number by which events give the reason. -/
def code : DropReason → UInt8
  | blocked => 1
  | rateLimited => 2

/-- The reason that an event in the ring names by its code. -/
def ofCode? (code : UInt8) : Option DropReason :=
  [blocked, rateLimited].find? fun reason => reason.code == code

def label : DropReason → String
  | blocked => "Blocked"
  | rateLimited => "RateLimited"

end DropReason

namespace FloodGuard

/-! ## The maps, by their order in the program -/

/-- The index under which the program declares the blocked addresses. -/
def blocklistMap : Int32 := 0

/-- The index of the map with one window for each flow. -/
def flowsMap : Int32 := 1

/-- The index of the counters. -/
def countersMap : Int32 := 2

/-- The index of the settings. -/
def settingsMap : Int32 := 3

/-- The index of the ring that takes the events. -/
def eventsMap : Int32 := 4

/-! ## The counters, by their index -/

/-- Packets that were counted to their flow and let through. -/
def passedCounter : Nat := 0

/-- Packets from addresses on the blocklist. -/
def blockedCounter : Nat := 1

/-- Packets of flows that had used up their window. -/
def rateLimitedCounter : Nat := 2

/-- Packets that went through without being counted to a flow. -/
def untrackedCounter : Nat := 3

/-- How many counters there are. -/
def counterCount : Nat := 4

/-- The index of the threshold among the settings. -/
def thresholdSetting : Nat := 0

/-- The size of an event. -/
def eventSize : Nat := 24

/-- Where on the stack an event is put together. -/
def eventSlot : Int16 := -56

end FloodGuard

namespace FloodGuard.Pieces

open Assembling

/-- Add one to a counter of the guard. -/
def count (counter : Nat) : Assembling Unit :=
  countOne countersMap (Int32.ofNat counter)

/-- End the program with a verdict. -/
def leave (verdict : Verdict) : Assembling Unit :=
  emit (·.leaveWith (Int32.ofNat verdict.code))

/-- Report a drop: the flow, the reason and the time. -/
def report (reason : DropReason) : Assembling Unit := do
  emit fun assembly => assembly
    |>.load double 1 frame flowSlot
    |>.storeRegister double frame 1 eventSlot
    |>.load word 1 frame (flowSlot + 8)
    |>.storeRegister word frame 1 (eventSlot + 8)
    |>.load byte 1 frame (flowSlot + 12)
    |>.storeRegister byte frame 1 (eventSlot + 12)
    |>.storeImmediate byte frame (eventSlot + 13) (Int32.ofNat reason.code.toNat)
    |>.storeImmediate half frame (eventSlot + 14) 0
  callHelper .currentTime
  emit fun assembly => assembly
    |>.storeRegister double frame 0 (eventSlot + 16)
    |>.loadMap 1 eventsMap
  pointTo 2 eventSlot
  emit fun assembly => assembly
    |>.moveImmediate 3 (Int32.ofNat eventSize)
    |>.moveImmediate 4 0
  callHelper .ringOutput

/-- Count a packet of the flow that the result register points to and compare with the threshold
in register 9, where zero is no limit. -/
def countPacket (pass limited : Nat) : Assembling Unit :=
  emit fun assembly => assembly
    |>.moveImmediate 1 1
    |>.atomic double (Combination.add.code ||| AtomicOperation.fetchBit) 0 1 0
    |>.withImmediate .add 1 1
    |>.jumpIf .equal 9 0 pass
    |>.jumpIfRegister .above 1 9 limited
    |>.jump pass

/-- Drop packets of blocked sources. -/
def checkBlocklist (notBlocked : Nat) : Assembling Unit := do
  lookup blocklistMap flowSlot notBlocked
  emit fun assembly => assembly
    |>.moveImmediate 1 1
    |>.atomic double Combination.add.code 0 1 0
  count blockedCounter
  report .blocked
  leave .drop

/-- Put the threshold into register 9, or zero when it is not set. -/
def loadThreshold : Assembling Unit := do
  let done ← newLabel
  emit (·.moveImmediate 9 0)
  lookupIndex settingsMap (Int32.ofNat thresholdSetting) done
  emit fun assembly => assembly
    |>.load double 9 0 0
    |>.bind done

/-- Count the first packet of a flow.  Where another worker has done so since the flow was looked
up, count one more. -/
def startFlow (pass limited untracked : Nat) : Assembling Unit := do
  emit fun assembly => assembly
    |>.storeImmediate double frame valueSlot 1
    |>.loadMap 1 flowsMap
  pointTo 2 flowSlot
  pointTo 3 valueSlot
  emit (·.moveImmediate 4 1)
  callHelper .mapUpdate
  emit fun assembly => assembly
    |>.jumpIf .equal 0 0 pass
    |>.jumpIf .differ 0 (Int32.ofInt MapError.keyExists.code) untracked
  lookup flowsMap flowSlot untracked
  countPacket pass limited

/-- The program: parse the headers, look up the source among the blocked addresses, then the flow,
and pass the packet on or drop it with an event. -/
def whole : Assembling Unit := do
  let untracked ← newLabel
  let notBlocked ← newLabel
  let flow ← newLabel
  let newFlow ← newLabel
  let pass ← newLabel
  let limited ← newLabel
  parseNetworkHeader untracked
  checkBlocklist notBlocked
  bind notBlocked
  parsePorts 2 flow untracked
  bind flow
  loadThreshold
  lookup flowsMap flowSlot newFlow
  countPacket pass limited
  bind newFlow
  startFlow pass limited untracked
  bind pass
  count passedCounter
  leave .forward
  bind limited
  count rateLimitedCounter
  report .rateLimited
  leave .drop
  bind untracked
  count untrackedCounter
  leave .forward

end FloodGuard.Pieces

/-- The packet program of the flood guard. -/
def FloodGuard.assembly : Assembly :=
  Assembling.assemble FloodGuard.Pieces.whole

end PacketFilter
