import PacketFilter.Instruction.Assembler
import PacketFilter.Map.Typed
import PacketFilter.Packet.Flow
import PacketFilter.Verifier.Basic

/-!
# Applications

An application is a packet program together with the maps it works on and the
control plane that fills and reads them.  Its operations act on the store of
maps; one that fails may have changed the store before.
-/

namespace PacketFilter

/-- Why an operation of an application failed. -/
inductive ApplicationError where
  | map (error : MapError)
  | assembly (error : AssemblyError)
  | rejected (rejection : Rejection)
  | backendsFull (capacity : Nat)
  | unknownBackend (backend : Nat)
  deriving Repr

namespace ApplicationError

/-- The error as one line, behind a word for where it arose. -/
def message : ApplicationError → String
  | map error => "map error: " ++ error.message
  | assembly error => "assembler error: " ++ error.message
  | rejected rejection => "program rejected: " ++ rejection.message
  | backendsFull capacity => s!"backend table full ({capacity} entries)"
  | unknownBackend backend => s!"unknown backend {backend}"

end ApplicationError

/-- An operation of an application. -/
abbrev ApplicationAction := ExceptT ApplicationError (StateM Store)

namespace ApplicationAction

/-- An operation on the maps. -/
def onMaps {α : Type} (action : StoreAction α) : ApplicationAction α := do
  let (result, store) := action.run (← get)
  set store
  ExceptT.mk (pure (result.mapError .map))

/-- Create the maps of an application, in order. -/
def createMaps (schemas : List (String × Schema)) : ApplicationAction (List MapId) :=
  schemas.mapM fun entry => onMaps (Store.create entry.1 entry.2)

end ApplicationAction

namespace Application

/-- The program that an assembly makes, with the maps that it expects. -/
def program (name : String) (assembly : Assembly) (bindings : List MapBinding) :
    Except ApplicationError Program :=
  match assembly.finish with
  | .error error => .error (.assembly error)
  | .ok code => .ok { name, code, bindings }

/-- Verify a program against the maps of a store. -/
def load (program : Program) (store : Store) (elapsed : String) :
    Except ApplicationError VerifiedProgram :=
  (Verifier.verify {} store.binding? program elapsed).mapError .rejected

end Application

/-! ## Pieces of packet programs -/

/-- Writing a program piece by piece. -/
abbrev Assembling := StateM Assembly

namespace Assembling

/-- A label that is bound to nothing yet. -/
def newLabel : Assembling Nat :=
  modifyGet Assembly.newLabel

/-- Add to the program. -/
def emit (piece : Assembly → Assembly) : Assembling Unit :=
  modify piece

/-- Let the label stand for the slot that comes next. -/
def bind (label : Nat) : Assembling Unit :=
  emit (·.bind label)

/-- The register that points past the stack. -/
def frame : UInt8 := 10

/-- Where on the stack the flow is put together. -/
def flowSlot : Int16 := -16

/-- Eight bytes on the stack for a map value. -/
def valueSlot : Int16 := -24

/-- Four bytes on the stack for an index. -/
def indexSlot : Int16 := -32

/-- The opcode field of a size. -/
def byte : UInt8 := AccessSize.byte.code

def half : UInt8 := AccessSize.half.code

def word : UInt8 := AccessSize.word.code

def double : UInt8 := AccessSize.double.code

/-- Let a register point to a place on the stack. -/
def pointTo (register : UInt8) (offset : Int16) : Assembling Unit :=
  emit fun assembly => (assembly.moveRegister register frame).withImmediate .add register
    offset.toInt32

/-- Call a helper by its number; the arguments have been put into their registers before. -/
def callHelper (helper : Helper) : Assembling Unit :=
  emit (·.call (Int32.ofNat helper.number))

/-- Call a helper with a declared map as its first argument and a key on the stack as its second;
jump away when there is nothing under the key. -/
def lookup (map : Int32) (keySlot : Int16) (missing : Nat) : Assembling Unit := do
  emit (·.loadMap 1 map)
  pointTo 2 keySlot
  callHelper .mapLookup
  emit (·.jumpIf .equal 0 0 missing)

/-- The place of a header field as a program addresses it. -/
def displacement (offset : Nat) : Int16 :=
  Int16.ofNat offset

/--
Look at the headers of the packet and put addresses and protocol into the flow
on the stack.  A packet without a whole network header of version four jumps
away.  Afterwards register 6 points to the packet, whose headers may be read,
register 7 to its end, and register 8 holds the length of the network header.
-/
def parseNetworkHeader (other : Nat) : Assembling Unit := do
  let headers := Header.linkSize + Header.networkSize
  emit fun assembly => assembly
    |>.load double 6 1 (displacement ContextField.packetStart.offset)
    |>.load double 7 1 (displacement ContextField.packetEnd.offset)
    |>.storeImmediate double frame flowSlot 0
    |>.storeImmediate double frame (flowSlot + 8) 0
    |>.moveRegister 2 6
    |>.withImmediate .add 2 (Int32.ofNat headers)
    |>.jumpIfRegister .above 2 7 other
    |>.load half 3 6 (displacement Header.typeOffset)
    |>.jumpIf .differ 3 (Int32.ofNat (Header.swapped Header.networkType).toNat) other
    |>.load byte 3 6 (displacement Header.versionOffset)
    |>.moveRegister 4 3
    |>.withImmediate .shiftRight 4 4
    |>.jumpIf .differ 4 4 other
    |>.withImmediate .and 3 0x0f
    |>.withImmediate .shiftLeft 3 2
    |>.jumpIf .below 3 (Int32.ofNat Header.networkSize) other
    |>.moveRegister 8 3
    |>.load word 3 6 (displacement Header.sourceOffset)
    |>.storeRegister word frame 3 flowSlot
    |>.load word 3 6 (displacement Header.destinationOffset)
    |>.storeRegister word frame 3 (flowSlot + 4)
    |>.load byte 3 6 (displacement Header.protocolOffset)
    |>.storeRegister byte frame 3 (flowSlot + 12)

/-- Let a register point to the ports and put them into the flow on the stack.  Protocols without
ports jump to one label, packets that end before the ports to another. -/
def parsePorts (ports : UInt8) (portless truncated : Nat) : Assembling Unit := do
  let hasPorts ← newLabel
  emit fun assembly => assembly
    |>.load byte 3 6 (displacement Header.protocolOffset)
    |>.jumpIf .equal 3 (Int32.ofNat Header.tcp.toNat) hasPorts
    |>.jumpIf .differ 3 (Int32.ofNat Header.udp.toNat) portless
    |>.bind hasPorts
    |>.moveRegister ports 6
    |>.withRegister .add ports 8
    |>.withImmediate .add ports (Int32.ofNat Header.linkSize)
    |>.moveRegister 3 ports
    |>.withImmediate .add 3 4
    |>.jumpIfRegister .above 3 7 truncated
    |>.load half 4 ports 0
    |>.storeRegister half frame 4 (flowSlot + 8)
    |>.load half 4 ports 2
    |>.storeRegister half frame 4 (flowSlot + 10)

/-- Let the result register point to an entry of an array; jump away when there is none. -/
def lookupIndex (map index : Int32) (missing : Nat) : Assembling Unit := do
  emit (·.storeImmediate word frame indexSlot index)
  lookup map indexSlot missing

/-- Add one to an entry of an array. -/
def countOne (map index : Int32) : Assembling Unit := do
  let done ← newLabel
  lookupIndex map index done
  emit fun assembly => assembly
    |>.moveImmediate 1 1
    |>.atomic double Combination.add.code 0 1 0
    |>.bind done

/-- The program that pieces make. -/
def assemble (pieces : Assembling Unit) : Assembly :=
  (pieces.run .empty).2

end Assembling

end PacketFilter
