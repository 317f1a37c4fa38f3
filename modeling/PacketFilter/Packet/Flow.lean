import PacketFilter.Map.Layout
import PacketFilter.Packet.Address

/-!
# Flows

A flow is what packets of one connection have in common: both addresses, both
ports and the protocol.  It is found in the headers of an Ethernet frame, and
it is the key under which programs keep what they know about a connection.

Numbers of more than one byte stand in network order, most significant byte
first, in frames and in keys alike.
-/

namespace PacketFilter

/-- The five numbers that tell connections apart. -/
structure Flow where
  source : Address
  destination : Address
  /-- Zero for protocols without ports. -/
  sourcePort : UInt16
  /-- Zero for protocols without ports. -/
  destinationPort : UInt16
  protocol : UInt8
  deriving DecidableEq, Repr

/-! ## The headers of a frame -/

namespace Header

/-- The size of the Ethernet header. -/
def linkSize : Nat := 14

/-- The least size of the network header. -/
def networkSize : Nat := 20

/-- The number that announces a network header. -/
def networkType : UInt16 := 0x0800

/-- The number of the protocol with connections. -/
def tcp : UInt8 := 6

/-- The number of the protocol without connections. -/
def udp : UInt8 := 17

/-- Where the type of the frame stands. -/
def typeOffset : Nat := 12

/-- Where the version and the length of the network header stand. -/
def versionOffset : Nat := linkSize

/-- Where a frame has the number of its protocol. -/
def protocolOffset : Nat := linkSize + 9

/-- Where a frame has its source address. -/
def sourceOffset : Nat := linkSize + 12

/-- Where a frame has its destination address. -/
def destinationOffset : Nat := linkSize + 16

/-- The protocol has ports. -/
def hasPorts (protocol : UInt8) : Bool :=
  protocol == tcp || protocol == udp

/-- Two bytes as a number, the more significant one first. -/
def number (high low : UInt8) : UInt16 :=
  high.toUInt16 <<< 8 ||| low.toUInt16

/-- The two bytes of a number, the more significant one first. -/
def numberBytes (value : UInt16) : List UInt8 :=
  [(value >>> 8).toUInt8, value.toUInt8]

/-- The number whose bytes are those of another in reverse. -/
def swapped (value : UInt16) : UInt16 :=
  number value.toUInt8 (value >>> 8).toUInt8

/-- The byte at a place, zero past the end. -/
def byteAt (frame : Bytes) (offset : Nat) : UInt8 :=
  frame[offset]?.getD 0

/-- The number at a place. -/
def numberAt (frame : Bytes) (offset : Nat) : UInt16 :=
  number (byteAt frame offset) (byteAt frame (offset + 1))

/-- The address at a place. -/
def addressAt (frame : Bytes) (offset : Nat) : Address :=
  ⟨byteAt frame offset, byteAt frame (offset + 1), byteAt frame (offset + 2),
    byteAt frame (offset + 3)⟩

/-- The length that the byte with the version says the network header has. -/
def networkLength (version : UInt8) : Nat :=
  (version &&& 0x0f).toNat * 4

/-- Where the network header says that it ends; nothing for a frame that has none. -/
def networkEnd? (frame : Bytes) : Option Nat :=
  frame[versionOffset]?.map fun version => linkSize + networkLength version

/-- The frame has a whole network header of version four. -/
def isAccepted (frame : Bytes) : Bool :=
  linkSize + networkSize ≤ frame.size &&
    numberAt frame typeOffset == networkType &&
    byteAt frame versionOffset >>> 4 == 4 &&
    networkSize ≤ networkLength (byteAt frame versionOffset)

end Header

namespace Flow

/-- The size of a flow as a key. -/
def size : Nat := 16

/-- A flow of the protocol with connections. -/
def tcp (source : Address) (sourcePort : UInt16) (destination : Address)
    (destinationPort : UInt16) : Flow :=
  { source, destination, sourcePort, destinationPort, protocol := Header.tcp }

/-- A flow of the protocol without connections. -/
def udp (source : Address) (sourcePort : UInt16) (destination : Address)
    (destinationPort : UInt16) : Flow :=
  { source, destination, sourcePort, destinationPort, protocol := Header.udp }

/-- Flows of this protocol are told apart by their ports as well. -/
def hasPorts (flow : Flow) : Bool :=
  Header.hasPorts flow.protocol

/-- The flow of a frame.  There is none unless the network header is whole and, for protocols with
ports, the ports are there. -/
def ofFrame? (frame : Bytes) : Option Flow :=
  if !Header.isAccepted frame then
    none
  else
    let protocol := Header.byteAt frame Header.protocolOffset
    let source := Header.addressAt frame Header.sourceOffset
    let destination := Header.addressAt frame Header.destinationOffset
    let ports :=
      Header.linkSize + Header.networkLength (Header.byteAt frame Header.versionOffset)
    if !Header.hasPorts protocol then
      some ⟨source, destination, 0, 0, protocol⟩
    else if ports + 4 ≤ frame.size then
      let sourcePort := Header.numberAt frame ports
      let destinationPort := Header.numberAt frame (ports + 2)
      some ⟨source, destination, sourcePort, destinationPort, protocol⟩
    else
      none

/-- The bytes of a flow: addresses, ports, protocol and three zeros. -/
def toList (flow : Flow) : List UInt8 :=
  flow.source.toList ++ flow.destination.toList ++ Header.numberBytes flow.sourcePort ++
    Header.numberBytes flow.destinationPort ++ [flow.protocol, 0, 0, 0]

/-- Read a flow back; the last three bytes do not matter. -/
def ofBytes? (bytes : Bytes) : Option Flow :=
  if bytes.size = size then
    some
      { source := Header.addressAt bytes 0
        destination := Header.addressAt bytes 4
        sourcePort := Header.numberAt bytes 8
        destinationPort := Header.numberAt bytes 10
        protocol := Header.byteAt bytes 12 }
  else
    none

/-- Flows as keys of maps. -/
def layout : Layout Flow where
  size := size
  encode flow := flow.toList.toArray
  decode? := ofBytes?

/-- The name of a protocol. -/
def protocolText (protocol : UInt8) : String :=
  if protocol = Header.tcp then "tcp"
  else if protocol = Header.udp then "udp"
  else s!"proto{protocol.toNat}"

/-- The flow in one line, from source to destination. -/
def text (flow : Flow) : String :=
  s!"{protocolText flow.protocol} " ++ flow.source.textWithPort flow.sourcePort ++ " -> " ++
    flow.destination.textWithPort flow.destinationPort

end Flow

end PacketFilter
