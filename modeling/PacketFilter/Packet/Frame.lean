import PacketFilter.Packet.Flow

/-!
# Building frames

A draft says what an Ethernet frame is to carry; `assemble` lays it out, with
the checksum of the network header filled in and those of the transport headers
left zero.
-/

namespace PacketFilter

/-! ## The checksum -/

namespace Checksum

/-- The sum of the bytes as two-byte numbers, most significant byte first; a last single byte is
followed by a zero. -/
def total : List UInt8 → Nat
  | high :: low :: rest => (Header.number high low).toNat + total rest
  | [high] => (Header.number high 0).toNat
  | [] => 0

/-- Add the carries out of sixteen bits back in until there are none. -/
def foldCarries (sum : Nat) : Nat :=
  if 0xffff < sum then foldCarries (sum % 0x10000 + sum / 0x10000) else sum
termination_by sum
decreasing_by omega

/-- The complement of the sum, with the carries added back in. -/
def ofBytes (header : List UInt8) : UInt16 :=
  ~~~ UInt16.ofNat (foldCarries (total header))

end Checksum

/-- What a frame is to carry. -/
structure FrameDraft where
  /-- The type of the frame; only one type has a network header. -/
  frameType : UInt16 := Header.networkType
  source : Address := ⟨192, 0, 2, 1⟩
  destination : Address := ⟨198, 51, 100, 1⟩
  protocol : UInt8 := Header.udp
  sourcePort : UInt16 := 40000
  destinationPort : UInt16 := 80
  timeToLive : UInt8 := 64
  /-- Options of the network header, a multiple of four bytes. -/
  options : List UInt8 := []
  payload : List UInt8 := []
  deriving Repr

namespace FrameDraft

/-- A draft of a frame of the flow; what a flow does not tell is left at its default. -/
def ofFlow (flow : Flow) : FrameDraft :=
  { source := flow.source
    destination := flow.destination
    protocol := flow.protocol
    sourcePort := flow.sourcePort
    destinationPort := flow.destinationPort }

/-- The most bytes that options may have. -/
def optionLimit : Nat := 40

/-- Pad with zeros to a length. -/
def padTo (length : Nat) (bytes : List UInt8) : List UInt8 :=
  bytes ++ List.replicate (length - bytes.length) 0

/-- Set the options, cut to the limit and padded to a multiple of four bytes. -/
def withOptions (draft : FrameDraft) (options : List UInt8) : FrameDraft :=
  let kept := options.take optionLimit
  { draft with options := padTo ((kept.length + 3) / 4 * 4) kept }

/-- The link addresses, which are always the same, and the type. -/
def linkHeader (draft : FrameDraft) : List UInt8 :=
  [2, 0, 0, 0, 0, 2] ++ [2, 0, 0, 0, 0, 1] ++ Header.numberBytes draft.frameType

/-- The ports, as they lie in a frame. -/
def ports (draft : FrameDraft) : List UInt8 :=
  Header.numberBytes draft.sourcePort ++ Header.numberBytes draft.destinationPort

/-- The header of the protocol, if it is one that has ports. -/
def transportHeader (draft : FrameDraft) : List UInt8 :=
  if draft.protocol = Header.tcp then
    padTo 20 (padTo 12 draft.ports ++ [0x50])
  else if draft.protocol = Header.udp then
    padTo 8 (draft.ports ++ Header.numberBytes (UInt16.ofNat (8 + draft.payload.length)))
  else
    []

/-- The network header with a given checksum. -/
def networkHeader (draft : FrameDraft) (checksum : UInt16) : List UInt8 :=
  let length := Header.networkSize + draft.options.length
  let total := length + draft.transportHeader.length + draft.payload.length
  [0x40 ||| UInt8.ofNat (length / 4), 0] ++ Header.numberBytes (UInt16.ofNat total) ++
    [0, 0, 0, 0, draft.timeToLive, draft.protocol] ++ Header.numberBytes checksum ++
    draft.source.toList ++ draft.destination.toList ++ draft.options

/-- The least length of a frame without a network header. -/
def shortestFrame : Nat := 60

/-- Lay out the frame. -/
def assemble (draft : FrameDraft) : Bytes :=
  if draft.frameType ≠ Header.networkType then
    (padTo shortestFrame (draft.linkHeader ++ draft.payload)).toArray
  else
    let checksum := Checksum.ofBytes (draft.networkHeader 0)
    (draft.linkHeader ++ draft.networkHeader checksum ++ draft.transportHeader ++
      draft.payload).toArray

end FrameDraft

end PacketFilter
