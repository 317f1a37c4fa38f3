import PacketFilter.Packet.Frame
import PacketFilter.Proofs.Views

/-!
# Drafts of frames and the flows found in them

A draft is made from nothing or from a flow, and changed call by call.  However
that is done, its options stay a multiple of four bytes and at most forty of
them, so that the header length fits into four bits.

From this follows the round trip: the frame that a draft is laid out as carries
the flow of the draft, wherever the options have moved the ports, and a frame of
another type carries none.
-/

namespace PacketFilter

/-! ## Making drafts -/

/-- A change to a draft. -/
inductive DraftCall where
  | setType (frameType : UInt16)
  | setSource (address : Address) (port : UInt16)
  | setDestination (address : Address) (port : UInt16)
  | carryTcp
  | carryUdp
  | setProtocol (protocol : UInt8)
  | setOptions (options : List UInt8)
  | setTimeToLive (timeToLive : UInt8)
  | setPayload (payload : List UInt8)
  deriving Repr

namespace FrameDraft

def change (draft : FrameDraft) : DraftCall → FrameDraft
  | .setType frameType => { draft with frameType }
  | .setSource address port => { draft with source := address, sourcePort := port }
  | .setDestination address port => { draft with destination := address, destinationPort := port }
  | .carryTcp => { draft with protocol := Header.tcp }
  | .carryUdp => { draft with protocol := Header.udp }
  | .setProtocol protocol => { draft with protocol }
  | .setOptions options => draft.withOptions options
  | .setTimeToLive timeToLive => { draft with timeToLive }
  | .setPayload payload => { draft with payload }

/-- What calls make of the draft of a flow, or of the one to begin with if no flow is given. -/
def ofCalls (flow? : Option Flow) (calls : List DraftCall) : FrameDraft :=
  calls.foldl change (flow?.elim {} ofFlow)

/-- The flow that a draft is of; protocols without ports have none, whatever has been set. -/
def flow (draft : FrameDraft) : Flow where
  source := draft.source
  destination := draft.destination
  sourcePort := if Header.hasPorts draft.protocol then draft.sourcePort else 0
  destinationPort := if Header.hasPorts draft.protocol then draft.destinationPort else 0
  protocol := draft.protocol

/-! ## The length of the options -/

/-- The options are as many as a network header can have, in whole groups of four bytes. -/
structure Aligned (draft : FrameDraft) : Prop where
  short : draft.options.length ≤ optionLimit
  whole : 4 ∣ draft.options.length

theorem padTo_length {length : Nat} {bytes : List UInt8} (short : bytes.length ≤ length) :
    (padTo length bytes).length = length := by
  rw [padTo, List.length_append, List.length_replicate]
  omega

/-- Options are padded to whole words. -/
theorem withOptions_aligned (draft : FrameDraft) (options : List UInt8) :
    (draft.withOptions options).Aligned := by
  have limit : optionLimit = 40 := rfl
  have kept : (options.take optionLimit).length ≤ optionLimit := List.length_take_le _ _
  have sized : (draft.withOptions options).options.length =
      ((options.take optionLimit).length + 3) / 4 * 4 := padTo_length (by omega)
  constructor
  · rw [sized]
    omega
  · rw [sized]
    exact Nat.dvd_mul_left 4 _

theorem Aligned.change {draft : FrameDraft} (aligned : draft.Aligned) (call : DraftCall) :
    (draft.change call).Aligned := by
  cases call with
  | setOptions options => exact draft.withOptions_aligned options
  | setType | setSource | setDestination | carryTcp | carryUdp | setProtocol | setTimeToLive
  | setPayload => exact ⟨aligned.short, aligned.whole⟩

/-- Whatever is called, the options of a draft are whole words. -/
theorem ofCalls_aligned (flow? : Option Flow) (calls : List DraftCall) :
    (ofCalls flow? calls).Aligned := by
  have begins : (flow?.elim {} ofFlow).Aligned := by
    cases flow? <;> exact ⟨Nat.zero_le _, Nat.dvd_zero _⟩
  rw [ofCalls]
  generalize flow?.elim {} ofFlow = draft at begins
  induction calls generalizing draft with
  | nil => exact begins
  | cons call calls continues => exact continues _ (begins.change call)

/-! ## The bytes of a frame -/

end FrameDraft

namespace Header

theorem byteAt_toArray (bytes : List UInt8) (offset : Nat) :
    byteAt bytes.toArray offset = bytes[offset]?.getD 0 := by
  rw [byteAt, List.getElem?_toArray]

theorem byteAt_append (before after : List UInt8) (offset : Nat) :
    byteAt (before ++ after).toArray (before.length + offset) = byteAt after.toArray offset := by
  rw [byteAt_toArray, byteAt_toArray, List.getElem?_append_right (Nat.le_add_right _ _),
    Nat.add_sub_cancel_left]

/-- A number is read past what comes before it. -/
theorem numberAt_append (before after : List UInt8) (offset : Nat) :
    numberAt (before ++ after).toArray (before.length + offset) =
      numberAt after.toArray offset := by
  rw [numberAt, numberAt, byteAt_append, Nat.add_assoc, byteAt_append]

theorem numberAt_numberBytes (value : UInt16) (rest : List UInt8) :
    numberAt (numberBytes value ++ rest).toArray 0 = value :=
  number_bytes value

/-- The byte with the version and a header length, in groups of four bytes. -/
theorem version_byte :
    ∀ groups < 16, (0x40 ||| UInt8.ofNat groups) >>> 4 = 4 ∧
      networkLength (0x40 ||| UInt8.ofNat groups) = groups * 4 := by
  decide

end Header

namespace FrameDraft

variable {draft : FrameDraft}

/-- The checksum that the network header is given. -/
def checksum (draft : FrameDraft) : UInt16 :=
  Checksum.ofBytes (draft.networkHeader 0)

/-- Both headers up to the ports. -/
def headers (draft : FrameDraft) : List UInt8 :=
  draft.linkHeader ++ draft.networkHeader draft.checksum

theorem assemble_of_network (network : draft.frameType = Header.networkType) :
    draft.assemble = (draft.headers ++ (draft.transportHeader ++ draft.payload)).toArray := by
  rw [assemble, if_neg (not_not.mpr network), headers, checksum]
  simp only [List.append_assoc]

/-- The header is as long as its options make it. -/
theorem networkHeader_length (draft : FrameDraft) (checksum : UInt16) :
    (draft.networkHeader checksum).length = Header.networkSize + draft.options.length := by
  simp only [networkHeader, List.length_append]
  rfl

theorem headers_length (draft : FrameDraft) :
    draft.headers.length = Header.linkSize + (Header.networkSize + draft.options.length) := by
  rw [headers, List.length_append, networkHeader_length]
  rfl

/-- Frames of all types begin alike. -/
theorem numberAt_typeOffset (draft : FrameDraft) (rest : List UInt8) :
    Header.numberAt (draft.linkHeader ++ rest).toArray Header.typeOffset = draft.frameType :=
  (Header.numberAt_append [2, 0, 0, 0, 0, 2, 2, 0, 0, 0, 0, 1] _ 0).trans
    (Header.numberAt_numberBytes _ _)

/-- The network header says how long it is. -/
theorem Aligned.version
    (aligned : draft.Aligned) (rest : List UInt8) :
    let version := Header.byteAt (draft.headers ++ rest).toArray Header.versionOffset
    version >>> 4 = 4 ∧
      Header.networkLength version = Header.networkSize + draft.options.length := by
  have short := aligned.short
  have whole := aligned.whole
  rw [optionLimit] at short
  have read : Header.byteAt (draft.headers ++ rest).toArray Header.versionOffset =
      0x40 ||| UInt8.ofNat ((Header.networkSize + draft.options.length) / 4) := by
    rw [Header.byteAt_toArray]
    rfl
  rw [Header.networkSize] at read ⊢
  obtain ⟨shifted, length⟩ := Header.version_byte ((20 + draft.options.length) / 4) (by omega)
  dsimp only
  rw [read, length]
  exact ⟨shifted, by omega⟩

/-! ## The flow of a frame -/

/-- The headers of a draft are all there, whatever comes after them. -/
theorem Aligned.headers_whole
    (aligned : draft.Aligned) (network : draft.frameType = Header.networkType)
    (rest : List UInt8) :
    Header.Whole (draft.headers ++ rest).toArray := by
  have version := aligned.version rest
  constructor
  · rw [List.size_toArray, List.length_append, headers_length]
    omega
  · rw [headers, List.append_assoc, numberAt_typeOffset, network]
  · exact version.1
  · rw [version.2]
    exact Nat.le_add_right _ _

theorem ofNetworkHeader_headers (draft : FrameDraft) (rest : List UInt8) :
    Flow.ofNetworkHeader (draft.headers ++ rest).toArray =
      ⟨draft.source, draft.destination, 0, 0, draft.protocol⟩ := by
  simp only [Flow.ofNetworkHeader, Header.addressAt, Header.byteAt_toArray]
  rfl

/-- Headers of protocols with ports begin with them. -/
theorem ports_begin (ported : Header.hasPorts draft.protocol = true) :
    draft.ports <+: draft.transportHeader := by
  rw [transportHeader]
  split
  case isTrue tcp =>
    have padded : draft.ports <+: padTo 12 draft.ports ++ [0x50] :=
      (List.prefix_append _ _).trans (List.prefix_append _ _)
    exact padded.trans (List.prefix_append _ _)
  case isFalse other =>
    have udp : draft.protocol = Header.udp := by
      simpa [Header.hasPorts, other] using ported
    rw [if_pos udp, padTo, List.append_assoc]
    exact List.prefix_append _ _

/-- The ports follow the headers, however many options there are. -/
theorem Aligned.portsPlace (aligned : draft.Aligned) (rest : List UInt8) :
    Flow.portsPlace (draft.headers ++ rest).toArray = draft.headers.length := by
  rw [Flow.portsPlace, (aligned.version rest).2, headers_length]

theorem Aligned.ofPorts_headers (aligned : draft.Aligned) (more : List UInt8) :
    Flow.ofPorts (draft.headers ++ (draft.ports ++ more)).toArray =
      ⟨draft.source, draft.destination, draft.sourcePort, draft.destinationPort,
        draft.protocol⟩ := by
  have source : Header.numberAt (draft.headers ++ (draft.ports ++ more)).toArray
      draft.headers.length = draft.sourcePort :=
    (Header.numberAt_append draft.headers _ 0).trans (Header.numberAt_numberBytes _ _)
  have destination : Header.numberAt (draft.headers ++ (draft.ports ++ more)).toArray
      (draft.headers.length + 2) = draft.destinationPort :=
    (Header.numberAt_append draft.headers _ 2).trans
      ((Header.numberAt_append (Header.numberBytes draft.sourcePort) _ 0).trans
        (Header.numberAt_numberBytes _ _))
  rw [Flow.ofPorts, ofNetworkHeader_headers, aligned.portsPlace, source, destination]

/-- A frame that was built from a draft of the network type is parsed to the flow of the draft. -/
theorem Aligned.ofFrame?_of_network
    (aligned : draft.Aligned) (network : draft.frameType = Header.networkType) :
    Flow.ofFrame? draft.assemble = some draft.flow := by
  have accepted (rest : List UInt8) : Header.isAccepted (draft.headers ++ rest).toArray = true :=
    Header.isAccepted_iff.mpr (aligned.headers_whole network rest)
  have protocol (rest : List UInt8) :
      Header.byteAt (draft.headers ++ rest).toArray Header.protocolOffset = draft.protocol :=
    congrArg Flow.protocol (draft.ofNetworkHeader_headers rest)
  rw [assemble_of_network network, Flow.ofFrame?_accepted (accepted _), protocol, flow]
  cases ported : Header.hasPorts draft.protocol with
  | false =>
      rw [if_neg Bool.false_ne_true, if_neg Bool.false_ne_true, if_neg Bool.false_ne_true,
        ofNetworkHeader_headers]
  | true =>
      obtain ⟨more, begins⟩ := ports_begin ported
      have long : draft.headers.length + 4 ≤
          (draft.headers ++ (draft.ports ++ (more ++ draft.payload))).toArray.size := by
        rw [List.size_toArray, List.length_append, List.length_append]
        exact Nat.add_le_add_left (Nat.le_add_right 4 _) _
      rw [if_pos rfl, if_pos rfl, if_pos rfl, ← begins, List.append_assoc, aligned.portsPlace,
        if_pos long, aligned.ofPorts_headers]

/-- Frames of other types have no flow. -/
theorem ofFrame?_of_other (other : draft.frameType ≠ Header.networkType) :
    Flow.ofFrame? draft.assemble = none := by
  have refused : Header.isAccepted draft.assemble = false := by
    refine Bool.eq_false_iff.mpr fun accepted => other ?_
    have kind := (Header.isAccepted_iff.mp accepted).kind
    rwa [assemble, if_pos other, padTo, List.append_assoc, numberAt_typeOffset] at kind
  rw [Flow.ofFrame?, refused]
  rfl

end FrameDraft

/-- However a draft has been made, its frame carries its flow if the frame has a network header, and
no flow otherwise. -/
theorem built_frames_carry_flow (flow? : Option Flow) (calls : List DraftCall) :
    let draft := FrameDraft.ofCalls flow? calls
    Flow.ofFrame? draft.assemble =
      if draft.frameType = Header.networkType then some draft.flow else none := by
  intro draft
  split
  case isTrue network => exact (FrameDraft.ofCalls_aligned flow? calls).ofFrame?_of_network network
  case isFalse other => exact FrameDraft.ofFrame?_of_other other

end PacketFilter
