import PacketFilter.Packet.Flow
import PacketFilter.Proofs.Stages

/-!
# Reading headers

Both packet programs begin by reading the headers of the packet and putting a
flow together at the end of the stack, byte by byte.  What they read there, in
little-endian words, is what `Header` and `Flow.ofFrame?` say of the packet.
-/

namespace PacketFilter

/-! ## Fields as words -/

namespace Word

theorem toNat_ofBytes_cons {byte : UInt8} {rest : List UInt8} (short : rest.length < 8) :
    (ofBytes (byte :: rest)).toNat = byte.toNat + 2 ^ 8 * (ofBytes rest).toNat := by
  have bound := toNat_ofBytes_lt rest
  have limit : 2 ^ (rest.length * 8) ≤ 2 ^ 56 := Nat.pow_le_pow_right (by decide) (by omega)
  have small : byte.toNat < 2 ^ 8 := byte.toNat_lt
  have shifted : (ofBytes rest).toNat <<< 8 % 2 ^ 64 = (ofBytes rest).toNat <<< 8 := by
    rw [Nat.shiftLeft_eq]
    exact Nat.mod_eq_of_lt (by omega)
  have low : (byte.toBitVec.zeroExtend 64).toNat = byte.toNat := by
    rw [BitVec.zeroExtend, BitVec.toNat_setWidth, UInt8.toNat_toBitVec]
    exact Nat.mod_eq_of_lt (by omega)
  rw [ofBytes, BitVec.toNat_or, BitVec.toNat_shiftLeft, shifted, low,
    ← Nat.shiftLeft_add_eq_or_of_lt small, Nat.shiftLeft_eq]
  omega

theorem toNat_ofBytes_one (byte : UInt8) : (ofBytes [byte]).toNat = byte.toNat := by
  rw [toNat_ofBytes_cons (by decide)]
  simp [ofBytes]

theorem toNat_ofBytes_two (low high : UInt8) :
    (ofBytes [low, high]).toNat = low.toNat + 2 ^ 8 * high.toNat := by
  rw [toNat_ofBytes_cons (by simp), toNat_ofBytes_one]

end Word

namespace Header

theorem toNat_number (high low : UInt8) :
    (number high low).toNat = 2 ^ 8 * high.toNat + low.toNat := by
  have first := high.toNat_lt
  have second : low.toNat < 2 ^ 8 := low.toNat_lt
  have shifted : high.toNat <<< 8 % 2 ^ 16 = high.toNat <<< 8 := by
    rw [Nat.shiftLeft_eq]
    exact Nat.mod_eq_of_lt (by omega)
  rw [number, UInt16.toNat_or, UInt16.toNat_shiftLeft, UInt8.toNat_toUInt16, UInt8.toNat_toUInt16,
    show UInt16.toNat 8 % 16 = 8 from rfl, shifted, ← Nat.shiftLeft_add_eq_or_of_lt second,
    Nat.shiftLeft_eq]
  omega

/-- The type of the frame is compared with its bytes in reverse. -/
theorem networkType_swapped (first second : UInt8) :
    Comparison.differ.holds (Word.ofBytes [first, second]) (Word.ofImmediate 8) =
      (number first second != networkType) := by
  have low := first.toNat_lt
  have high := second.toNat_lt
  have expected : (Word.ofImmediate 8).toNat = 8 := by decide
  have kind : networkType.toNat = 2048 := rfl
  rw [Comparison.holds, Bool.eq_iff_iff, bne_iff_ne, bne_iff_ne, not_iff_not, ← BitVec.toNat_inj,
    ← UInt16.toNat_inj, Word.toNat_ofBytes_two, toNat_number, expected, kind]
  omega

theorem equal_tcp (protocol : UInt8) :
    Comparison.equal.holds (Word.ofBytes [protocol]) (Word.ofImmediate 6) = (protocol == tcp) := by
  have expected : (Word.ofImmediate 6).toNat = tcp.toNat := by decide
  rw [Comparison.holds, Bool.eq_iff_iff, beq_iff_eq, beq_iff_eq, ← BitVec.toNat_inj,
    ← UInt8.toNat_inj, Word.toNat_ofBytes_one, expected]

theorem differ_udp (protocol : UInt8) :
    Comparison.differ.holds (Word.ofBytes [protocol])
      (Word.ofImmediate 17) = (protocol != udp) := by
  have expected : (Word.ofImmediate 17).toNat = udp.toNat := by decide
  rw [Comparison.holds, Bool.eq_iff_iff, bne_iff_ne, bne_iff_ne, not_iff_not, ← BitVec.toNat_inj,
    ← UInt8.toNat_inj, Word.toNat_ofBytes_one, expected]

theorem version_shifted (version : UInt8) :
    Comparison.differ.holds
      (Arithmetic.shiftRight.apply (Word.ofBytes [version]) (Word.ofImmediate 4))
      (Word.ofImmediate 4) = (version >>> 4 != 4) := by
  have shifted : (Arithmetic.shiftRight.apply (Word.ofBytes [version]) (Word.ofImmediate 4)).toNat =
      version.toNat / 2 ^ 4 := by
    show (Word.ofBytes [version] >>> (4 : Nat)).toNat = _
    rw [BitVec.toNat_ushiftRight, Word.toNat_ofBytes_one, Nat.shiftRight_eq_div_pow]
  have expected : (Word.ofImmediate 4).toNat = 4 := by decide
  rw [Comparison.holds, Bool.eq_iff_iff, bne_iff_ne, bne_iff_ne, not_iff_not, ← BitVec.toNat_inj,
    ← UInt8.toNat_inj, shifted, expected, UInt8.toNat_shiftRight, Nat.shiftRight_eq_div_pow]
  rfl

/-- The length of the header is four times the low half of its first byte. -/
theorem networkLength_eq (version : UInt8) : networkLength version = version.toNat % 16 * 4 := by
  rw [networkLength, UInt8.toNat_and]
  exact congrArg (· * 4) (Nat.and_two_pow_sub_one_eq_mod _ 4)

theorem networkLength_shifted (version : UInt8) :
    Arithmetic.shiftLeft.apply
      (Arithmetic.and.apply (Word.ofBytes [version]) (Word.ofImmediate 15)) (Word.ofImmediate 2) =
        BitVec.ofNat 64 (networkLength version) := by
  have small := version.toNat_lt
  have masked : (Word.ofBytes [version] &&& Word.ofImmediate 15).toNat = version.toNat % 16 := by
    rw [BitVec.toNat_and, Word.toNat_ofBytes_one]
    exact Nat.and_two_pow_sub_one_eq_mod _ 4
  apply BitVec.eq_of_toNat_eq
  show ((Word.ofBytes [version] &&& Word.ofImmediate 15) <<< (2 : Nat)).toNat = _
  rw [BitVec.toNat_shiftLeft, masked, Nat.shiftLeft_eq, BitVec.toNat_ofNat, networkLength_eq]

/-- What it means that a frame has a whole network header of version four. -/
structure Whole (frame : Bytes) : Prop where
  long : linkSize + networkSize ≤ frame.size
  kind : numberAt frame typeOffset = networkType
  version : byteAt frame versionOffset >>> 4 = 4
  length : networkSize ≤ networkLength (byteAt frame versionOffset)

/-- A frame is accepted just when its network header is whole. -/
theorem isAccepted_iff {frame : Bytes} : isAccepted frame = true ↔ Whole frame := by
  simp only [isAccepted, Bool.and_eq_true, decide_eq_true_iff, beq_iff_eq]
  exact ⟨fun ⟨⟨⟨long, kind⟩, version⟩, length⟩ => ⟨long, kind, version, length⟩,
    fun whole => ⟨⟨⟨whole.long, whole.kind⟩, whole.version⟩, whole.length⟩⟩

theorem below_networkSize (version : UInt8) :
    Comparison.below.holds (BitVec.ofNat 64 (networkLength version)) (Word.ofImmediate 20) =
      decide (networkLength version < networkSize) := by
  have expected : (Word.ofImmediate 20).toNat = 20 := by decide
  rw [Comparison.holds, BitVec.ult, expected, BitVec.toNat_ofNat, networkLength_eq, networkSize,
    decide_eq_decide]
  omega

/-- A network header has fewer than 64 bytes. -/
theorem networkLength_lt (version : UInt8) : networkLength version < 64 := by
  rw [networkLength_eq]
  omega

end Header

namespace Bytes

theorem holds_byteAt
    {bytes : Bytes} {place length : Nat} (inside : place + length ≤ bytes.size) :
    bytes.Holds place ((List.range length).map fun index =>
      Header.byteAt bytes (place + index)) := by
  refine holds_iff.mpr ⟨by simpa using inside, ?_⟩
  apply List.ext_getElem?
  intro index
  rw [List.length_map, List.length_range, slice_getElem?, List.getElem?_map]
  by_cases short : index < length
  · rw [if_pos short, List.getElem?_range short, Option.map_some, Header.byteAt,
      Array.getElem?_eq_getElem (by omega)]
    rfl
  · rw [if_neg short, List.getElem?_eq_none (by simpa using short)]
    rfl

theorem holds_address {bytes : Bytes} {place : Nat} (inside : place + 4 ≤ bytes.size) :
    bytes.Holds place (Header.addressAt bytes place).toList :=
  holds_byteAt inside

theorem holds_pair {bytes : Bytes} {place : Nat} (inside : place + 2 ≤ bytes.size) :
    bytes.Holds place [Header.byteAt bytes place, Header.byteAt bytes (place + 1)] :=
  holds_byteAt inside

theorem holds_single {bytes : Bytes} {place : Nat} (inside : place + 1 ≤ bytes.size) :
    bytes.Holds place [Header.byteAt bytes place] :=
  holds_byteAt inside

end Bytes

/-- The flow that the network header tells of, as far as there are no ports. -/
def Flow.ofNetworkHeader (frame : Bytes) : Flow where
  source := Header.addressAt frame Header.sourceOffset
  destination := Header.addressAt frame Header.destinationOffset
  sourcePort := 0
  destinationPort := 0
  protocol := Header.byteAt frame Header.protocolOffset

namespace Flow

/-- Where the ports are, if there are any. -/
def portsPlace (frame : Bytes) : Nat :=
  Header.linkSize + Header.networkLength (Header.byteAt frame Header.versionOffset)

/-- The flow with the ports that follow the network header. -/
def ofPorts (frame : Bytes) : Flow :=
  { ofNetworkHeader frame with
    sourcePort := Header.numberAt frame (portsPlace frame)
    destinationPort := Header.numberAt frame (portsPlace frame + 2) }

/-- The flow of a packet without ports has zeros in their place. -/
theorem toList_ofNetworkHeader (frame : Bytes) :
    (ofNetworkHeader frame).toList =
      (Header.addressAt frame Header.sourceOffset).toList ++
        (Header.addressAt frame Header.destinationOffset).toList ++ List.replicate 4 0 ++
          ([Header.byteAt frame Header.protocolOffset] ++ List.replicate 3 0) := by
  have zeros : Header.numberBytes 0 = [0, 0] := by decide
  simp only [toList, ofNetworkHeader, zeros, List.append_assoc]
  rfl

/-- The flow of a packet with ports has them behind its addresses. -/
theorem toList_ofPorts (frame : Bytes) :
    (ofPorts frame).toList =
      (Header.addressAt frame Header.sourceOffset).toList ++
        (Header.addressAt frame Header.destinationOffset).toList ++
          ([Header.byteAt frame (portsPlace frame), Header.byteAt frame (portsPlace frame + 1)] ++
            ([Header.byteAt frame (portsPlace frame + 2),
              Header.byteAt frame (portsPlace frame + 3)] ++
              ([Header.byteAt frame Header.protocolOffset] ++ List.replicate 3 0))) := by
  have bytes (high low : UInt8) : Header.numberBytes (Header.number high low) = [high, low] := by
    have small := low.toNat_lt
    have small' := high.toNat_lt
    have value := Header.toNat_number high low
    refine congrArg₂ (fun first second => [first, second]) ?_ ?_
    · rw [← UInt8.toNat_inj, UInt16.toNat_toUInt8, UInt16.toNat_shiftRight, value,
        Nat.shiftRight_eq_div_pow]
      show (_ / 2 ^ 8) % 2 ^ 8 = _
      omega
    · rw [← UInt8.toNat_inj, UInt16.toNat_toUInt8, value]
      omega
  simp only [toList, ofPorts, ofNetworkHeader, Header.numberAt, bytes, List.append_assoc]
  rfl

/-- An accepted packet has a flow unless its ports are cut off. -/
theorem ofFrame?_accepted {frame : Bytes} (accepted : Header.isAccepted frame = true) :
    ofFrame? frame =
      if Header.hasPorts (Header.byteAt frame Header.protocolOffset) then
        if portsPlace frame + 4 ≤ frame.size then some (ofPorts frame) else none
      else
        some (ofNetworkHeader frame) := by
  rw [ofFrame?, accepted, Bool.not_true, if_neg Bool.false_ne_true]
  dsimp only
  cases Header.hasPorts (Header.byteAt frame Header.protocolOffset) with
  | false => rw [Bool.not_false, if_pos rfl, if_neg Bool.false_ne_true, ofNetworkHeader]
  | true =>
      rw [Bool.not_true, if_neg Bool.false_ne_true, if_pos rfl]
      rfl

theorem portsPlace_lt (frame : Bytes) : portsPlace frame < 78 :=
  Nat.add_lt_add_left (Header.networkLength_lt _) _

end Flow

/-! ## Reading the network header -/

namespace Line

/-- Put addresses and protocol into the flow on the stack; other packets jump away. -/
def parseNetworkHeader (other : Nat) : List Line :=
  [load .double 6 1 0,
    load .double 7 1 8,
    store .double 10 (-16) (.immediate 0),
    store .double 10 (-8) (.immediate 0),
    move 2 6,
    compute .add 2 (.immediate 34),
    branch .above 2 (.register 7) other,
    load .half 3 6 12,
    branch .differ 3 (.immediate 8) other,
    load .byte 3 6 14,
    move 4 3,
    compute .shiftRight 4 (.immediate 4),
    branch .differ 4 (.immediate 4) other,
    compute .and 3 (.immediate 15),
    compute .shiftLeft 3 (.immediate 2),
    branch .below 3 (.immediate 20) other,
    move 8 3,
    load .word 3 6 26,
    store .word 10 (-16) (.register 3),
    load .word 3 6 30,
    store .word 10 (-12) (.register 3),
    load .byte 3 6 23,
    store .byte 10 (-4) (.register 3)]

end Line

namespace Stage

/-- A place in the packet lies past its end as the program sees it. -/
theorem above_packetEnd {packet : Bytes} {place : Nat} (small : place < 2 ^ 31) :
    Comparison.above.holds (packetPlace place)
      (packetEnd packet) = decide (packet.size < place) := by
  rw [Comparison.holds, packetEnd, packetPlace, BitVec.ult, RegionAddress.toNat_make,
    RegionAddress.toNat_make, decide_eq_decide]
  omega

theorem packetPlace_add
    {start place : Nat} {value : Word} (amount : Nat) (adds : value = BitVec.ofNat 64 amount)
    (placed : start + amount = place) (short : place < 2 ^ 31) :
    Arithmetic.add.apply (packetPlace start) value = packetPlace place := by
  rw [adds, ← BitVec.ofInt_natCast]
  exact RegionAddress.make_add (by decide) (by omega) (by omega) (by omega)

/-- What the registers hold once the network header has been read: the packet, its end and the
length of the header. -/
def headerRegisters (packet : Bytes) : List (RegisterName × Word) :=
  [(6, packetPlace 0), (7, packetEnd packet),
    (8, BitVec.ofNat 64 (Header.networkLength (Header.byteAt packet Header.versionOffset)))]

/-- Where on the stack the flow is. -/
def flowPlace : Nat := 496

namespace Delivers

variable {setup : Setup} {metadata : Metadata} {post : Except Fault Verdict → Bytes → Store → Prop}
variable {position : Nat} {packet : Bytes} {store : Store} {rest : List Line}

/-- Addresses and protocol are copied once the header is known to be there. -/
theorem copyAddresses
    (other : Nat) (long : 34 ≤ packet.size)
    (listed : setup.code.lists position ((Line.parseNetworkHeader other).drop 17 ++ rest))
    (continues : setup.code.lists (position + 6) rest →
      Delivers setup metadata post ⟨position + 6, packet, store, headerRegisters packet,
        [(flowPlace, (Flow.ofNetworkHeader packet).toList)], [], none⟩) :
    Delivers setup metadata post ⟨position, packet, store, headerRegisters packet,
      [(flowPlace, Memory.layOut 0 8 ++ Memory.layOut 0 8)], [], none⟩ := by
  have inside {place : Nat} (early : place ≤ 34) : place ≤ packet.size := early.trans long
  refine loadPacket 26 listed (by decide) rfl rfl (by decide) (by decide)
    (Bytes.holds_address (inside (by decide))) rfl fun listed => ?_
  refine storeWithin [] (List.replicate 4 0) (List.replicate 12 0) listed rfl rfl rfl rfl rfl
    fun listed => ?_
  refine loadPacket 30 listed (by decide) rfl rfl (by decide) (by decide)
    (Bytes.holds_address (inside (by decide))) rfl fun listed => ?_
  refine storeWithin (Header.addressAt packet 26).toList (List.replicate 4 0) (List.replicate 8 0)
    listed rfl rfl rfl rfl rfl fun listed => ?_
  refine loadPacket 23 listed (by decide) rfl rfl (by decide) (by decide)
    (Bytes.holds_single (inside (by decide))) rfl fun listed => ?_
  refine storeWithin ((Header.addressAt packet 26).toList ++ (Header.addressAt packet 30).toList ++
    List.replicate 4 0) [0] (List.replicate 3 0) listed rfl rfl rfl rfl rfl fun listed => ?_
  have continues := continues listed
  rw [Flow.toList_ofNetworkHeader] at continues
  exact keep (headerRegisters packet) ⟨rfl, rfl, rfl⟩ continues

/-- The lines that parse the network header go on behind them for an accepted packet, and leave for
the other place otherwise. -/
theorem parseNetworkHeader
    {other : Nat}
    (listed : setup.code.lists position (Line.parseNetworkHeader other ++ rest))
    (rejected : Header.isAccepted packet = false →
      Delivers setup metadata post ⟨other, packet, store, [], [], [], none⟩)
    (accepted : Header.isAccepted packet = true →
      setup.code.lists (position + 23) rest →
        Delivers setup metadata post ⟨position + 23, packet, store, headerRegisters packet,
          [(flowPlace, (Flow.ofNetworkHeader packet).toList)], [], none⟩) :
    Delivers setup metadata post
      ⟨position, packet, store, [(1, Memory.contextPointer)], [], [], none⟩ := by
  have reject (broken : ¬ Header.Whole packet) {known : List (RegisterName × Word)}
      {slots : List (Nat × List UInt8)} :
      Delivers setup metadata post ⟨other, packet, store, known, slots, [], none⟩ :=
    forget (rejected (Bool.eq_false_iff.mpr fun accepted =>
      broken (Header.isAccepted_iff.mp accepted)))
  refine loadStart listed (by decide) rfl fun listed => ?_
  refine loadEnd listed (by decide) rfl fun listed => ?_
  refine storeStack 496 listed rfl rfl (by decide) (by simp [Apart]) fun listed => ?_
  refine storeStack 504 listed rfl rfl (by decide) (by simp [Apart, AccessSize.bytes])
    fun listed => ?_
  refine assign listed (by decide) rfl fun listed => ?_
  refine compute listed (by decide) rfl rfl fun listed => ?_
  refine branch listed (show _ = some (packetPlace 34) from rfl) rfl (fun short => ?_)
    fun long listed => ?_
  · rw [above_packetEnd (by decide), decide_eq_true_iff] at short
    exact reject fun whole => absurd whole.long (Nat.not_le_of_lt short)
  rw [above_packetEnd (by decide), decide_eq_false_iff_not, Nat.not_lt] at long
  have inside {place : Nat} (early : place ≤ 34) : place ≤ packet.size := early.trans long
  refine loadPacket 12 listed (by decide) rfl rfl (by decide) (by decide)
    (Bytes.holds_pair (inside (by decide))) rfl fun listed => ?_
  refine branch listed rfl rfl (fun differs => ?_) fun kind listed => ?_
  · rw [Header.networkType_swapped, bne_iff_ne] at differs
    exact reject fun whole => differs whole.kind
  rw [Header.networkType_swapped, bne_eq_false_iff_eq] at kind
  refine loadPacket 14 listed (by decide) rfl rfl (by decide) (by decide)
    (Bytes.holds_single (inside (by decide))) rfl fun listed => ?_
  refine assign listed (by decide) rfl fun listed => ?_
  refine compute listed (by decide) rfl rfl fun listed => ?_
  refine branch listed rfl rfl (fun differs => ?_) fun version listed => ?_
  · rw [Header.version_shifted, bne_iff_ne] at differs
    exact reject fun whole => differs whole.version
  rw [Header.version_shifted, bne_eq_false_iff_eq] at version
  refine compute listed (by decide) rfl rfl fun listed => ?_
  refine compute listed (by decide) rfl rfl fun listed => ?_
  refine branch listed rfl rfl (fun short => ?_) fun length listed => ?_
  · rw [Header.networkLength_shifted, Header.below_networkSize, decide_eq_true_iff] at short
    exact reject fun whole => absurd whole.length (Nat.not_le_of_lt short)
  rw [Header.networkLength_shifted, Header.below_networkSize, decide_eq_false_iff_not,
    Nat.not_lt] at length
  refine assign listed (by decide) rfl fun listed => ?_
  rw [Header.networkLength_shifted]
  refine @join _ _ _ _ _ _ _ _ _ _ 496 (Memory.layOut 0 8) (Memory.layOut 0 8)
    (List.mem_cons_of_mem _ List.mem_cons_self) List.mem_cons_self ?_
  refine weaken (.refl _) (List.cons_subset_cons _ (List.nil_subset _))
    (List.Subset.refl _) ?_
  exact keep (headerRegisters packet) ⟨rfl, rfl, rfl⟩ (copyAddresses other long listed
    (accepted (Header.isAccepted_iff.mpr ⟨long, kind, version, length⟩)))

end Delivers

end Stage

/-! ## Reading the ports -/

namespace Line

/-- Let a register point to the ports and put them into the flow on the stack. -/
def parsePorts (ports : RegisterName) (hasPorts portless truncated : Nat) : List Line :=
  [load .byte 3 6 23,
    branch .equal 3 (.immediate 6) hasPorts,
    branch .differ 3 (.immediate 17) portless,
    move ports 6,
    compute .add ports (.register 8),
    compute .add ports (.immediate 14),
    move 3 ports,
    compute .add 3 (.immediate 4),
    branch .above 3 (.register 7) truncated,
    load .half 4 ports 0,
    store .half 10 (-8) (.register 4),
    load .half 4 ports 2,
    store .half 10 (-6) (.register 4)]

end Line

namespace Stage.Delivers

variable {setup : Setup} {metadata : Metadata} {post : Except Fault Verdict → Bytes → Store → Prop}
variable {position : Nat} {packet : Bytes} {store : Store} {rest : List Line}
variable {ports : RegisterName} {portless truncated : Nat}

/-- The ports are read once the protocol is known to have any. -/
theorem readPorts
    {target : Nat} {word : Word}
    (free : ports = 2 ∨ ports = 9) (accepted : Header.isAccepted packet = true)
    (hasPorts : Header.hasPorts (Header.byteAt packet Header.protocolOffset) = true)
    (listed : setup.code.lists position
      ((Line.parsePorts ports target portless truncated).drop 3 ++ rest))
    (short : Flow.ofFrame? packet = none →
      Delivers setup metadata post ⟨truncated, packet, store, [], [], [], none⟩)
    (continues : ∀ flow : Flow, Flow.ofFrame? packet = some flow → flow.hasPorts = true →
      Flow.portsPlace packet + 4 ≤ packet.size → setup.code.lists (position + 10) rest →
        Delivers setup metadata post ⟨position + 10, packet, store,
          (ports, packetPlace (Flow.portsPlace packet)) :: headerRegisters packet,
          [(flowPlace, flow.toList)], [], none⟩) :
    Delivers setup metadata post ⟨position, packet, store, (3, word) :: headerRegisters packet,
      [(flowPlace, (Flow.ofNetworkHeader packet).toList)], [], none⟩ := by
  have long := (Header.isAccepted_iff.mp accepted).long
  have flow := Flow.ofFrame?_accepted accepted
  have early := Flow.portsPlace_lt packet
  have apart : ports ≠ 10 := by rcases free with rfl | rfl <;> decide
  have skips : ports ≠ 4 ∧ 7 ≠ ports ∧ 8 ≠ ports := by
    rcases free with rfl | rfl <;> decide
  rw [if_pos hasPorts] at flow
  let length := Header.networkLength (Header.byteAt packet Header.versionOffset)
  have small : length < 64 := Header.networkLength_lt _
  have ends : Arithmetic.add.apply (packetPlace 0) (BitVec.ofNat 64 length) = packetPlace length :=
    packetPlace_add length rfl (Nat.zero_add _) (by omega)
  have begins : Arithmetic.add.apply (packetPlace length) (Word.ofImmediate 14) =
      packetPlace (Flow.portsPlace packet) :=
    packetPlace_add 14 rfl (Nat.add_comm _ _) (by omega)
  have past : Arithmetic.add.apply (packetPlace (Flow.portsPlace packet)) (Word.ofImmediate 4) =
      packetPlace (Flow.portsPlace packet + 4) :=
    packetPlace_add 4 rfl rfl (by omega)
  refine assign listed apart rfl fun listed => ?_
  refine compute listed apart List.lookup_cons_self (lookup_skip skips.2.2) fun listed => ?_
  refine compute listed apart List.lookup_cons_self rfl fun listed => ?_
  rw [ends, begins]
  refine keep ((ports, packetPlace (Flow.portsPlace packet)) :: headerRegisters packet)
    (by rcases free with rfl | rfl <;> exact ⟨rfl, rfl, rfl, rfl⟩) ?_
  refine assign listed (by decide) ((if_neg apart).trans List.lookup_cons_self) fun listed => ?_
  refine compute listed (by decide) rfl rfl fun listed => ?_
  rw [past]
  refine branch listed rfl (lookup_skip skips.2.1) (fun beyond => ?_) fun inside listed => ?_
  · rw [above_packetEnd (by omega), decide_eq_true_iff] at beyond
    rw [if_neg (Nat.not_le_of_lt beyond)] at flow
    exact forget (short flow)
  rw [above_packetEnd (by omega), decide_eq_false_iff_not, Nat.not_lt] at inside
  rw [if_pos inside] at flow
  refine keep ((ports, packetPlace (Flow.portsPlace packet)) :: headerRegisters packet)
    (by rcases free with rfl | rfl <;> exact ⟨rfl, rfl, rfl, rfl⟩) ?_
  refine loadPacket (Flow.portsPlace packet) listed (by decide) List.lookup_cons_self
    (add_zero _) (by omega) (by omega) (Bytes.holds_pair (by omega)) rfl fun listed => ?_
  rw [flowPlace, Flow.toList_ofNetworkHeader]
  refine storeWithin ((Header.addressAt packet 26).toList ++ (Header.addressAt packet 30).toList)
    (List.replicate 2 0) (List.replicate 2 0 ++ ([Header.byteAt packet 23] ++ List.replicate 3 0))
    listed rfl rfl rfl rfl rfl fun listed => ?_
  refine loadPacket (Flow.portsPlace packet + 2) listed (by decide)
    ((lookup_skip skips.1).trans List.lookup_cons_self) rfl (by omega) (by omega)
    (Bytes.holds_pair (by omega)) rfl fun listed => ?_
  refine storeWithin ((Header.addressAt packet 26).toList ++ (Header.addressAt packet 30).toList ++
    [Header.byteAt packet (Flow.portsPlace packet),
      Header.byteAt packet (Flow.portsPlace packet + 1)]) (List.replicate 2 0)
    ([Header.byteAt packet 23] ++ List.replicate 3 0) listed rfl rfl rfl rfl rfl fun listed => ?_
  have continues := continues _ flow hasPorts inside listed
  rw [Flow.toList_ofPorts] at continues
  refine keep _ ?_ continues
  rcases free with rfl | rfl <;> exact ⟨rfl, rfl, rfl, rfl⟩

/-- The lines that parse the ports fill them in, or leave for the place of packets without ports or
with truncated ones. -/
theorem parsePorts
    (free : ports = 2 ∨ ports = 9) (accepted : Header.isAccepted packet = true)
    (listed : setup.code.lists position
      (Line.parsePorts ports (position + 3) portless truncated ++ rest))
    (without : ∀ flow : Flow, Flow.ofFrame? packet = some flow → flow.hasPorts = false →
      Delivers setup metadata post ⟨portless, packet, store, headerRegisters packet,
        [(flowPlace, flow.toList)], [], none⟩)
    (short : Flow.ofFrame? packet = none →
      Delivers setup metadata post ⟨truncated, packet, store, [], [], [], none⟩)
    (continues : ∀ flow : Flow, Flow.ofFrame? packet = some flow → flow.hasPorts = true →
      Flow.portsPlace packet + 4 ≤ packet.size → setup.code.lists (position + 13) rest →
        Delivers setup metadata post ⟨position + 13, packet, store,
          (ports, packetPlace (Flow.portsPlace packet)) :: headerRegisters packet,
          [(flowPlace, flow.toList)], [], none⟩) :
    Delivers setup metadata post ⟨position, packet, store, headerRegisters packet,
      [(flowPlace, (Flow.ofNetworkHeader packet).toList)], [], none⟩ := by
  have long := (Header.isAccepted_iff.mp accepted).long
  have flow := Flow.ofFrame?_accepted accepted
  have reads : setup.code.lists (position + 3)
      ((Line.parsePorts ports (position + 3) portless truncated).drop 3 ++ rest) :=
    (Code.lists_cons.mp (Code.lists_cons.mp (Code.lists_cons.mp listed).2).2).2
  refine loadPacket 23 listed (by decide) rfl rfl (by decide) (by decide)
    (Bytes.holds_single (Nat.le_trans (by decide) long)) rfl fun listed => ?_
  refine branch listed rfl rfl (fun isTcp => ?_) fun notTcp listed => ?_
  · rw [Header.equal_tcp, beq_iff_eq] at isTcp
    exact readPorts free accepted
      (by rw [Header.hasPorts, Bool.or_eq_true]; exact .inl (beq_iff_eq.mpr isTcp)) reads short
      continues
  rw [Header.equal_tcp] at notTcp
  refine branch listed rfl rfl (fun notUdp => ?_) fun isUdp listed => ?_
  · rw [Header.differ_udp] at notUdp
    have hasNone : Header.hasPorts (Header.byteAt packet Header.protocolOffset) = false :=
      Bool.or_eq_false_iff.mpr ⟨notTcp, beq_eq_false_iff_ne.mpr (bne_iff_ne.mp notUdp)⟩
    rw [if_neg (by simp [hasNone])] at flow
    exact keep (headerRegisters packet) ⟨rfl, rfl, rfl⟩ (without _ flow hasNone)
  · rw [Header.differ_udp, bne_eq_false_iff_eq] at isUdp
    exact readPorts free accepted
      (by rw [Header.hasPorts, Bool.or_eq_true]; exact .inr (beq_iff_eq.mpr isUdp)) reads short
      continues

end Stage.Delivers

end PacketFilter
