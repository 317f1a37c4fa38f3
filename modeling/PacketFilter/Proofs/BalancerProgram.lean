import PacketFilter.Proofs.BalancerState
import PacketFilter.Proofs.Lookups

/-!
# What the program of a load balancer does

The lines of the program, part by part, and what each part does to the packet
and to the maps when they hold the state of a balancer.  Every packet goes where
`BalancerState` says.
-/

namespace PacketFilter

namespace LoadBalancer

/-! ## The lines -/

open Line

/-- From the start on: the connection of the packet is looked up. -/
def connectionLines : List Line :=
  parseNetworkHeader 89 ++ (parsePorts 9 26 89 89 ++ (set 7 0 ::
    (lookup connectionsMap (-16) 45 ++ [Line.load .double 8 0 0, jump 59])))

/-- From 45 on: the flow has no connection and gets the backend of its slot. -/
def slotLines : List Line :=
  move 1 10 :: compute .add 1 (.immediate (-16)) :: set 2 16 :: call .digest ::
    compute .mod 0 (.immediate 1021) :: store .word 10 (-32) (.register 0) ::
      (lookup slotsMap (-32) 89 ++ [Line.load .word 8 0 0, set 7 1])

/-- From 59 on: the entry of the backend is copied to the stack. -/
def backendLines : List Line :=
  store .word 10 (-32) (.register 8) :: (lookup backendsMap (-32) 89 ++
    [Line.load .byte 1 0 6, compute .and 1 (.immediate 1), branch .equal 1 (.immediate 0) 89,
      Line.load .double 1 0 0, store .double 10 (-40) (.register 1),
      branch .equal 7 (.immediate 0) 81])

/-- From 72 on: a new connection is remembered. -/
def rememberLines : List Line :=
  [store .double 10 (-24) (.register 8), loadMap 1 connectionsMap, move 2 10,
    compute .add 2 (.immediate (-16)), move 3 10, compute .add 3 (.immediate (-24)), set 4 0,
    call .mapUpdate]

/-- From 81 on: the packet is readdressed and sent. -/
def sendLines : List Line :=
  [Line.load .word 1 10 (-40), store .word 6 30 (.register 1), Line.load .half 1 10 (-36),
    store .half 9 2 (.register 1), move 1 8, set 2 0, call .redirect, exit]

/-- The parts of the program stand at their places. -/
structure Listed (code : Code) : Prop where
  size : code.size = 91
  connection : code.lists 0 connectionLines
  slot : code.lists 45 slotLines
  backend : code.lists 59 backendLines
  remember : code.lists 72 rememberLines
  send : code.lists 81 sendLines
  pass : code.lists 89 (leave .forward)

theorem listed_of_finish {code : Code} (made : assembly.finish = .ok code) : Listed code := by
  have holds : assembly.finish.toOption.all fun code =>
      code.size == 91 && code.lists 0 connectionLines && code.lists 45 slotLines &&
        code.lists 59 backendLines && code.lists 72 rememberLines && code.lists 81 sendLines &&
          code.lists 89 (leave .forward) := by
    decide +kernel
  rw [made] at holds
  simp only [Except.toOption, Option.all_some, Bool.and_eq_true, beq_iff_eq] at holds
  obtain ⟨⟨⟨⟨⟨⟨size, connection⟩, slot⟩, backend⟩, remember⟩, send⟩, pass⟩ := holds
  exact ⟨size, connection, slot, backend, remember, send, pass⟩

/-- The program of a balancer is run where packets can be redirected, on maps that follow each
other. -/
structure Runs (setup : Setup) (base : MapId) : Prop where
  listed : Listed setup.code
  maps : ∀ index < 3, setup.maps[index]? = some (base + index)
  allowed : setup.attach.allowsRedirect = true

/-! ## The parts -/

/-- A packet has been sent as the state says; the maps are left alone if it is forwarded. -/
def Sent (state : BalancerState) (packet : Bytes) (base : MapId) (store : Store) :
    Except Fault Verdict → Bytes → Store → Prop :=
  fun outcome packet' store' => outcome = .ok (state.send packet).1 ∧
    packet' = (state.send packet).2.1 ∧ (state.send packet).2.2.Shown base store' ∧
      (state.route? packet = none → store' = store)

/-- What the registers hold when a backend has been chosen: its number, the ports and the packet. -/
def sendRegisters (packet : Bytes) (number : Nat) : List (RegisterName × Word) :=
  [(8, BitVec.ofNat 64 number), (9, Stage.packetPlace (Flow.portsPlace packet)),
    (6, Stage.packetPlace 0)]

/-- The entry of a backend, on the stack. -/
def entrySlot (backend : Backend) : Nat × List UInt8 :=
  (472, backend.address.toList ++ (Header.numberBytes backend.port ++ [activeFlag, 0]))

namespace Runs

open Stage

variable {setup : Setup} {metadata : Metadata} {base : MapId} {store store' : Store}
variable {post : Except Fault Verdict → Bytes → Store → Prop} {packet : Bytes}
variable {known : List (RegisterName × Word)} {slots : List (Nat × List UInt8)}
variable {pointers : List (Word × CellId)} {state : BalancerState} {flow : Flow} {number : Nat}
variable {backend : Backend}

/-- A packet that no backend is chosen for goes on as it came. -/
theorem pass
    (runs : Runs setup base) (shown : state.Shown base store)
    (unrouted : state.route? packet = none) :
    Delivers setup metadata (Sent state packet base store)
      ⟨89, packet, store, known, slots, pointers, none⟩ := by
  refine Delivers.leave runs.listed.pass rfl ?_
  rw [Sent, BalancerState.send, unrouted]
  exact ⟨rfl, rfl, shown, fun _ => rfl⟩

/-- From the rewriting on, a packet goes to its backend with its addresses replaced. -/
theorem send
    (runs : Runs setup base) (small : number < 2 ^ 32)
    (routed : state.route? packet = some (flow, number, backend))
    (shown : (state.remember flow number).Shown base store')
    (long : 34 ≤ packet.size) (inside : Flow.portsPlace packet + 4 ≤ packet.size) :
    Delivers setup metadata (Sent state packet base store)
      ⟨81, packet, store', sendRegisters packet number, [entrySlot backend], [], none⟩ := by
  have early := Flow.portsPlace_lt packet
  have address : Memory.layOut (Word.ofBytes backend.address.toList) 4 = backend.address.toList :=
    Memory.layOut_ofBytes (show 4 ≤ 8 by decide)
  have port : Memory.layOut (Word.ofBytes (Header.numberBytes backend.port)) 2 =
      Header.numberBytes backend.port :=
    Memory.layOut_ofBytes (show 2 ≤ 8 by decide)
  have start : (472, [] ++ (backend.address.toList ++ (Header.numberBytes backend.port ++
      [activeFlag, 0]))) ∈ [entrySlot backend] := List.mem_cons_self
  have middle : (472, backend.address.toList ++ (Header.numberBytes backend.port ++
      [activeFlag, 0])) ∈ [entrySlot backend] := List.mem_cons_self
  refine Delivers.loadStack [] runs.listed.send (by decide) start rfl rfl fun listed => ?_
  refine Delivers.storePacket 30 listed rfl rfl rfl (by decide) (by decide) long fun listed => ?_
  rw [show AccessSize.word.bytes = 4 from rfl, address]
  refine Delivers.loadStack backend.address.toList listed (by decide) middle rfl rfl
    fun listed => ?_
  refine Delivers.storePacket (Flow.portsPlace packet + 2) listed rfl rfl rfl (by omega) (by omega)
    (by rw [Bytes.overwrite_size]; exact inside) fun listed => ?_
  rw [show AccessSize.half.bytes = 2 from rfl, port]
  refine Delivers.assign listed (by decide) rfl fun listed => ?_
  refine Delivers.assign listed (by decide) rfl fun listed => ?_
  refine Delivers.callRedirect listed runs.allowed rfl rfl fun listed => ?_
  refine Delivers.exit listed rfl ?_
  have target : (Word.low32 (BitVec.ofNat 64 number)).toNat = number := by
    rw [Word.toNat_low32, BitVec.toNat_ofNat]
    omega
  rw [Sent, BalancerState.send, routed, target]
  refine ⟨rfl, ?_, shown, fun unrouted => by cases unrouted⟩
  dsimp only
  rw [Backend.readdress, Header.destinationOffset, Header.linkSize]

/-- The flow is remembered before the packet is rewritten. -/
theorem remember
    (runs : Runs setup base) (small : number < 2 ^ 32)
    (routed : state.route? packet = some (flow, number, backend)) (shown : state.Shown base store)
    (long : 34 ≤ packet.size) (inside : Flow.portsPlace packet + 4 ≤ packet.size) :
    Delivers setup metadata (Sent state packet base store)
      ⟨72, packet, store, sendRegisters packet number,
        [entrySlot backend, (flowPlace, flow.toList)],
        [], none⟩ := by
  rcases shown.rememberConnection flow number metadata.worker with
    ⟨map, after, result, there, lists, run, remembered⟩
  have value : (Memory.layOut (BitVec.ofNat 64 number) 8).toArray =
      (Layout.word 8).encode (BitVec.ofNat 64 number) := by
    rw [Memory.layOut_eq_toBytes (by decide)]
    rfl
  refine Delivers.storeStack 488 runs.listed.remember rfl rfl (by decide)
    (by simp [Apart, flowPlace, entrySlot, AccessSize.bytes, Address.toList, Header.numberBytes])
    fun listed => ?_
  refine Delivers.loadMap listed (by decide) fun listed => ?_
  refine Delivers.pointTo listed (by decide) (show flowPlace < 2 ^ 32 by decide) rfl
    fun listed => ?_
  refine Delivers.pointTo listed (by decide) (show 488 < 2 ^ 32 by decide) rfl fun listed => ?_
  refine Delivers.assign listed (by decide) rfl fun listed => ?_
  refine Delivers.callUpdate listed rfl (runs.maps 0 (by decide)) (by decide) there rfl
    (List.mem_cons_of_mem _ (List.mem_cons_of_mem _ List.mem_cons_self)) lists.keySize rfl
    List.mem_cons_self lists.valueSize rfl rfl (value.symm ▸ run) fun listed => ?_
  refine Delivers.keep (sendRegisters packet number) ⟨rfl, rfl, rfl⟩ ?_
  refine Delivers.weaken (.refl _) ?_ (List.Subset.refl _)
    (runs.send small routed remembered long inside)
  exact List.cons_subset.mpr ⟨List.mem_cons_of_mem _ List.mem_cons_self, List.nil_subset _⟩

/-- The backend is in use: its entry gets to the stack, and it matters whether the connection is
new. -/
theorem useBackend
    {word : Word} (runs : Runs setup base) (shown : state.Shown base store')
    (inside : number < backendCount) (known : state.backend? number = some backend)
    (old : word = 0 → Delivers setup metadata post ⟨81, packet, store',
      sendRegisters packet number, [entrySlot backend], [], none⟩)
    (new : word ≠ 0 → Delivers setup metadata post ⟨72, packet, store',
      sendRegisters packet number, [entrySlot backend, (flowPlace, flow.toList)], [], none⟩) :
    Delivers setup metadata post ⟨59, packet, store', (7, word) :: sendRegisters packet number,
      [(flowPlace, flow.toList)], pointers, none⟩ := by
  rcases shown.lookupBackend inside known metadata.worker with ⟨map, there, sized, looked, held⟩
  have small : number < 2 ^ 64 := inside.trans (by decide)
  have key : (Memory.layOut (BitVec.ofNat 64 number) 4).toArray = Map.keyOfIndex number := by
    rw [Delivers.indexKey_toArray, BitVec.toNat_ofNat, Nat.mod_eq_of_lt small]
  refine Delivers.storeStack 480 runs.listed.backend rfl rfl (by decide)
    (by simp [Apart, flowPlace, AccessSize.bytes]) fun listed => ?_
  refine Delivers.lookup listed (by decide) (by simp [Saved, sendRegisters]) rfl
    (runs.maps 1 (by decide)) there rfl (show 480 < 2 ^ 32 by decide) List.mem_cons_self sized
    (key.symm ▸ looked) (fun missing => by cases missing) fun cell pointer found listed => ?_
  cases found
  rw [Store.setMap_self there]
  let entry : Cell := ⟨BackendEntry.layout.encode (.ofBackend backend)⟩
  have flags : entry.bytes.slice 6 1 = [activeFlag] := rfl
  have whole : entry.bytes.slice 0 8 = (entrySlot backend).2 := rfl
  refine @Delivers.loadCell _ _ _ _ _ _ _ _ _ _ _ .byte 1 0 6 pointer _ entry listed (by decide)
    (by decide) rfl List.mem_cons_self held (by decide) (show 7 ≤ 8 by decide) rfl fun listed => ?_
  rw [show AccessSize.byte.bytes = 1 from rfl, flags]
  refine Delivers.compute listed (by decide) rfl rfl fun listed => ?_
  refine Delivers.branch listed rfl rfl (fun unused => absurd unused (by decide)) fun _ listed => ?_
  refine @Delivers.loadCell _ _ _ _ _ _ _ _ _ _ _ .double 1 0 0 pointer _ entry listed (by decide)
    (by decide) rfl List.mem_cons_self held (by decide) (Nat.le_refl 8) rfl fun listed => ?_
  rw [show AccessSize.double.bytes = 8 from rfl, whole]
  refine Delivers.storeStack 472 listed rfl rfl (by decide)
    (by simp [Apart, flowPlace, AccessSize.bytes, Memory.layOut_length]) fun listed => ?_
  have copied : Memory.layOut (Word.ofBytes (entrySlot backend).2) 8 = (entrySlot backend).2 :=
    Memory.layOut_ofBytes (show 8 ≤ 8 by decide)
  rw [show AccessSize.double.bytes = 8 from rfl, copied]
  refine Delivers.branch listed rfl rfl (fun isOld => ?_) fun isNew listed => ?_
  · refine Delivers.keep (sendRegisters packet number) ⟨rfl, rfl, rfl⟩ ?_
    refine Delivers.weaken (.refl _) ?_ (List.nil_subset _) (old (beq_iff_eq.mp isOld))
    exact List.cons_subset_cons _ (List.nil_subset _)
  · refine Delivers.keep (sendRegisters packet number) ⟨rfl, rfl, rfl⟩ ?_
    refine Delivers.weaken (.refl _) ?_ (List.nil_subset _) (new (beq_eq_false_iff_ne.mp isNew))
    exact List.cons_subset_cons _ (List.subset_cons_self _ _)

/-- The slot of the flow belongs to no backend. -/
theorem noBackend
    (runs : Runs setup base) (shown : state.Shown base store)
    (unrouted : state.route? packet = none)
    (eighth : known.lookup 8 = some (BitVec.ofNat 64 LoadBalancer.noBackend))
    (saved : Saved known) :
    Delivers setup metadata (Sent state packet base store)
      ⟨59, packet, store, known, [(flowPlace, flow.toList)], pointers, none⟩ := by
  rcases shown.lookupNoBackend metadata.worker with ⟨map, there, sized, looked⟩
  have key : (Memory.layOut (BitVec.ofNat 64 LoadBalancer.noBackend) 4).toArray =
      Map.keyOfIndex LoadBalancer.noBackend := Delivers.indexKey_toArray _
  refine Delivers.storeStack 480 runs.listed.backend eighth rfl (by decide)
    (by simp [Apart, flowPlace, AccessSize.bytes]) fun listed => ?_
  refine Delivers.lookup listed (by decide) saved rfl (runs.maps 1 (by decide)) there rfl
    (show 480 < 2 ^ 32 by decide) List.mem_cons_self sized (key.symm ▸ looked) (fun _ => ?_)
    fun _ _ found => by cases found
  rw [Store.setMap_self there]
  exact runs.pass shown unrouted

/-- The slot of a flow as the program computes it. -/
def slotWord (flow : Flow) : Word :=
  Arithmetic.mod.apply ((Digest.ofBytes flow.toList).toBitVec.zeroExtend 64) (Word.ofImmediate 1021)

/-- The remainder that the program computes is the slot of the flow. -/
theorem toNat_slotWord (flow : Flow) : (slotWord flow).toNat = slotOf flow := by
  let digest : Word := (Digest.ofBytes flow.toList).toBitVec.zeroExtend 64
  have small := (Digest.ofBytes flow.toList).toNat_lt
  have value : digest.toNat = (Digest.ofBytes flow.toList).toNat := by
    show ((Digest.ofBytes flow.toList).toBitVec.setWidth 64).toNat = _
    rw [BitVec.toNat_setWidth, UInt32.toNat_toBitVec]
    exact Nat.mod_eq_of_lt (small.trans (by decide))
  show (digest.umod (Word.ofImmediate 1021)).toNat = _
  rw [BitVec.umod_eq, BitVec.toNat_umod, value, slotOf]
  rfl

/-- The owner of the slot is loaded: a flow without connection goes to it, if there is one. -/
theorem useOwner
    {slots : List (Nat × List UInt8)}
    (runs : Runs setup base) (sound : state.Sound) (shown : state.Shown base store)
    (fresh : state.connections.find? flow.key = none)
    (route : state.route? packet = (state.choice? flow).map fun choice => (flow, choice))
    (long : 34 ≤ packet.size) (inside : Flow.portsPlace packet + 4 ≤ packet.size)
    (there : (flowPlace, flow.toList) ∈ slots) :
    Delivers setup metadata (Sent state packet base store)
      ⟨59, packet, store, [(7, Word.ofImmediate 1),
        (8, BalancerState.mark (state.owner? (slotOf flow))),
        (9, packetPlace (Flow.portsPlace packet)), (6, packetPlace 0)], slots, pointers, none⟩ := by
  refine Delivers.weaken (.refl _) (List.cons_subset.mpr ⟨there, List.nil_subset _⟩)
    (List.Subset.refl _) ?_
  rcases owned : state.owner? (slotOf flow) with _ | number
  · have unrouted : state.route? packet = none := by
      rw [route, BalancerState.choice?, fresh, owned]
      rfl
    refine Delivers.keep [(8, BitVec.ofNat 64 LoadBalancer.noBackend)] rfl ?_
    exact runs.noBackend shown unrouted rfl (by simp [Saved])
  · rcases BalancerState.backend?_of_owner? owned with ⟨backend, known⟩
    have early := sound.lt known
    have routed : state.route? packet = some (flow, number, backend) := by
      rw [route, BalancerState.choice?, fresh, owned, Option.none_or, Option.bind_some, known]
      rfl
    refine runs.useBackend shown early known (fun isOld => absurd isOld (by decide)) fun _ => ?_
    exact runs.remember (early.trans (by decide)) routed shown long inside

/-- The flow has no connection: it goes to the backend of its slot, if there is one. -/
theorem choose
    (runs : Runs setup base) (sound : state.Sound) (shown : state.Shown base store)
    (fresh : state.connections.find? flow.key = none)
    (route : state.route? packet = (state.choice? flow).map fun choice => (flow, choice))
    (long : 34 ≤ packet.size) (inside : Flow.portsPlace packet + 4 ≤ packet.size) :
    Delivers setup metadata (Sent state packet base store)
      ⟨45, packet, store, [(9, packetPlace (Flow.portsPlace packet)), (6, packetPlace 0)],
        [(flowPlace, flow.toList)], [], none⟩ := by
  have slotInside : slotOf flow < slotCount := Nat.mod_lt _ (by decide)
  rcases shown.lookupSlot slotInside metadata.worker with ⟨map, there, sized, looked, held⟩
  have key : (Memory.layOut (slotWord flow) 4).toArray = Map.keyOfIndex (slotOf flow) := by
    rw [Delivers.indexKey_toArray, toNat_slotWord]
  refine Delivers.pointTo runs.listed.slot (by decide) (show flowPlace < 2 ^ 32 by decide) rfl
    fun listed => ?_
  refine Delivers.assign listed (by decide) rfl fun listed => ?_
  refine Delivers.callDigest listed rfl List.mem_cons_self rfl rfl
    (by simp [Flow.toList, Address.toList])
    (show 16 ≤ Helper.digestLimit by decide) fun listed => ?_
  refine Delivers.compute listed (by decide) rfl rfl fun listed => ?_
  refine Delivers.storeStack 480 listed rfl rfl (by decide)
    (by simp [Apart, flowPlace, AccessSize.bytes]) fun listed => ?_
  refine Delivers.keep [(9, packetPlace (Flow.portsPlace packet)), (6, packetPlace 0)]
    ⟨rfl, rfl⟩ ?_
  refine Delivers.lookup listed (by decide) (by simp [Saved]) rfl (runs.maps 2 (by decide)) there
    rfl (show 480 < 2 ^ 32 by decide) List.mem_cons_self sized (key.symm ▸ looked)
    (fun missing => by cases missing) fun cell pointer found listed => ?_
  cases found
  rw [Store.setMap_self there]
  have carries := Layout.carries_word (BalancerState.mark_short sound.size (slotOf flow))
  let cell : Cell := ⟨(Layout.word 4).encode (BalancerState.mark (state.owner? (slotOf flow)))⟩
  have sized : cell.bytes.size = 4 := carries.sized
  refine @Delivers.loadCell _ _ _ _ _ _ _ _ _ _ _ .word 8 0 0 pointer _ cell listed (by decide)
    (by decide) rfl List.mem_cons_self held (by decide) sized.ge rfl fun listed => ?_
  rw [show AccessSize.word.bytes = 4 from rfl, Layout.ofBytes_word carries]
  refine Delivers.assign listed (by decide) rfl fun listed => ?_
  exact Delivers.keep _ (by exact ⟨rfl, rfl, rfl, rfl⟩)
    (runs.useOwner sound shown fresh route long inside (List.mem_cons_of_mem _ List.mem_cons_self))

/-- A flow that has a connection goes to its backend. -/
theorem resume
    (runs : Runs setup base) (sound : state.Sound)
    (touched : (state.touch flow).Shown base store')
    (found : state.connections.find? flow.key = some number)
    (route : state.route? packet = (state.choice? flow).map fun choice => (flow, choice))
    (long : 34 ≤ packet.size) (inside : Flow.portsPlace packet + 4 ≤ packet.size) :
    Delivers setup metadata (Sent state packet base store)
      ⟨59, packet, store', (7, Word.ofImmediate 0) :: sendRegisters packet number,
        [(flowPlace, flow.toList)], pointers, none⟩ := by
  rcases sound.choice?_of_connection found with ⟨backend, known, chosen⟩
  have early := sound.lt known
  have routed : state.route? packet = some (flow, number, backend) := by
    rw [route, chosen]
    rfl
  have remembered : state.remember flow number = state.touch flow := by
    rw [BalancerState.remember, BalancerState.touch, RecencyList.update, RecencyList.lookup, found]
    rfl
  exact runs.useBackend touched early known
    (fun _ => runs.send (early.trans (by decide)) routed (remembered ▸ touched) long inside)
    fun isNew => absurd rfl isNew

/-- Every packet is sent. -/
theorem sends (runs : Runs setup base) (sound : state.Sound) (shown : state.Shown base store) :
    Delivers setup metadata (Sent state packet base store)
      ⟨0, packet, store, [(1, Memory.contextPointer)], [], [], none⟩ := by
  refine Delivers.parseNetworkHeader runs.listed.connection (fun rejected => ?_)
    fun accepted listed => ?_
  · have noFlow : Flow.ofFrame? packet = none := by rw [Flow.ofFrame?, rejected]; rfl
    exact runs.pass shown (by rw [BalancerState.route?, noFlow]; rfl)
  have long := (Header.isAccepted_iff.mp accepted).long
  refine Delivers.parsePorts (.inr rfl) accepted listed (fun flow isFlow portless => ?_)
    (fun truncated => ?_) fun flow isFlow hasPorts inside listed => ?_
  · exact runs.pass shown (by simp [BalancerState.route?, isFlow, Option.filter, portless])
  · exact runs.pass shown (by rw [BalancerState.route?, truncated]; rfl)
  have route : state.route? packet = (state.choice? flow).map fun choice => (flow, choice) := by
    simp [BalancerState.route?, isFlow, Option.filter, hasPorts]
  rcases shown.lookupConnection flow metadata.worker with
    ⟨map, after, cell?, there, sized, looked, found⟩
  refine Delivers.assign listed (by decide) rfl fun listed => ?_
  refine Delivers.keep ((7, Word.ofImmediate 0) ::
    [(9, packetPlace (Flow.portsPlace packet)), (6, packetPlace 0)]) ⟨rfl, rfl, rfl⟩ ?_
  refine Delivers.lookup listed (by decide) (by simp [Saved]) rfl
    (show setup.maps[0]? = some base from runs.maps 0 (by decide)) there rfl
    (show flowPlace < 2 ^ 32 by decide) List.mem_cons_self sized looked (fun missing => ?_)
    fun cell pointer isSome listed => ?_
  · rcases found with ⟨_, fresh, rfl⟩ | ⟨_, _, isSome, _⟩
    · rw [Store.setMap_self there]
      refine Delivers.keep [(9, packetPlace (Flow.portsPlace packet)), (6, packetPlace 0)]
        ⟨rfl, rfl⟩ ?_
      exact runs.choose sound shown fresh route long inside
    · cases missing.symm.trans isSome
  · rcases found with ⟨isNone, _⟩ | ⟨cell', number, isSome', found, held, touched⟩
    · cases isNone.symm.trans isSome
    cases isSome.symm.trans isSome'
    have value : Word.ofBytes ((Cell.ofWord (BitVec.ofNat 64 number)).bytes.slice 0
        AccessSize.double.bytes) = BitVec.ofNat 64 number := Cell.integerAt_ofWord _
    refine @Delivers.loadCell _ _ _ _ _ _ _ _ _ _ _ .double 8 0 0 pointer _ _ listed (by decide)
      (by decide) rfl List.mem_cons_self held (by decide) (Cell.ofWord_size _).ge rfl
      fun listed => ?_
    rw [value]
    refine Delivers.jump listed ?_
    refine Delivers.keep ((7, Word.ofImmediate 0) :: sendRegisters packet number)
      ⟨rfl, rfl, rfl, rfl⟩ ?_
    exact runs.resume sound touched found route long inside

end Runs

end LoadBalancer

end PacketFilter
