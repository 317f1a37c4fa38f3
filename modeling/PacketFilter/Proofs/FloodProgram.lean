import PacketFilter.Proofs.FloodState
import PacketFilter.Proofs.Lookups

/-!
# What the program of a flood guard does

The lines of the program, part by part, and what each part does to the maps
when they hold the state of a guard.  Every packet is judged as `FloodState`
says, and is left as it is.
-/

namespace PacketFilter

/-! ## The lines -/

namespace Line

/-- Count one more under a counter. -/
def count (counter done : Nat) : List Line :=
  lookupIndex FloodGuard.countersMap (Int32.ofNat counter) done ++ [set 1 1, add false 0 1]

/-- Put a report together on the stack and hand it over. -/
def report (reason : DropReason) : List Line :=
  [load .double 1 10 (-16),
    store .double 10 (-56) (.register 1),
    load .word 1 10 (-8),
    store .word 10 (-48) (.register 1),
    load .byte 1 10 (-4),
    store .byte 10 (-44) (.register 1),
    store .byte 10 (-43) (.immediate (Int32.ofNat reason.code.toNat)),
    store .half 10 (-42) (.immediate 0),
    call .currentTime,
    store .double 10 (-40) (.register 0),
    loadMap 1 FloodGuard.eventsMap,
    move 2 10,
    compute .add 2 (.immediate (-56)),
    set 3 24,
    set 4 0,
    call .ringOutput]

end Line

namespace FloodGuard

open Line

/-- From the start on: packets of blocked sources are dropped. -/
def blocklistLines : List Line :=
  parseNetworkHeader 155 ++ (lookup blocklistMap (-16) 59 ++ (set 1 1 :: add false 0 1 ::
    (count blockedCounter 40 ++ (report .blocked ++ leave .drop))))

/-- From 59 on: the ports are put into the flow. -/
def portsLines : List Line :=
  parsePorts 2 62 72 155

/-- From 72 on: the flow is counted. -/
def trackLines : List Line :=
  set 9 0 ::
    (lookupIndex settingsMap (Int32.ofNat thresholdSetting) 81 ++ (Line.load .double 9 0 0 ::
    (lookup flowsMap (-16) 93 ++
      [set 1 1, add true 0 1, compute .add 1 (.immediate 1), branch .equal 9 (.immediate 0) 116,
        branch .above 1 (.register 9) 127, jump 116])))

/-- From 93 on: the flow is counted for the first time.  What follows is for flows that appear in
the meantime. -/
def firstLines : List Line :=
  [store .double 10 (-24) (.immediate 1), loadMap 1 flowsMap, move 2 10,
    compute .add 2 (.immediate (-16)), move 3 10, compute .add 3 (.immediate (-24)), set 4 1,
    call .mapUpdate, branch .equal 0 (.immediate 0) 116]

/-- From 116 on. -/
def passLines : List Line :=
  count passedCounter 125 ++ leave .forward

/-- From 127 on. -/
def limitLines : List Line :=
  count rateLimitedCounter 136 ++ (report .rateLimited ++ leave .drop)

/-- From 155 on. -/
def untrackedLines : List Line :=
  count untrackedCounter 164 ++ leave .forward

/-- The parts of the program stand at their places. -/
structure Listed (code : Code) : Prop where
  size : code.size = 166
  blocklist : code.lists 0 blocklistLines
  ports : code.lists 59 portsLines
  track : code.lists 72 trackLines
  first : code.lists 93 firstLines
  pass : code.lists 116 passLines
  limit : code.lists 127 limitLines
  untracked : code.lists 155 untrackedLines

/-- The code that the assembler finishes lists each block of the program at its place. -/
theorem listed_of_finish
    {code : Code} (made : assembly.finish = .ok code) : Listed code := by
  have holds : assembly.finish.toOption.all fun code =>
      code.size == 166 && code.lists 0 blocklistLines && code.lists 59 portsLines &&
        code.lists 72 trackLines &&
        code.lists 93 firstLines && code.lists 116 passLines && code.lists 127 limitLines &&
        code.lists 155 untrackedLines := by
    decide +kernel
  rw [made] at holds
  simp only [Except.toOption, Option.all_some, Bool.and_eq_true, beq_iff_eq] at holds
  obtain ⟨⟨⟨⟨⟨⟨⟨size, blocklist⟩, ports⟩, track⟩, first⟩, pass⟩, limit⟩, untracked⟩ := holds
  exact ⟨size, blocklist, ports, track, first, pass, limit, untracked⟩

/-- The program of a guard is run by one of the workers, on the maps that follow each other. -/
structure Runs (setup : Setup) (metadata : Metadata) (base workers : Nat) : Prop where
  listed : Listed setup.code
  maps : ∀ index < 5, setup.maps[index]? = some (base + index)
  early : metadata.worker < workers

/-! ## The parts -/

/-- A packet has been judged in that state. -/
def Judged (state : FloodState) (packet : Bytes) (base workers : Nat) :
    Except Fault Verdict → Bytes → Store → Prop :=
  fun outcome packet' store => outcome = .ok (state.judge packet).1 ∧ packet' = packet ∧
    (state.judge packet).2.Shown base workers store

namespace Runs

open Stage

variable {setup : Setup} {metadata : Metadata} {base workers position : Nat}
variable {post : Except Fault Verdict → Bytes → Store → Prop} {packet : Bytes} {store : Store}
variable {known : List (RegisterName × Word)} {slots : List (Nat × List UInt8)}
variable {pointers : List (Word × CellId)} {rest : List Line} {state state' : FloodState}

/-- The lines that count a packet add one to the worker's lane, and the run goes on behind them. -/
theorem count
    {counter : Nat} (runs : Runs setup metadata base workers)
    (listed : setup.code.lists position (Line.count counter (position + 9) ++ rest))
    (few : position < 2 ^ 29) (inside : counter < counterCount)
    (shown : state.Shown base workers store)
    (continues : ∀ store', (state.count counter).Shown base workers store' →
      setup.code.lists (position + 9) rest →
        Delivers setup metadata post ⟨position + 9, packet, store', [], [], [], none⟩) :
    Delivers setup metadata post ⟨position, packet, store, known, slots, pointers, none⟩ := by
  rcases shown.lookupCounter runs.early inside with
    ⟨map, number, old, there, sized, looked, held, counted⟩
  have same : (Word.ofImmediate (Int32.ofNat counter)).toNat = counter := by
    rw [counterCount] at inside
    obtain rfl | rfl | rfl | rfl : counter = 0 ∨ counter = 1 ∨ counter = 2 ∨ counter = 3 := by omega
    all_goals decide
  rw [Line.count, List.append_assoc] at listed
  refine Delivers.forget ?_
  refine Delivers.lookupIndex listed few (by simp [Saved]) (by simp [Apart]) rfl
    (runs.maps 2 (by decide)) there sized (same.symm ▸ looked) (fun missing => by cases missing)
    fun number' pointer found listed => ?_
  cases found
  rw [Store.setMap_self there]
  refine Delivers.assign listed (by decide) rfl fun listed => ?_
  refine Delivers.add listed (by omega) (by decide) rfl List.mem_cons_self rfl held
    fun listed => ?_
  exact Delivers.forget (continues _ counted listed)

/-- The lines that report a drop put an event into the ring if it has room, and the run goes on
behind them either way. -/
theorem report
    {reason : DropReason} (runs : Runs setup metadata base workers)
    (listed : setup.code.lists position (Line.report reason ++ rest))
    (shown : state.Shown base workers store)
    (continues : ∀ store', state.Shown base workers store' →
      setup.code.lists (position + 17) rest →
        Delivers setup metadata post ⟨position + 17, packet, store', [], [], [], none⟩) :
    Delivers setup metadata post ⟨position, packet, store, [], [], [], none⟩ := by
  rcases shown.outputEvent with ⟨map, ring, there, isRing, shown'⟩
  refine Delivers.loadAny 496 listed (by decide) rfl (by decide) fun _ listed => ?_
  refine Delivers.storeStack 456 listed rfl rfl (by decide) (by simp [Apart]) fun listed => ?_
  refine Delivers.loadAny 504 listed (by decide) rfl (by decide) fun _ listed => ?_
  refine Delivers.storeStack 464 listed rfl rfl (by decide) (by simp [Apart, AccessSize.bytes])
    fun listed => ?_
  refine Delivers.loadAny 508 listed (by decide) rfl (by decide) fun _ listed => ?_
  refine Delivers.storeStack 468 listed rfl rfl (by decide) (by simp [Apart, AccessSize.bytes])
    fun listed => ?_
  refine Delivers.storeStack 469 listed rfl rfl (by decide) (by simp [Apart, AccessSize.bytes])
    fun listed => ?_
  refine Delivers.storeStack 470 listed rfl rfl (by decide) (by simp [Apart, AccessSize.bytes])
    fun listed => ?_
  refine Delivers.callTime listed fun time listed => ?_
  refine Delivers.storeStack 472 listed rfl rfl (by decide) (by simp [Apart, AccessSize.bytes])
    fun listed => ?_
  refine Delivers.loadMap listed (by decide) fun listed => ?_
  refine Delivers.pointTo listed (by decide) (show 456 < 2 ^ 32 by decide) rfl fun listed => ?_
  refine Delivers.assign listed (by decide) rfl fun listed => ?_
  refine Delivers.assign listed (by decide) rfl fun listed => ?_
  refine Delivers.callOutput listed rfl (runs.maps 4 (by decide)) (by decide) there isRing rfl rfl
    (by decide) fun ring' _ listed => ?_
  exact Delivers.forget (continues _ (shown' ring') listed)

/-- The verdict is given once all that it brings about is done. -/
theorem leave
    {verdict : Verdict} (listed : setup.code.lists position (Line.leave verdict))
    (means : Verdict.ofCode (Word.ofImmediate (Int32.ofNat verdict.code)) none = .ok verdict)
    (judged : state.judge packet = (verdict, state'))
    (shown : state'.Shown base workers store) :
    Delivers setup metadata (Judged state packet base workers)
      ⟨position, packet, store, known, slots, pointers, none⟩ := by
  refine Delivers.leave listed means ?_
  rw [Judged, judged]
  exact ⟨rfl, rfl, shown⟩

/-- From the lines that let a packet pass, the run ends with the verdict to forward it. -/
theorem pass
    (runs : Runs setup metadata base workers) (shown : state'.Shown base workers store)
    (judged : state.judge packet = (.forward, state'.count passedCounter)) :
    Delivers setup metadata (Judged state packet base workers)
      ⟨116, packet, store, known, slots, pointers, none⟩ := by
  refine runs.count runs.listed.pass (by decide) (by decide) shown fun store' shown' listed => ?_
  exact leave listed rfl judged shown'

/-- From the lines that drop a packet of a flow over its limit, the run ends as the abstract state
says. -/
theorem limit
    (runs : Runs setup metadata base workers) (shown : state'.Shown base workers store)
    (judged : state.judge packet = (.drop, state'.count rateLimitedCounter)) :
    Delivers setup metadata (Judged state packet base workers)
      ⟨127, packet, store, known, slots, pointers, none⟩ := by
  refine runs.count runs.listed.limit (by decide) (by decide) shown fun store' shown' listed => ?_
  refine runs.report listed shown' fun store'' shown'' listed => ?_
  exact leave listed rfl judged shown''

/-- From the lines for packets without ports, the run counts the packet and forwards it. -/
theorem untracked
    (runs : Runs setup metadata base workers) (shown : state'.Shown base workers store)
    (judged : state.judge packet = (.forward, state'.count untrackedCounter)) :
    Delivers setup metadata (Judged state packet base workers)
      ⟨155, packet, store, known, slots, pointers, none⟩ := by
  refine runs.count runs.listed.untracked (by decide) (by decide) shown
    fun store' shown' listed => ?_
  exact leave listed rfl judged shown'

/-- A flow has been counted, and goes on to be forwarded or dropped. -/
theorem limited
    {count : Word} (runs : Runs setup metadata base workers)
    (shown : state'.Shown base workers store) (judged : state.judge packet = state'.limit count)
    (listed : setup.code.lists position
      (branch .equal 9 (.immediate 0) 116 :: branch .above 1 (.register 9) 127 :: jump 116 :: rest))
    (threshold : known.lookup 9 = some state'.threshold) (counted : known.lookup 1 = some count) :
    Delivers setup metadata (Judged state packet base workers)
      ⟨position, packet, store, known, slots, pointers, none⟩ := by
  have passes (fine : ¬ (state'.threshold ≠ 0 ∧ state'.threshold < count)) :
      state.judge packet = (.forward, state'.count passedCounter) := by
    rw [judged, FloodState.limit, if_neg fine]
  refine Delivers.branch listed threshold rfl (fun unlimited => ?_) fun isLimited listed => ?_
  · exact runs.pass shown (passes fun both => both.1 (beq_iff_eq.mp unlimited))
  refine Delivers.branch listed counted threshold (fun exceeded => ?_) fun within listed => ?_
  · refine runs.limit shown ?_
    rw [judged, FloodState.limit,
      if_pos ⟨beq_eq_false_iff_ne.mp isLimited, BitVec.ult_iff_lt.mp exceeded⟩]
  · refine Delivers.jump listed (runs.pass shown (passes fun both => ?_))
    exact Bool.false_ne_true (within.symm.trans (BitVec.ult_iff_lt.mpr both.2))

/-- The first packet of a flow enters it with a count of one, and is judged by that count. -/
theorem first
    {flow : Flow} (runs : Runs setup metadata base workers) (shown : state.Shown base workers store)
    (judged : state.judge packet = (state.countFlow flow 1).limit 1)
    (fresh : state.flows.find? flow.key = none) :
    Delivers setup metadata (Judged state packet base workers)
      ⟨93, packet, store, [(9, state.threshold)], [(flowPlace, flow.toList)], [], none⟩ := by
  rcases shown.startFlow fresh 1 metadata.worker with
    ⟨map, after, there, lists, run, counted⟩
  have value : (Memory.layOut (Word.ofImmediate 1) 8).toArray =
      (Layout.word 8).encode 1 := by
    rw [Memory.layOut_eq_toBytes (by decide)]
    rfl
  have passes : state.judge packet = (.forward, (state.countFlow flow 1).count passedCounter) := by
    have first : ¬ (state.threshold ≠ 0 ∧ state.threshold < 1) := by
      rintro ⟨limited, exceeded⟩
      have small : state.threshold.toNat < 1 := exceeded
      exact limited (BitVec.eq_of_toNat_eq (Nat.lt_one_iff.mp small))
    rw [judged, FloodState.limit]
    exact if_neg first
  refine Delivers.storeStack 488 runs.listed.first rfl rfl (by decide)
    (by simp [Apart, flowPlace, AccessSize.bytes]) fun listed => ?_
  refine Delivers.loadMap listed (by decide) fun listed => ?_
  refine Delivers.pointTo listed (by decide) (show flowPlace < 2 ^ 32 by decide) rfl
    fun listed => ?_
  refine Delivers.pointTo listed (by decide) (show 488 < 2 ^ 32 by decide) rfl fun listed => ?_
  refine Delivers.assign listed (by decide) rfl fun listed => ?_
  refine Delivers.callUpdate listed rfl (runs.maps 1 (by decide)) (by decide) there rfl
    (List.mem_cons_of_mem _ List.mem_cons_self) lists.keySize rfl List.mem_cons_self
      lists.valueSize rfl rfl
    (value.symm ▸ run) fun listed => ?_
  refine Delivers.branch listed rfl rfl (fun _ => ?_) fun differs => absurd differs (by decide)
  exact runs.pass counted passes

/-- A packet with ports is judged by the count of its flow, whether the flow is tracked already or
not. -/
theorem track
    {flow : Flow} (runs : Runs setup metadata base workers) (shown : state.Shown base workers store)
    (judged : let count := (state.flows.find? flow.key).getD 0 + 1
      state.judge packet = (state.countFlow flow count).limit count) :
    Delivers setup metadata (Judged state packet base workers)
      ⟨72, packet, store, known, [(flowPlace, flow.toList)], [], none⟩ := by
  rcases shown.lookupThreshold metadata.worker with ⟨settings, there, sized, looked, held⟩
  refine Delivers.keep [] trivial ?_
  refine Delivers.assign runs.listed.track (by decide) rfl fun listed => ?_
  refine Delivers.lookupIndex listed (by decide) (by simp [Saved]) (by simp [Apart, flowPlace]) rfl
    (runs.maps 3 (by decide)) there sized looked (fun missing => by cases missing)
    fun number pointer found listed => ?_
  cases found
  rw [Store.setMap_self there]
  have whole := Cell.ofWord_size state.threshold
  have value : Word.ofBytes ((Cell.ofWord state.threshold).bytes.slice 0 AccessSize.double.bytes) =
      state.threshold := Cell.integerAt_ofWord _
  refine @Delivers.loadCell _ _ _ _ _ _ _ _ _ _ _ .double 9 0 0 pointer _ _ listed (by decide)
    (by decide) rfl List.mem_cons_self held (by decide) whole.ge rfl fun listed => ?_
  rw [value]
  refine Delivers.keep [(9, state.threshold)] rfl ?_
  refine Delivers.weaken (.refl _) (List.Subset.refl _) (List.nil_subset _) ?_
  rcases shown.lookupFlow flow metadata.worker with
    ⟨flows, after, number?, there, sized, looked, found⟩
  refine Delivers.lookup listed (by decide) (by simp [Saved]) rfl (runs.maps 1 (by decide)) there
    rfl (show flowPlace < 2 ^ 32 by decide) List.mem_cons_self sized looked (fun missing => ?_)
    fun number pointer isSome listed => ?_
  · rcases found with ⟨_, fresh, rfl⟩ | ⟨number, _, isSome, _⟩
    · rw [fresh] at judged
      rw [Store.setMap_self there]
      exact runs.first shown judged fresh
    · cases missing.symm.trans isSome
  · rcases found with ⟨isNone, _⟩ | ⟨number', count, isSome', known, held, counted⟩
    · cases isNone.symm.trans isSome
    · cases isSome.symm.trans isSome'
      rw [known] at judged
      refine Delivers.assign listed (by decide) rfl fun listed => ?_
      refine Delivers.add listed (by decide) (by decide) rfl List.mem_cons_self rfl held
        fun listed => ?_
      refine Delivers.compute listed (by decide) rfl rfl fun listed => ?_
      exact runs.limited counted judged listed rfl rfl

/-- An accepted packet whose source is free is tracked by its ports, or forwarded without them. -/
theorem ports
    (runs : Runs setup metadata base workers) (shown : state.Shown base workers store)
    (accepted : Header.isAccepted packet = true)
    (free : state.blocklist.entries.lookup (FloodState.sourceKey packet) = none) :
    Delivers setup metadata (Judged state packet base workers)
      ⟨59, packet, store, headerRegisters packet,
        [(flowPlace, (Flow.ofNetworkHeader packet).toList)], [], none⟩ := by
  have listed : setup.code.lists 59 (parsePorts 2 62 72 155 ++ []) := by
    rw [List.append_nil]
    exact runs.listed.ports
  refine Delivers.parsePorts (.inl rfl) accepted listed (fun flow isFlow _ => ?_)
    (fun truncated => ?_) fun flow isFlow _ _ _ => ?_
  · exact runs.track shown (FloodState.judge_tracked accepted free isFlow)
  · exact runs.untracked shown (FloodState.judge_truncated accepted free truncated)
  · exact runs.track shown (FloodState.judge_tracked accepted free isFlow)

/-- Every packet is judged. -/
theorem judges (runs : Runs setup metadata base workers) (shown : state.Shown base workers store) :
    Delivers setup metadata (Judged state packet base workers)
      ⟨0, packet, store, [(1, Memory.contextPointer)], [], [], none⟩ := by
  refine Delivers.parseNetworkHeader runs.listed.blocklist (fun rejected => ?_)
    fun accepted listed => ?_
  · exact runs.untracked shown (FloodState.judge_rejected rejected)
  have sized : (FloodState.sourceKey packet).size = 4 := rfl
  rcases shown.lookupBlocked sized metadata.worker with
    ⟨map, number?, there, keySize, looked, found⟩
  have source : (Flow.ofNetworkHeader packet).toList =
      (Header.addressAt packet Header.sourceOffset).toList ++
        ((Flow.ofNetworkHeader packet).toList.drop 4) := rfl
  rw [source]
  refine Delivers.split List.mem_cons_self ?_
  rw [← source]
  refine Delivers.lookup listed (by decide) (by simp [Saved, headerRegisters]) rfl
    (show setup.maps[0]? = some base from runs.maps 0 (by decide)) there rfl
      (show flowPlace < 2 ^ 32 by decide) List.mem_cons_self
    keySize looked (fun missing => ?_) fun number pointer isSome listed => ?_
  · rw [Store.setMap_self there]
    refine Delivers.weaken (.refl _) (List.subset_cons_self _ _) (List.Subset.refl _) ?_
    rcases found with ⟨_, free⟩ | ⟨number, _, isSome, _⟩
    · exact runs.ports shown accepted free
    · cases missing.symm.trans isSome
  · rw [Store.setMap_self there]
    rcases found with ⟨isNone, _⟩ | ⟨number', hits, isSome', blocked, held, dropped⟩
    · cases isNone.symm.trans isSome
    · cases isSome.symm.trans isSome'
      refine Delivers.assign listed (by decide) rfl fun listed => ?_
      refine Delivers.add listed (by decide) (by decide) rfl List.mem_cons_self rfl held
        fun listed => ?_
      refine runs.count listed (by decide) (by decide) dropped fun store' shown' listed => ?_
      refine runs.report listed shown' fun store'' shown'' listed => ?_
      exact leave listed rfl (FloodState.judge_blocked accepted blocked) shown''

end Runs

end FloodGuard

end PacketFilter
