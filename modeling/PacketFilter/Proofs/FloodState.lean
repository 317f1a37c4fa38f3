import PacketFilter.FloodGuard.Basic
import PacketFilter.Proofs.FlowTables

/-!
# What a flood guard keeps track of

A flood guard is for this: it holds a list of blocked addresses with the
packets dropped of each, a list of flows with the packets counted of each, in
the order of use, and counts what becomes of the packets.  What it does with a
packet is said here of these lists and numbers, without a program and without
maps.

`FloodState.Shown` says that the maps of a guard hold such a state.
-/

namespace PacketFilter

namespace FloodCounts

/-- The count that a counter stands for. -/
def get (counts : FloodCounts) (counter : Nat) : Word :=
  if counter = FloodGuard.passedCounter then counts.passed
  else if counter = FloodGuard.blockedCounter then counts.blocked
  else if counter = FloodGuard.rateLimitedCounter then counts.rateLimited
  else counts.untracked

def count (counts : FloodCounts) (counter : Nat) : FloodCounts :=
  if counter = FloodGuard.passedCounter then { counts with passed := counts.passed + 1 }
  else if counter = FloodGuard.blockedCounter then { counts with blocked := counts.blocked + 1 }
  else if counter = FloodGuard.rateLimitedCounter then
    { counts with rateLimited := counts.rateLimited + 1 }
  else { counts with untracked := counts.untracked + 1 }

theorem get_count
    {counts : FloodCounts} {counter index : Nat} (inside : counter < FloodGuard.counterCount)
    (inside' : index < FloodGuard.counterCount) :
    (counts.count counter).get index = counts.get index + if index = counter then 1 else 0 := by
  rw [FloodGuard.counterCount] at inside inside'
  obtain rfl | rfl | rfl | rfl : counter = 0 ∨ counter = 1 ∨ counter = 2 ∨ counter = 3 := by omega
  all_goals
    obtain rfl | rfl | rfl | rfl : index = 0 ∨ index = 1 ∨ index = 2 ∨ index = 3 := by omega
    all_goals first | rfl | exact (add_zero _).symm

end FloodCounts

/-! ## Calls -/

/-- What a guard can be asked to do. -/
inductive FloodCall where
  | block (address : Address)
  | unblock (address : Address)
  | setThreshold (threshold : Word)
  | resetWindow
  /-- Run the program on a packet, with what the clock reads meanwhile and a work area. -/
  | run (clock : Clock) (context : PacketContext) (area : WorkArea)
  | hits (address : Address)
  | flowCount (flow : Flow)
  | counts

/-- The packets of a call are handled by one of so many workers. -/
def FloodCall.Within (call : FloodCall) (workers : Nat) : Prop :=
  match call with
  | .run _ context _ => context.metadata.worker < workers
  | _ => True

/-- What a guard answers to a call. -/
inductive FloodAnswer where
  | done (result : Except ApplicationError Unit)
  | unblocked (result : Except ApplicationError Bool)
  | forgotten (result : Except ApplicationError Nat)
  /-- The outcome of a run and the packet that it leaves. -/
  | judged (outcome : Except Fault Verdict) (packet : Bytes)
  | count (result : Except ApplicationError (Option Word))
  | counts (result : Except ApplicationError FloodCounts)

/-- What a flood guard keeps track of. -/
structure FloodState where
  /-- The packets dropped of each blocked address since it was blocked. -/
  blocklist : BoundedMap Word
  /-- The packets counted of each flow in this window. -/
  flows : RecencyList Word
  threshold : Word
  counts : FloodCounts := ⟨0, 0, 0, 0⟩

namespace FloodState

/-- The state of a guard that has just been set up. -/
def start (config : FloodGuardConfig) : FloodState where
  blocklist := { capacity := config.maxBlocked }
  flows := { capacity := config.maxFlows }
  threshold := config.threshold

def count (state : FloodState) (counter : Nat) : FloodState :=
  { state with counts := state.counts.count counter }

/-- The key of an address in the block list. -/
def addressKey (address : Address) : Bytes :=
  FloodGuard.addressLayout.encode address

/-- The flow has been used last and has that count.  When there is no room for it, the flow that
has not been used for longest is forgotten. -/
def countFlow (state : FloodState) (flow : Flow) (count : Word) : FloodState :=
  { state with flows := (state.flows.update flow.key count .createOrReplace).2 }

/-- What becomes of a packet of a flow, which has just been counted for the window. -/
def limit (state : FloodState) (count : Word) : Verdict × FloodState :=
  if state.threshold ≠ 0 ∧ state.threshold < count then
    (.drop, state.count FloodGuard.rateLimitedCounter)
  else
    (.forward, state.count FloodGuard.passedCounter)

/-- What becomes of a packet. -/
def judge (state : FloodState) (packet : Bytes) : Verdict × FloodState :=
  if Header.isAccepted packet then
    let source := addressKey (Header.addressAt packet Header.sourceOffset)
    match state.blocklist.entries.lookup source with
    | some hits =>
      (.drop,
        { state with blocklist := state.blocklist.insert source (hits + 1) }.count
          FloodGuard.blockedCounter)
    | none =>
      match Flow.ofFrame? packet with
      | none => (.forward, state.count FloodGuard.untrackedCounter)
      | some flow =>
        let count := (state.flows.find? flow.key).getD 0 + 1
        (state.countFlow flow count).limit count
  else
    (.forward, state.count FloodGuard.untrackedCounter)

/-! ### What the control plane does -/

/-- Block an address, if it is not blocked already and there is room. -/
def block (state : FloodState) (address : Address) : Except ApplicationError Unit × FloodState :=
  if addressKey address ∈ state.blocklist.entries then
    (.ok (), state)
  else if state.blocklist.size = state.blocklist.capacity then
    (.error (.map .full), state)
  else
    (.ok (), { state with blocklist := state.blocklist.insert (addressKey address) 0 })

/-- Forget an address and its packets; whether it was blocked. -/
def unblock (state : FloodState) (address : Address) : Bool × FloodState :=
  ((state.blocklist.entries.lookup (addressKey address)).isSome,
    { state with blocklist := state.blocklist.erase (addressKey address) })

/-- Forget all flows; how many there were. -/
def resetWindow (state : FloodState) : Nat × FloodState :=
  (state.flows.size, { state with flows := { state.flows with entries := [] } })

/-- The packets counted of a flow; counts as a use. -/
def flowCount (state : FloodState) (flow : Flow) : Option Word × FloodState :=
  ((state.flows.lookup flow.key).1,
    { state with flows := (state.flows.lookup flow.key).2 })

/-- The answer to a call, and what becomes of the state. -/
def answer : FloodCall → FloodState → FloodAnswer × FloodState
  | .block address, state => (.done (state.block address).1, (state.block address).2)
  | .unblock address,
      state => (.unblocked (.ok (state.unblock address).1), (state.unblock address).2)
  | .setThreshold threshold, state => (.done (.ok ()), { state with threshold })
  | .resetWindow, state => (.forgotten (.ok state.resetWindow.1), state.resetWindow.2)
  | .run _ context _, state =>
    (.judged (.ok (state.judge context.packet).1) context.packet, (state.judge context.packet).2)
  | .hits address, state =>
    (.count (.ok (state.blocklist.entries.lookup (addressKey address))), state)
  | .flowCount flow, state => (.count (.ok (state.flowCount flow).1), (state.flowCount flow).2)
  | .counts, state => (.counts (.ok state.counts), state)

section

variable {state : FloodState} {packet : Bytes}

/-- To block an address is to put it among the others, where it does not matter that it is there
already. -/
theorem block_eq (state : FloodState) (address : Address) :
    state.block address =
      match state.blocklist.update (addressKey address) 0 .createOnly with
      | (.ok _, blocklist) => (.ok (), { state with blocklist })
      | (.error error, blocklist) =>
        (if error = .keyExists then .ok () else .error (.map error), { state with blocklist }) := by
  rw [block, BoundedMap.update]
  split_ifs <;> first | rfl | contradiction

theorem judge_rejected (rejected : Header.isAccepted packet = false) :
    state.judge packet = (.forward, state.count FloodGuard.untrackedCounter) := by
  rw [judge, rejected, if_neg Bool.false_ne_true]

/-- The key of the source of a packet in the block list. -/
def sourceKey (packet : Bytes) : Bytes :=
  addressKey (Header.addressAt packet Header.sourceOffset)

theorem judge_blocked
    {hits : Word} (accepted : Header.isAccepted packet = true)
    (blocked : state.blocklist.entries.lookup (sourceKey packet) = some hits) :
    state.judge packet =
      (.drop, { state with blocklist := state.blocklist.insert (sourceKey packet) (hits + 1) }.count
        FloodGuard.blockedCounter) := by
  rw [sourceKey] at blocked
  rw [judge, if_pos accepted]
  dsimp only
  rw [blocked]
  rfl

theorem judge_truncated
    (accepted : Header.isAccepted packet = true)
    (free : state.blocklist.entries.lookup (sourceKey packet) = none)
    (truncated : Flow.ofFrame? packet = none) :
    state.judge packet = (.forward, state.count FloodGuard.untrackedCounter) := by
  rw [sourceKey] at free
  rw [judge, if_pos accepted]
  dsimp only
  rw [free, truncated]

theorem judge_tracked
    {flow : Flow} (accepted : Header.isAccepted packet = true)
    (free : state.blocklist.entries.lookup (sourceKey packet) = none)
    (tracked : Flow.ofFrame? packet = some flow) :
    state.judge packet =
      let count := (state.flows.find? flow.key).getD 0 + 1
      (state.countFlow flow count).limit count := by
  rw [sourceKey] at free
  rw [judge, if_pos accepted]
  dsimp only
  rw [free, tracked]

end

/-! ## Maps that hold the state -/

/-- The maps of a guard hold the state.  They follow each other in the store. -/
structure Shown (state : FloodState) (base workers : Nat) (store : Store) : Prop where
  blocklist : store.Has base fun map =>
    (∃ capacity, map.schema = .hash 4 8 capacity) ∧
      ∃ table, map.Shows FloodGuard.countLayout.encode table state.blocklist
  flows : store.Has (base + 1) fun map => map.ListsFlows state.flows
  counters : store.Has (base + 2) fun map =>
    map.schema = .perWorkerArray 8 FloodGuard.counterCount ∧
      ∃ values, map.Tallies workers FloodGuard.counterCount values ∧
        ∀ counter < FloodGuard.counterCount,
          state.counts.get counter = ∑ worker ∈ Finset.range workers, values worker counter
  settings : store.Has (base + 3) fun map =>
    map.schema = .array 8 1 ∧
      map.Arrays FloodGuard.countLayout.encode 1 fun _ => state.threshold
  events : store.Has (base + 4) fun map => ∃ ring, map.content = .ringBuffer ring

namespace Shown

variable {state : FloodState} {base workers : Nat} {store : Store} {changed : Map}

theorem setBlocklist
    {bounded : BoundedMap Word} (shown : state.Shown base workers store)
    (schema : ∃ capacity, changed.schema = .hash 4 8 capacity)
    (shows : ∃ table, changed.Shows FloodGuard.countLayout.encode table bounded) :
    { state with blocklist := bounded }.Shown base workers (store.setMap base changed) where
  blocklist := shown.blocklist.set ⟨schema, shows⟩
  flows := shown.flows.apart (by simp)
  counters := shown.counters.apart (by simp)
  settings := shown.settings.apart (by simp)
  events := shown.events.apart (by simp)

theorem setFlows
    {list : RecencyList Word} (shown : state.Shown base workers store)
    (lists : changed.ListsFlows list) :
    { state with flows := list }.Shown base workers (store.setMap (base + 1) changed) where
  blocklist := shown.blocklist.apart (by simp)
  flows := shown.flows.set lists
  counters := shown.counters.apart (by simp)
  settings := shown.settings.apart (by simp)
  events := shown.events.apart (by simp)

theorem setEvents
    {ring : Ring} (shown : state.Shown base workers store)
    (isRing : changed.content = .ringBuffer ring) :
    state.Shown base workers (store.setMap (base + 4) changed) where
  blocklist := shown.blocklist.apart (by simp)
  flows := shown.flows.apart (by simp)
  counters := shown.counters.apart (by simp)
  settings := shown.settings.apart (by simp)
  events := shown.events.set ⟨ring, isRing⟩

theorem setThreshold
    {threshold : Word} (shown : state.Shown base workers store)
    (schema : changed.schema = .array 8 1)
    (arrays : changed.Arrays FloodGuard.countLayout.encode 1 fun _ => threshold) :
    { state with threshold }.Shown base workers (store.setMap (base + 3) changed) where
  blocklist := shown.blocklist.apart (by simp)
  flows := shown.flows.apart (by simp)
  counters := shown.counters.apart (by simp)
  settings := shown.settings.set ⟨schema, arrays⟩
  events := shown.events.apart (by simp)

/-! ### What lookups lead to -/

/-- A worker finds a count of its own, and adds one to it. -/
theorem lookupCounter
    {worker counter : Nat} (shown : state.Shown base workers store) (early : worker < workers)
    (inside : counter < FloodGuard.counterCount) :
    ∃ map number old, store.map? (base + 2) = some map ∧ map.schema.keySize = 4 ∧
      (Map.lookupCell (Map.keyOfIndex counter) worker).run map = (.ok (some number), map) ∧
      store.cell? ⟨base + 2, number⟩ = some (.ofWord old) ∧
      (state.count counter).Shown base workers
        (store.setCell ⟨base + 2, number⟩ (.ofWord (old + 1))) := by
  rcases shown.counters with ⟨map, there, schema, values, tallies, sums⟩
  have index : Map.indexOfKey (Map.keyOfIndex counter) = counter :=
    Map.indexOfKey_keyOfIndex (by rw [FloodGuard.counterCount] at inside; omega)
  have sized : (Map.keyOfIndex counter).size = map.schema.keySize := by
    rw [schema]
    exact Map.keyOfIndex_size counter
  have found := tallies.find (Map.keyOfIndex counter) early (index.symm ▸ inside)
  rw [index] at found
  refine ⟨map, _, values worker counter, there, by rw [schema]; rfl,
    (Map.run_lookupCell sized).trans found, ?_, ?_⟩
  · rw [Store.cell?, there, Option.bind_some]
    exact tallies.values worker early counter inside
  · have total (index : Nat) (inside' : index < FloodGuard.counterCount) :
        (state.counts.count counter).get index = ∑ worker' ∈ Finset.range workers,
          (values worker' index + if worker' = worker ∧ index = counter then 1 else 0) := by
      rw [FloodCounts.get_count inside inside', sums index inside', Finset.sum_add_distrib]
      by_cases same : index = counter
      · simp only [same, and_true]
        rw [if_pos trivial, Finset.sum_ite_eq', if_pos (Finset.mem_range.mpr early)]
      · simp [same]
    rw [Store.setCell_eq there]
    exact
      { blocklist := shown.blocklist.apart (by simp)
        flows := shown.flows.apart (by simp)
        counters := shown.counters.set ⟨schema, _, tallies.count early inside, total⟩
        settings := shown.settings.apart (by simp)
        events := shown.events.apart (by simp) }

/-- The threshold is found. -/
theorem lookupThreshold (shown : state.Shown base workers store) (worker : Nat) :
    ∃ map, store.map? (base + 3) = some map ∧ map.schema.keySize = 4 ∧
      (Map.lookupCell (Map.keyOfIndex FloodGuard.thresholdSetting) worker).run map =
        (.ok (some 0), map) ∧
      store.cell? ⟨base + 3, 0⟩ = some (.ofWord state.threshold) := by
  rcases shown.settings with ⟨map, there, schema, arrays⟩
  have sized : map.schema.keySize = 4 := by rw [schema]; rfl
  refine ⟨map, there, sized, arrays.run_lookupCell sized (by decide) worker, ?_⟩
  rw [Store.cell?, there, Option.bind_some]
  exact Map.cell?_of_bytes? (arrays.values 0 Nat.zero_lt_one)

/-- An address is either not blocked, or the packets dropped of it are found and can be added
to. -/
theorem lookupBlocked
    (shown : state.Shown base workers store) {key : Bytes} (sized : key.size = 4) (worker : Nat) :
    ∃ map number?, store.map? base = some map ∧ map.schema.keySize = 4 ∧
      (Map.lookupCell key worker).run map = (.ok number?, map) ∧
      ((number? = none ∧ state.blocklist.entries.lookup key = none) ∨
        ∃ number hits, number? = some number ∧ state.blocklist.entries.lookup key = some hits ∧
          store.cell? ⟨base, number⟩ = some (.ofWord hits) ∧
          { state with blocklist := state.blocklist.insert key (hits + 1) }.Shown base workers
            (store.setCell ⟨base, number⟩ (.ofWord (hits + 1)))) := by
  rcases shown.blocklist with ⟨map, there, ⟨capacity, schema⟩, table, shows⟩
  have keySize : map.schema.keySize = 4 := by rw [schema]; rfl
  refine ⟨map, table.find? key, there, keySize,
    (Map.run_lookupCell (sized.trans keySize.symm)).trans (shows.find key worker), ?_⟩
  have values := shows.values key
  rcases found : table.find? key with _ | number
  · rw [found] at values
    exact .inl ⟨rfl, Option.map_eq_none_iff.mp values.symm⟩
  · rw [found, Option.bind_some] at values
    have inside := shows.inside found
    rcases held : state.blocklist.entries.lookup key with _ | hits
    · rw [held, Map.cell?, Array.getElem?_eq_getElem inside] at values
      cases values
    · rw [held] at values
      refine .inr ⟨number, hits, rfl, rfl, ?_, ?_⟩
      · rw [Store.cell?, there, Option.bind_some]
        exact Map.cell?_of_bytes? values
      · rw [Store.setCell_eq there]
        exact shown.setBlocklist ⟨capacity, schema⟩ ⟨table, shows.setCell found (hits + 1)⟩

/-- Flow lookups count as uses.  A flow is either not counted yet, or its count is found and can be
added to. -/
theorem lookupFlow (shown : state.Shown base workers store) (flow : Flow) (worker : Nat) :
    ∃ map after number?, store.map? (base + 1) = some map ∧ map.schema.keySize = Flow.size ∧
      (Map.lookupCell flow.key worker).run map = (.ok number?, after) ∧
      ((number? = none ∧ state.flows.find? flow.key = none ∧ after = map) ∨
        ∃ number count, number? = some number ∧ state.flows.find? flow.key = some count ∧
          (store.setMap (base + 1) after).cell? ⟨base + 1, number⟩ = some (.ofWord count) ∧
          (state.countFlow flow (count + 1)).Shown base workers
            ((store.setMap (base + 1) after).setCell ⟨base + 1,
              number⟩ (.ofWord (count + 1)))) := by
  rcases shown.flows with ⟨map, there, lists⟩
  rcases found : state.flows.find? flow.key with _ | count
  · exact ⟨map, map, none, there, lists.keySize, lists.lookup_absent found worker,
      .inl ⟨rfl, rfl, rfl⟩⟩
  · rcases lists.lookup_present found worker with ⟨number, after, looked, moved, held, changes⟩
    have there' : (store.setMap (base + 1) after).map? (base + 1) = some after :=
      (Store.map?_setMap there).trans (if_pos rfl)
    refine ⟨map, after, some number, there, lists.keySize, looked,
      .inr ⟨number, count, rfl, rfl, ?_, ?_⟩⟩
    · rw [Store.cell?, there', Option.bind_some]
      exact held
    · rw [Store.setCell_eq there']
      exact (shown.setFlows moved).setFlows (changes (count + 1))

/-- A flow that is not counted yet gets a count. -/
theorem startFlow
    {flow : Flow} (shown : state.Shown base workers store)
    (fresh : state.flows.find? flow.key = none) (value : Word) (worker : Nat) :
    ∃ map after, store.map? (base + 1) = some map ∧ map.ListsFlows state.flows ∧
      (Map.updateFromWorker flow.key ((Layout.word 8).encode value) .createOnly worker).run map =
        (.ok (), after) ∧
      (state.countFlow flow value).Shown base workers (store.setMap (base + 1) after) := by
  rcases shown.flows with ⟨map, there, lists⟩
  rcases lists.update flow value .createOnly worker with ⟨after, run, lists'⟩
  rw [RecencyList.update, fresh] at run lists'
  rw [countFlow, RecencyList.update, fresh]
  exact ⟨map, after, there, lists, run, shown.setFlows lists'⟩

/-- Whatever becomes of the ring of reports. -/
theorem outputEvent (shown : state.Shown base workers store) :
    ∃ map ring, store.map? (base + 4) = some map ∧ map.content = .ringBuffer ring ∧
      ∀ ring', state.Shown base workers
        (store.setMap (base + 4) (map.setContent (.ringBuffer ring'))) := by
  rcases shown.events with ⟨map, there, ring, isRing⟩
  exact ⟨map, ring, there, isRing, fun ring' => shown.setEvents rfl⟩

end Shown

end FloodState

end PacketFilter
