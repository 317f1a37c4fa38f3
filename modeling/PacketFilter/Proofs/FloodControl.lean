import PacketFilter.Proofs.FloodState
import PacketFilter.Proofs.Setup

/-!
# The control plane of a flood guard

What the operations of a guard do when its maps hold the state of one, and that
the maps of a guard which has just been set up hold the state it starts in.
-/

namespace PacketFilter

namespace FloodGuard

/-- The guard whose maps follow each other from a number on. -/
def placed (config : FloodGuardConfig) (base : MapId) : FloodGuard where
  blocklist := ⟨base, addressLayout, countLayout⟩
  flows := ⟨base + 1, Flow.layout, countLayout⟩
  counters := ⟨base + 2, countLayout⟩
  settings := ⟨base + 3, countLayout⟩
  events := ⟨base + 4⟩
  bindings := (schemas config).map fun entry => .ofSchema entry.1 entry.2

variable {guard : FloodGuard} {flow : Flow} {store after : Store}

/-- To block an address is to insert it, where it does not matter that it is there already. -/
theorem run_block (guard : FloodGuard) (address : Address) (store : Store) :
    (guard.block address).run store =
      match (guard.insertBlocked address).run store with
      | (.ok _, after) => (.ok (), after)
      | (.error error, after) =>
        (if error = .keyExists then .ok () else .error (.map error), after) := by
  rw [block, ApplicationAction.run_onMaps]
  generalize guard.insertBlocked address = action
  rcases run : action.run store with ⟨error | _, after⟩
  all_goals
    change (action : StateM Store _) store = _ at run
    simp only [ExceptT.run, Bind.bind, ExceptT.bind, ExceptT.mk, StateT.bind, tryCatch, tryCatchThe,
      MonadExceptOf.tryCatch, ExceptT.tryCatch, run]
  -- Which error it is decides how the block goes on.
  · cases error <;> rfl
  · rfl

theorem run_forgetFlow
    {found? : Option Word} (run : (guard.flows.remove flow).run store = (.ok found?, after)) :
    (guard.forgetFlow flow).run store = (.ok found?.isSome, after) := by
  change (guard.flows.remove flow : StateM Store _) store = _ at run
  simp only [forgetFlow, ExceptT.run, Bind.bind, ExceptT.bind, ExceptT.mk, StateT.bind, tryCatch,
    tryCatchThe, MonadExceptOf.tryCatch, ExceptT.tryCatch, run]
  rfl

end FloodGuard

namespace FloodState.Shown

open ApplicationAction

variable {state : FloodState} {base workers : Nat} {store : Store} (config : FloodGuardConfig)

/-! ## Operations -/

/-- Blocking an address goes as it does in the guard's abstract state. -/
theorem block (shown : state.Shown base workers store) (address : Address) :
    ∃ after, ((FloodGuard.placed config base).block address).run store =
        ((state.block address).1, after) ∧
      (state.block address).2.Shown base workers after := by
  rcases shown.blocklist with ⟨map, there, ⟨capacity, schema⟩, table, shows⟩
  have sized : (addressKey address).size = map.schema.keySize := by rw [schema]; rfl
  have sized' : (FloodGuard.countLayout.encode 0).size = map.schema.valueSize := by rw [schema]; rfl
  rcases shows.run_update sized sized' .createOnly with ⟨after, table', run, same, shows'⟩
  have inserts : ((FloodGuard.placed config base).insertBlocked address).run store =
      ((state.blocklist.update (addressKey address) 0 .createOnly).1, store.setMap base after) :=
    (Store.run_onMap _ there).trans (run ▸ rfl)
  have shown' := shown.setBlocklist ⟨capacity, same.trans schema⟩ ⟨table', shows'⟩
  refine ⟨store.setMap base after, ?_⟩
  rw [FloodGuard.run_block, inserts, FloodState.block_eq]
  rcases outcome : state.blocklist.update (addressKey address) 0 .createOnly with
    ⟨error | _, blocklist⟩
  all_goals
    rw [outcome] at shown'
    exact ⟨rfl, shown'⟩

/-- Unblocking an address answers whether it was blocked, and the store shows that it is no
longer. -/
theorem unblock (shown : state.Shown base workers store) (address : Address) :
    ∃ after, ((FloodGuard.placed config base).unblock address).run store =
        (.ok (state.unblock address).1, after) ∧
      (state.unblock address).2.Shown base workers after := by
  rcases shown.blocklist with ⟨map, there, ⟨capacity, schema⟩, table, shows⟩
  have sized : (addressKey address).size = map.schema.keySize := by rw [schema]; rfl
  rcases shows.run_take sized with ⟨after, table', run, same, shows'⟩
  have removes : ((FloodGuard.placed config base).blocklist.remove address).run store =
      (.ok (state.blocklist.entries.lookup (addressKey address)), store.setMap base after) :=
    TypedTable.run_remove there FloodGuard.countLayout_carries run
  refine ⟨store.setMap base after, ?_, shown.setBlocklist ⟨capacity, same.trans schema⟩
    ⟨table', shows'⟩⟩
  rw [FloodGuard.unblock, Stateful.run_bind, run_onMaps, removes]
  rfl

/-- The hits of an address are read off the blocklist, and reading them changes nothing. -/
theorem hits (shown : state.Shown base workers store) (address : Address) :
    ((FloodGuard.placed config base).hits address).run store =
      (.ok (state.blocklist.entries.lookup (addressKey address)), store) := by
  rcases shown.blocklist with ⟨map, there, ⟨capacity, schema⟩, table, shows⟩
  have sized : (addressKey address).size = map.schema.keySize := by rw [schema]; rfl
  have gets : ((FloodGuard.placed config base).blocklist.get address).run store =
      (.ok (state.blocklist.entries.lookup (addressKey address)), store.setMap base map) :=
    TypedTable.run_get there FloodGuard.countLayout_carries (shows.run_lookup sized)
  rw [FloodGuard.hits, run_onMaps, gets, Store.setMap_self there]
  rfl

/-- The count of a flow is the tracked one, and the lookup makes the flow the most recent. -/
theorem flowCount (shown : state.Shown base workers store) (flow : Flow) :
    ∃ after, ((FloodGuard.placed config base).flowCount flow).run store =
        (.ok (state.flowCount flow).1, after) ∧
      (state.flowCount flow).2.Shown base workers after := by
  rcases shown.flows with ⟨map, there, lists⟩
  rcases lists.get there flow with ⟨after, run, lists'⟩
  have gets : ((FloodGuard.placed config base).flows.get flow).run store =
      (.ok (state.flows.find? flow.key), store.setMap (base + 1) after) := run
  refine ⟨store.setMap (base + 1) after, ?_, shown.setFlows lists'⟩
  rw [FloodGuard.flowCount, run_onMaps, gets, FloodState.flowCount, RecencyList.lookup_fst]
  rfl

/-- A new threshold is in force at once, and only its map changes. -/
theorem changeThreshold (shown : state.Shown base workers store) (threshold : Word) :
    ∃ map, ((FloodGuard.placed config base).setThreshold threshold).run store =
        (.ok (), store.setMap (base + 3) map) ∧
      { state with threshold }.Shown base workers (store.setMap (base + 3) map) := by
  rcases shown.settings with ⟨map, there, schema, arrays⟩
  have sized : (FloodGuard.countLayout.encode threshold).size = map.schema.valueSize := by
    rw [schema]
    exact (FloodGuard.countLayout_carries threshold).sized
  have sets : ((FloodGuard.placed config base).settings.set FloodGuard.thresholdSetting
      threshold).run store = (.ok (), store.setMap (base + 3)
        (map.setCell 0 ⟨FloodGuard.countLayout.encode threshold⟩)) :=
    TypedArray.run_set there (by rw [schema]; rfl) arrays Nat.zero_lt_one (by decide) sized
  refine ⟨map.setCell 0 ⟨FloodGuard.countLayout.encode threshold⟩, ?_, shown.setThreshold schema
    ((arrays.setCell Nat.zero_lt_one threshold).congr fun index inside => ?_)⟩
  · rw [FloodGuard.setThreshold, run_onMaps, sets]
    rfl
  · rw [Nat.lt_one_iff.mp inside, Function.update_self]

/-- The counters are read as the abstract state has them, and reading them changes nothing. -/
theorem counts (shown : state.Shown base workers store) :
    (FloodGuard.placed config base).counts.run store = (.ok state.counts, store) := by
  rcases shown.counters with ⟨map, there, schema, values, tallies, sums⟩
  have sum (counter : Nat) (inside : counter < FloodGuard.counterCount) :
      ((FloodGuard.placed config base).counters.sum counter).run store =
        (.ok (state.counts.get counter), store) := by
    rw [sums counter inside, ← tallies.sum inside]
    exact Store.run_inspect there _ _
  rw [FloodGuard.counts, run_onMaps]
  simp only [Stateful.run_bind, sum _ (show FloodGuard.passedCounter < _ by decide),
    sum _ (show FloodGuard.blockedCounter < _ by decide),
    sum _ (show FloodGuard.rateLimitedCounter < _ by decide),
    sum _ (show FloodGuard.untrackedCounter < _ by decide)]
  rfl

/-! ### A new window -/

/-- A tracked flow is forgotten, and the others stay in their order. -/
theorem forgetFlow
    {flow : Flow} {rest : List Flow} (shown : state.Shown base workers store)
    (keys : state.flows.keys = (flow :: rest).map Flow.key) :
    ∃ after, ((FloodGuard.placed config base).forgetFlow flow).run store = (.ok true, after) ∧
      { state with flows := state.flows.without flow.key }.Shown base workers after ∧
      (state.flows.without flow.key).keys = rest.map Flow.key := by
  rcases shown.flows with ⟨map, there, lists⟩
  rcases lists.remove there flow with ⟨after, run, lists'⟩
  have distinct := lists.nodup_keys
  rw [keys, List.map_cons, List.nodup_cons] at distinct
  obtain ⟨count, found⟩ : ∃ count, state.flows.find? flow.key = some count := by
    rw [RecencyList.find?, ← Option.isSome_iff_exists, lookup_isSome_iff]
    show flow.key ∈ state.flows.keys
    rw [keys]
    exact List.mem_cons_self
  have left : (state.flows.without flow.key).keys = rest.map Flow.key := by
    have others : state.flows.keys.filter (· ≠ flow.key) = rest.map Flow.key := by
      rw [keys, List.map_cons, List.filter_cons_of_neg (by simp)]
      exact List.filter_eq_self.mpr fun key listed =>
        decide_eq_true fun equal => distinct.1 (equal ▸ listed)
    rw [← others, RecencyList.keys, RecencyList.keys, List.filter_map]
    rfl
  have removes : ((FloodGuard.placed config base).flows.remove flow).run store =
      (.ok (state.flows.find? flow.key), store.setMap (base + 1) after) := run
  rw [RecencyList.take, found] at lists'
  refine ⟨store.setMap (base + 1) after, ?_, shown.setFlows lists', left⟩
  rw [FloodGuard.run_forgetFlow removes, found]
  rfl

/-- The tracked flows are forgotten one after another, until none is left. -/
theorem forgetFlows (tracked : List Flow) :
    ∀ {state : FloodState} {store : Store}, state.Shown base workers store →
      state.flows.keys = tracked.map Flow.key →
        ∃ after, (tracked.mapM (FloodGuard.placed config base).forgetFlow).run store =
            (.ok (List.replicate tracked.length true), after) ∧
          { state with flows := { state.flows with entries := [] } }.Shown base workers after := by
  induction tracked with
  | nil =>
      intro state store shown keys
      have none : state.flows.entries = [] := List.map_eq_nil_iff.mp keys
      have same : ({ state.flows with entries := [] } : RecencyList Word) = state.flows := by
        rw [← none]
      exact ⟨store, rfl, same.symm ▸ shown⟩
  | cons flow rest continues =>
      intro state store shown keys
      rcases shown.forgetFlow config keys with ⟨between, run, shown', left⟩
      rcases continues shown' left with ⟨after, run', shown''⟩
      refine ⟨after, ?_, shown''⟩
      rw [List.mapM_cons, Stateful.run_bind, run]
      dsimp only
      rw [Stateful.run_bind, run']
      rfl

/-- A reset of the window forgets every tracked flow and answers how many there were. -/
theorem resetWindow (shown : state.Shown base workers store) :
    ∃ after, (FloodGuard.placed config base).resetWindow.run store =
        (.ok state.resetWindow.1, after) ∧
      state.resetWindow.2.Shown base workers after := by
  rcases shown.flows with ⟨map, there, lists⟩
  rcases lists.run_keys there with ⟨tracked, run, keys⟩
  rcases shown.forgetFlows config tracked keys with ⟨after, forgets, shown'⟩
  refine ⟨after, ?_, shown'⟩
  have size : state.flows.size = tracked.length := by
    rw [← List.length_map Flow.key, ← keys]
    exact (List.length_map _).symm
  have listed : (FloodGuard.placed config base).flows.keys.run store = (.ok tracked, store) := run
  rw [FloodGuard.resetWindow, run_onMaps, Stateful.run_bind, listed]
  dsimp only
  rw [Stateful.run_bind, forgets]
  dsimp only
  rw [Stateful.run_pure, List.count_replicate_self, FloodState.resetWindow, size]
  rfl

end FloodState.Shown

/-! ## Setting up -/

namespace FloodGuard

open ApplicationAction

variable {config : FloodGuardConfig} {guard : FloodGuard} {store made begun : Store}

/-- New maps hold the state that a guard starts in, but for the threshold. -/
theorem shown_of_installs (installs : store.Installs made (schemas config)) :
    { FloodState.start config with threshold := 0 }.Shown store.maps.size (max 1 store.workers)
      made := by
  have blank : countLayout.encode 0 = (Cell.zeroed 8).bytes := by decide
  exact
    { blocklist := installs.has 0 rfl
        ⟨⟨_, rfl⟩, _, Map.Shows.ofSchema _ 4 8 config.maxBlocked _ countLayout.encode⟩
      flows := installs.has 1 rfl <| by
        have listed :
          (schemas config)[1]? = some (_, .recencyHash Flow.size 8 config.maxFlows) := rfl
        exact .ofSchema _ (Schema.capacity_pos (installs.sound _ (List.mem_of_getElem? listed))) _
      counters := installs.has 2 rfl <| by
        refine ⟨rfl, _, Map.Tallies.ofSchema _ _ _, fun counter inside => ?_⟩
        rw [Finset.sum_const_zero]
        rw [counterCount] at inside
        obtain rfl | rfl | rfl | rfl : counter = 0 ∨ counter = 1 ∨ counter = 2 ∨ counter = 3 := by
          omega
        all_goals rfl
      settings := installs.has 3 rfl ⟨rfl, Map.Arrays.ofSchema _ _ _ _ blank⟩
      events := installs.has 4 rfl ⟨_, rfl⟩ }

/-- The guard is found again in the maps that its schemas installed. -/
theorem run_ofMaps (installs : store.Installs made (schemas config)) :
    (ofMaps config (List.range' store.maps.size 5)).run made =
      (.ok (placed config store.maps.size), made) := by
  let map (number : Int32) : MapId :=
    (List.range' store.maps.size 5)[number.toNatClampNeg]?.getD 0
  have blocklist : (TypedTable.ofMap .hash (map blocklistMap) addressLayout countLayout).run made =
      (.ok ⟨store.maps.size, addressLayout, countLayout⟩, made) :=
    TypedTable.run_ofMap (installs.fresh 0 _ rfl) rfl
  have flows : (TypedTable.ofMap .recencyHash (map flowsMap) Flow.layout countLayout).run made =
      (.ok ⟨store.maps.size + 1, Flow.layout, countLayout⟩, made) :=
    TypedTable.run_ofMap (installs.fresh 1 _ rfl) rfl
  have counters : (WorkerArray.ofMap (map countersMap) countLayout).run made =
      (.ok ⟨store.maps.size + 2, countLayout⟩, made) :=
    WorkerArray.run_ofMap (installs.fresh 2 _ rfl) rfl
  have settings : (TypedArray.ofMap (map settingsMap) countLayout).run made =
      (.ok ⟨store.maps.size + 3, countLayout⟩, made) :=
    TypedArray.run_ofMap (installs.fresh 3 _ rfl) rfl
  have events : (RecordQueue.ofMap (map eventsMap)).run made =
      (.ok ⟨store.maps.size + 4⟩, made) :=
    RecordQueue.run_ofMap (installs.fresh 4 _ rfl) rfl
  simp only [map] at blocklist flows counters settings events
  simp only [ofMaps, Stateful.run_bind, blocklist, flows, counters, settings, events]
  rfl

/-- Once the maps have been created, nothing can go wrong any more: the guard is set up, with maps
that follow each other and hold the state it starts in. -/
theorem run_create
    {maps : List MapId} (created : (createMaps (schemas config)).run store = (.ok maps, made)) :
    ∃ begun, (create config).run store = (.ok (placed config store.maps.size), begun) ∧
      begun.names = made.names ∧
      (FloodState.start config).Shown store.maps.size (max 1 store.workers) begun := by
  rcases installs_of_createMaps created with ⟨rfl, installs⟩
  have views := run_ofMaps installs
  rcases (shown_of_installs installs).changeThreshold config config.threshold with
    ⟨settings, sets, shown⟩
  refine ⟨made.setMap (store.maps.size + 3) settings, ?_, rfl, shown⟩
  rw [create, Stateful.run_bind, created]
  dsimp only
  rw [Stateful.run_bind, run_onMaps, show (schemas config).length = 5 from rfl, views]
  dsimp only [Except.mapError]
  rw [Stateful.run_bind, sets]
  rfl

/-- The names of the maps of a guard that has been set up lead to them. -/
theorem shown_of_create (created : (create config).run store = (.ok guard, begun)) :
    guard = placed config store.maps.size ∧
      (FloodState.start config).Shown store.maps.size (max 1 store.workers) begun ∧
      ∀ (index : Nat) (entry : String × Schema), (schemas config)[index]? = some entry →
        begun.find? entry.1 = some (store.maps.size + index) := by
  rcases maps : (createMaps (schemas config)).run store with ⟨error | maps, made⟩
  · rw [create, Stateful.run_bind, maps] at created
    cases created
  · rcases run_create maps with ⟨begun', run, named, shown⟩
    cases run.symm.trans created
    refine ⟨rfl, shown, fun index entry here => ?_⟩
    rw [Store.find?, named]
    exact (installs_of_createMaps maps).2.named index entry here

end FloodGuard

end PacketFilter
