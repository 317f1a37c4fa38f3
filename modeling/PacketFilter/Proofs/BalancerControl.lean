import PacketFilter.Proofs.BalancerState
import PacketFilter.Proofs.Setup

/-!
# The control plane of a load balancer

What the operations of a balancer do when its maps hold the state of one, and
that the maps of a balancer which has just been set up hold the state it starts
in.  Slots are gone through one after the other, and so are the connections when
a backend is removed; each loop has a lemma for one step of it.
-/

namespace PacketFilter

namespace LoadBalancer

/-- The balancer with these backends whose maps follow each other from a number on. -/
def placed (maxConnections : Nat) (base : MapId) (backends : Array (Option Backend)) :
    LoadBalancer where
  connections := ⟨base, Flow.layout, .word 8⟩
  backendEntries := ⟨base + 1, BackendEntry.layout⟩
  slots := ⟨base + 2, .word 4⟩
  backendTable := backends
  bindings := (schemas maxConnections).map fun entry => .ofSchema entry.1 entry.2

end LoadBalancer

namespace BalancerState

open ApplicationAction LoadBalancer

variable {state : BalancerState} {number slot : Nat} {backend : Backend} {marks : Nat → Word}
variable {base : MapId} {store : Store} (maxConnections : Nat)

/-- The balancer in that state. -/
def balancer (state : BalancerState) (base : MapId) : LoadBalancer :=
  placed maxConnections base state.backends

namespace Holds

/-! ## Slots -/

/-- A slot is read as it is marked. -/
theorem run_getSlot
    (holds : state.Holds marks base store) (inside : slot < slotCount)
    (short : (marks slot).toNat < 2 ^ 32) :
    ((state.balancer maxConnections base).slots.get slot).run store =
      (.ok (some (marks slot)), store) := by
  rcases holds.slots with ⟨map, there, schema, arrays⟩
  have keySize : map.schema.keySize = 4 := by rw [schema]; rfl
  exact TypedArray.run_get there keySize arrays inside (inside.trans (by decide))
    (Layout.carries_word short)

/-- A slot that is set is marked anew, and the others keep their marks. -/
theorem setSlot
    (holds : state.Holds marks base store) (inside : slot < slotCount) {word : Word}
    (short : word.toNat < 2 ^ 32) :
    ∃ after, ((state.balancer maxConnections base).slots.set slot word).run store =
        (.ok (), after) ∧ after.names = store.names ∧
      state.Holds (Function.update marks slot word) base after := by
  rcases holds.slots with ⟨map, there, schema, arrays⟩
  have keySize : map.schema.keySize = 4 := by rw [schema]; rfl
  have sized : ((Layout.word 4).encode word).size = map.schema.valueSize := by
    rw [schema]
    exact (Layout.carries_word short).sized
  exact ⟨_, TypedArray.run_set there keySize arrays inside (inside.trans (by decide)) sized, rfl,
    holds.setSlots schema (arrays.setCell inside word)⟩

/-- Once every slot has been marked, the slots have the new marks, and all maps their names. -/
theorem markSlots
    {step : Nat → StoreAction Unit} {goal : Nat → Word}
    (shorts : ∀ slot, (goal slot).toNat < 2 ^ 32)
    (steps : ∀ (slot : Nat) (marks : Nat → Word) (store : Store), slot < slotCount →
      state.Holds marks base store → (∀ slot, (marks slot).toNat < 2 ^ 32) →
        ∃ after, (step slot).run store = (.ok (), after) ∧ after.names = store.names ∧
          state.Holds (Function.update marks slot (goal slot)) base after)
    (holds : state.Holds marks base store) (short : ∀ slot, (marks slot).toNat < 2 ^ 32) :
    ∃ after, ((List.range slotCount).forM step).run store = (.ok (), after) ∧
      after.names = store.names ∧ state.Holds goal base after := by
  -- The slots that are left may have any mark; the others have theirs.
  let left (slots : List Nat) (reached : Store) : Prop :=
    reached.names = store.names ∧ (∀ slot ∈ slots, slot < slotCount) ∧
      ∃ marks, state.Holds marks base reached ∧ (∀ slot, (marks slot).toNat < 2 ^ 32) ∧
        ∀ slot < slotCount, slot ∉ slots → marks slot = goal slot
  have one (first : Nat) (rest : List Nat) (reached : Store) (held : left (first :: rest) reached) :
      ∃ after, (step first).run reached = (.ok (), after) ∧ left rest after := by
    rcases held with ⟨named, inside, marks, holds, short, done⟩
    rcases List.forall_mem_cons.mp inside with ⟨here, later⟩
    rcases steps first marks reached here holds short with ⟨after, run, named', holds'⟩
    refine ⟨after, run, named'.trans named, later, _, holds', fun slot => ?_,
      fun slot inside fresh => ?_⟩
    · rw [Function.update_apply]
      split
      · exact shorts first
      · exact short slot
    · rw [Function.update_apply]
      split
      case isTrue same => rw [same]
      case isFalse differs =>
        exact done slot inside (List.not_mem_cons_of_ne_of_not_mem differs fresh)
  have begins : left (List.range slotCount) store :=
    ⟨rfl, fun slot listed => List.mem_range.mp listed, marks, holds, short,
      fun slot inside fresh => absurd (List.mem_range.mpr inside) fresh⟩
  rcases Stateful.run_forM one _ begins with ⟨after, run, named, _, marks', holds', _, done⟩
  have marked : state.Holds goal base after :=
    { holds' with
      slots := by
        rcases holds'.slots with ⟨map, there, schema, arrays⟩
        exact ⟨map, there, schema, arrays.congr fun slot inside =>
          done slot inside List.not_mem_nil⟩ }
  exact ⟨after, run, named, marked⟩

/-- A slot is given to the backend that it belongs to. -/
theorem assignSlot
    (holds : state.Holds marks base store) (size : state.backends.size = backendCount)
    (inside : slot < slotCount) (short : ∀ slot, (marks slot).toNat < 2 ^ 32) :
    ∃ after, ((state.balancer maxConnections base).assignSlot state.active slot).run store =
        (.ok (), after) ∧ after.names = store.names ∧
      state.Holds (Function.update marks slot (mark (state.owner? slot))) base after := by
  have found := holds.run_getSlot maxConnections inside (short slot)
  rw [LoadBalancer.assignSlot, Stateful.run_bind, found]
  dsimp only
  split
  case isTrue same =>
    have kept : mark (state.owner? slot) = marks slot := (Option.some.inj same).symm
    rw [kept, Function.update_eq_self]
    exact ⟨store, rfl, rfl, holds⟩
  case isFalse => exact holds.setSlot maxConnections inside (mark_short size slot)

/-- After assigning the slots each is marked with its owner. -/
theorem assignSlots
    (holds : state.Holds marks base store) (size : state.backends.size = backendCount)
    (short : ∀ slot, (marks slot).toNat < 2 ^ 32) :
    ∃ after, (state.balancer maxConnections base).assignSlots.run store = (.ok (), after) ∧
      after.names = store.names ∧ state.Shown base after :=
  markSlots (mark_short size)
    (fun _ _ _ inside holds short => holds.assignSlot maxConnections size inside short) holds short

/-! ## Connections -/

/-- The first of the connections that are left is looked at. -/
theorem forgetConnection
    {flow : Flow} {held : Nat} {kept rest : List (Bytes × Nat)}
    (holds : { state with
      connections := { state.connections with
        entries := kept ++ (flow.key, held) :: rest } }.Holds marks base store)
    (small : held < 2 ^ 64) (small' : number < 2 ^ 64) :
    ∃ after, ((state.balancer maxConnections base).forgetConnection number flow).run store =
        (.ok (), after) ∧
      { state with
        connections := { state.connections with
          entries := (if held = number then kept else (flow.key, held) :: kept) ++ rest } }.Holds
        marks base after := by
  let list : RecencyList Nat :=
    { state.connections with entries := kept ++ (flow.key, held) :: rest }
  rcases holds.connections with ⟨map, there, lists⟩
  have distinct : list.keys.Nodup := by
    rw [← RecencyList.keys_mapValues (BitVec.ofNat 64)]
    exact lists.nodup_keys
  have found : list.find? flow.key = some held := RecencyList.find?_middle rfl distinct
  have found' :
    (list.mapValues (BitVec.ofNat 64)).find? flow.key = some (BitVec.ofNat 64 held) := by
    rw [RecencyList.find?_mapValues, found]
    rfl
  have others : list.without flow.key = { state.connections with entries := kept ++ rest } := by
    rw [RecencyList.mk.injEq]
    exact ⟨rfl, RecencyList.without_middle rfl distinct⟩
  have moved : (list.lookup flow.key).2 = (list.without flow.key).push flow.key held := by
    rw [RecencyList.lookup, found]
  rcases lists.get there flow with ⟨looked, run, lists'⟩
  rw [RecencyList.lookup_mapValues, moved] at lists'
  have gets : ((state.balancer maxConnections base).connections.get flow).run store =
      (.ok (some (BitVec.ofNat 64 held)), store.setMap base looked) := by
    rw [← found']
    exact run
  have holds' := holds.setConnections lists'
  have same : some (BitVec.ofNat 64 held) = some (BitVec.ofNat 64 number) ↔ held = number := by
    rw [Option.some.injEq, ← BitVec.toNat_inj, BitVec.toNat_ofNat, BitVec.toNat_ofNat,
      Nat.mod_eq_of_lt small, Nat.mod_eq_of_lt small']
  rw [LoadBalancer.forgetConnection, Stateful.run_bind, gets]
  dsimp only
  by_cases gone : held = number
  · rw [if_pos (same.mpr gone), if_pos gone]
    have there' : (store.setMap base looked).map? base = some looked :=
      (Store.map?_setMap there).trans (if_pos rfl)
    rcases lists'.remove there' flow with ⟨after, run', lists''⟩
    rw [RecencyList.take_mapValues, RecencyList.take_front] at lists''
    have removes : ((state.balancer maxConnections base).connections.remove flow).run
        (store.setMap base looked) = (.ok _, (store.setMap base looked).setMap base after) := run'
    rw [Stateful.run_bind, removes]
    exact ⟨_, rfl, others ▸ holds'.setConnections lists''⟩
  · rw [if_neg (fun equal => gone (same.mp equal)), if_neg gone]
    have front : (list.without flow.key).push flow.key held =
        { state.connections with entries := (flow.key, held) :: kept ++ rest } := by
      rw [others]
      rfl
    exact ⟨_, rfl, front ▸ holds'⟩

/-- Every connection is looked at, from the one used last on, and those of a backend are
forgotten. -/
theorem forgetConnections
    (holds : state.Holds marks base store)
    (small : ∀ entry ∈ state.connections.entries, entry.2 < 2 ^ 64) (small' : number < 2 ^ 64) :
    ∃ flows after,
      (state.balancer maxConnections base).connections.keys.run store = (.ok flows, store) ∧
        (flows.forM ((state.balancer maxConnections base).forgetConnection number)).run store =
            (.ok (), after) ∧
          (state.forget number).Holds marks base after := by
  rcases holds.connections with ⟨map, there, lists⟩
  rcases lists.run_keys there with ⟨flows, run, keys⟩
  rw [RecencyList.keys_mapValues] at keys
  -- Those looked at that stay stand in reverse before those that are left.
  let left (flows : List Flow) (store : Store) : Prop :=
    ∃ kept rest, rest.map Prod.fst = flows.map Flow.key ∧
      (∀ entry ∈ rest, entry.2 < 2 ^ 64) ∧
      kept.reverse ++ rest.filter (·.2 ≠ number) =
        state.connections.entries.filter (·.2 ≠ number) ∧
      { state with
        connections := { state.connections with entries := kept ++ rest } }.Holds marks base store
  have one (flow : Flow) (later : List Flow) (store : Store) (held : left (flow :: later) store) :
      ∃ after, ((state.balancer maxConnections base).forgetConnection number flow).run store =
          (.ok (), after) ∧ left later after := by
    rcases held with ⟨kept, _ | ⟨⟨key, held⟩, rest⟩, keys, small, sorted, holds⟩
    · cases keys
    · rw [List.map_cons, List.map_cons, List.cons.injEq] at keys
      rcases keys with ⟨rfl, keys⟩
      rcases List.forall_mem_cons.mp small with ⟨here, others⟩
      rcases holds.forgetConnection maxConnections here small' with ⟨after, run, holds'⟩
      refine ⟨after, run, _, rest, keys, others, ?_, holds'⟩
      rw [← sorted]
      by_cases gone : held = number
      · rw [if_pos gone, List.filter_cons_of_neg (by simpa using gone)]
      · rw [if_neg gone, List.filter_cons_of_pos (by simpa using gone), List.reverse_cons,
          List.append_assoc]
        rfl
  have begins : left flows store := ⟨[], _, keys, small, rfl, holds⟩
  rcases Stateful.run_forM one flows begins with ⟨after, run', kept, rest, none, _, sorted, holds'⟩
  rw [List.map_eq_nil_iff.mp none, List.filter_nil, List.append_nil, List.reverse_eq_iff] at sorted
  rw [List.map_eq_nil_iff.mp none, List.append_nil, sorted] at holds'
  exact ⟨flows, after, run, run', holds'⟩

end Holds

/-! ## Backends -/

namespace Shown

/-- The entry of a backend is changed, and the slots are given away anew. -/
theorem setBackend
    (shown : state.Shown base store) (size : state.backends.size = backendCount)
    (inside : number < state.backends.size) {backend'? : Option Backend} {entry : BackendEntry}
    (used : ∀ backend, backend'? = some backend → entry = .ofBackend backend)
    (free : backend'? = none → entry.isActive = false) :
    let after := { state with backends := state.backends.setIfInBounds number backend'? }
    ∃ between reached,
      ((state.balancer maxConnections base).backendEntries.set number entry).run store =
          (.ok (), between) ∧
        (after.balancer maxConnections base).assignSlots.run between = (.ok (), reached) ∧
          after.Shown base reached := by
  intro after
  rcases shown.entries with ⟨map, there, schema, entries, arrays, lists⟩
  have keySize : map.schema.keySize = 4 := by rw [schema]; rfl
  have inside' : number < backendCount := size ▸ inside
  have sized : (BackendEntry.layout.encode entry).size = map.schema.valueSize := by
    rw [schema]
    exact (BackendEntry.layout_carries entry).sized
  have run : ((state.balancer maxConnections base).backendEntries.set number entry).run store =
      (.ok (), store.setMap (base + 1) (map.setCell number ⟨BackendEntry.layout.encode entry⟩)) :=
    TypedArray.run_set there keySize arrays inside' (inside'.trans (by decide)) sized
  have changed : after.Holds (fun slot => mark (state.owner? slot)) base _ :=
    shown.setEntries (show (map.setCell number _).schema = _ from schema)
      (arrays.setCell inside' entry) (lists.set inside used free)
  have size' : after.backends.size = backendCount := Array.size_setIfInBounds.trans size
  rcases changed.assignSlots maxConnections size' (mark_short size) with
    ⟨reached, run', _, shown'⟩
  exact ⟨_, reached, run, run', shown'⟩

/-- A backend put under a free number is listed there, and the slots are assigned anew. -/
theorem addUnder
    (shown : state.Shown base store) (size : state.backends.size = backendCount)
    (inside : number < state.backends.size) (backend : Backend) :
    let after := { state with backends := state.backends.setIfInBounds number (some backend) }
    ∃ reached, ((state.balancer maxConnections base).addUnder number backend).run store =
        (.ok (after.balancer maxConnections base), reached) ∧ after.Shown base reached := by
  have used : ∀ other, some backend = some other →
      BackendEntry.ofBackend backend = .ofBackend other :=
    fun other same => congrArg _ (Option.some.inj same)
  intro after
  rcases shown.setBackend maxConnections size inside used (fun none => by cases none) with
    ⟨between, reached, run, run', shown'⟩
  refine ⟨reached, ?_, shown'⟩
  rw [LoadBalancer.addUnder, Stateful.run_bind, run]
  change ((after.balancer maxConnections base).assignSlots >>= fun _ =>
    pure (after.balancer maxConnections base) : StoreAction _).run between = _
  rw [Stateful.run_bind, run']
  rfl

/-- Adding a backend does to the maps what it does to the state, and fails where the state does. -/
theorem add (sound : state.Sound) (shown : state.Shown base store) (backend : Backend) :
    ∃ after, ((state.balancer maxConnections base).addBackend backend).run store =
        ((state.add backend).1.map fun number =>
          (number, (state.add backend).2.balancer maxConnections base), after) ∧
      (state.add backend).2.Shown base after ∧
      (∀ error, (state.add backend).1 = .error error → after = store) := by
  have finds : (state.balancer maxConnections base).find? backend =
      state.backends.findIdx? (· = some backend) := rfl
  rw [LoadBalancer.addBackend, finds, BalancerState.add]
  rcases state.backends.findIdx? (· = some backend) with _ | number
  · dsimp only
    rw [show (state.balancer maxConnections base).backendTable = state.backends from rfl]
    rcases free : state.backends.findIdx? Option.isNone with _ | number
    · exact ⟨store, rfl, shown, fun _ _ => rfl⟩
    · have inside := (Array.findIdx?_eq_some_iff_getElem.mp free).1
      rcases shown.addUnder maxConnections sound.size inside backend with ⟨reached, run, shown'⟩
      refine ⟨reached, ?_, shown', fun _ same => by cases same⟩
      dsimp only
      rw [Stateful.run_bind, run_onMaps, run]
      rfl
  · exact ⟨store, rfl, shown, fun _ same => by cases same⟩

/-- A backend taken out is no longer listed; its slots and connections go to others. -/
theorem removeFrom
    (sound : state.Sound) (shown : state.Shown base store)
    (known : state.backend? number = some backend) :
    let after := { state with backends := state.backends.setIfInBounds number none }
    ∃ reached, ((state.balancer maxConnections base).removeFrom number backend).run store =
        (.ok (after.balancer maxConnections base), reached) ∧
      (after.forget number).Shown base reached := by
  intro after
  have inside := sound.lt known
  have small : ∀ entry ∈ state.connections.entries, entry.2 < 2 ^ 64 := fun entry listed => by
    rcases sound.known entry listed with ⟨backend, held⟩
    exact (sound.lt held).trans (by decide)
  have unused : ({ BackendEntry.ofBackend backend with flags := 0 } : BackendEntry).isActive =
      false := by simp [BackendEntry.isActive]
  have used : ∀ other, none = some other →
      { BackendEntry.ofBackend backend with flags := 0 } = BackendEntry.ofBackend other :=
    fun other same => by cases same
  rcases shown.setBackend maxConnections sound.size (sound.size.symm ▸ inside) used
    (fun _ => unused) with ⟨between, reached, run, run', shown'⟩
  rcases Holds.forgetConnections maxConnections shown' small (inside.trans (by decide)) with
    ⟨flows, final, listed, forgets, shown''⟩
  refine ⟨final, ?_, shown''⟩
  rw [LoadBalancer.removeFrom, Stateful.run_bind, run]
  change ((after.balancer maxConnections base).assignSlots >>= fun _ => do
    let flows ← (after.balancer maxConnections base).connections.keys
    flows.forM ((after.balancer maxConnections base).forgetConnection number)
    return after.balancer maxConnections base : StoreAction _).run between = _
  rw [Stateful.run_bind, run']
  dsimp only
  rw [Stateful.run_bind, listed]
  dsimp only
  rw [Stateful.run_bind, forgets]
  rfl

/-- Removing a backend does to the maps what it does to the state, and fails where the state
does. -/
theorem remove (sound : state.Sound) (shown : state.Shown base store) (number : Nat) :
    ∃ after, ((state.balancer maxConnections base).removeBackend number).run store =
        ((state.remove number).1.map fun backend =>
          (backend, (state.remove number).2.balancer maxConnections base), after) ∧
      (state.remove number).2.Shown base after ∧
      (∀ error, (state.remove number).1 = .error error → after = store) := by
  have finds : ((state.balancer maxConnections base).backendTable[number]?).join =
      state.backend? number := rfl
  rw [LoadBalancer.removeBackend, finds, BalancerState.remove]
  rcases known : state.backend? number with _ | backend
  · exact ⟨store, rfl, shown, fun _ _ => rfl⟩
  · rcases shown.removeFrom maxConnections sound known with ⟨reached, run, shown'⟩
    refine ⟨reached, ?_, shown', fun _ same => by cases same⟩
    dsimp only
    rw [Stateful.run_bind, run_onMaps, run]
    rfl

/-! ## Looking -/

theorem slotOwner
    (sound : state.Sound) (shown : state.Shown base store) (inside : slot < slotCount) :
    ((state.balancer maxConnections base).slotOwner slot).run store =
      (.ok (state.owner? slot), store) := by
  rw [LoadBalancer.slotOwner, Stateful.run_bind, run_onMaps,
    shown.run_getSlot maxConnections inside (mark_short sound.size slot)]
  dsimp only [Except.mapError]
  rw [Stateful.run_pure, Option.map_some]
  rcases owned : state.owner? slot with _ | number
  · rfl
  · rcases backend?_of_owner? owned with ⟨backend, known⟩
    have early := sound.lt known
    rw [backendCount] at early
    have back : (mark (some number)).toNat = number := by
      rw [mark, Option.getD_some, BitVec.toNat_ofNat]
      omega
    have differs : number ≠ noBackend := by
      rw [noBackend]
      omega
    rw [back, Option.filter_some_pos (by simpa using differs)]

/-- Looking for the backend of a flow finds it as the state has it, and counts as a use. -/
theorem connection (sound : state.Sound) (shown : state.Shown base store) (flow : Flow) :
    ∃ after, ((state.balancer maxConnections base).connection flow).run store =
        (.ok (state.connections.find? flow.key), after) ∧
      (state.touch flow).Shown base after := by
  rcases shown.connections with ⟨map, there, lists⟩
  rcases lists.get there flow with ⟨after, run, lists'⟩
  rw [RecencyList.lookup_mapValues] at lists'
  rw [RecencyList.find?_mapValues] at run
  have gets : ((state.balancer maxConnections base).connections.get flow).run store =
      (.ok ((state.connections.find? flow.key).map (BitVec.ofNat 64)), store.setMap base after) :=
    run
  refine ⟨_, ?_, shown.setConnections lists'⟩
  rw [LoadBalancer.connection, Stateful.run_bind, run_onMaps, gets]
  dsimp only [Except.mapError]
  rw [Stateful.run_pure, Option.map_map]
  rcases found : state.connections.find? flow.key with _ | number
  · rfl
  · rcases sound.backend?_of_connection found with ⟨backend, known⟩
    have early := sound.lt known
    rw [backendCount] at early
    have back : (Word.low32 (BitVec.ofNat 64 number)).toNat = number := by
      rw [Word.toNat_low32, BitVec.toNat_ofNat]
      omega
    rw [Option.map_some, Function.comp_apply, back]

/-- The backend selected is the one that the state chooses, and choosing counts as a use. -/
theorem selectBackend (sound : state.Sound) (shown : state.Shown base store) (flow : Flow) :
    ∃ after, ((state.balancer maxConnections base).selectBackend flow).run store =
        (.ok (state.choice? flow), after) ∧
      (state.touch flow).Shown base after := by
  rcases shown.connection maxConnections sound flow with ⟨after, run, shown'⟩
  refine ⟨after, ?_, shown'⟩
  have inside : slotOf flow < slotCount := Nat.mod_lt _ (by decide)
  have owner := shown'.slotOwner maxConnections (sound.touch flow) inside
  change ((state.balancer maxConnections base).hashedBackend flow).run after =
    (.ok (state.owner? (slotOf flow)), after) at owner
  rw [LoadBalancer.selectBackend, Stateful.run_bind, run, choice?]
  dsimp only
  rcases state.connections.find? flow.key with _ | number
  · dsimp only
    rw [Stateful.run_bind, owner, Option.none_or]
    rfl
  · rw [Option.some_or]
    rfl

end Shown

end BalancerState

/-! ## Setting up -/

namespace LoadBalancer

open ApplicationAction

variable {maxConnections : Nat} {balancer : LoadBalancer} {store made begun : Store}

/-- New maps hold the state that a balancer starts in, but for the marks of the slots. -/
theorem holds_of_installs (installs : store.Installs made (schemas maxConnections)) :
    (BalancerState.start maxConnections).Holds (fun _ => 0) store.maps.size made := by
  have blank : BackendEntry.layout.encode ⟨⟨0, 0, 0, 0⟩, 0, 0⟩ = (Cell.zeroed 8).bytes := by decide
  have blank' : (Layout.word 4).encode 0 = (Cell.zeroed 4).bytes := by decide
  exact
    { connections := installs.has 0 rfl <| by
        have listed : (schemas maxConnections)[0]? =
          some (_, .recencyHash Flow.size 8 maxConnections) := rfl
        exact .ofSchema _ (Schema.capacity_pos (installs.sound _ (List.mem_of_getElem? listed))) _
      entries := installs.has 1 rfl
        ⟨rfl, _, Map.Arrays.ofSchema _ _ _ _ blank, fun number backend known => (by
          cases (BalancerState.Sound.backend?_start maxConnections number).symm.trans known),
          fun _ _ => rfl⟩
      slots := installs.has 2 rfl ⟨rfl, Map.Arrays.ofSchema _ _ _ _ blank'⟩ }

theorem run_ofMaps (installs : store.Installs made (schemas maxConnections)) :
    (ofMaps maxConnections (List.range' store.maps.size 3)).run made =
      (.ok ((BalancerState.start maxConnections).balancer maxConnections store.maps.size),
        made) := by
  let map (number : Int32) : MapId :=
    (List.range' store.maps.size 3)[number.toNatClampNeg]?.getD 0
  have connections : (TypedTable.ofMap .recencyHash (map connectionsMap) Flow.layout
      (.word 8)).run made = (.ok ⟨store.maps.size, Flow.layout, .word 8⟩, made) :=
    TypedTable.run_ofMap (installs.fresh 0 _ rfl) rfl
  have entries : (TypedArray.ofMap (map backendsMap) BackendEntry.layout).run made =
      (.ok ⟨store.maps.size + 1, BackendEntry.layout⟩, made) :=
    TypedArray.run_ofMap (installs.fresh 1 _ rfl) rfl
  have slots : (TypedArray.ofMap (map slotsMap) (.word 4)).run made =
      (.ok ⟨store.maps.size + 2, .word 4⟩, made) :=
    TypedArray.run_ofMap (installs.fresh 2 _ rfl) rfl
  simp only [map] at connections entries slots
  simp only [ofMaps, Stateful.run_bind, connections, entries, slots]
  rfl

theorem owner?_start (maxConnections slot : Nat) :
    (BalancerState.start maxConnections).owner? slot = none := by
  rcases owned : (BalancerState.start maxConnections).owner? slot with _ | number
  · rfl
  · rcases BalancerState.backend?_of_owner? owned with ⟨backend, known⟩
    cases (BalancerState.Sound.backend?_start maxConnections number).symm.trans known

/-- Once the maps have been created, nothing can go wrong any more: the balancer is set up, with
maps that follow each other and hold the state it starts in. -/
theorem run_create
    {maps : List MapId}
    (created : (createMaps (schemas maxConnections)).run store = (.ok maps, made)) :
    ∃ begun, (create maxConnections).run store =
        (.ok ((BalancerState.start maxConnections).balancer maxConnections store.maps.size),
          begun) ∧
      begun.names = made.names ∧
      (BalancerState.start maxConnections).Shown store.maps.size begun := by
  rcases installs_of_createMaps created with ⟨rfl, installs⟩
  have marked : ∃ begun, ((List.range slotCount).forM fun slot =>
      ((BalancerState.start maxConnections).balancer maxConnections store.maps.size).slots.set slot
        (BitVec.ofNat 64 noBackend) : StoreAction Unit).run made = (.ok (), begun) ∧
          begun.names = made.names ∧
          (BalancerState.start maxConnections).Shown store.maps.size begun := by
    refine BalancerState.Holds.markSlots (BalancerState.mark_short Array.size_replicate)
      (fun slot marks store inside holds _ => ?_) (holds_of_installs installs) fun _ => by decide
    rw [owner?_start]
    exact holds.setSlot maxConnections inside (by decide)
  rcases marked with ⟨begun, run, named, shown⟩
  refine ⟨begun, ?_, named, shown⟩
  have views := run_ofMaps installs
  rw [create, Stateful.run_bind, created]
  dsimp only
  rw [run_onMaps, show (schemas maxConnections).length = 3 from rfl, Stateful.run_bind, views]
  dsimp only
  rw [Stateful.run_bind]
  simp only [run, Stateful.run_pure]
  rfl

/-- The names of the maps of a balancer that has been set up lead to them. -/
theorem shown_of_create (created : (create maxConnections).run store = (.ok balancer, begun)) :
    balancer = (BalancerState.start maxConnections).balancer maxConnections store.maps.size ∧
      (BalancerState.start maxConnections).Shown store.maps.size begun ∧
      ∀ (index : Nat) (entry : String × Schema), (schemas maxConnections)[index]? = some entry →
        begun.find? entry.1 = some (store.maps.size + index) := by
  rcases maps : (createMaps (schemas maxConnections)).run store with ⟨error | maps, made⟩
  · rw [create, Stateful.run_bind, maps] at created
    cases created
  · rcases run_create maps with ⟨begun', run, named, shown⟩
    cases run.symm.trans created
    refine ⟨rfl, shown, fun index entry here => ?_⟩
    rw [Store.find?, named]
    exact (installs_of_createMaps maps).2.named index entry here

end LoadBalancer

end PacketFilter
