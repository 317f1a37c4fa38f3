import PacketFilter.Proofs.Views

/-!
# Tables of flows

Both applications keep a word for each of the flows they have seen last: how
many packets it has sent, or which backend it belongs to.  Such a map holds a
list of flows with their words in the order of use.
-/

namespace PacketFilter

/-- The key of a flow in a map. -/
def Flow.key (flow : Flow) : Bytes :=
  layout.encode flow

/-- Two flows have one key only if they are the same flow. -/
theorem Flow.key_injective : Function.Injective Flow.key :=
  fun first second same => (layout_carries first).inj (layout_carries second) same

/-- The map forgets, and holds this list of flows with a word each. -/
structure Map.ListsFlows (map : Map) (list : RecencyList Word) : Prop where
  schema : ∃ capacity, map.schema = .recencyHash Flow.size 8 capacity
  recalls : ∃ numbers, map.Recalls (Layout.word 8).encode numbers list
  /-- Nothing but flows is listed. -/
  keys : ∀ key ∈ list.keys, ∃ flow : Flow, key = flow.key

namespace Map.ListsFlows

variable {map : Map} {list : RecencyList Word} {flow : Flow}

theorem ofSchema (name : String) {capacity : Nat} (positive : 0 < capacity) (workers : Nat) :
    (Map.ofSchema name (.recencyHash Flow.size 8 capacity) workers).ListsFlows { capacity } where
  schema := ⟨capacity, rfl⟩
  recalls := ⟨_, .ofSchema name _ _ workers positive _⟩
  keys _ listed := by cases listed

theorem keySize (lists : map.ListsFlows list) : map.schema.keySize = Flow.size := by
  rcases lists.schema with ⟨capacity, schema⟩
  rw [schema]
  rfl

theorem valueSize (lists : map.ListsFlows list) : map.schema.valueSize = 8 := by
  rcases lists.schema with ⟨capacity, schema⟩
  rw [schema]
  rfl

theorem key_size (lists : map.ListsFlows list) (flow : Flow) :
    flow.key.size = map.schema.keySize :=
  lists.keySize.symm

/-- No flow stands twice in the table. -/
theorem nodup_keys (lists : map.ListsFlows list) : list.keys.Nodup := by
  rcases lists.recalls with ⟨numbers, recalls⟩
  exact recalls.nodup_keys

/-- The list has become another one. -/
theorem become
    {after : Map} {list' : RecencyList Word} (lists : map.ListsFlows list)
    (same : after.schema = map.schema)
    (recalls : ∃ numbers, after.Recalls (Layout.word 8).encode numbers list')
    (keys : ∀ key ∈ list'.keys, (∃ flow : Flow, key = flow.key) ∨ key ∈ list.keys) :
    after.ListsFlows list' where
  schema := same ▸ lists.schema
  recalls := recalls
  keys key listed := (keys key listed).elim id (lists.keys key)

/-- A flow that is not listed is not found. -/
theorem lookup_absent
    (lists : map.ListsFlows list) (absent : list.find? flow.key = none) (worker : Nat) :
    (Map.lookupCell flow.key worker).run map = (.ok none, map) := by
  rcases lists.recalls with ⟨numbers, recalls⟩
  exact (run_lookupCell (lists.key_size flow)).trans (recalls.find_absent absent worker)

/-- A flow that is listed is found, and goes to the front.  Its word can be changed in its cell. -/
theorem lookup_present
    {value : Word} (lists : map.ListsFlows list) (present : list.find? flow.key = some value)
    (worker : Nat) :
    ∃ number after, (Map.lookupCell flow.key worker).run map = (.ok (some number), after) ∧
      after.ListsFlows (list.lookup flow.key).2 ∧ after.cell? number = some (.ofWord value) ∧
      ∀ value', (after.setCell number (.ofWord value')).ListsFlows
        (list.update flow.key value' .createOrReplace).2 := by
  rcases lists.recalls with ⟨numbers, recalls⟩
  rcases recalls.find flow.key worker with ⟨answer, content, run, recalls'⟩
  have moved : (map.setContent content).ListsFlows (list.lookup flow.key).2 :=
    lists.become rfl ⟨_, recalls'⟩ fun key listed => .inr (RecencyList.mem_keys_lookup listed)
  rw [RecencyList.lookup, RecencyList.lookup, present] at answer recalls'
  rcases found : numbers.find? flow.key with _ | number
  · rw [found] at answer
    cases answer
  · rw [found] at answer recalls'
    have held : map.bytes? number = some _ := Option.some.inj answer
    rw [RecencyList.lookup, found] at run
    refine ⟨number, _, (run_lookupCell (lists.key_size flow)).trans run, moved,
      Map.cell?_of_bytes? held, fun value' => ?_⟩
    rw [RecencyList.update, present]
    refine lists.become rfl ⟨_, recalls'.setFront value'⟩ fun key listed => ?_
    exact (List.mem_cons.mp listed).imp (fun same => ⟨flow, same⟩)
      fun old => List.map_subset _ RecencyList.entries_without old

/-- A flow is given a word. -/
theorem update
    (lists : map.ListsFlows list) (flow : Flow) (value : Word) (mode : UpdateMode) (worker : Nat) :
    ∃ after, (Map.updateFromWorker flow.key ((Layout.word 8).encode value) mode worker).run map =
        ((list.update flow.key value mode).1, after) ∧
      after.ListsFlows (list.update flow.key value mode).2 := by
  rcases lists.recalls with ⟨numbers, recalls⟩
  have plain : ∀ workers length, map.content ≠ .perWorkerArray workers length := by
    rcases recalls.held with ⟨_, _, held, _⟩
    simp [held]
  have sized := (Layout.carries_double value).sized.trans lists.valueSize.symm
  rcases recalls.update flow.key value mode with ⟨after, numbers', run, same, recalls'⟩
  refine ⟨after, ?_, lists.become same ⟨_, recalls'⟩ fun key listed => ?_⟩
  · rw [Map.run_updateFromWorker plain, Map.run_update (lists.key_size flow) sized, run]
  · exact (RecencyList.mem_keys_update listed).imp (fun same => ⟨flow, same⟩) id

/-! ## Through a view -/

variable {store : Store} {id : MapId}

/-- The view of a table of flows. -/
def view (id : MapId) : TypedTable Flow Word :=
  ⟨id, Flow.layout, .word 8⟩

/-- A lookup through the view answers the flow's count and makes the flow the most recent. -/
theorem get (lists : map.ListsFlows list) (there : store.map? id = some map) (flow : Flow) :
    ∃ after, ((view id).get flow).run store = (.ok (list.find? flow.key), store.setMap id after) ∧
      after.ListsFlows (list.lookup flow.key).2 := by
  rcases lists.recalls with ⟨numbers, recalls⟩
  rcases recalls.run_lookup (lists.key_size flow) with ⟨after, numbers', run, same, recalls'⟩
  refine ⟨after, TypedTable.run_get there Layout.carries_double run,
    lists.become same ⟨_, recalls'⟩ fun key listed => ?_⟩
  exact .inr (RecencyList.mem_keys_lookup listed)

/-- A removal through the view answers the flow's count and takes the flow from the table. -/
theorem remove (lists : map.ListsFlows list) (there : store.map? id = some map) (flow : Flow) :
    ∃ after, ((view id).remove flow).run store =
        (.ok (list.find? flow.key), store.setMap id after) ∧
      after.ListsFlows (list.take flow.key).2 := by
  rcases lists.recalls with ⟨numbers, recalls⟩
  rcases recalls.run_take (lists.key_size flow) with ⟨after, numbers', run, same, recalls'⟩
  refine ⟨after, TypedTable.run_remove there Layout.carries_double run,
    lists.become same ⟨_, recalls'⟩ fun key listed => ?_⟩
  exact .inr (RecencyList.mem_keys_take listed)

/-- The keys are those of the flows that are listed. -/
theorem run_keys (lists : map.ListsFlows list) (there : store.map? id = some map) :
    ∃ flows, (view id).keys.run store = (.ok flows, store) ∧ list.keys = flows.map Flow.key := by
  obtain ⟨flows, keys⟩ : list.keys ∈ Set.range (List.map Flow.key) := by
    rw [Set.range_list_map]
    intro key listed
    rcases lists.keys key listed with ⟨flow, same⟩
    exact ⟨flow, same.symm⟩
  rcases lists.recalls with ⟨numbers, recalls⟩
  have decoded : map.keys.filterMap Flow.layout.decode? = flows := by
    have read : Flow.layout.decode? ∘ Flow.key = some :=
      funext fun flow => (Flow.layout_carries flow).read
    rw [recalls.map_keys, ← keys, List.filterMap_map, read, List.filterMap_some]
  exact ⟨flows, (Store.run_inspect there _ _).trans
    (congrArg (fun flows => (Except.ok flows, store)) decoded), keys.symm⟩

end Map.ListsFlows

end PacketFilter
