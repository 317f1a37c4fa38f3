import Mathlib.Data.Prod.Lex
import PacketFilter.Proofs.FlowTables

/-!
# What a load balancer keeps track of

A load balancer is for this: it knows backends by their numbers, and holds a
list of flows with the number of the backend of each, in the order of use.
Where it sends a packet is said here of these, without a program and without
maps.

`BalancerState.Shown` says that the maps of a balancer hold such a state.
-/

namespace PacketFilter

/-! ## Calls -/

/-- What a balancer can be asked to do. -/
inductive BalancerCall where
  | add (backend : Backend)
  | remove (number : Nat)
  /-- Run the program on a packet, with what the clock reads meanwhile and a work area. -/
  | run (clock : Clock) (context : PacketContext) (area : WorkArea)
  | connection (flow : Flow)
  | select (flow : Flow)

/-- What a balancer answers to a call. -/
inductive BalancerAnswer where
  | added (result : Except ApplicationError Nat)
  | removed (result : Except ApplicationError Backend)
  /-- The outcome of a run and the packet that it leaves. -/
  | sent (outcome : Except Fault Verdict) (packet : Bytes)
  | connection (result : Except ApplicationError (Option Nat))
  | selected (result : Except ApplicationError (Option (Nat × Backend)))

/-- The packet with another destination. -/
def Backend.readdress (backend : Backend) (packet : Bytes) : Bytes :=
  (packet.overwrite Header.destinationOffset backend.address.toList).overwrite
    (Flow.portsPlace packet + 2) (Header.numberBytes backend.port)

namespace LoadBalancer

/-! ## Claims on slots -/

/-- The claim of a backend on a slot.  Claims are compared by their scores first, and then by the
numbers. -/
def claim (slot : Nat) (entry : Nat × Backend) : Nat ×ₗ Nat :=
  toLex (score slot entry.2, entry.1)

/-- The stronger claim is the greater one in the order of weight, then number. -/
theorem toLex_stronger (left right : Nat × Nat) :
    toLex (stronger left right) = max (toLex left) (toLex right) := by
  rw [stronger]
  split
  case isTrue less => exact (max_eq_right (Prod.Lex.toLex_lt_toLex.mpr less).le).symm
  case isFalse least => exact (max_eq_left (not_lt.mp (mt Prod.Lex.toLex_lt_toLex.mp least))).symm

/-- The strongest of several claims is their maximum. -/
theorem toLex_foldl_stronger (claims : List (Nat × Nat)) :
    ∀ claim, toLex (claims.foldl stronger claim) = (claims.map toLex).foldl max (toLex claim) := by
  induction claims with
  | nil => exact fun claim => rfl
  | cons other rest continues =>
      intro claim
      rw [List.foldl_cons, continues, toLex_stronger, List.map_cons, List.foldl_cons]

/-- A slot belongs to the backend with the greatest claim. -/
theorem strongest?_eq_max? (slot : Nat) (backends : List (Nat × Backend)) :
    strongest? slot backends =
      ((backends.map (claim slot)).max?).map fun claim => (ofLex claim).2 := by
  rcases backends with _ | ⟨entry, backends⟩
  · rfl
  · have claims : backends.map (claim slot) =
        (backends.map fun entry => (score slot entry.2, entry.1)).map toLex := List.map_map.symm
    rw [strongest?, List.map_cons, List.map_cons, List.max?_cons', claim, Option.map_some, claims,
      ← toLex_foldl_stronger]
    rfl

/-- A slot is without owner only where there is no backend. -/
theorem strongest?_eq_none
    {slot : Nat} {backends : List (Nat × Backend)} :
    strongest? slot backends = none ↔ backends = [] := by
  rw [strongest?_eq_max?, Option.map_eq_none_iff, List.max?_eq_none_iff, List.map_eq_nil_iff]

/-- The owner of a slot has the greatest claim of all. -/
theorem strongest?_claims
    {slot number : Nat} {backends : List (Nat × Backend)}
    (strongest : strongest? slot backends = some number) :
    ∃ backend, (number, backend) ∈ backends ∧
      ∀ entry ∈ backends, claim slot entry ≤ claim slot (number, backend) := by
  rw [strongest?_eq_max?] at strongest
  rcases Option.map_eq_some_iff.mp strongest with ⟨greatest, claims, rfl⟩
  rcases List.max?_eq_some_iff.mp claims with ⟨among, least⟩
  rcases List.mem_map.mp among with ⟨entry, listed, rfl⟩
  exact ⟨entry.2, listed, fun other there => least _ (List.mem_map_of_mem there)⟩

end LoadBalancer

/-- What a load balancer keeps track of. -/
structure BalancerState where
  /-- The backends in use, at their numbers. -/
  backends : Array (Option Backend)
  /-- The number of the backend of each connection. -/
  connections : RecencyList Nat

namespace BalancerState

/-- The state of a balancer that has just been set up. -/
def start (maxConnections : Nat) : BalancerState where
  backends := Array.replicate LoadBalancer.backendCount none
  connections := { capacity := maxConnections }

/-- The backend of a number, as long as it is there. -/
def backend? (state : BalancerState) (number : Nat) : Option Backend :=
  (state.backends[number]?).join

/-- The backends in use, with their numbers. -/
def active (state : BalancerState) : List (Nat × Backend) :=
  state.backends.toList.zipIdx.filterMap fun entry =>
    entry.1.map fun backend => (entry.2, backend)

/-- The backend that a slot belongs to. -/
def owner? (state : BalancerState) (slot : Nat) : Option Nat :=
  LoadBalancer.strongest? slot state.active

/-- The backend for a flow: that of its connection if it has one, else that of its slot. -/
def choice? (state : BalancerState) (flow : Flow) : Option (Nat × Backend) :=
  ((state.connections.find? flow.key).or (state.owner? (LoadBalancer.slotOf flow))).bind
    fun number =>
    (state.backend? number).map fun backend => (number, backend)

/-- The connection has been used last and has that backend.  When there is no room for it, the one
that has not been used for longest is forgotten. -/
def remember (state : BalancerState) (flow : Flow) (number : Nat) : BalancerState :=
  { state with connections := (state.connections.update flow.key number .createOrReplace).2 }

/-- The connection has been looked at, which counts as a use. -/
def touch (state : BalancerState) (flow : Flow) : BalancerState :=
  { state with connections := (state.connections.lookup flow.key).2 }

/-- Where a packet is sent: its flow, and the backend for it.  Packets without ports are not. -/
def route? (state : BalancerState) (packet : Bytes) : Option (Flow × Nat × Backend) :=
  ((Flow.ofFrame? packet).filter Flow.hasPorts).bind fun flow =>
    (state.choice? flow).map fun choice => (flow, choice)

/-- What becomes of a packet. -/
def send (state : BalancerState) (packet : Bytes) : Verdict × Bytes × BalancerState :=
  match state.route? packet with
  | some (flow, number, backend) =>
    (.redirect number, backend.readdress packet, state.remember flow number)
  | none => (.forward, packet, state)

/-- Packets neither bring nor take backends. -/
theorem send_backends (state : BalancerState) (packet : Bytes) :
    (state.send packet).2.2.backends = state.backends := by
  rw [send]
  split <;> rfl

/-! ### What the control plane does -/

/-- Put a backend under the first number that is free, unless it is in use. -/
def add (state : BalancerState) (backend : Backend) : Except ApplicationError Nat × BalancerState :=
  match state.backends.findIdx? (· = some backend) with
  | some number => (.ok number, state)
  | none =>
    match state.backends.findIdx? Option.isNone with
    | none => (.error (.backendsFull LoadBalancer.backendCount), state)
    | some number =>
      (.ok number, { state with backends := state.backends.setIfInBounds number (some backend) })

/-- Forget the connections of a backend.  Each of the connections is looked at in turn, so those
that stay come to stand in the reverse order. -/
def forget (state : BalancerState) (number : Nat) : BalancerState :=
  { state with
    connections :=
      { state.connections with
        entries := (state.connections.entries.filter (·.2 ≠ number)).reverse } }

/-- A backend is taken out, and its flows go to the owners of their slots again. -/
def remove (state : BalancerState) (number : Nat) :
    Except ApplicationError Backend × BalancerState :=
  match state.backend? number with
  | none => (.error (.unknownBackend number), state)
  | some backend =>
    (.ok backend,
      { state with backends := state.backends.setIfInBounds number none }.forget number)

/-- A backend that is refused changes nothing. -/
theorem add_refused
    {state : BalancerState} {backend : Backend} {error : ApplicationError}
    (refused : (state.add backend).1 = .error error) : (state.add backend).2 = state := by
  rw [add] at refused ⊢
  split
  · rfl
  · split
    · rfl
    · simp_all

/-- What is refused changes nothing. -/
theorem remove_refused
    {state : BalancerState} {number : Nat} {error : ApplicationError}
    (refused : (state.remove number).1 = .error error) : (state.remove number).2 = state := by
  rw [remove] at refused ⊢
  split
  · rfl
  · simp_all

/-- The answer to a call, and what becomes of the state. -/
def answer : BalancerCall → BalancerState → BalancerAnswer × BalancerState
  | .add backend, state => (.added (state.add backend).1, (state.add backend).2)
  | .remove number, state => (.removed (state.remove number).1, (state.remove number).2)
  | .run _ context _, state =>
    let (verdict, packet, state) := state.send context.packet
    (.sent (.ok verdict) packet, state)
  | .connection flow, state =>
    (.connection (.ok (state.connections.find? flow.key)), state.touch flow)
  | .select flow, state => (.selected (.ok (state.choice? flow)), state.touch flow)

/-! ### Numbers in use -/

variable {state : BalancerState} {number : Nat} {backend : Backend} {flow : Flow} {packet : Bytes}

theorem mem_active : (number, backend) ∈ state.active ↔ state.backend? number = some backend := by
  rw [active, List.mem_filterMap, backend?, Option.join_eq_some_iff]
  constructor
  · rintro ⟨⟨held, index⟩, listed, same⟩
    rcases Option.map_eq_some_iff.mp same with ⟨other, isHeld, pair⟩
    rcases Prod.mk.inj pair with ⟨rfl, rfl⟩
    have there := List.mem_zipIdx_iff_getElem?.mp listed
    rwa [show held = some other from isHeld, Array.getElem?_toList] at there
  · intro there
    refine ⟨(some backend, number), List.mem_zipIdx_iff_getElem?.mpr ?_, rfl⟩
    rw [Array.getElem?_toList, there]

/-- Only backends that are there own slots. -/
theorem backend?_of_owner?
    {slot : Nat} (owned : state.owner? slot = some number) :
    ∃ backend, state.backend? number = some backend := by
  rcases LoadBalancer.strongest?_claims owned with ⟨backend, listed, _⟩
  exact ⟨backend, mem_active.mp listed⟩

theorem backend?_set
    {backend'? : Option Backend} (inside : number < state.backends.size) (other : Nat) :
    ({ state with backends := state.backends.setIfInBounds number backend'? }).backend? other =
      if other = number then backend'? else state.backend? other := by
  rw [backend?, backend?, Array.getElem?_setIfInBounds]
  by_cases same : number = other
  · rw [if_pos same, if_pos inside, if_pos same.symm, Option.join_some]
  · rw [if_neg same, if_neg fun equal => same equal.symm]

theorem lt_of_backend?
    (size : state.backends.size = LoadBalancer.backendCount)
    (known : state.backend? number = some backend) : number < LoadBalancer.backendCount := by
  rw [backend?, Option.join_eq_some_iff] at known
  exact size ▸ (Array.getElem?_eq_some_iff.mp known).1

/-- There are numbers for so many backends, no backend has two of them, and all connections are
those of backends in use. -/
structure Sound (state : BalancerState) : Prop where
  size : state.backends.size = LoadBalancer.backendCount
  distinct : ∀ (first second : Nat) (backend : Backend), state.backend? first = some backend →
    state.backend? second = some backend → first = second
  known : ∀ entry ∈ state.connections.entries, ∃ backend, state.backend? entry.2 = some backend

namespace Sound

theorem backend?_start (maxConnections number : Nat) :
    (start maxConnections).backend? number = none := by
  rw [backend?, BalancerState.start, Array.getElem?_replicate]
  split <;> rfl

theorem start (maxConnections : Nat) : (start maxConnections).Sound where
  size := Array.size_replicate
  distinct first _ _ known := by cases (backend?_start maxConnections first).symm.trans known
  known _ listed := by cases listed

theorem lt (sound : state.Sound) (known : state.backend? number = some backend) :
    number < LoadBalancer.backendCount :=
  lt_of_backend? sound.size known

/-- Connections lead to backends that are there. -/
theorem backend?_of_connection
    (sound : state.Sound) (found : state.connections.find? flow.key = some number) :
    ∃ backend, state.backend? number = some backend :=
  sound.known _ (RecencyList.mem_of_find? found)

/-- A flow that is remembered goes to the backend that it was remembered with. -/
theorem choice?_of_connection
    (sound : state.Sound) (found : state.connections.find? flow.key = some number) :
    ∃ backend, state.backend? number = some backend ∧
      state.choice? flow = some (number, backend) := by
  rcases sound.backend?_of_connection found with ⟨backend, known⟩
  refine ⟨backend, known, ?_⟩
  rw [choice?, found, Option.some_or, Option.bind_some, known]
  rfl

theorem touch (sound : state.Sound) (flow : Flow) : (state.touch flow).Sound where
  size := sound.size
  distinct := sound.distinct
  known entry listed := sound.known entry (RecencyList.entries_lookup listed)

theorem remember
    (sound : state.Sound) (known : state.backend? number = some backend) (flow : Flow) :
    (state.remember flow number).Sound where
  size := sound.size
  distinct := sound.distinct
  known entry listed := by
    rcases List.mem_cons.mp (RecencyList.entries_update listed) with rfl | old
    · exact ⟨backend, known⟩
    · exact sound.known entry old

/-- A packet leaves the state sound, whether it is sent or not. -/
theorem send (sound : state.Sound) (packet : Bytes) : (state.send packet).2.2.Sound := by
  rw [BalancerState.send]
  split
  case h_1 flow number backend route =>
    rcases Option.bind_eq_some_iff.mp route with ⟨flow', _, route⟩
    rcases Option.map_eq_some_iff.mp route with ⟨choice, chosen, same⟩
    cases same
    rcases Option.bind_eq_some_iff.mp chosen with ⟨number', _, chosen⟩
    rcases Option.map_eq_some_iff.mp chosen with ⟨backend', known, same⟩
    cases same
    exact sound.remember known flow
  case h_2 => exact sound

theorem add (sound : state.Sound) (backend : Backend) : (state.add backend).2.Sound := by
  rw [BalancerState.add]
  split
  · exact sound
  case h_2 unused =>
    have fresh (other : Nat) : state.backend? other ≠ some backend := by
      rw [backend?, Ne, Option.join_eq_some_iff]
      intro held
      have listed := Array.mem_of_getElem? held
      exact absurd (Array.findIdx?_eq_none_iff.mp unused _ listed) (by simp)
    split
    · exact sound
    case h_2 number free =>
      rcases Array.findIdx?_eq_some_iff_getElem.mp free with ⟨inside, isNone, _⟩
      refine ⟨Array.size_setIfInBounds.trans sound.size, fun first second backend' => ?_,
        fun entry listed => ?_⟩
      · rw [backend?_set inside, backend?_set inside]
        split <;> split
        case isTrue.isTrue here there => exact fun _ _ => here.trans there.symm
        case isTrue.isFalse => exact fun same known => absurd (known.trans same.symm) (fresh second)
        case isFalse.isTrue => exact fun known same => absurd (known.trans same.symm) (fresh first)
        case isFalse.isFalse => exact sound.distinct first second backend'
      · rw [backend?_set inside]
        split
        · exact ⟨backend, rfl⟩
        · exact sound.known entry listed

theorem remove (sound : state.Sound) (number : Nat) : (state.remove number).2.Sound := by
  rw [BalancerState.remove]
  split
  · exact sound
  case h_2 backend known =>
    have inside : number < state.backends.size := sound.size ▸ sound.lt known
    have left (other : Nat) :
        ({ state with backends := state.backends.setIfInBounds number none }.forget number).backend?
          other = if other = number then none else state.backend? other := backend?_set inside other
    refine ⟨Array.size_setIfInBounds.trans sound.size, fun first second backend' => ?_,
      fun entry listed => ?_⟩
    · rw [left, left]
      split
      · exact fun none => by cases none
      · split
        · exact fun _ none => by cases none
        · exact sound.distinct first second backend'
    · rcases List.mem_filter.mp (List.mem_reverse.mp listed) with ⟨old, differs⟩
      rw [left, if_neg (of_decide_eq_true differs)]
      exact sound.known entry old

/-- Every call leaves the state sound. -/
theorem answer (sound : state.Sound) (call : BalancerCall) : (state.answer call).2.Sound := by
  cases call with
  | add backend => exact sound.add backend
  | remove number => exact sound.remove number
  | run _ context _ => exact sound.send context.packet
  | connection flow => exact sound.touch flow
  | select flow => exact sound.touch flow

end Sound

/-! ## Maps that hold the state -/

/-- What stands in a slot. -/
def mark (owner? : Option Nat) : Word :=
  BitVec.ofNat 64 (owner?.getD LoadBalancer.noBackend)

/-- The mark of a slot fits into four bytes. -/
theorem mark_short (size : state.backends.size = LoadBalancer.backendCount) (slot : Nat) :
    (mark (state.owner? slot)).toNat < 2 ^ 32 := by
  rcases owned : state.owner? slot with _ | number
  · decide
  · rcases backend?_of_owner? owned with ⟨backend, known⟩
    have inside := lt_of_backend? size known
    rw [LoadBalancer.backendCount] at inside
    rw [mark, Option.getD_some, BitVec.toNat_ofNat]
    omega

/-- These are the entries of the backends in use, and the others say that they are not. -/
structure Lists (backend? : Nat → Option Backend) (entries : Nat → BackendEntry) : Prop where
  used : ∀ (number : Nat) (backend : Backend), backend? number = some backend →
    entries number = .ofBackend backend
  free : ∀ number : Nat, backend? number = none → (entries number).isActive = false

/-- An entry that is replaced lists what the number now stands for. -/
theorem Lists.set
    {entries : Nat → BackendEntry} {backend'? : Option Backend} {entry : BackendEntry}
    (lists : Lists state.backend? entries) (inside : number < state.backends.size)
    (used : ∀ backend, backend'? = some backend → entry = .ofBackend backend)
    (free : backend'? = none → entry.isActive = false) :
    Lists { state with backends := state.backends.setIfInBounds number backend'? }.backend?
      (Function.update entries number entry) := by
  constructor
  · intro other backend known
    rw [backend?_set inside] at known
    split at known
    case isTrue same => rw [same, Function.update_self, used backend known]
    case isFalse differs => rw [Function.update_of_ne differs, lists.used other backend known]
  · intro other unused
    rw [backend?_set inside] at unused
    split at unused
    case isTrue same => rw [same, Function.update_self, free unused]
    case isFalse differs => rw [Function.update_of_ne differs, lists.free other unused]

/-- The maps of a balancer hold the state, with these marks in the slots.  They follow each other
in the store. -/
structure Holds (state : BalancerState) (marks : Nat → Word) (base : MapId) (store : Store) :
    Prop where
  connections : store.Has base fun map =>
    map.ListsFlows (state.connections.mapValues (BitVec.ofNat 64))
  entries : store.Has (base + 1) fun map =>
    map.schema = .array BackendEntry.layout.size LoadBalancer.backendCount ∧
      ∃ entries, map.Arrays BackendEntry.layout.encode LoadBalancer.backendCount entries ∧
        Lists state.backend? entries
  slots : store.Has (base + 2) fun map =>
    map.schema = .array 4 LoadBalancer.slotCount ∧
      map.Arrays (Layout.word 4).encode LoadBalancer.slotCount marks

/-- The slots are marked with the backends that they belong to. -/
def Shown (state : BalancerState) (base : MapId) (store : Store) : Prop :=
  state.Holds (fun slot => mark (state.owner? slot)) base store

namespace Holds

variable {marks marks' : Nat → Word} {base : MapId} {store : Store} {changed : Map}

theorem setConnections
    {list : RecencyList Nat} (holds : state.Holds marks base store)
    (lists : changed.ListsFlows (list.mapValues (BitVec.ofNat 64))) :
    { state with connections := list }.Holds marks base (store.setMap base changed) where
  connections := holds.connections.set lists
  entries := holds.entries.apart (show base ≠ base + 1 by simp)
  slots := holds.slots.apart (by simp)

theorem setEntries
    {entries : Nat → BackendEntry} {backends : Array (Option Backend)}
    (holds : state.Holds marks base store)
    (schema : changed.schema = .array BackendEntry.layout.size LoadBalancer.backendCount)
    (arrays : changed.Arrays BackendEntry.layout.encode LoadBalancer.backendCount entries)
    (lists : Lists { state with backends }.backend? entries) :
    { state with backends }.Holds marks base (store.setMap (base + 1) changed) where
  connections := holds.connections.apart (by simp)
  entries := holds.entries.set ⟨schema, entries, arrays, lists⟩
  slots := holds.slots.apart (by simp)

theorem setSlots
    (holds : state.Holds marks base store)
    (schema : changed.schema = .array 4 LoadBalancer.slotCount)
    (arrays : changed.Arrays (Layout.word 4).encode LoadBalancer.slotCount marks') :
    state.Holds marks' base (store.setMap (base + 2) changed) where
  connections := holds.connections.apart (by simp)
  entries := holds.entries.apart (by simp)
  slots := holds.slots.set ⟨schema, arrays⟩

/-! ### What lookups lead to -/

/-- Lookups of connections count as uses.  A connection is either not there, or the number of its
backend is found. -/
theorem lookupConnection (holds : state.Holds marks base store) (flow : Flow) (worker : Nat) :
    ∃ map after cell?, store.map? base = some map ∧ map.schema.keySize = Flow.size ∧
      (Map.lookupCell flow.key worker).run map = (.ok cell?, after) ∧
      ((cell? = none ∧ state.connections.find? flow.key = none ∧ after = map) ∨
        ∃ cell number, cell? = some cell ∧ state.connections.find? flow.key = some number ∧
          (store.setMap base after).cell? ⟨base, cell⟩ = some (.ofWord (BitVec.ofNat 64 number)) ∧
          (state.touch flow).Holds marks base (store.setMap base after)) := by
  rcases holds.connections with ⟨map, there, lists⟩
  have value : (state.connections.mapValues (BitVec.ofNat 64)).find? flow.key =
      (state.connections.find? flow.key).map (BitVec.ofNat 64) :=
    RecencyList.find?_mapValues _
  rcases found : state.connections.find? flow.key with _ | number
  · rw [found] at value
    exact ⟨map, map, none, there, lists.keySize, lists.lookup_absent value worker,
      .inl ⟨rfl, rfl, rfl⟩⟩
  · rw [found] at value
    rcases lists.lookup_present value worker with ⟨cell, after, looked, moved, held, _⟩
    rw [RecencyList.lookup_mapValues] at moved
    have there' : (store.setMap base after).map? base = some after :=
      (Store.map?_setMap there).trans (if_pos rfl)
    refine ⟨map, after, some cell, there, lists.keySize, looked,
      .inr ⟨cell, number, rfl, rfl, ?_, holds.setConnections moved⟩⟩
    rw [Store.cell?, there', Option.bind_some]
    exact held

/-- The mark of a slot is found. -/
theorem lookupSlot
    {slot : Nat} (holds : state.Holds marks base store) (inside : slot < LoadBalancer.slotCount)
    (worker : Nat) :
    ∃ map, store.map? (base + 2) = some map ∧ map.schema.keySize = 4 ∧
      (Map.lookupCell (Map.keyOfIndex slot) worker).run map = (.ok (some slot), map) ∧
      store.cell? ⟨base + 2, slot⟩ = some ⟨(Layout.word 4).encode (marks slot)⟩ := by
  rcases holds.slots with ⟨map, there, schema, arrays⟩
  have sized : map.schema.keySize = 4 := by rw [schema]; rfl
  have short : slot < 2 ^ 32 := inside.trans (by decide)
  refine ⟨map, there, sized, ?_, ?_⟩
  · rw [arrays.run_lookupCell sized short, if_pos inside]
  · rw [Store.cell?, there, Option.bind_some]
    exact Map.cell?_of_bytes? (arrays.values slot inside)

/-- The entry of a backend in use is found. -/
theorem lookupBackend
    (holds : state.Holds marks base store) (inside : number < LoadBalancer.backendCount)
    (known : state.backend? number = some backend) (worker : Nat) :
    ∃ map, store.map? (base + 1) = some map ∧ map.schema.keySize = 4 ∧
      (Map.lookupCell (Map.keyOfIndex number) worker).run map = (.ok (some number), map) ∧
      store.cell? ⟨base + 1, number⟩ =
        some ⟨BackendEntry.layout.encode (.ofBackend backend)⟩ := by
  rcases holds.entries with ⟨map, there, schema, entries, arrays, lists⟩
  have sized : map.schema.keySize = 4 := by rw [schema]; rfl
  have short : number < 2 ^ 32 := inside.trans (by decide)
  refine ⟨map, there, sized, ?_, ?_⟩
  · rw [arrays.run_lookupCell sized short, if_pos inside]
  · rw [Store.cell?, there, Option.bind_some, ← lists.used number backend known]
    exact Map.cell?_of_bytes? (arrays.values number inside)

/-- Nothing is found for the mark of a slot that belongs to no backend. -/
theorem lookupNoBackend (holds : state.Holds marks base store) (worker : Nat) :
    ∃ map, store.map? (base + 1) = some map ∧ map.schema.keySize = 4 ∧
      (Map.lookupCell (Map.keyOfIndex LoadBalancer.noBackend) worker).run map =
        (.ok none, map) := by
  rcases holds.entries with ⟨map, there, schema, entries, arrays, lists⟩
  have sized : map.schema.keySize = 4 := by rw [schema]; rfl
  exact ⟨map, there, sized, arrays.run_lookupCell sized (by decide) worker⟩

/-- A connection is given a backend. -/
theorem rememberConnection
    (holds : state.Holds marks base store) (flow : Flow) (number worker : Nat) :
    ∃ map after result, store.map? base = some map ∧
      map.ListsFlows (state.connections.mapValues (BitVec.ofNat 64)) ∧
      (Map.updateFromWorker flow.key ((Layout.word 8).encode (BitVec.ofNat 64 number))
        .createOrReplace worker).run map = (result, after) ∧
      (state.remember flow number).Holds marks base (store.setMap base after) := by
  rcases holds.connections with ⟨map, there, lists⟩
  rcases lists.update flow (BitVec.ofNat 64 number) .createOrReplace worker with
    ⟨after, run, lists'⟩
  rw [RecencyList.update_mapValues] at lists'
  exact ⟨map, after, _, there, lists, run, holds.setConnections lists'⟩

end Holds

end BalancerState

end PacketFilter
