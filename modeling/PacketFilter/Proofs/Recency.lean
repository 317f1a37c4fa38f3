import PacketFilter.Proofs.RecencyOrder
import PacketFilter.Proofs.Series

/-!
# Tables that forget, as lists

What a table that forgets is for: a list of keys with their values in the order
of use.  A key that is used moves to the front, and a new key pushes the last
one out when there is no room.  The table answers whatever it is asked as the
list does, and shows the same keys in the same order.
-/

namespace PacketFilter

/-! ## Calls -/

/-- What can be asked of a map that forgets keys. -/
inductive RecencyCall (α : Type) where
  | lookup (key : Bytes)
  | update (key : Bytes) (value : α) (mode : UpdateMode)
  | delete (key : Bytes)
  | take (key : Bytes)
  deriving Repr

/-- What such a map answers. -/
inductive RecencyAnswer (α : Type) where
  | value (value? : Option α)
  | done (result : Except MapError Unit)
  deriving DecidableEq, Repr

/-- Serve a call, given how keys are looked up, updated and taken out. -/
def RecencyCall.serve {α State : Type} (lookup : State → Bytes → Option α × State)
    (update : State → Bytes → α → UpdateMode → Except MapError Unit × State)
    (take : State → Bytes → Option α × State) :
    RecencyCall α → State → RecencyAnswer α × State
  | .lookup key, state => (.value (lookup state key).1, (lookup state key).2)
  | .update key value mode, state =>
    (.done (update state key value mode).1, (update state key value mode).2)
  | .delete key, state =>
    (.done (if (take state key).1.isSome then .ok () else .error .keyMissing), (take state key).2)
  | .take key, state => (.value (take state key).1, (take state key).2)

/-! ## Lists in order of use -/

/-- Keys with their values, the one used last in front. -/
structure RecencyList (α : Type) where
  capacity : Nat
  entries : List (Bytes × α) := []

namespace RecencyList

variable {α : Type}

def size (list : RecencyList α) : Nat :=
  list.entries.length

/-- The keys, the one used last first. -/
def keys (list : RecencyList α) : List Bytes :=
  list.entries.map Prod.fst

/-- The value under a key, without using it. -/
def find? (list : RecencyList α) (key : Bytes) : Option α :=
  list.entries.lookup key

/-- The list without a key. -/
def without (list : RecencyList α) (key : Bytes) : RecencyList α :=
  { list with entries := list.entries.filter (·.1 ≠ key) }

/-- A key put in front of the others. -/
def push (list : RecencyList α) (key : Bytes) (value : α) : RecencyList α :=
  { list with entries := (key, value) :: list.entries }

/-- The list without the key used least recently. -/
def withoutLast (list : RecencyList α) : RecencyList α :=
  { list with entries := list.entries.dropLast }

/-- The value under a key, which moves to the front. -/
def lookup (list : RecencyList α) (key : Bytes) : Option α × RecencyList α :=
  match list.find? key with
  | none => (none, list)
  | some value => (some value, (list.without key).push key value)

/-- Put a new key in front; when there is no room, the last one is forgotten. -/
def insert (list : RecencyList α) (key : Bytes) (value : α) : RecencyList α :=
  if list.size = list.capacity then list.withoutLast.push key value else list.push key value

/-- Put a value under a key in front, as far as the mode lets; a new key takes the place of the last
one when the list is full. -/
def update (list : RecencyList α) (key : Bytes) (value : α) (mode : UpdateMode) :
    Except MapError Unit × RecencyList α :=
  match list.find? key with
  | some _ =>
    if mode = .createOnly then (.error .keyExists, list)
    else (.ok (), (list.without key).push key value)
  | none =>
    if mode = .replaceOnly then (.error .keyMissing, list)
    else (.ok (), list.insert key value)

/-- Remove a key and hand out its value. -/
def take (list : RecencyList α) (key : Bytes) : Option α × RecencyList α :=
  match list.find? key with
  | none => (none, list)
  | some value => (some value, list.without key)

/-- The answer of the list to a call, and the list after it. -/
def handle (list : RecencyList α) (call : RecencyCall α) : RecencyAnswer α × RecencyList α :=
  call.serve lookup update take list

end RecencyList

/-- The answer of the table to a call, and the table after it. -/
def RecencyTable.handle {α : Type} (table : RecencyTable α) (call : RecencyCall α) :
    RecencyAnswer α × RecencyTable α :=
  call.serve lookup update take table

/-! ## Tables that hold a list -/

namespace RecencySpot

variable {α : Type}

/-- The key and its value, as the list has them. -/
def entry (spot : RecencySpot α) : Bytes × α :=
  (spot.key, spot.value)

/-- The key and its slot, as the index has them. -/
def indexed (spot : RecencySpot α) : Bytes × Nat :=
  (spot.key, spot.slot)

/-- What is kept when the key of an entry is left out. -/
theorem filter_map
    {β : Type} {read : RecencySpot α → Bytes × β} {front back : List (RecencySpot α)}
    {spot : RecencySpot α} (keyed : ∀ spot, (read spot).1 = spot.key)
    (apart : ∀ other ∈ front ++ back, other.key ≠ spot.key) :
    ((front ++ spot :: back).map read).filter (·.1 ≠ spot.key) = (front ++ back).map read := by
  have kept : ∀ part : List (RecencySpot α), (∀ other ∈ part, other.key ≠ spot.key) →
      (part.map read).filter (·.1 ≠ spot.key) = part.map read :=
    fun part apart => List.filter_eq_self.mpr fun entry listed => by
      rcases List.mem_map.mp listed with ⟨other, among, rfl⟩
      exact decide_eq_true (keyed other ▸ apart other among)
  rw [List.map_append, List.map_cons, List.filter_append, List.filter_cons_of_neg,
    kept front fun other listed => apart other (List.mem_append_left _ listed),
    kept back fun other listed => apart other (List.mem_append_right _ listed), List.map_append]
  simp [keyed]

end RecencySpot

namespace RecencyTable

variable {α : Type} {table other : RecencyTable α}

/-- The table finds these entries by their keys, and has no other slots than theirs and the free
ones, which are empty. -/
structure Stores (table : RecencyTable α) (spots : List (RecencySpot α)) : Prop where
  index : table.index.Perm (spots.map RecencySpot.indexed)
  keys : (spots.map RecencySpot.key).Nodup
  empty : ∀ slot ∈ table.free, table.node? (some slot) = none ∧ slot < table.nodes.size
  free : table.free.Nodup
  slots : table.nodes.size = spots.length + table.free.length

/-- The table holds these entries in their order of use. -/
structure Holds (table : RecencyTable α) (spots : List (RecencySpot α)) : Prop where
  threads : table.Threads spots
  stores : table.Stores spots

variable {spots spots' front back : List (RecencySpot α)} {spot : RecencySpot α}

/-- A table in which an entry has been put into a slot that was not in use. -/
structure Places (table placed : RecencyTable α) (slot : Nat) (node : RecencyNode α) : Prop where
  fresh : table.node? (some slot) = none
  there : placed.node? (some slot) = some node
  others : ∀ other, other ≠ slot → placed.node? (some other) = table.node? (some other)
  head : placed.head? = table.head?
  tail : placed.tail? = table.tail?

namespace Stores

/-- Neither the order of use nor that of the entries matters. -/
theorem relinks
    (stores : table.Stores spots) (relinks : table.Relinks other) (perm : spots.Perm spots') :
    other.Stores spots' where
  index := by
    rw [relinks.index]
    exact stores.index.trans (perm.map _)
  keys := (perm.map _).nodup_iff.mp stores.keys
  empty slot listed := by
    rw [relinks.free] at listed
    rcases stores.empty slot listed with ⟨empty, inside⟩
    exact ⟨relinks.node?_none empty, relinks.size ▸ inside⟩
  free := relinks.free ▸ stores.free
  slots := by rw [relinks.size, relinks.free, stores.slots, perm.length_eq]

/-- Keys other than that of an entry are those of the entries around it. -/
theorem key_apart (stores : table.Stores (front ++ spot :: back)) :
    (∀ other ∈ front ++ back, other.key ≠ spot.key) ∧
      ((front ++ back).map RecencySpot.key).Nodup := by
  have keys := stores.keys
  rw [List.map_append, List.map_cons, List.nodup_middle, ← List.map_append] at keys
  rcases List.nodup_cons.mp keys with ⟨apart, distinct⟩
  exact ⟨fun other listed same => apart (same ▸ List.mem_map_of_mem listed), distinct⟩

/-- What is kept of the index when the key of an entry is left out. -/
theorem index_without (stores : table.Stores (front ++ spot :: back)) :
    (table.index.filter (·.1 ≠ spot.key)).Perm ((front ++ back).map RecencySpot.indexed) := by
  refine (stores.index.filter _).trans (.of_eq (RecencySpot.filter_map ?_ stores.key_apart.1))
  exact fun _ => rfl

/-- A key is either in no entry, or found in the slot of one. -/
theorem find (stores : table.Stores spots) (key : Bytes) :
    (table.slot? key = none ∧ ∀ spot ∈ spots, spot.key ≠ key) ∨
      ∃ front spot back, spots = front ++ spot :: back ∧ spot.key = key ∧
        table.slot? key = some spot.slot := by
  rw [slot?]
  rcases found : table.index.lookup key with _ | slot
  · refine .inl ⟨rfl, fun spot listed same => ?_⟩
    have indexed := stores.index.mem_iff.mpr (List.mem_map_of_mem listed)
    have differ : ¬ key = spot.indexed.1 := by
      simpa using List.lookup_eq_none_iff.mp found _ indexed
    exact differ same.symm
  · rcases List.lookup_eq_some_iff.mp found with ⟨before, after, split, _⟩
    have indexed : (key, slot) ∈ table.index :=
      split ▸ List.mem_append_right _ List.mem_cons_self
    rcases List.mem_map.mp (stores.index.mem_iff.mp indexed) with ⟨spot, listed, same⟩
    rcases List.append_of_mem listed with ⟨front, back, rfl⟩
    rcases Prod.mk.inj same with ⟨rfl, rfl⟩
    exact .inr ⟨front, spot, back, rfl, rfl, rfl⟩

/-- A new entry gets a slot that was not in use, and is stored as soon as the index leads to it. -/
theorem place
    (stores : table.Stores spots) (spot : RecencySpot α) {node : RecencyNode α}
    (slot : (table.place node).1 = spot.slot) (absent : ∀ other ∈ spots, other.key ≠ spot.key) :
    table.Places
        { (table.place node).2 with index := spot.indexed :: (table.place node).2.index }
        spot.slot node ∧
      Stores { (table.place node).2 with index := spot.indexed :: (table.place node).2.index }
        (spot :: spots) := by
  have index : (spot.indexed :: table.index).Perm ((spot :: spots).map RecencySpot.indexed) :=
    stores.index.cons spot.indexed
  have keys : ((spot :: spots).map RecencySpot.key).Nodup := by
    refine List.nodup_cons.mpr ⟨fun listed => ?_, stores.keys⟩
    rcases List.mem_map.mp listed with ⟨other, among, same⟩
    exact absent other among same
  have slots := stores.slots
  rcases split : table.free with _ | ⟨freed, free⟩
  · rw [place_fresh split] at slot ⊢
    have beyond : table.nodes.size = spot.slot := slot
    have count : table.nodes.size + 1 = (spot :: spots).length + table.free.length := by
      rw [slots, List.length_cons]
      omega
    refine ⟨⟨?_, (node?_push table _ _).trans (if_pos beyond), fun other apart => ?_, rfl, rfl⟩,
      { index
        keys
        empty := fun _ listed => (by cases (split ▸ listed : _ ∈ []))
        free := stores.free
        slots := (Array.size_push _).trans count }⟩
    · rw [node?_some, Array.getElem?_eq_none (Nat.le_of_eq beyond)]
      rfl
    · exact (node?_push table _ _).trans (if_neg fun same => apart (same.symm.trans beyond))
  · rw [place_freed split] at slot ⊢
    have same : freed = spot.slot := slot
    subst same
    have empty := stores.empty
    have distinct := stores.free
    rw [split] at empty distinct slots
    rcases List.forall_mem_cons.mp empty with ⟨⟨fresh, inside⟩, empty⟩
    rcases List.nodup_cons.mp distinct with ⟨used, distinct⟩
    have count : table.nodes.size = (spot :: spots).length + free.length := by
      rw [slots, List.length_cons, List.length_cons]
      omega
    refine ⟨⟨fresh, (node?_set table _ _ _).trans (if_pos ⟨rfl, inside⟩), fun other apart => ?_,
      rfl, rfl⟩,
      { index
        keys
        empty := fun other listed => ?_
        free := distinct
        slots := Array.size_setIfInBounds.trans count }⟩
    · exact (node?_set table _ _ _).trans (if_neg fun same => apart same.1.symm)
    · rcases empty other listed with ⟨unused, short⟩
      rw [Array.size_setIfInBounds]
      refine ⟨(node?_set table _ _ _).trans ((if_neg fun same => ?_).trans unused), short⟩
      exact used (same.1 ▸ listed)

/-- An entry gets another value. -/
theorem replaceValue (stores : table.Stores (front ++ spot :: back)) (value : α) :
    (table.changeNode (some spot.slot) fun node => { node with value }).Stores
      (front ++ { spot with value } :: back) where
  index := by
    have index := stores.index
    rw [List.map_append] at index ⊢
    exact index
  keys := by
    have keys := stores.keys
    rw [List.map_append] at keys ⊢
    exact keys
  empty slot listed := by
    rcases stores.empty slot listed with ⟨empty, inside⟩
    refine ⟨?_, Array.size_modify.symm ▸ inside⟩
    rw [node?_changeNode, empty]
    split <;> rfl
  free := stores.free
  slots := by
    refine Array.size_modify.trans (stores.slots.trans ?_)
    rw [List.length_append, List.length_append]
    rfl

end Stores

namespace Holds

/-- A new table holds nothing. -/
theorem create (capacity : Nat) : Holds ({ capacity } : RecencyTable α) [] where
  threads := ⟨trivial, rfl, rfl, List.nodup_nil⟩
  stores :=
    { index := .nil
      keys := List.nodup_nil
      empty := fun _ listed => by cases listed
      free := List.nodup_nil
      slots := rfl }

theorem size (holds : table.Holds spots) : table.size = spots.length := by
  rw [RecencyTable.size, holds.stores.index.length_eq, List.length_map]

/-- A promoted entry comes first, and the others keep their order. -/
theorem promote (holds : table.Holds (front ++ spot :: back)) :
    (table.promote spot.slot).Holds (spot :: (front ++ back)) :=
  ⟨holds.threads.promote, holds.stores.relinks (.promote table spot.slot) List.perm_middle⟩

/-- A removal answers the value of its entry and takes it out of the order. -/
theorem remove (holds : table.Holds (front ++ spot :: back)) :
    (table.remove spot.slot).1.map RecencyNode.value = some spot.value ∧
      (table.remove spot.slot).2.Holds (front ++ back) := by
  rcases holds.threads.unlink with ⟨threads, apart⟩
  have relinks := Relinks.unlink table spot.slot
  have there := (relinks.pair? (some spot.slot)).trans
    (holds.threads.linked.pair? (List.mem_append_right _ List.mem_cons_self))
  rcases Option.map_eq_some_iff.mp there with ⟨node, held, entry⟩
  rcases Prod.mk.inj entry with ⟨key, value⟩
  have stores := holds.stores.relinks relinks (.refl _)
  have inside := slot_lt held
  have used : spot.slot ∉ (table.unlink spot.slot).free := by
    intro freed
    rw [(stores.empty _ freed).1] at held
    cases held
  rw [remove_of_held held]
  refine ⟨congrArg some value, threads.congr rfl rfl fun slot among => ?_, ?_⟩
  · refine (node?_set _ _ _ none).trans (if_neg fun same => apart ?_)
    exact same.1 ▸ among
  · refine
      { index := key ▸ stores.index_without
        keys := stores.key_apart.2
        empty := List.forall_mem_cons.mpr ⟨?_, fun slot freed => ?_⟩
        free := List.nodup_cons.mpr ⟨used, stores.free⟩
        slots := ?_ }
    · rw [Array.size_setIfInBounds]
      exact ⟨(node?_set _ _ _ none).trans (if_pos ⟨rfl, inside⟩), inside⟩
    · rcases stores.empty slot freed with ⟨empty, short⟩
      rw [Array.size_setIfInBounds]
      refine ⟨(node?_set _ _ _ none).trans ((if_neg fun same => ?_).trans empty), short⟩
      exact used (same.1 ▸ freed)
    · rw [Array.size_setIfInBounds, stores.slots, List.length_append, List.length_append,
        List.length_cons, List.length_cons]
      omega

/-- The last entry is forgotten. -/
theorem forgetOldest (holds : table.Holds (front ++ [spot])) :
    table.forgetOldest.Holds front := by
  have tail := holds.threads.tail
  rw [last?_append] at tail
  rw [RecencyTable.forgetOldest, tail]
  have removed := holds.remove.2
  rwa [List.append_nil] at removed

/-- An entry that has been put into a slot goes to the front. -/
theorem pushFront
    {node : RecencyNode α}
    (threads : table.Threads spots) (places : table.Places other spot.slot node)
    (stores : other.Stores (spot :: spots)) (entry : (node.key, node.value) = spot.entry) :
    (other.pushFront spot.slot).Holds (spot :: spots) := by
  have apart : ¬ Among spot.slot spots := fun among => by
    rcases threads.linked.isSome among with ⟨node, there⟩
    cases places.fresh.symm.trans there
  have threads' := threads.congr places.head places.tail fun slot among =>
    places.others slot (by rintro rfl; exact apart among)
  refine ⟨threads'.pushFront apart ?_, stores.relinks (.pushFront _ spot.slot) (.refl _)⟩
  rw [RecencyTable.pair?, places.there]
  exact congrArg some entry

/-- A new entry goes to the front. -/
theorem place
    (holds : table.Holds spots) (spot : RecencySpot α)
    (slot : (table.place { key := spot.key, value := spot.value }).1 = spot.slot)
    (absent : ∀ other ∈ spots, other.key ≠ spot.key) :
    ({ (table.place { key := spot.key, value := spot.value }).2 with
      index := spot.indexed ::
        (table.place { key := spot.key, value := spot.value }).2.index }.pushFront
      spot.slot).Holds (spot :: spots) := by
  rcases holds.stores.place spot slot absent with ⟨places, stores⟩
  exact pushFront holds.threads places stores rfl

/-- There is room for a new entry, or room is made by forgetting the last one. -/
theorem insert
    (holds : table.Holds spots) {key : Bytes} (value : α) (absent : ∀ spot ∈ spots, spot.key ≠ key)
    (positive : 0 < table.capacity) (bounded : spots.length ≤ table.capacity) :
    ∃ slot, (table.insert key value).Holds
      (⟨slot, key, value⟩ :: if spots.length = table.capacity then spots.dropLast else spots) := by
  have roomy : (if table.isFull then table.forgetOldest else table).Holds
      (if spots.length = table.capacity then spots.dropLast else spots) := by
    rw [isFull, holds.size]
    by_cases full : spots.length = table.capacity
    · rw [if_pos (decide_eq_true (Nat.le_of_eq full.symm)), if_pos full]
      rcases List.eq_nil_or_concat spots with rfl | ⟨front, spot, rfl⟩
      · exact absurd full (Nat.ne_of_lt positive)
      · rw [List.concat_eq_append] at holds ⊢
        rw [List.dropLast_concat]
        exact holds.forgetOldest
    · rw [if_neg (by rw [decide_eq_true_iff]; omega), if_neg full]
      exact holds
  have absent' : ∀ spot ∈ (if spots.length = table.capacity then spots.dropLast else spots),
      spot.key ≠ key := by
    intro spot listed
    split at listed
    · exact absent spot ((List.dropLast_sublist _).subset listed)
    · exact absent spot listed
  rw [RecencyTable.insert]
  generalize (if table.isFull then table.forgetOldest else table) = roomyTable at roomy ⊢
  exact ⟨_, roomy.place ⟨(roomyTable.place { key, value }).1, key, value⟩ rfl absent'⟩

/-- A replaced value comes first under its old key. -/
theorem replace (holds : table.Holds (front ++ spot :: back)) (value : α) :
    (table.replace spot.slot value).Holds ({ spot with value } :: (front ++ back)) := by
  have threads := holds.threads.replaceValue value
  have stores := holds.stores.replaceValue value
  exact Holds.promote ⟨threads, stores⟩

theorem keys (holds : table.Holds spots) : table.keys = spots.map RecencySpot.key := by
  rw [RecencyTable.keys, holds.threads.head]
  exact holds.threads.linked.keysFrom (holds.stores.slots ▸ Nat.le_add_right _ _)

end Holds

/-! ## Tables beside lists -/

/-- Both hold these entries, and have room for one at least and not for fewer than there are. -/
structure Follows (table : RecencyTable α) (spots : List (RecencySpot α)) (list : RecencyList α) :
    Prop where
  holds : table.Holds spots
  entries : list.entries = spots.map RecencySpot.entry
  capacity : list.capacity = table.capacity
  positive : 0 < table.capacity
  bounded : spots.length ≤ table.capacity

namespace Follows

variable {list : RecencyList α}

theorem create {capacity : Nat} (positive : 0 < capacity) :
    Follows ({ capacity } : RecencyTable α) [] { capacity } :=
  ⟨.create capacity, rfl, rfl, positive, Nat.zero_le _⟩

theorem size (follows : table.Follows spots list) : list.size = spots.length := by
  rw [RecencyList.size, follows.entries, List.length_map]

theorem keys (follows : table.Follows spots list) : list.keys = spots.map RecencySpot.key := by
  rw [RecencyList.keys, follows.entries, List.map_map]
  rfl

/-- A key is either in neither, or has the same value in both. -/
theorem find (follows : table.Follows spots list) (key : Bytes) :
    (table.slot? key = none ∧ list.find? key = none ∧ ∀ spot ∈ spots, spot.key ≠ key) ∨
      ∃ front spot back, spots = front ++ spot :: back ∧ spot.key = key ∧
        table.slot? key = some spot.slot ∧ list.find? key = some spot.value := by
  rcases follows.holds.stores.find key with ⟨missing, absent⟩ | ⟨front, spot, back, rfl, rfl, found⟩
  · refine .inl ⟨missing, ?_, absent⟩
    rw [RecencyList.find?, follows.entries, List.lookup_eq_none_iff]
    intro entry listed
    rcases List.mem_map.mp listed with ⟨spot, among, rfl⟩
    exact bne_iff_ne.mpr (absent spot among).symm
  · refine .inr ⟨front, spot, back, rfl, rfl, found, ?_⟩
    rw [RecencyList.find?, follows.entries, List.map_append, List.map_cons,
      List.lookup_eq_some_iff]
    refine ⟨_, _, rfl, fun entry listed => ?_⟩
    rcases List.mem_map.mp listed with ⟨other, among, rfl⟩
    have apart := follows.holds.stores.key_apart.1 other (List.mem_append_left _ among)
    exact bne_iff_ne.mpr apart.symm

/-- The entry of a key has been taken out. -/
theorem without
    (follows : table.Follows (front ++ spot :: back) list)
    (holds : other.Holds (front ++ back)) (same : other.capacity = table.capacity) :
    other.Follows (front ++ back) (list.without spot.key) where
  holds := holds
  entries := by
    rw [RecencyList.without, follows.entries]
    exact RecencySpot.filter_map (fun _ => rfl) follows.holds.stores.key_apart.1
  capacity := follows.capacity.trans same.symm
  positive := same ▸ follows.positive
  bounded := by
    have bounded := follows.bounded
    rw [List.length_append, List.length_cons] at bounded
    rw [List.length_append]
    omega

/-- The entry of a key, with this value, has been put in front. -/
theorem push
    (follows : table.Follows (front ++ spot :: back) list) {value : α}
    (holds : other.Holds ({ spot with value } :: (front ++ back)))
    (same : other.capacity = table.capacity) :
    other.Follows ({ spot with value } :: (front ++ back))
      ((list.without spot.key).push spot.key value) where
  holds := holds
  entries := by
    rw [RecencyList.push, RecencyList.without, follows.entries]
    refine congrArg ((spot.key, value) :: ·) ?_
    exact RecencySpot.filter_map (fun _ => rfl) follows.holds.stores.key_apart.1
  capacity := follows.capacity.trans same.symm
  positive := same ▸ follows.positive
  bounded := by
    have bounded := follows.bounded
    rw [List.perm_middle.length_eq] at bounded
    exact same ▸ bounded

/-- A lookup answers and reorders as the list does. -/
theorem lookup (follows : table.Follows spots list) (key : Bytes) :
    (table.lookup key).1 = (list.lookup key).1 ∧
      ∃ spots', (table.lookup key).2.Follows spots' (list.lookup key).2 := by
  rcases follows.find key with
    ⟨missing, missing', _⟩ | ⟨front, spot, back, rfl, rfl, found, found'⟩
  · rw [RecencyTable.lookup, missing, RecencyList.lookup, missing']
    exact ⟨rfl, spots, follows⟩
  · rw [RecencyTable.lookup, found, RecencyList.lookup, found']
    have promoted := follows.holds.promote
    refine ⟨?_, _, follows.push promoted (Relinks.promote table _).capacity⟩
    exact congrArg (Option.map RecencyNode.value) promoted.threads.linked.1

/-- A new key has been put in front, the last one having been forgotten if there was no room. -/
theorem insert
    (follows : table.Follows spots list) {key : Bytes} (value : α)
    (absent : ∀ spot ∈ spots, spot.key ≠ key) :
    ∃ spots', (table.insert key value).Follows spots' (list.insert key value) := by
  rcases follows.holds.insert value absent follows.positive follows.bounded with ⟨slot, holds⟩
  have capacity := insert_capacity table key value
  have bounded := follows.bounded
  rw [RecencyList.insert, follows.size, follows.capacity]
  refine ⟨_, holds, ?_, ?_, capacity ▸ follows.positive, ?_⟩
  · split
    · rw [RecencyList.push, RecencyList.withoutLast, follows.entries, List.map_cons,
        List.map_dropLast]
      rfl
    · rw [RecencyList.push, follows.entries]
      rfl
  · split
    · exact follows.capacity.trans capacity.symm
    · exact follows.capacity.trans capacity.symm
  · rw [capacity, List.length_cons]
    have positive := follows.positive
    split
    · rw [List.length_dropLast]
      omega
    · omega

/-- An update has the outcome of the list and leaves what the list holds. -/
theorem update
    (follows : table.Follows spots list) (key : Bytes) (value : α) (mode : UpdateMode) :
    (table.update key value mode).1 = (list.update key value mode).1 ∧
      ∃ spots', (table.update key value mode).2.Follows spots' (list.update key value mode).2 := by
  rcases follows.find key with
    ⟨missing, missing', absent⟩ | ⟨front, spot, back, rfl, rfl, found, found'⟩
  · have inserted := follows.insert value absent
    rw [RecencyTable.update, missing, RecencyList.update, missing']
    cases mode with
    | createOrReplace => exact ⟨rfl, inserted⟩
    | createOnly => exact ⟨rfl, inserted⟩
    | replaceOnly => exact ⟨rfl, spots, follows⟩
  · have replaced := follows.push (follows.holds.replace value) (replace_capacity table _ value)
    rw [RecencyTable.update, found, RecencyList.update, found']
    cases mode with
    | createOrReplace => exact ⟨rfl, _, replaced⟩
    | createOnly => exact ⟨rfl, _, follows⟩
    | replaceOnly => exact ⟨rfl, _, replaced⟩

/-- A removal by key answers as the list does and leaves what the list holds. -/
theorem take (follows : table.Follows spots list) (key : Bytes) :
    (table.take key).1 = (list.take key).1 ∧
      ∃ spots', (table.take key).2.Follows spots' (list.take key).2 := by
  rcases follows.find key with
    ⟨missing, missing', _⟩ | ⟨front, spot, back, rfl, rfl, found, found'⟩
  · rw [RecencyTable.take, missing, RecencyList.take, missing']
    exact ⟨rfl, spots, follows⟩
  · rw [RecencyTable.take, found, RecencyList.take, found']
    have removed := follows.holds.remove
    exact ⟨removed.1, _, follows.without removed.2 (remove_capacity table _)⟩

/-- Both answer a call alike. -/
theorem handle (follows : table.Follows spots list) (call : RecencyCall α) :
    (table.handle call).1 = (list.handle call).1 ∧
      ∃ spots', (table.handle call).2.Follows spots' (list.handle call).2 := by
  cases call with
  | lookup key =>
      rcases follows.lookup key with ⟨same, follows'⟩
      exact ⟨congrArg RecencyAnswer.value same, follows'⟩
  | update key value mode =>
      rcases follows.update key value mode with ⟨same, follows'⟩
      exact ⟨congrArg RecencyAnswer.done same, follows'⟩
  | delete key =>
      rcases follows.take key with ⟨same, follows'⟩
      exact ⟨congrArg (fun value? : Option α => RecencyAnswer.done
        (if value?.isSome then .ok () else .error .keyMissing)) same, follows'⟩
  | take key =>
      rcases follows.take key with ⟨same, follows'⟩
      exact ⟨congrArg RecencyAnswer.value same, follows'⟩

end Follows

/-- No call changes how many entries the table may hold. -/
theorem handle_capacity (table : RecencyTable α) (call : RecencyCall α) :
    (table.handle call).2.capacity = table.capacity := by
  cases call with
  | lookup key => exact lookup_capacity table key
  | update key value mode => exact update_capacity table key value mode
  | delete key => exact take_capacity table key
  | take key => exact take_capacity table key

/-- The answers of an empty table to a series of calls, and what becomes of the table. -/
def serve (capacity : Nat) (calls : List (RecencyCall α)) :
    List (RecencyAnswer α) × RecencyTable α :=
  answerAll (fun call table => handle table call) calls { capacity }

end RecencyTable

/-- The answers of an empty list to a series of calls, and what becomes of the list. -/
def RecencyList.serve {α : Type} (capacity : Nat) (calls : List (RecencyCall α)) :
    List (RecencyAnswer α) × RecencyList α :=
  answerAll (fun call list => handle list call) calls { capacity }

/-- A table that forgets is a list of keys with their values in the order of use, as long as it has
room for one key at least.  Whatever is called, it gives the answers of the list, has as many keys,
and shows the same ones in the same order; the keys of the list are distinct, and never more than
there is room for. -/
theorem recencyTable_follows_list
    {α : Type} {capacity : Nat} (positive : 0 < capacity) (calls : List (RecencyCall α)) :
    let table := RecencyTable.serve capacity calls
    let list := RecencyList.serve capacity calls
    table.1 = list.1 ∧ table.2.keys = list.2.keys ∧ table.2.size = list.2.size ∧
      list.2.size ≤ capacity ∧ list.2.keys.Nodup := by
  have related : ∀ (call : RecencyCall α) (table : RecencyTable α) (list : RecencyList α),
      (table.capacity = capacity ∧ ∃ spots, table.Follows spots list) →
        (table.handle call).1 = (list.handle call).1 ∧
          (table.handle call).2.capacity = capacity ∧
            ∃ spots, (table.handle call).2.Follows spots (list.handle call).2 := by
    rintro call table list ⟨same, spots, follows⟩
    rcases follows.handle call with ⟨answer, follows'⟩
    exact ⟨answer, (RecencyTable.handle_capacity table call).trans same, follows'⟩
  have begins : (({ capacity } : RecencyTable α).capacity = capacity) ∧
      ∃ spots, ({ capacity } : RecencyTable α).Follows spots { capacity } :=
    ⟨rfl, [], .create positive⟩
  rcases answerAll_simulates related calls begins with ⟨answers, same, spots, follows⟩
  refine ⟨answers, ?_, ?_, ?_, ?_⟩
  · exact follows.holds.keys.trans follows.keys.symm
  · exact follows.holds.size.trans follows.size.symm
  · exact Nat.le_trans (Nat.le_of_eq follows.size) (same ▸ follows.bounded)
  · exact follows.keys ▸ follows.holds.stores.keys

theorem pair_follows_list :
    let calls : List (RecencyCall Nat) :=
      [.update #[1] 10 .createOrReplace, .update #[2] 20 .createOnly, .lookup #[1],
        .update #[3] 30 .createOnly, .lookup #[2], .update #[1] 40 .createOnly, .take #[3],
        .update #[4] 50 .createOnly, .delete #[3]]
    let table := RecencyTable.serve 2 calls
    table.1 = [.done (.ok ()), .done (.ok ()), .value (some 10), .done (.ok ()), .value none,
        .done (.error .keyExists), .value (some 30), .done (.ok ()), .done (.error .keyMissing)] ∧
      table.2.keys = [#[4], #[1]] ∧ table.2.size = 2 := by
  have follows := recencyTable_follows_list (show 0 < 2 by decide)
    ([.update #[1] 10 .createOrReplace, .update #[2] 20 .createOnly, .lookup #[1],
      .update #[3] 30 .createOnly, .lookup #[2], .update #[1] 40 .createOnly, .take #[3],
      .update #[4] 50 .createOnly, .delete #[3]] :
        List (RecencyCall Nat))
  exact ⟨follows.1.trans (by decide +kernel), follows.2.1.trans (by decide +kernel),
    follows.2.2.1.trans (by decide +kernel)⟩

end PacketFilter
