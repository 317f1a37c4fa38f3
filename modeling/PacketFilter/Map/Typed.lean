import PacketFilter.Map.Layout
import PacketFilter.Map.Store

/-!
# Typed views of maps

A view treats a map of a store as a table or an array of values of a type.
The shape of the map is compared with the layouts once, when the view is made;
after that the operations are those of maps on the bytes of keys and values.
-/

namespace PacketFilter

/-- A table from keys to values. -/
structure TypedTable (κ ν : Type) where
  map : MapId
  key : Layout κ
  value : Layout ν

/-- An array of values. -/
structure TypedArray (ν : Type) where
  map : MapId
  value : Layout ν

/-- An array of values for every worker. -/
structure WorkerArray (ν : Type) where
  map : MapId
  value : Layout ν

/-- A queue of records. -/
structure RecordQueue where
  map : MapId

namespace Store

/-- The map has the expected shape. -/
def expectShape (id : MapId) (kind : MapKind) (keySize valueSize : Nat) : StoreAction Unit :=
  onMap id do
    let map ← get
    unless map.schema.shape = (kind, keySize, valueSize) do
      throw (.otherShape map.name map.schema.shape (kind, keySize, valueSize))

/-- Read back a value from a map. -/
def decode {ν : Type} (layout : Layout ν) (bytes : Bytes) : StoreAction ν :=
  match layout.decode? bytes with
  | some value => return value
  | none => throw (.valueSize layout.size bytes.size)

/-- Read back a value from a map, if there is one. -/
def decodeFound {ν : Type} (layout : Layout ν) (found? : Option Bytes) :
    StoreAction (Option ν) :=
  found?.mapM (decode layout)

/-- Look at a map. -/
def inspect {α : Type} (id : MapId) (default : α) (view : Map → α) : StoreAction α := do
  return ((← get).map? id).elim default view

/-- Do something with the ring of a map. -/
def withRing {α : Type} (id : MapId) (default : α) (change : Ring → α × Ring) :
    StoreAction α := do
  let (result?, store) := (← get).onRing id change
  set store
  return result?.getD default

end Store

namespace TypedTable

variable {κ ν : Type}

/-- View a map of the given kind as a table. -/
def ofMap (kind : MapKind) (map : MapId) (key : Layout κ) (value : Layout ν) :
    StoreAction (TypedTable κ ν) := do
  Store.expectShape map kind key.size value.size
  return ⟨map, key, value⟩

/-- What is kept under a key; a recency table takes note that it was used. -/
def get (table : TypedTable κ ν) (key : κ) : StoreAction (Option ν) := do
  let found? ← Store.onMap table.map (Map.lookup (table.key.encode key))
  Store.decodeFound table.value found?

/-- Put a value under a key, as far as the mode lets. -/
def insert (table : TypedTable κ ν) (key : κ) (value : ν) (mode : UpdateMode) :
    StoreAction Unit :=
  Store.onMap table.map (Map.update (table.key.encode key) (table.value.encode value) mode)

/-- Remove a key; the value it had. -/
def remove (table : TypedTable κ ν) (key : κ) : StoreAction (Option ν) := do
  let found? ← Store.onMap table.map (Map.take (table.key.encode key))
  Store.decodeFound table.value found?

/-- The keys that the layout can read. -/
def keys (table : TypedTable κ ν) : StoreAction (List κ) :=
  Store.inspect table.map [] fun map => map.keys.filterMap table.key.decode?

/-- How many keys there are. -/
def size (table : TypedTable κ ν) : StoreAction Nat :=
  Store.inspect table.map 0 Map.size

end TypedTable

namespace TypedArray

variable {ν : Type}

/-- View an array map as an array. -/
def ofMap (map : MapId) (value : Layout ν) : StoreAction (TypedArray ν) := do
  Store.expectShape map .array 4 value.size
  return ⟨map, value⟩

/-- What is kept under an index. -/
def get (array : TypedArray ν) (index : Nat) : StoreAction (Option ν) := do
  let found? ← Store.onMap array.map (Map.lookup (Map.keyOfIndex index))
  Store.decodeFound array.value found?

/-- Replace what is kept under an index. -/
def set (array : TypedArray ν) (index : Nat) (value : ν) : StoreAction Unit :=
  Store.onMap array.map
    (Map.update (Map.keyOfIndex index) (array.value.encode value) .createOrReplace)

/-- How many indices there are. -/
def size (array : TypedArray ν) : StoreAction Nat :=
  Store.inspect array.map 0 Map.size

end TypedArray

namespace WorkerArray

variable {ν : Type}

/-- View an array per worker. -/
def ofMap (map : MapId) (value : Layout ν) : StoreAction (WorkerArray ν) := do
  Store.expectShape map .perWorkerArray 4 value.size
  return ⟨map, value⟩

/-- What a worker has at an index. -/
def get (array : WorkerArray ν) (worker index : Nat) : StoreAction (Option ν) :=
  Store.inspect array.map none fun map =>
    (map.workerValue? worker index).bind fun cell => array.value.decode? cell.bytes

/-- What the workers have at an index. -/
def values (array : WorkerArray ν) (index : Nat) : StoreAction (List ν) :=
  Store.inspect array.map [] fun map =>
    (map.workerValues index).filterMap fun cell => array.value.decode? cell.bytes

/-- Give every worker a value. -/
def setAll (array : WorkerArray ν) (index : Nat) (value : ν) : StoreAction Unit :=
  Store.onMap array.map
    (Map.update (Map.keyOfIndex index) (array.value.encode value) .createOrReplace)

/-- How many workers have a value of their own under each index. -/
def workers (array : WorkerArray ν) : StoreAction Nat :=
  Store.inspect array.map 0 fun map => map.workers?.getD 0

/-- The sum over the workers at an index. -/
def sum (array : WorkerArray Word) (index : Nat) : StoreAction Word :=
  Store.inspect array.map 0 fun map => map.workerSum index 0

end WorkerArray

namespace RecordQueue

/-- View a ring buffer as a queue. -/
def ofMap (map : MapId) : StoreAction RecordQueue := do
  Store.onMap map do
    let found ← get
    unless found.ring?.isSome do throw (.notRing found.name found.kind)
  return ⟨map⟩

/-- Queue a copy of the data. -/
def output (queue : RecordQueue) (data : Bytes) : StoreAction Unit := do
  let reservation? ← Store.withRing queue.map none fun ring => ring.output? data
  if reservation?.isNone then
    throw .ringFull

/-- Take the next record. -/
def poll (queue : RecordQueue) : StoreAction (Option Bytes) :=
  Store.withRing queue.map none Ring.poll

/-- Take all records that are there. -/
def drain (queue : RecordQueue) : StoreAction (List Bytes) :=
  Store.withRing queue.map [] Ring.drain

/-- Claim a record. -/
def reserve (queue : RecordQueue) (length : Nat) : StoreAction (Option Reservation) :=
  Store.withRing queue.map none fun ring => ring.reserve length

/-- Publish a claimed record. -/
def submit (queue : RecordQueue) (reservation : Reservation) : StoreAction Unit :=
  Store.withRing queue.map () fun ring => ((), ring.submit reservation.position)

/-- How many claims found no room. -/
def refused (queue : RecordQueue) : StoreAction Nat :=
  Store.inspect queue.map 0 fun map => map.ring?.elim 0 Ring.refused

end RecordQueue

end PacketFilter
