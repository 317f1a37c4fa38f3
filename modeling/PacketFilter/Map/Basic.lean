import PacketFilter.Map.Cell
import PacketFilter.Map.Recency
import PacketFilter.Map.Ring

/-!
# Maps

A map has a name, a schema and contents by its kind.  Values live in cells,
which are numbered within their map.  Whoever looks up a value is given the
number of its cell and keeps it: giving a key of a table a new value installs a
fresh cell, so an old number goes on leading to the old value.

Operations are `MapAction`s.  They check the sizes of keys and values against
the schema, and may fail after having changed the map.
-/

namespace PacketFilter

/-- How a map keeps its entries. -/
inductive MapContent where
  | hash (table : Table Nat)
  | recencyHash (table : RecencyTable Nat)
  /-- The cell of an index has its number. -/
  | array (length : Nat)
  /-- The cells of the workers follow each other, each worker having an array of its own. -/
  | perWorkerArray (workers length : Nat)
  | ringBuffer (ring : Ring)
  deriving Repr

/-- A map. -/
structure Map where
  name : String
  schema : Schema
  cells : Array Cell
  content : MapContent
  deriving Repr

/-- An operation on a map. -/
abbrev MapAction := ExceptT MapError (StateM Map)

namespace Map

/-- The index that an array key stands for. -/
def indexOfKey (key : Bytes) : Nat :=
  (Word.ofBytes key.toList).toNat

/-- The array key of an index. -/
def keyOfIndex (index : Nat) : Bytes :=
  (Word.toBytes (BitVec.ofNat 64 index) 4).toArray

/-- An empty map of a schema that has been checked. -/
def ofSchema (name : String) (schema : Schema) (workers : Nat) : Map :=
  let zeroed := Cell.zeroed schema.valueSize
  let length := schema.capacity
  match schema.kind with
  | .hash => ⟨name, schema, #[], .hash { capacity := length }⟩
  | .recencyHash => ⟨name, schema, #[], .recencyHash { capacity := length }⟩
  | .array => ⟨name, schema, Array.replicate length zeroed, .array length⟩
  | .perWorkerArray =>
    ⟨name, schema, Array.replicate (workers * length) zeroed, .perWorkerArray workers length⟩
  | .ringBuffer => ⟨name, schema, #[], .ringBuffer (.create schema.valueSize length)⟩

/-- An empty map; arrays per worker are made for that many workers. -/
def create (name : String) (schema : Schema) (workers : Nat) : Except MapError Map :=
  match schema.problem? with
  | some problem => .error (.invalidSchema schema.kind problem)
  | none => .ok (ofSchema name schema (max 1 workers))

/-! ## Views -/

/-- The kind of the map, which its schema fixes. -/
def kind (map : Map) : MapKind :=
  map.schema.kind

/-- The value of a number. -/
def cell? (map : Map) (number : Nat) : Option Cell :=
  map.cells[number]?

/-- The ring of a ring buffer; no other map has one. -/
def ring? (map : Map) : Option Ring :=
  match map.content with
  | .ringBuffer ring => some ring
  | _ => none

/-- The number of workers that have an array each. -/
def workers? (map : Map) : Option Nat :=
  match map.content with
  | .perWorkerArray workers _ => some workers
  | _ => none

/-- The keys of an array of that length. -/
def indexKeys (length : Nat) : List Bytes :=
  (List.range length).map keyOfIndex

/-- All keys; those of a table that forgets have the one used last in front. -/
def keys (map : Map) : List Bytes :=
  match map.content with
  | .hash table => table.keys
  | .recencyHash table => table.keys
  | .array length | .perWorkerArray _ length => indexKeys length
  | .ringBuffer _ => []

/-- The number of keys; for a ring buffer that of the records claimed and not yet read. -/
def size (map : Map) : Nat :=
  match map.content with
  | .hash table => table.size
  | .recencyHash table => table.size
  | .array length | .perWorkerArray _ length => length
  | .ringBuffer ring => ring.pending

/-- The number of a worker's cell at an index of an array per worker. -/
def workerCell? (map : Map) (worker index : Nat) : Option Nat :=
  match map.content with
  | .perWorkerArray workers length =>
    if worker < workers ∧ index < length then some (worker * length + index) else none
  | _ => none

/-- What a worker has at an index. -/
def workerValue? (map : Map) (worker index : Nat) : Option Cell :=
  (map.workerCell? worker index).bind map.cell?

/-- What the workers have at an index, in their order. -/
def workerValues (map : Map) (index : Nat) : List Cell :=
  (List.range (map.workers?.getD 0)).filterMap fun worker => map.workerValue? worker index

/-- The sum over all workers of the eight bytes at an offset of an index. -/
def workerSum (map : Map) (index offset : Nat) : Word :=
  ((map.workerValues index).filterMap (·.load? offset 8)).foldl (· + ·) 0

/-- The eight-byte lanes of an index added up over the workers.  What is left of the value after
the last whole lane is that of the first worker. -/
def merged? (map : Map) (index : Nat) : Option Bytes :=
  (map.workerValue? 0 index).map fun first =>
    let lanes := (List.range (map.schema.valueSize / 8)).map (· * 8)
    (lanes.foldl
      (fun bytes offset => Bytes.overwrite bytes offset ((map.workerSum index offset).toBytes 8))
      first.bytes)

/-! ## Changes -/

/-- Replace the value of a number; the keys are left as they are. -/
def setCell (map : Map) (number : Nat) (cell : Cell) : Map :=
  { map with cells := map.cells.setIfInBounds number cell }

/-- Replace what the map keeps beside its values. -/
def setContent (map : Map) (content : MapContent) : Map :=
  { map with content }

/-- Add a fresh cell. -/
def addCell (map : Map) (value : Bytes) : Map :=
  { map with cells := map.cells.push ⟨value⟩ }

/-- Do something with the ring of a ring buffer. -/
def onRing {α : Type} (map : Map) (change : Ring → α × Ring) : Option α × Map :=
  match map.content with
  | .ringBuffer ring =>
    let (result, ring) := change ring
    (some result, map.setContent (.ringBuffer ring))
  | _ => (none, map)

/-! ## Operations -/

/-- Keys have the size that the schema gives. -/
def checkKey (key : Bytes) : MapAction Unit := do
  let expected := (← get).schema.keySize
  unless key.size = expected do throw (.keySize expected key.size)

/-- Values have the size that the schema gives. -/
def checkValue (value : Bytes) : MapAction Unit := do
  let expected := (← get).schema.valueSize
  unless value.size = expected do throw (.valueSize expected value.size)

/-- The operation makes no sense for maps of this kind. -/
def refuse {α : Type} (operation : String) : MapAction α := do
  throw (.unsupported (← get).kind operation)

/-- Keep what has become of a table, which has led to a cell or to none. -/
def keepFound {τ : Type} (content : τ → MapContent) (outcome : Option Nat × τ) :
    MapAction (Option Nat) := do
  modify fun map => map.setContent (content outcome.2)
  return outcome.1

/-- The cell that a key leads a worker to, whatever the size of the key. -/
def findCell (key : Bytes) (worker : Nat) : MapAction (Option Nat) := do
  let map ← get
  match map.content with
  | .hash table => return table.find? key
  | .recencyHash table => keepFound .recencyHash (table.lookup key)
  | .array length => return some (indexOfKey key) |>.filter (· < length)
  | .perWorkerArray .. => return map.workerCell? worker (indexOfKey key)
  | .ringBuffer _ => refuse "lookup"

/-- The cell in which a program run by a worker finds the value of a key. -/
def lookupCell (key : Bytes) (worker : Nat) : MapAction (Option Nat) := do
  checkKey key
  findCell key worker

/-- The value of a key; for an array per worker the sum over the workers. -/
def lookup (key : Bytes) : MapAction (Option Bytes) := do
  match (← get).content with
  | .perWorkerArray .. =>
    checkKey key
    return (← get).merged? (indexOfKey key)
  | _ =>
    let found? ← lookupCell key 0
    return (found?.bind (← get).cell?).map Cell.bytes

/-- Overwrite the cell of an index in an array whose cells begin at `first`. -/
def updateIndex (first length index : Nat) (value : Bytes) (mode : UpdateMode) :
    MapAction Unit := do
  if mode = .createOnly ∧ index < length then
    throw .keyExists
  unless index < length do throw (.indexOutOfRange index length)
  modify fun map => map.setCell (first + index) ⟨value⟩

/-- Keep what has become of a table that has been given a fresh cell, and put the value there;
nothing happens if the table has refused the key. -/
def keepUpdated {τ : Type} (content : τ → MapContent) (value : Bytes)
    (outcome : Except MapError Unit × τ) : MapAction Unit := do
  match outcome.1 with
  | .error error => throw error
  | .ok _ => modify fun map => (map.addCell value).setContent (content outcome.2)

/-- Let a key have a value, whatever the sizes of both. -/
def putValue (key value : Bytes) (mode : UpdateMode) : MapAction Unit := do
  let map ← get
  match map.content with
  | .hash table => keepUpdated .hash value (table.update key map.cells.size mode)
  | .recencyHash table => keepUpdated .recencyHash value (table.update key map.cells.size mode)
  | .array length => updateIndex 0 length (indexOfKey key) value mode
  | .perWorkerArray workers length =>
    (List.range workers).forM fun worker =>
      updateIndex (worker * length) length (indexOfKey key) value mode
  | .ringBuffer _ => refuse "update"

/-- Give a key a value; for an array per worker the one of every worker. -/
def update (key value : Bytes) (mode : UpdateMode) : MapAction Unit := do
  checkKey key
  checkValue value
  putValue key value mode

/-- Give a key a value on behalf of a worker, whose own value is the only one that changes in an
array per worker. -/
def updateFromWorker (key value : Bytes) (mode : UpdateMode) (worker : Nat) :
    MapAction Unit := do
  match (← get).content with
  | .perWorkerArray workers length =>
    checkKey key
    checkValue value
    unless worker < workers do throw (.indexOutOfRange worker workers)
    updateIndex (worker * length) length (indexOfKey key) value mode
  | _ => update key value mode

/-- Remove a key, whatever its size; the cell it led to. -/
def removeKey (key : Bytes) : MapAction (Option Nat) := do
  match (← get).content with
  | .hash table => keepFound .hash (table.take key)
  | .recencyHash table => keepFound .recencyHash (table.take key)
  | _ => refuse "delete"

/-- Remove a key; the cell it led to. -/
def takeCell (key : Bytes) : MapAction (Option Nat) := do
  checkKey key
  removeKey key

/-- Remove a key; the value it had. -/
def take (key : Bytes) : MapAction (Option Bytes) := do
  let found? ← takeCell key
  return (found?.bind (← get).cell?).map Cell.bytes

/-- Remove a key, which has to be there. -/
def delete (key : Bytes) : MapAction Unit := do
  if (← takeCell key).isNone then
    throw .keyMissing

end Map

end PacketFilter
