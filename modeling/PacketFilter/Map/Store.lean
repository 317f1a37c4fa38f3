import PacketFilter.Map.Basic
import PacketFilter.Program

/-!
# Stores of maps

All maps there are, and the names under which they can be found.  A map that
loses its name stays where it is, so that programs which resolved the name
earlier go on working on it.
-/

namespace PacketFilter

/-- Names a cell of a map in a store. -/
structure CellId where
  map : MapId
  number : Nat
  deriving DecidableEq, Repr

/-- All maps and their names. -/
structure Store where
  /-- For how many workers arrays per worker are made. -/
  workers : Nat := 1
  maps : Array Map := #[]
  /-- The names in use, in ascending order. -/
  names : List (String × MapId) := []
  deriving Repr

/-- An operation on a store. -/
abbrev StoreAction := ExceptT MapError (StateM Store)

namespace Store

/-- A store for at least one worker. -/
def forWorkers (workers : Nat) : Store :=
  { workers := max 1 workers }

/-- The map that was created under a name. -/
def find? (store : Store) (name : String) : Option MapId :=
  store.names.lookup name

/-- The map of a handle. -/
def map? (store : Store) (id : MapId) : Option Map :=
  store.maps[id]?

/-- The map of a name and its schema. -/
def binding? (store : Store) (name : String) : Option (MapId × Schema) := do
  let id ← store.find? name
  let map ← store.map? id
  return (id, map.schema)

/-- The maps that have names, in the order of their names. -/
def named (store : Store) : List (String × Map) :=
  store.names.filterMap fun entry => (store.map? entry.2).map (entry.1, ·)

/-- Insert a name into an ascending list of names. -/
def insertName (name : String) (id : MapId) : List (String × MapId) → List (String × MapId)
  | [] => [(name, id)]
  | entry :: rest =>
    if name < entry.1 then (name, id) :: entry :: rest else entry :: insertName name id rest

/-- Replace the map of a handle; a handle that was never given out changes nothing. -/
def setMap (store : Store) (id : MapId) (map : Map) : Store :=
  { store with maps := store.maps.setIfInBounds id map }

/-- A value of a map. -/
def cell? (store : Store) (id : CellId) : Option Cell :=
  (store.map? id.map).bind (·.cell? id.number)

/-- Replace a value of a map. -/
def setCell (store : Store) (id : CellId) (cell : Cell) : Store :=
  { store with maps := store.maps.modify id.map (·.setCell id.number cell) }

/-- The ring of a ring buffer. -/
def ring? (store : Store) (id : MapId) : Option Ring :=
  (store.map? id).bind Map.ring?

/-- Do something with the ring of a ring buffer. -/
def onRing {α : Type} (store : Store) (id : MapId) (change : Ring → α × Ring) :
    Option α × Store :=
  match store.map? id with
  | none => (none, store)
  | some map =>
    let (result, map) := map.onRing change
    (result, store.setMap id map)

/-- Change the ring of a ring buffer. -/
def modifyRing (store : Store) (id : MapId) (change : Ring → Ring) : Store :=
  (store.onRing id fun ring => ((), change ring)).2

/-- Create an empty map under a name of its own. -/
def create (name : String) (schema : Schema) : StoreAction MapId := do
  let store ← get
  if (store.find? name).isSome then
    throw (.duplicateName name)
  let map ← ExceptT.mk (pure (Map.create name schema store.workers))
  let id := store.maps.size
  set { store with maps := store.maps.push map, names := insertName name id store.names }
  return id

/-- Free a name; the map that had it. -/
def destroy (name : String) : StoreAction MapId := do
  let store ← get
  match store.find? name with
  | none => throw (.unknownName name)
  | some id =>
    set { store with names := store.names.filter (·.1 ≠ name) }
    return id

/-- Perform an operation on one map. -/
def onMap {α : Type} (id : MapId) (action : MapAction α) : StoreAction α := do
  let store ← get
  match store.map? id with
  | none => throw .keyMissing
  | some map =>
    let (result, map) := action.run map
    set (store.setMap id map)
    ExceptT.mk (pure result)

end Store

end PacketFilter
