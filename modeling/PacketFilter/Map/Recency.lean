import PacketFilter.Map.Error
import PacketFilter.Map.Table

/-!
# Tables that forget

A table that makes room for a new key by forgetting the one that has not been
used for longest.  Entries live in the slots of an array; an index leads from a
key to its slot, and each entry names the slots of its neighbours in the order
of use, so that an entry is moved to the front without going through the
others.  A slot that has become free is used again before the array grows.
-/

namespace PacketFilter

/-- An entry, between the one used next after it and the one used last before it. -/
structure RecencyNode (α : Type) where
  key : Bytes
  value : α
  previous? : Option Nat := none
  next? : Option Nat := none
  deriving DecidableEq, Repr

/-- A table of limited capacity in which the entries are kept in order of use. -/
structure RecencyTable (α : Type) where
  capacity : Nat
  /-- The slots of the keys. -/
  index : List (Bytes × Nat) := []
  nodes : Array (Option (RecencyNode α)) := #[]
  /-- The slots that have become free, the last one in front. -/
  free : List Nat := []
  /-- The slot of the entry used last. -/
  head? : Option Nat := none
  /-- The slot of the entry that has not been used for longest. -/
  tail? : Option Nat := none
  deriving DecidableEq, Repr

namespace RecencyTable

variable {α : Type}

/-- How many keys there are. -/
def size (table : RecencyTable α) : Nat :=
  table.index.length

/-- A new key takes the place of another. -/
def isFull (table : RecencyTable α) : Bool :=
  table.capacity ≤ table.size

/-- The slot in which a key has its entry. -/
def slot? (table : RecencyTable α) (key : Bytes) : Option Nat :=
  table.index.lookup key

/-- The entry in a slot, if there is such a slot and it is in use. -/
def node? (table : RecencyTable α) (slot? : Option Nat) : Option (RecencyNode α) :=
  (slot?.bind fun slot => table.nodes[slot]?).join

/-- Change the entry in a slot, if there is one. -/
def changeNode (table : RecencyTable α) (slot? : Option Nat)
    (change : RecencyNode α → RecencyNode α) : RecencyTable α :=
  match slot? with
  | none => table
  | some slot => { table with nodes := table.nodes.modify slot (Option.map change) }

/-! ## The order of use -/

/-- Let an entry, or else the head, name the entry that comes after it. -/
def linkNext (table : RecencyTable α) (slot? next? : Option Nat) : RecencyTable α :=
  match table.node? slot? with
  | some _ => table.changeNode slot? fun node => { node with next? }
  | none => { table with head? := next? }

/-- Let an entry, or else the tail, name the entry that comes before it. -/
def linkPrevious (table : RecencyTable α) (slot? previous? : Option Nat) : RecencyTable α :=
  match table.node? slot? with
  | some _ => table.changeNode slot? fun node => { node with previous? }
  | none => { table with tail? := previous? }

/-- Take an entry out of the order of use. -/
def unlink (table : RecencyTable α) (slot : Nat) : RecencyTable α :=
  match table.node? (some slot) with
  | none => table
  | some node => (table.linkNext node.previous? node.next?).linkPrevious node.next? node.previous?

/-- Put an entry that is not in the order of use in front of it. -/
def pushFront (table : RecencyTable α) (slot : Nat) : RecencyTable α :=
  let front := table.changeNode (some slot) fun node =>
    { node with previous? := none, next? := table.head? }
  { front.linkPrevious table.head? (some slot) with head? := some slot }

/-- Count an entry as used last. -/
def promote (table : RecencyTable α) (slot : Nat) : RecencyTable α :=
  if table.head? = some slot then table else (table.unlink slot).pushFront slot

/-! ## Entries -/

/-- Take the entry out of a slot. -/
def remove (table : RecencyTable α) (slot : Nat) : Option (RecencyNode α) × RecencyTable α :=
  let rest := table.unlink slot
  match rest.node? (some slot) with
  | none => (none, rest)
  | some node =>
    (some node,
      { rest with
        nodes := rest.nodes.setIfInBounds slot none
        index := rest.index.filter (·.1 ≠ node.key)
        free := slot :: rest.free })

/-- Put an entry into a free slot. -/
def place (table : RecencyTable α) (node : RecencyNode α) : Nat × RecencyTable α :=
  match table.free with
  | slot :: free => (slot, { table with free, nodes := table.nodes.setIfInBounds slot (some node) })
  | [] => (table.nodes.size, { table with nodes := table.nodes.push (some node) })

/-- Forget the entry that has not been used for longest. -/
def forgetOldest (table : RecencyTable α) : RecencyTable α :=
  match table.tail? with
  | none => table
  | some slot => (table.remove slot).2

/-- Give a key that is in the table another value. -/
def replace (table : RecencyTable α) (slot : Nat) (value : α) : RecencyTable α :=
  (table.changeNode (some slot) fun node => { node with value }).promote slot

/-- Give a value to a key that is not in the table. -/
def insert (table : RecencyTable α) (key : Bytes) (value : α) : RecencyTable α :=
  let roomy := if table.isFull then table.forgetOldest else table
  let (slot, table) := roomy.place { key, value }
  { table with index := (key, slot) :: table.index }.pushFront slot

/-! ## Operations -/

/-- The value of a key, which counts as used. -/
def lookup (table : RecencyTable α) (key : Bytes) : Option α × RecencyTable α :=
  match table.slot? key with
  | none => (none, table)
  | some slot =>
    let table := table.promote slot
    ((table.node? (some slot)).map RecencyNode.value, table)

/-- Give a key a value. -/
def update (table : RecencyTable α) (key : Bytes) (value : α) (mode : UpdateMode) :
    Except MapError Unit × RecencyTable α :=
  match table.slot? key with
  | some slot =>
    if mode = .createOnly then (.error .keyExists, table)
    else (.ok (), table.replace slot value)
  | none =>
    if mode = .replaceOnly then (.error .keyMissing, table)
    else (.ok (), table.insert key value)

/-- Remove a key; the value it had. -/
def take (table : RecencyTable α) (key : Bytes) : Option α × RecencyTable α :=
  match table.slot? key with
  | none => (none, table)
  | some slot =>
    let (node?, table) := table.remove slot
    (node?.map RecencyNode.value, table)

/-- The keys from a slot on, going through at most so many entries. -/
def keysFrom (table : RecencyTable α) : Nat → Option Nat → List Bytes
  | 0, _ => []
  | steps + 1, slot? =>
    match table.node? slot? with
    | none => []
    | some node => node.key :: table.keysFrom steps node.next?

/-- All keys, the one used last in front.  No entry is met twice, so there are no more of them
than slots. -/
def keys (table : RecencyTable α) : List Bytes :=
  table.keysFrom table.nodes.size table.head?

end RecencyTable

end PacketFilter
