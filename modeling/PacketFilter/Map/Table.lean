import PacketFilter.Digest
import PacketFilter.Map.Error
import PacketFilter.Word

/-!
# Tables

A table of limited capacity that refuses new keys when it is full.  Entries are
spread over a fixed number of shards by the digest of their keys; how many
there are in all is counted beside the shards, so that the capacity is exact
whatever shards the keys belong to.
-/

namespace PacketFilter

/-- How an update treats a key that is there and one that is not. -/
inductive UpdateMode where
  | createOrReplace
  | createOnly
  | replaceOnly
  deriving DecidableEq, Repr

namespace UpdateMode

/-- The mode that a number stands for. -/
def ofCode? (code : Word) : Option UpdateMode :=
  if code = 0 then some createOrReplace
  else if code = 1 then some createOnly
  else if code = 2 then some replaceOnly
  else none

end UpdateMode

namespace Table

/-- How many shards there are. -/
def shardCount : Nat := 16

/-- The shard that a key belongs to. -/
def shardOf (key : Bytes) : Fin shardCount :=
  ⟨(Digest.ofBytes key.toList).toNat % shardCount, Nat.mod_lt _ (by decide)⟩

end Table

/-- Values under distinct keys, with their number. -/
structure Table (α : Type) where
  capacity : Nat
  shards : Vector (List (Bytes × α)) Table.shardCount := Vector.replicate Table.shardCount []
  count : Nat := 0
  deriving DecidableEq, Repr

namespace Table

variable {α : Type}

/-- The entries of the shard that a key belongs to. -/
def shard (table : Table α) (key : Bytes) : List (Bytes × α) :=
  table.shards.get (shardOf key)

/-- Replace the shard that a key belongs to. -/
def setShard (table : Table α) (key : Bytes) (entries : List (Bytes × α)) : Table α :=
  { table with shards := table.shards.set (shardOf key).val entries }

/-- All entries, one shard after the other. -/
def entries (table : Table α) : List (Bytes × α) :=
  table.shards.toList.flatten

/-- How many keys there are, in all shards. -/
def size (table : Table α) : Nat :=
  table.count

/-- The keys, shard by shard. -/
def keys (table : Table α) : List Bytes :=
  table.entries.map Prod.fst

/-- A new key is refused. -/
def isFull (table : Table α) : Bool :=
  table.capacity ≤ table.count

/-- The value under a key. -/
def find? (table : Table α) (key : Bytes) : Option α :=
  (table.shard key).lookup key

/-- Give a key that is in the table another value. -/
def replace (table : Table α) (key : Bytes) (value : α) : Table α :=
  table.setShard key ((table.shard key).map fun entry =>
    if entry.1 = key then (key, value) else entry)

/-- Give a value to a key that is not in the table. -/
def insert (table : Table α) (key : Bytes) (value : α) : Table α :=
  { table.setShard key ((key, value) :: table.shard key) with count := table.count + 1 }

/-- Remove a key that is in the table. -/
def erase (table : Table α) (key : Bytes) : Table α :=
  { table.setShard key ((table.shard key).filter (·.1 ≠ key)) with count := table.count - 1 }

/-- Give a key a value. -/
def update (table : Table α) (key : Bytes) (value : α) (mode : UpdateMode) :
    Except MapError Unit × Table α :=
  match table.find? key with
  | some _ =>
    if mode = .createOnly then (.error .keyExists, table)
    else (.ok (), table.replace key value)
  | none =>
    if mode = .replaceOnly then (.error .keyMissing, table)
    else if table.isFull then (.error .full, table)
    else (.ok (), table.insert key value)

/-- Remove a key; the value it had. -/
def take (table : Table α) (key : Bytes) : Option α × Table α :=
  match table.find? key with
  | none => (none, table)
  | some value => (some value, table.erase key)

end Table

end PacketFilter
