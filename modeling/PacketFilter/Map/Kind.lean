/-!
# Kinds and schemas of maps

What kinds of map there are and what one declares about its keys, values and
capacity.  `Schema.problem?` names what is wrong with a declaration.
-/

namespace PacketFilter

/-- The kinds of map. -/
inductive MapKind where
  /-- A bounded table that refuses new keys when it is full. -/
  | hash
  /-- A bounded table that forgets the least recently used key when it is full. -/
  | recencyHash
  /-- A fixed number of values under four-byte numbers. -/
  | array
  /-- One array for every worker, added up when read as a whole. -/
  | perWorkerArray
  /-- A queue of records. -/
  | ringBuffer
  deriving DecidableEq, Repr

namespace MapKind

/-- The kind in programs and messages. -/
def name : MapKind → String
  | hash => "hash"
  | recencyHash => "lru_hash"
  | array => "array"
  | perWorkerArray => "per_worker_array"
  | ringBuffer => "ringbuf"

/-- Every kind, in the order of declaration. -/
def all : List MapKind :=
  [hash, recencyHash, array, perWorkerArray, ringBuffer]

/-- The kind of the name, if there is one. -/
def ofName? (name : String) : Option MapKind :=
  all.find? fun kind => kind.name == name

/-- Arrays keep all their indices, and rings have no keys. -/
def supportsDelete : MapKind → Bool
  | hash | recencyHash => true
  | _ => false

/-- A ring is read by its consumer only. -/
def supportsLookup : MapKind → Bool
  | ringBuffer => false
  | _ => true

end MapKind

/-- The declared shape of a map.  For a ring buffer the value size is that of its records and the
capacity their number. -/
structure Schema where
  kind : MapKind
  keySize : Nat
  valueSize : Nat
  capacity : Nat
  deriving DecidableEq, Repr

namespace Schema

/-- A map from keys to values that refuses new keys when it is full. -/
def hash (keySize valueSize capacity : Nat) : Schema :=
  ⟨.hash, keySize, valueSize, capacity⟩

/-- A map from keys to values that forgets the key used least recently when it is full. -/
def recencyHash (keySize valueSize capacity : Nat) : Schema :=
  ⟨.recencyHash, keySize, valueSize, capacity⟩

/-- A fixed number of values under the indices from zero on. -/
def array (valueSize capacity : Nat) : Schema :=
  ⟨.array, 4, valueSize, capacity⟩

/-- An array in which every worker has a value of its own under each index. -/
def perWorkerArray (valueSize capacity : Nat) : Schema :=
  ⟨.perWorkerArray, 4, valueSize, capacity⟩

/-- A queue of records up to a size. -/
def ringBuffer (recordSize slots : Nat) : Schema :=
  ⟨.ringBuffer, 0, recordSize, slots⟩

/-- The largest size of a key or a value. -/
def sizeLimit : Nat := 65536

end Schema

/-- What may be wrong with a declaration. -/
inductive SchemaProblem where
  | noCapacity
  | valueSize
  | indexSize
  | ringKey
  | keySize
  deriving DecidableEq, Repr

namespace SchemaProblem

/-- What is wrong with the schema, as one line. -/
def message : SchemaProblem → String
  | noCapacity => "max_entries must be non-zero"
  | valueSize => "value_size out of range"
  | indexSize => "key must be exactly four bytes"
  | ringKey => "ring buffers have no key"
  | keySize => "key_size out of range"

end SchemaProblem

namespace Schema

/-- What is wrong with the key size, if anything: arrays are indexed by four bytes, ring buffers
have no keys. -/
def keyProblem? (schema : Schema) : Option SchemaProblem :=
  match schema.kind with
  | .array | .perWorkerArray => if schema.keySize = 4 then none else some .indexSize
  | .ringBuffer => if schema.keySize = 0 then none else some .ringKey
  | .hash | .recencyHash =>
    if 1 ≤ schema.keySize ∧ schema.keySize ≤ sizeLimit then none else some .keySize

/-- What is wrong with a declaration, if anything; the capacity comes first and the key last. -/
def problem? (schema : Schema) : Option SchemaProblem :=
  if schema.capacity = 0 then
    some .noCapacity
  else if schema.valueSize = 0 ∨ sizeLimit < schema.valueSize then
    some .valueSize
  else
    schema.keyProblem?

end Schema

end PacketFilter
