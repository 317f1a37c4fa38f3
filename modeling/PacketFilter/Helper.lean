import PacketFilter.Map.Kind

/-!
# Helper functions

The functions a program can call, with the number and name of each and its
prototype: what it expects in the argument registers, what it returns, and
which kinds of map it accepts.
-/

namespace PacketFilter

/-- A function callable from programs. -/
inductive Helper where
  | mapLookup
  | mapUpdate
  | mapDelete
  | currentTime
  | redirect
  | digest
  | ringOutput
  | ringReserve
  | ringSubmit
  | ringDiscard
  | workerNumber
  deriving DecidableEq, Repr

namespace Helper

/-- The number a call names the helper by. -/
def number : Helper → Nat
  | mapLookup => 1
  | mapUpdate => 2
  | mapDelete => 3
  | currentTime => 4
  | redirect => 5
  | digest => 6
  | ringOutput => 7
  | ringReserve => 8
  | ringSubmit => 9
  | ringDiscard => 10
  | workerNumber => 11

/-- The helper in listings and logs. -/
def name : Helper → String
  | mapLookup => "map_lookup_elem"
  | mapUpdate => "map_update_elem"
  | mapDelete => "map_delete_elem"
  | currentTime => "ktime_get_ns"
  | redirect => "redirect"
  | digest => "hash_bytes"
  | ringOutput => "ringbuf_output"
  | ringReserve => "ringbuf_reserve"
  | ringSubmit => "ringbuf_submit"
  | ringDiscard => "ringbuf_discard"
  | workerNumber => "get_worker_id"

/-- Every helper, in the order of declaration. -/
def all : List Helper :=
  [mapLookup, mapUpdate, mapDelete, currentTime, redirect, digest, ringOutput, ringReserve,
    ringSubmit, ringDiscard, workerNumber]

/-- The helper that a call names by the given immediate. -/
def ofImmediate? (immediate : Int32) : Option Helper :=
  all.find? fun helper => (helper.number : Int) == immediate.toInt

end Helper

/-- What a helper expects in an argument register. -/
inductive ArgumentRule where
  | unused
  | mapHandle
  /-- Readable memory of the map's key size. -/
  | mapKey
  /-- Readable memory of the map's value size. -/
  | mapValue
  /-- Readable memory whose size the next argument gives. -/
  | memory
  /-- A constant size: of the memory argument before it, or of the record asked for. -/
  | constantSize
  | anyScalar
  /-- An update mode: a scalar that is at most 2 when it is known. -/
  | updateMode
  /-- The scalar zero. -/
  | zero
  /-- A reserved record that is known to be there. -/
  | record
  deriving DecidableEq, Repr

/-- The rule as a single word. -/
def ArgumentRule.label : ArgumentRule → String
  | unused => "DontCare"
  | mapHandle => "ConstMapPtr"
  | mapKey => "MapKey"
  | mapValue => "MapValue"
  | memory => "Mem"
  | constantSize => "ConstSize"
  | anyScalar => "Anything"
  | updateMode => "UpdateFlags"
  | zero => "Zero"
  | record => "RingbufRecord"

/-- What a helper leaves in the result register. -/
inductive ResultRule where
  | anyScalar
  | scalar32
  | redirectVerdict
  | mapValueOrNull
  /-- A reserved record or nothing; a record has to be released again. -/
  | recordOrNull
  | zero
  deriving DecidableEq, Repr

def ResultRule.label : ResultRule → String
  | anyScalar => "Integer"
  | scalar32 => "Integer32"
  | redirectVerdict => "RedirectVerdict"
  | mapValueOrNull => "MapValueOrNull"
  | recordOrNull => "RingbufOrNull"
  | zero => "Void"

/-- The prototype of a helper. -/
structure Prototype where
  arguments : List ArgumentRule
  result : ResultRule
  mapKinds : List MapKind
  deriving Repr

namespace Helper

/-- The maps that hold values under keys. -/
def keyedKinds : List MapKind := [.hash, .recencyHash, .array, .perWorkerArray]

/-- The maps whose keys can be deleted. -/
def deletableKinds : List MapKind := [.hash, .recencyHash]

/-- What each helper expects of its five arguments and what it returns. -/
def prototype : Helper → Prototype
  | mapLookup =>
    ⟨[.mapHandle, .mapKey, .unused, .unused, .unused], .mapValueOrNull, keyedKinds⟩
  | mapUpdate =>
    ⟨[.mapHandle, .mapKey, .mapValue, .updateMode, .unused], .anyScalar, keyedKinds⟩
  | mapDelete =>
    ⟨[.mapHandle, .mapKey, .unused, .unused, .unused], .anyScalar, deletableKinds⟩
  | currentTime =>
    ⟨[.unused, .unused, .unused, .unused, .unused], .anyScalar, []⟩
  | redirect =>
    ⟨[.anyScalar, .zero, .unused, .unused, .unused], .redirectVerdict, []⟩
  | digest =>
    ⟨[.memory, .constantSize, .unused, .unused, .unused], .scalar32, []⟩
  | ringOutput =>
    ⟨[.mapHandle, .memory, .constantSize, .anyScalar, .unused], .anyScalar, [.ringBuffer]⟩
  | ringReserve =>
    ⟨[.mapHandle, .constantSize, .anyScalar, .unused, .unused], .recordOrNull, [.ringBuffer]⟩
  | ringSubmit | ringDiscard =>
    ⟨[.record, .anyScalar, .unused, .unused, .unused], .zero, []⟩
  | workerNumber =>
    ⟨[.unused, .unused, .unused, .unused, .unused], .scalar32, []⟩

/-- The longest memory the digest helper reads. -/
def digestLimit : Nat := 64

end Helper

end PacketFilter
