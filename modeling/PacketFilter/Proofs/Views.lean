import PacketFilter.FloodGuard.Basic
import PacketFilter.LoadBalancer.Basic
import PacketFilter.Proofs.Contents
import PacketFilter.Proofs.Headers
import PacketFilter.Proofs.Refusals

/-!
# Typed views

An operation of a typed view is one of the map in other terms.  It is read off
from what the map does with the bytes, as long as the layout can read back the
value that has been laid out.
-/

namespace PacketFilter

/-! ## Layouts -/

namespace Layout

variable {α : Type}

/-- A value is laid out in as many bytes as the layout says, and read back from them. -/
structure Carries (layout : Layout α) (value : α) : Prop where
  sized : (layout.encode value).size = layout.size
  read : layout.decode? (layout.encode value) = some value

theorem Carries.inj
    {layout : Layout α} {value other : α}
    (first : layout.Carries value) (second : layout.Carries other)
    (same : layout.encode value = layout.encode other) : value = other :=
  Option.some.inj (first.read.symm.trans ((congrArg layout.decode? same).trans second.read))

theorem carries_double (value : Word) : (Layout.word 8).Carries value where
  sized := Cell.ofWord_size value
  read := by
    have sized := Cell.ofWord_size value
    have whole : Word.ofBytes (Cell.ofWord value).bytes.toList = value := by
      rw [Cell.ofWord_bytes, Memory.ofBytes_layOut]
    show (if (Cell.ofWord value).bytes.size = 8 then some (Word.ofBytes _) else none) = _
    rw [if_pos sized]
    exact congrArg some whole

theorem carries_word {value : Word} (short : value.toNat < 2 ^ 32) :
    (Layout.word 4).Carries value := by
  have sized : ((Layout.word 4).encode value).size = 4 := by
    show (value.toBytes 4).length = 4
    rw [← Memory.layOut_eq_toBytes (by decide), Memory.layOut_length]
  refine ⟨sized, ?_⟩
  show (if ((Layout.word 4).encode value).size = 4 then some (Word.ofBytes _) else none) = _
  rw [if_pos sized]
  refine congrArg some (BitVec.eq_of_toNat_eq ?_)
  have read := Map.indexOfKey_layOut value
  rw [Memory.layOut_eq_toBytes (by decide)] at read
  exact read.trans (Nat.mod_eq_of_lt short)

/-- A word that its layout carries is read from the bytes it is laid out in. -/
theorem ofBytes_word
    {size : Nat} {value : Word} (carries : (Layout.word size).Carries value) :
    Word.ofBytes (((Layout.word size).encode value).slice 0 size) = value := by
  have sized : ((Layout.word size).encode value).size = size := carries.sized
  have read : (if ((Layout.word size).encode value).size = size then
      some (Word.ofBytes ((Layout.word size).encode value).toList) else none) = some value :=
    carries.read
  have all := Bytes.slice_all ((Layout.word size).encode value)
  rw [sized] at all
  rw [if_pos sized, ← all] at read
  exact Option.some.inj read

end Layout

namespace Header

/-- A number is read back from its bytes. -/
theorem number_bytes (value : UInt16) : number (value >>> 8).toUInt8 value.toUInt8 = value := by
  have small := value.toNat_lt
  rw [← UInt16.toNat_inj, toNat_number, UInt16.toNat_toUInt8, UInt16.toNat_toUInt8,
    UInt16.toNat_shiftRight, Nat.shiftRight_eq_div_pow]
  show 2 ^ 8 * (_ / 2 ^ 8 % 2 ^ 8) + _ % 2 ^ 8 = _
  omega

end Header

theorem FloodGuard.countLayout_carries (value : Word) : FloodGuard.countLayout.Carries value :=
  Layout.carries_double value

theorem Flow.layout_carries (flow : Flow) : Flow.layout.Carries flow := by
  refine ⟨rfl, ?_⟩
  show some (Flow.mk flow.source flow.destination
    (Header.number (flow.sourcePort >>> 8).toUInt8 flow.sourcePort.toUInt8)
    (Header.number (flow.destinationPort >>> 8).toUInt8 flow.destinationPort.toUInt8)
    flow.protocol) = some flow
  rw [Header.number_bytes, Header.number_bytes]

theorem BackendEntry.layout_carries (entry : BackendEntry) : BackendEntry.layout.Carries entry := by
  refine ⟨rfl, ?_⟩
  show some (BackendEntry.mk entry.address
    (Header.number (entry.port >>> 8).toUInt8 entry.port.toUInt8) entry.flags) = some entry
  rw [Header.number_bytes]

/-! ## Values of maps -/

namespace RecencyList

variable {α : Type} (list : RecencyList α) (key : Bytes)

theorem lookup_fst : (list.lookup key).1 = list.find? key := by
  rw [lookup]
  split <;> simp [*]

theorem take_fst : (list.take key).1 = list.find? key := by
  rw [take]
  split <;> simp [*]

end RecencyList

namespace Map

variable {ν : Type} {map after : Map} {encode : ν → Bytes} {key : Bytes} {number? : Option Nat}
variable {bounded : BoundedMap ν} {table : Table Nat} {numbers : RecencyList Nat}
variable {list : RecencyList ν}

theorem run_lookup
    (plain : ∀ workers length, map.content ≠ .perWorkerArray workers length)
    (sized : key.size = map.schema.keySize)
    (run : (findCell key 0).run map = (.ok number?, after)) :
    (lookup key).run map = (.ok (number?.bind after.bytes?), after) := by
  have rest : (do
      let found? ← lookupCell key 0
      return (found?.bind (← get).cell?).map Cell.bytes : MapAction (Option Bytes)).run map =
        (.ok (number?.bind after.bytes?), after) := by
    rw [Stateful.run_bind, run_lookupCell sized, run]
    cases number? <;> rfl
  rw [lookup, Stateful.run_bind, Stateful.run_get]
  dsimp only
  split
  · rename_i held
    exact absurd held (plain _ _)
  · exact rest

theorem run_take
    (sized : key.size = map.schema.keySize) (run : (removeKey key).run map = (.ok number?, after)) :
    (take key).run map = (.ok (number?.bind after.bytes?), after) := by
  rw [take, Stateful.run_bind, run_takeCell sized, run]
  cases number? <;> rfl

theorem run_updateFromWorker
    (plain : ∀ workers length, map.content ≠ .perWorkerArray workers length) (value : Bytes)
    (mode : UpdateMode) (worker : Nat) :
    (updateFromWorker key value mode worker).run map = (update key value mode).run map := by
  rw [updateFromWorker, Stateful.run_bind, Stateful.run_get]
  dsimp only
  split
  · rename_i held
    exact absurd held (plain _ _)
  · rfl

theorem Shows.run_lookup
    (shows : map.Shows encode table bounded) (sized : key.size = map.schema.keySize) :
    (Map.lookup key).run map = (.ok ((bounded.entries.lookup key).map encode), map) := by
  have plain : ∀ workers length, map.content ≠ .perWorkerArray workers length := by
    simp [shows.content]
  rw [Map.run_lookup plain sized (shows.find key 0), ← shows.values, Option.map_bind]
  rfl

theorem Shows.run_take
    (shows : map.Shows encode table bounded) (sized : key.size = map.schema.keySize) :
    ∃ after table', (Map.take key).run map =
        (.ok ((bounded.entries.lookup key).map encode), after) ∧
      after.schema = map.schema ∧ after.Shows encode table' (bounded.erase key) := by
  have run : (removeKey key).run map =
      (.ok (table.take key).1, map.setContent (.hash (table.take key).2)) := by
    rw [removeKey, Stateful.run_bind, Stateful.run_get]
    dsimp only
    rw [shows.content]
    rfl
  rcases shows.take key with ⟨found, table', shows'⟩
  rw [run] at found shows'
  have answer : (table.take key).1.bind map.bytes? = (bounded.entries.lookup key).map encode := by
    rw [← show _ = (bounded.entries.lookup key).map encode from found, bytesFound, Except.toOption,
      Option.join_some, Option.map_bind]
    rfl
  refine ⟨map.setContent (.hash (table.take key).2), table', (Map.run_take sized run).trans ?_, rfl,
    shows'⟩
  rw [← answer]
  rfl

theorem Shows.run_update
    (shows : map.Shows encode table bounded) (sized : key.size = map.schema.keySize) {value : ν}
    (sized' : (encode value).size = map.schema.valueSize) (mode : UpdateMode) :
    ∃ after table', (Map.update key (encode value) mode).run map =
        ((bounded.update key value mode).1, after) ∧
      after.schema = map.schema ∧ after.Shows encode table' (bounded.update key value mode).2 := by
  rcases shows.update key value mode with ⟨answer, table', shows'⟩
  have schema : ((putValue key (encode value) mode).run map).2.schema = map.schema := by
    rw [putValue, Stateful.run_bind, Stateful.run_get]
    dsimp only
    rw [shows.content]
    dsimp only
    rw [keepUpdated]
    split <;> rfl
  exact ⟨_, table', (Map.run_update sized sized').trans (Prod.ext answer rfl), schema, shows'⟩

/-- What a table that forgets has found is the value in its cell. -/
theorem bind_of_map
    {value? : Option ν} {content : MapContent}
    (found : number?.map map.bytes? = value?.map fun value => some (encode value)) :
    number?.bind (map.setContent content).bytes? = value?.map encode := by
  have joined : number?.bind map.bytes? = (number?.map map.bytes?).join := by
    cases number? <;> rfl
  show number?.bind map.bytes? = _
  rw [joined, found]
  cases value? <;> rfl

theorem Recalls.run_lookup
    (recalls : map.Recalls encode numbers list) (sized : key.size = map.schema.keySize) :
    ∃ after numbers', (Map.lookup key).run map = (.ok ((list.find? key).map encode), after) ∧
      after.schema = map.schema ∧ after.Recalls encode numbers' (list.lookup key).2 := by
  have plain : ∀ workers length, map.content ≠ .perWorkerArray workers length := by
    rcases recalls.held with ⟨_, _, held, _⟩
    simp [held]
  rcases recalls.find key 0 with ⟨found, content, run, recalls'⟩
  rw [list.lookup_fst] at found
  refine ⟨map.setContent content, _, (Map.run_lookup plain sized run).trans ?_, rfl, recalls'⟩
  rw [bind_of_map found]

theorem Recalls.run_take
    (recalls : map.Recalls encode numbers list) (sized : key.size = map.schema.keySize) :
    ∃ after numbers', (Map.take key).run map = (.ok ((list.find? key).map encode), after) ∧
      after.schema = map.schema ∧ after.Recalls encode numbers' (list.take key).2 := by
  rcases recalls.take key with ⟨found, content, run, recalls'⟩
  rw [list.take_fst] at found
  refine ⟨map.setContent content, _, (Map.run_take sized run).trans ?_, rfl, recalls'⟩
  rw [bind_of_map found]

/-- What a lookup of an index finds. -/
theorem Arrays.run_lookupCell
    {length index : Nat} {values : Nat → ν} (arrays : map.Arrays encode length values)
    (sized : map.schema.keySize = 4)
    (short : index < 2 ^ 32) (worker : Nat) :
    (Map.lookupCell (keyOfIndex index) worker).run map =
      (.ok (if index < length then some index else none), map) := by
  rw [Map.run_lookupCell ((keyOfIndex_size index).trans sized.symm), arrays.find,
    indexOfKey_keyOfIndex short]

theorem Arrays.run_lookup
    {length : Nat} {values : Nat → ν}
    (arrays : map.Arrays encode length values) (sized : key.size = map.schema.keySize)
    (inside : indexOfKey key < length) :
    (Map.lookup key).run map = (.ok (some (encode (values (indexOfKey key)))), map) := by
  have plain : ∀ workers length, map.content ≠ .perWorkerArray workers length := by
    simp [arrays.content]
  have run := arrays.find key 0
  rw [if_pos inside] at run
  rw [Map.run_lookup plain sized run, Option.bind_some, arrays.values _ inside]

end Map

/-! ## Tables -/

namespace TypedTable

variable {κ ν : Type} {table : TypedTable κ ν} {key : κ} {store : Store} {map after : Map}
variable {found? : Option ν}

theorem run_decodeFound
    {layout : Layout ν} (carries : ∀ value, layout.Carries value) (store : Store) :
    (Store.decodeFound layout (found?.map layout.encode)).run store = (.ok found?, store) := by
  cases found? with
  | none => rfl
  | some value =>
      have read : Store.decode layout (layout.encode value) = pure value := by
        rw [Store.decode, (carries value).read]
      rw [Option.map_some, Store.decodeFound, Option.mapM_some, read]
      rfl

theorem run_get
    (there : store.map? table.map = some map) (carries : ∀ value, table.value.Carries value)
    (run : (Map.lookup (table.key.encode key)).run map =
      (.ok (found?.map table.value.encode), after)) :
    (table.get key).run store = (.ok found?, store.setMap table.map after) := by
  rw [get, Stateful.run_bind, Store.run_onMap _ there, run]
  exact run_decodeFound carries _

theorem run_remove
    (there : store.map? table.map = some map) (carries : ∀ value, table.value.Carries value)
    (run : (Map.take (table.key.encode key)).run map =
      (.ok (found?.map table.value.encode), after)) :
    (table.remove key).run store = (.ok found?, store.setMap table.map after) := by
  rw [remove, Stateful.run_bind, Store.run_onMap _ there, run]
  exact run_decodeFound carries _

end TypedTable

/-! ## Arrays -/

namespace TypedArray

variable {ν : Type} {array : TypedArray ν} {store : Store} {map : Map} {length index : Nat}
variable {values : Nat → ν}

theorem run_get
    (there : store.map? array.map = some map) (keySize : map.schema.keySize = 4)
    (arrays : map.Arrays array.value.encode length values) (inside : index < length)
    (short : index < 2 ^ 32) (carries : array.value.Carries (values index)) :
    (array.get index).run store = (.ok (some (values index)), store) := by
  have same : Map.indexOfKey (Map.keyOfIndex index) = index := Map.indexOfKey_keyOfIndex short
  have run := arrays.run_lookup ((Map.keyOfIndex_size index).trans keySize.symm)
    (same.symm ▸ inside)
  rw [get, Stateful.run_bind, Store.run_onMap _ there, run, same, Store.setMap_self there]
  dsimp only
  rw [Store.decodeFound, Option.mapM_some, Store.decode, carries.read]
  rfl

theorem run_set
    (there : store.map? array.map = some map) (keySize : map.schema.keySize = 4)
    (arrays : map.Arrays array.value.encode length values) (inside : index < length)
    (short : index < 2 ^ 32) {value : ν}
    (sized : (array.value.encode value).size = map.schema.valueSize) :
    (array.set index value).run store =
      (.ok (), store.setMap array.map (map.setCell index ⟨array.value.encode value⟩)) := by
  have same : Map.indexOfKey (Map.keyOfIndex index) = index := Map.indexOfKey_keyOfIndex short
  have run := arrays.update (Map.keyOfIndex index) value (same.symm ▸ inside)
  rw [set, Store.run_onMap _ there,
    Map.run_update ((Map.keyOfIndex_size index).trans keySize.symm) sized, run, same]

end TypedArray

theorem Store.run_inspect
    {α : Type} {store : Store} {id : MapId} {map : Map}
    (there : store.map? id = some map) (default : α) (view : Map → α) :
    (Store.inspect id default view).run store = (.ok (view map), store) := by
  rw [Store.inspect, Stateful.run_bind, Stateful.run_get]
  dsimp only
  rw [there]
  rfl

end PacketFilter
