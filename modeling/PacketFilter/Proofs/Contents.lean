import Mathlib.Algebra.BigOperators.Ring.Finset
import PacketFilter.Map.Layout
import PacketFilter.Proofs.FiniteMap

/-!
# Contents of maps

What the maps of an application hold, in the terms of the application.  A map
that forgets holds a list of keys with values in the order of use, an array a
list of values, and an array per worker a sum at every index.

Programs change values in their cells, behind the back of the table that leads
to them.  This is safe because every key has a cell of its own.
-/

namespace PacketFilter

/-! ## Cells that hold a word -/

theorem Bytes.slice_all (bytes : Bytes) : bytes.slice 0 bytes.size = bytes.toList := by
  rw [slice, Nat.zero_add, Array.extract_size]

namespace Cell

/-- A cell that holds a word. -/
def ofWord (word : Word) : Cell :=
  ⟨(Layout.word 8).encode word⟩

theorem ofWord_bytes (word : Word) : (ofWord word).bytes.toList = Memory.layOut word 8 :=
  (Memory.layOut_eq_toBytes (by decide) word).symm

theorem ofWord_size (word : Word) : (ofWord word).bytes.size = 8 := by
  rw [← Array.length_toList, ofWord_bytes, Memory.layOut_length]

theorem integerAt_ofWord (word : Word) : (ofWord word).integerAt 0 8 = word := by
  have whole := Bytes.slice_all (ofWord word).bytes
  rw [ofWord_size, ofWord_bytes] at whole
  exact (congrArg Word.ofBytes whole).trans (Memory.ofBytes_layOut word)

theorem withInteger_ofWord (old word : Word) : (ofWord old).withInteger 0 8 word = ofWord word := by
  have length : (word.toBytes 8).length = (ofWord old).bytes.size := by
    rw [ofWord_size, ← Memory.layOut_eq_toBytes (by decide), Memory.layOut_length]
  have written := Bytes.slice_overwrite (Nat.le_of_eq ((Nat.zero_add _).trans length))
  rw [length, ← Bytes.overwrite_size (ofWord old).bytes 0 (word.toBytes 8), Bytes.slice_all]
    at written
  exact congrArg Cell.mk (Array.toList_inj.mp written)

/-- A word in a cell is replaced. -/
theorem update?_ofWord (old : Word) (change : Word → Word) :
    (ofWord old).update? 0 8 change = some (old, ofWord (change old)) := by
  have covered : (ofWord old).covers 0 8 = true := by
    rw [covers, Bytes.covers_iff, ofWord_size]
  rw [update?, covered]
  show some ((ofWord old).integerAt 0 8, (ofWord old).withInteger 0 8 _) = _
  rw [integerAt_ofWord, withInteger_ofWord]

end Cell

/-! ## Maps that forget -/

namespace RecencyList

variable {α β : Type} {list : RecencyList α} {key other : Bytes} {value : α}

/-- Other values under the same keys, in the same order. -/
def mapValues (change : α → β) (list : RecencyList α) : RecencyList β where
  capacity := list.capacity
  entries := list.entries.map fun entry => (entry.1, change entry.2)

/-- What is kept under the keys, in their order. -/
def values (list : RecencyList α) : List α :=
  list.entries.map Prod.snd

/-- Changes that agree on the values of a list make the same list. -/
theorem mapValues_congr
    {change change' : α → β} (agree : ∀ value ∈ list.values, change value = change' value) :
    list.mapValues change = list.mapValues change' := by
  refine congrArg (RecencyList.mk _) (List.map_congr_left fun entry listed => ?_)
  rw [agree entry.2 (List.mem_map_of_mem listed)]

variable (change : α → β)

theorem keys_mapValues : (list.mapValues change).keys = list.keys := by
  rw [keys, mapValues, List.map_map]
  rfl

theorem size_mapValues : (list.mapValues change).size = list.size :=
  List.length_map _

theorem find?_mapValues : (list.mapValues change).find? key = (list.find? key).map change := by
  rw [find?, find?, mapValues]
  induction list.entries with
  | nil => rfl
  | cons entry entries continues =>
      rw [List.map_cons, List.lookup_cons, List.lookup_cons]
      split
      · rfl
      · exact continues

theorem without_mapValues :
    (list.mapValues change).without key = (list.without key).mapValues change := by
  rw [without, mapValues, List.filter_map]
  rfl

theorem push_mapValues :
    (list.mapValues change).push key (change value) = (list.push key value).mapValues change :=
  rfl

/-- A lookup finds the changed value, and moves the key alike. -/
theorem lookup_mapValues :
    (list.mapValues change).lookup key =
      ((list.lookup key).1.map change, (list.lookup key).2.mapValues change) := by
  rw [lookup, lookup, find?_mapValues]
  cases list.find? key with
  | none => rfl
  | some value =>
      dsimp only [Option.map_some]
      rw [without_mapValues, push_mapValues]

theorem insert_mapValues :
    (list.mapValues change).insert key (change value) =
      (list.insert key value).mapValues change := by
  rw [insert, insert, size_mapValues]
  show (if list.size = list.capacity then _ else _) = _
  split
  · rw [withoutLast, mapValues, ← List.map_dropLast]
    rfl
  · rfl

/-- An update does the same to the list with its values changed. -/
theorem update_mapValues {mode : UpdateMode} :
    (list.mapValues change).update key (change value) mode =
      ((list.update key value mode).1, (list.update key value mode).2.mapValues change) := by
  rw [update, update, find?_mapValues]
  cases list.find? key with
  | none =>
      dsimp only [Option.map_none]
      split
      · rfl
      · rw [insert_mapValues]
  | some held =>
      dsimp only [Option.map_some]
      split
      · rfl
      · rw [without_mapValues, push_mapValues]

theorem take_mapValues :
    (list.mapValues change).take key =
      ((list.take key).1.map change, (list.take key).2.mapValues change) := by
  rw [take, take, find?_mapValues]
  cases list.find? key with
  | none => rfl
  | some value =>
      dsimp only [Option.map_some]
      rw [without_mapValues]

section

variable {before after : List (Bytes × α)}

/-- What stands before and after an entry is left without it. -/
theorem without_middle
    (split : list.entries = before ++ (key, value) :: after) (distinct : list.keys.Nodup) :
    (list.without key).entries = before ++ after := by
  rw [keys, split, List.map_append, List.map_cons, List.nodup_middle, List.nodup_cons,
    ← List.map_append] at distinct
  have kept : (before ++ after).filter (·.1 ≠ key) = before ++ after :=
    List.filter_eq_self.mpr fun entry listed => decide_eq_true fun same => by
      have there : entry.1 ∈ (before ++ after).map Prod.fst := List.mem_map_of_mem listed
      exact distinct.1 (same ▸ there)
  rw [without, split, List.filter_append, List.filter_cons_of_neg (by simp), ← List.filter_append,
    kept]

/-- The value of an entry is what is found under its key, which is there once. -/
theorem find?_middle
    (split : list.entries = before ++ (key, value) :: after) (distinct : list.keys.Nodup) :
    list.find? key = some value := by
  rw [keys, split, List.map_append, List.map_cons, List.nodup_middle, List.nodup_cons,
    ← List.map_append] at distinct
  rw [find?, List.lookup_eq_some_iff]
  refine ⟨before, after, split, fun entry listed => ?_⟩
  have there : entry.1 ∈ (before ++ after).map Prod.fst :=
    List.mem_map_of_mem (List.mem_append_left _ listed)
  exact bne_iff_ne.mpr fun same : key = entry.1 => distinct.1 (same.symm ▸ there)

end

/-- What has been put into the list is found. -/
theorem find?_update (value : α) :
    (list.update key value .createOrReplace).2.find? key = some value := by
  rw [update]
  split
  · exact List.lookup_cons_self
  · show (list.insert key value).find? key = some value
    rw [insert]
    split <;> exact List.lookup_cons_self

/-- What has gone to the front is taken out. -/
theorem take_front (list : RecencyList α) (key : Bytes) (value : α) :
    ((list.without key).push key value).take key = (some value, list.without key) := by
  have found : ((list.without key).push key value).find? key = some value := List.lookup_cons_self
  have others : ((list.without key).push key value).without key = list.without key := by
    rw [without, push, List.filter_cons_of_neg (by simp), without, List.filter_filter]
    simp
  rw [take, found, others]

/-- An entry that is found goes to the front or out; what is left is the same. -/
theorem values_perm (distinct : list.keys.Nodup) (found : list.find? key = some value) :
    list.values.Perm (value :: (list.without key).values) := by
  rcases List.lookup_eq_some_iff.mp found with ⟨before, after, split, _⟩
  rw [values, values, without_middle split distinct, split]
  exact List.perm_middle.map Prod.snd

/-- A lookup moves values and loses none. -/
theorem values_lookup_perm
    (distinct : list.keys.Nodup) : (list.lookup key).2.values.Perm list.values := by
  rw [lookup]
  rcases found : list.find? key with _ | value
  · exact .refl _
  · exact (values_perm distinct found).symm

/-- A value that is not in the list comes into it in one place. -/
theorem nodup_values_update
    {mode : UpdateMode} (apart : list.values.Nodup) (fresh : value ∉ list.values) :
    (list.update key value mode).2.values.Nodup := by
  rw [update]
  rcases found : list.find? key with _ | old
  · dsimp only
    split
    · exact apart
    · rw [insert]
      split
      · have fewer : list.withoutLast.values.Sublist list.values :=
          (List.dropLast_sublist _).map Prod.snd
        exact List.nodup_cons.mpr ⟨fun listed => fresh (fewer.subset listed), fewer.nodup apart⟩
      · exact List.nodup_cons.mpr ⟨fresh, apart⟩
  · dsimp only
    split
    · exact apart
    · have fewer : (list.without key).values.Sublist list.values :=
        List.filter_sublist.map Prod.snd
      exact List.nodup_cons.mpr ⟨fun listed => fresh (fewer.subset listed), fewer.nodup apart⟩

/-- A refused update changes nothing. -/
theorem update_refused
    {mode : UpdateMode} {error : MapError}
    (refused : (list.update key value mode).1 = .error error) :
    (list.update key value mode).2 = list := by
  rw [update] at refused ⊢
  split
  · split
    · rfl
    · simp_all
  · split
    · rfl
    · simp_all

end RecencyList

namespace Map

variable {ν : Type} {map : Map} {encode : ν → Bytes} {numbers : RecencyList Nat}
variable {list : RecencyList ν} {key : Bytes} {number : Nat} {value : ν}

/-- What lies in the cell of a number. -/
def bytes? (map : Map) (number : Nat) : Option Bytes :=
  (map.cell? number).map Cell.bytes

theorem cell?_of_bytes?
    {bytes : Bytes} (there : map.bytes? number = some bytes) : map.cell? number = some ⟨bytes⟩ := by
  rcases Option.map_eq_some_iff.mp there with ⟨cell, held, rfl⟩
  exact held

/-- A map that forgets holds the list: it leads to cells with the values of the list, each key to a
cell of its own. -/
structure Recalls (map : Map) (encode : ν → Bytes) (numbers : RecencyList Nat)
    (list : RecencyList ν) : Prop where
  held : ∃ table spots, map.content = .recencyHash table ∧ table.Follows spots numbers
  same : numbers.mapValues map.bytes? = list.mapValues fun value => some (encode value)
  apart : numbers.values.Nodup

namespace Recalls

theorem ofSchema
    (name : String) (keySize valueSize workers : Nat) {capacity : Nat} (positive : 0 < capacity)
    (encode : ν → Bytes) :
    (Map.ofSchema name (.recencyHash keySize valueSize capacity) workers).Recalls encode
      { capacity } { capacity } where
  held := ⟨_, [], rfl, .create positive⟩
  same := rfl
  apart := List.nodup_nil

theorem keys (recalls : map.Recalls encode numbers list) : numbers.keys = list.keys := by
  rw [← RecencyList.keys_mapValues map.bytes?, recalls.same, RecencyList.keys_mapValues]

/-- No key is listed twice. -/
theorem nodup_keys (recalls : map.Recalls encode numbers list) : list.keys.Nodup := by
  rcases recalls.held with ⟨table, spots, _, follows⟩
  rw [← recalls.keys, follows.keys]
  exact follows.holds.stores.keys

/-- The map lists the keys as the list does. -/
theorem map_keys (recalls : map.Recalls encode numbers list) : map.keys = list.keys := by
  rcases recalls.held with ⟨table, spots, held, follows⟩
  rw [Map.keys, held, ← recalls.keys]
  exact follows.holds.keys.trans follows.keys.symm

theorem inside (recalls : map.Recalls encode numbers list) (listed : number ∈ numbers.values) :
    number < map.cells.size := by
  rcases List.mem_map.mp listed with ⟨entry, among, rfl⟩
  have shown : (entry.1, map.bytes? entry.2) ∈ (numbers.mapValues map.bytes?).entries :=
    List.mem_map_of_mem among
  rw [recalls.same] at shown
  rcases List.mem_map.mp shown with ⟨entry', _, equal⟩
  rcases Option.map_eq_some_iff.mp (Prod.mk.inj equal).2.symm with ⟨cell, there, _⟩
  exact (Array.getElem?_eq_some_iff.mp there).1

/-- What a lookup finds, and what becomes of the map. -/
theorem find (recalls : map.Recalls encode numbers list) (key : Bytes) (worker : Nat) :
    (numbers.lookup key).1.map map.bytes? =
      (list.lookup key).1.map (fun value => some (encode value)) ∧
      ∃ content, (findCell key worker).run map =
          (.ok (numbers.lookup key).1, map.setContent content) ∧
        (map.setContent content).Recalls encode (numbers.lookup key).2 (list.lookup key).2 := by
  rcases recalls.held with ⟨table, spots, held, follows⟩
  have both := (RecencyList.lookup_mapValues map.bytes?).symm.trans
    ((congrArg (RecencyList.lookup · key) recalls.same).trans (RecencyList.lookup_mapValues _))
  rcases Prod.mk.inj both with ⟨found, same⟩
  rcases follows.lookup key with ⟨answer, spots', follows'⟩
  refine ⟨found, .recencyHash (table.lookup key).2, ?_, ⟨_, spots', rfl, follows'⟩, same, ?_⟩
  · rw [findCell, Stateful.run_bind, Stateful.run_get]
    dsimp only
    rw [held, ← answer]
    rfl
  · have distinct := recalls.nodup_keys
    rw [← recalls.keys] at distinct
    exact (RecencyList.values_lookup_perm distinct).nodup_iff.mpr recalls.apart

/-- Nothing happens when a key is looked up that is not there. -/
theorem find_absent
    (recalls : map.Recalls encode numbers list) (absent : list.find? key = none) (worker : Nat) :
    (findCell key worker).run map = (.ok none, map) := by
  have absent' : numbers.find? key = none := by
    have both := congrArg (RecencyList.find? · key) recalls.same
    rw [RecencyList.find?_mapValues, RecencyList.find?_mapValues, absent] at both
    exact Option.map_eq_none_iff.mp both
  rcases recalls.held with ⟨table, spots, held, follows⟩
  have missing : table.lookup key = (none, table) := by
    rcases follows.find key with ⟨missing, _⟩ | ⟨_, _, _, _, _, _, found⟩
    · rw [RecencyTable.lookup, missing]
    · cases absent'.symm.trans found
  rw [findCell, Stateful.run_bind, Stateful.run_get]
  dsimp only
  rw [held]
  dsimp only
  rw [missing]
  exact congrArg (fun content => (Except.ok none, map.setContent content)) held.symm

/-- The value of the key in front is changed in its cell. -/
theorem setFront
    {rest : RecencyList Nat} {rest' : RecencyList ν}
    (recalls : map.Recalls encode (rest.push key number) (rest'.push key value)) (value' : ν) :
    (map.setCell number ⟨encode value'⟩).Recalls encode (rest.push key number)
      (rest'.push key value') where
  held := recalls.held
  apart := recalls.apart
  same := by
    have inside := recalls.inside List.mem_cons_self
    have others : ∀ other ∈ rest.values,
        (map.setCell number ⟨encode value'⟩).bytes? other = map.bytes? other := by
      intro other listed
      have differs : number ≠ other := by
        rintro rfl
        exact (List.nodup_cons.mp recalls.apart).1 listed
      simp [bytes?, Map.cell?, Map.setCell, differs]
    have here : (map.setCell number ⟨encode value'⟩).bytes? number = some (encode value') := by
      simp [bytes?, Map.cell?, Map.setCell, inside]
    have same := recalls.same
    rw [← RecencyList.push_mapValues, ← RecencyList.push_mapValues, RecencyList.push,
      RecencyList.push, RecencyList.mk.injEq, List.cons.injEq] at same
    rw [← RecencyList.push_mapValues, ← RecencyList.push_mapValues, here,
      RecencyList.mapValues_congr others, RecencyList.push, RecencyList.push, same.1, same.2.2]

/-- A key is given a value, and a fresh cell for it unless it is refused. -/
theorem update
    (recalls : map.Recalls encode numbers list) (key : Bytes) (value : ν) (mode : UpdateMode) :
    ∃ after numbers', (putValue key (encode value) mode).run map =
        ((list.update key value mode).1, after) ∧
      after.schema = map.schema ∧
      after.Recalls encode numbers' (list.update key value mode).2 := by
  rcases recalls.held with ⟨table, spots, held, follows⟩
  have run : (putValue key (encode value) mode).run map =
      (keepUpdated .recencyHash (encode value) (table.update key map.cells.size mode)).run map := by
    rw [putValue, Stateful.run_bind, Stateful.run_get]
    dsimp only
    rw [held]
  rcases follows.update key map.cells.size mode with ⟨answer, spots', follows'⟩
  let grown := map.addCell (encode value)
  have old : ∀ number ∈ numbers.values, grown.bytes? number = map.bytes? number := by
    intro number listed
    have fresh := Nat.ne_of_lt (recalls.inside listed)
    simp [grown, bytes?, Map.cell?, Map.addCell, Array.getElem?_push, fresh]
  have new : grown.bytes? map.cells.size = some (encode value) := by
    simp [grown, bytes?, Map.cell?, Map.addCell]
  have both : (numbers.mapValues grown.bytes?).update key (grown.bytes? map.cells.size) mode =
      (list.mapValues fun value => some (encode value)).update key (some (encode value)) mode := by
    rw [new, RecencyList.mapValues_congr old, recalls.same]
  rw [RecencyList.update_mapValues] at both
  have both := both.trans (RecencyList.update_mapValues fun value => some (encode value))
  rcases Prod.mk.inj both with ⟨result, same⟩
  rw [run, keepUpdated, answer, result]
  rcases outcome : (list.update key value mode).1 with error | _
  · rw [RecencyList.update_refused outcome]
    exact ⟨map, numbers, rfl, rfl, recalls⟩
  · refine ⟨_, _, rfl, rfl, ⟨_, spots', rfl, follows'⟩, same, ?_⟩
    exact RecencyList.nodup_values_update recalls.apart fun listed =>
      Nat.lt_irrefl _ (recalls.inside listed)

/-- A key is taken out; its cell stays as it is. -/
theorem take (recalls : map.Recalls encode numbers list) (key : Bytes) :
    (numbers.take key).1.map map.bytes? = (list.take key).1.map (fun value => some (encode value)) ∧
      ∃ content, (removeKey key).run map = (.ok (numbers.take key).1, map.setContent content) ∧
        (map.setContent content).Recalls encode (numbers.take key).2 (list.take key).2 := by
  rcases recalls.held with ⟨table, spots, held, follows⟩
  have both := (RecencyList.take_mapValues map.bytes?).symm.trans
    ((congrArg (RecencyList.take · key) recalls.same).trans (RecencyList.take_mapValues _))
  rcases Prod.mk.inj both with ⟨found, same⟩
  rcases follows.take key with ⟨answer, spots', follows'⟩
  refine ⟨found, .recencyHash (table.take key).2, ?_, ⟨_, spots', rfl, follows'⟩, same, ?_⟩
  · rw [removeKey, Stateful.run_bind, Stateful.run_get]
    dsimp only
    rw [held, ← answer]
    rfl
  · rw [RecencyList.take]
    split
    · exact recalls.apart
    · exact (List.filter_sublist.map Prod.snd).nodup recalls.apart

end Recalls

/-! ## Keys and values of the right sizes -/

section

variable {bytes : Bytes} {mode : UpdateMode} {worker : Nat}

/-- A key of the right size passes. -/
theorem run_checkKey (sized : key.size = map.schema.keySize) :
    (checkKey key).run map = (.ok (), map) := by
  simp [checkKey, sized]

theorem run_lookupCell (sized : key.size = map.schema.keySize) :
    (lookupCell key worker).run map = (findCell key worker).run map := by
  rw [lookupCell, Stateful.run_bind, run_checkKey sized]

theorem run_update (sized : key.size = map.schema.keySize)
    (sized' : bytes.size = map.schema.valueSize) :
    (update key bytes mode).run map = (putValue key bytes mode).run map := by
  have passes : (checkValue bytes).run map = (.ok (), map) := by simp [checkValue, sized']
  rw [update, Stateful.run_bind, run_checkKey sized]
  dsimp only
  rw [Stateful.run_bind, passes]

/-- Taking a cell of a well-sized key is removing the key. -/
theorem run_takeCell (sized : key.size = map.schema.keySize) :
    (takeCell key).run map = (removeKey key).run map := by
  rw [takeCell, Stateful.run_bind, run_checkKey sized]

end

/-! ## Arrays -/

theorem indexOfKey_layOut (word : Word) :
    indexOfKey (Memory.layOut word 4).toArray = word.toNat % 2 ^ 32 := by
  have low : Word.ofBytes (Memory.layOut word 4) = word.low32 := by
    rw [← Word.zeroExtend_setWidth]
    apply BitVec.eq_of_getLsbD_eq
    intro bit inside
    have place : bit / 8 * 8 + bit % 8 = bit := by omega
    have small : bit % 8 < 8 := Nat.mod_lt bit (by decide)
    rw [Word.ofBytes_bit _ inside]
    by_cases early : bit / 8 < 4
    · have short : bit < 32 := by omega
      have kept : bit / 8 % 8 = bit / 8 := by omega
      rw [Memory.layOut_getElem? _ early, Option.getD_some, kept, BitVec.getLsbD_setWidth,
        BitVec.getLsbD_ushiftRight, place]
      simp [small, inside, short]
    · have long : 32 ≤ bit := by omega
      rw [List.getElem?_eq_none (by rw [Memory.layOut_length]; omega)]
      simp [long]
  rw [indexOfKey, List.toList_toArray, low, Word.toNat_low32]

/-- The key made of an index leads back to it. -/
theorem indexOfKey_keyOfIndex {index : Nat} (short : index < 2 ^ 32) :
    indexOfKey (keyOfIndex index) = index := by
  rw [keyOfIndex, ← Memory.layOut_eq_toBytes (by decide), indexOfKey_layOut, BitVec.toNat_ofNat]
  omega

/-- An array holds these values. -/
structure Arrays (map : Map) (encode : ν → Bytes) (length : Nat) (values : Nat → ν) : Prop where
  content : map.content = .array length
  size : map.cells.size = length
  values : ∀ index < length, map.bytes? index = some (encode (values index))

namespace Arrays

variable {length index worker : Nat} {values : Nat → ν}

theorem ofSchema
    (name : String) (valueSize length workers : Nat)
    (blank : encode value = (Cell.zeroed valueSize).bytes) :
    (Map.ofSchema name (.array valueSize length) workers).Arrays encode length fun _ => value where
  content := rfl
  size := Array.size_replicate
  values index inside := by
    rw [blank]
    simp [bytes?, Map.cell?, Map.ofSchema, Schema.array, inside]

/-- Every key of four bytes leads to the value of its index, or to none past the end. -/
theorem find
    (arrays : map.Arrays encode length values) (key : Bytes) (worker : Nat) :
    (findCell key worker).run map =
      (.ok (if indexOfKey key < length then some (indexOfKey key) else none), map) := by
  rw [findCell, Stateful.run_bind, Stateful.run_get]
  dsimp only
  rw [arrays.content]
  simp [Option.filter]

theorem congr
    {values' : Nat → ν} (arrays : map.Arrays encode length values)
    (same : ∀ index < length, values index = values' index) :
    map.Arrays encode length values' where
  content := arrays.content
  size := arrays.size
  values index inside := same index inside ▸ arrays.values index inside

theorem setCell (arrays : map.Arrays encode length values) (inside : index < length) (value : ν) :
    (map.setCell index ⟨encode value⟩).Arrays encode length
      (Function.update values index value) where
  content := arrays.content
  size := Array.size_setIfInBounds.trans arrays.size
  values other short := by
    have inside' : index < map.cells.size := arrays.size.symm ▸ inside
    by_cases same : other = index
    · subst same
      simp [bytes?, Map.cell?, Map.setCell, inside']
    · have differs : index ≠ other := fun equal => same equal.symm
      have old := arrays.values other short
      simpa [bytes?, Map.cell?, Map.setCell, differs, same] using old

/-- An update replaces the value of the index that its key names. -/
theorem update
    (arrays : map.Arrays encode length values) (key : Bytes) (value : ν)
    (inside : indexOfKey key < length) :
    (putValue key (encode value) .createOrReplace).run map =
      (.ok (), map.setCell (indexOfKey key) ⟨encode value⟩) := by
  rw [putValue, Stateful.run_bind, Stateful.run_get]
  dsimp only
  rw [arrays.content]
  simp [updateIndex, inside]

end Arrays

/-! ## Arrays per worker -/

section Places

variable {workers length worker worker' index index' : Nat}

/-- The cells of a worker end before those of the next one begin. -/
theorem place_lt (early : worker < workers) (inside : index < length) :
    worker * length + index < workers * length := by
  have rows : (worker + 1) * length ≤ workers * length := Nat.mul_le_mul_right _ early
  rw [Nat.succ_mul] at rows
  omega

/-- A cell belongs to one worker and to one index. -/
theorem place_inj
    (inside : index < length) (inside' : index' < length)
    (same : worker * length + index = worker' * length + index') :
    worker = worker' ∧ index = index' := by
  have row {worker index : Nat} (inside : index < length) :
      (worker * length + index) / length = worker := by
    rw [Nat.mul_comm, Nat.mul_add_div (by omega), Nat.div_eq_of_lt inside, Nat.add_zero]
  have rows : worker = worker' :=
    (row inside).symm.trans ((congrArg (· / length) same).trans (row inside'))
  subst rows
  exact ⟨rfl, by omega⟩

/-- What the workers have in a lane is added up. -/
theorem workerSum_eq
    {offset : Nat} {lanes : Nat → Word} (count : map.workers? = some workers)
    (loaded : ∀ worker < workers,
      (map.workerValue? worker index).bind (fun cell => cell.load? offset 8) =
        some (lanes worker)) :
    map.workerSum index offset = ∑ worker ∈ Finset.range workers, lanes worker := by
  have found : (map.workerValues index).filterMap (fun cell => cell.load? offset 8) =
      (List.range workers).map lanes := by
    rw [workerValues, count, Option.getD_some, List.filterMap_filterMap, ← List.filterMap_eq_map]
    exact List.filterMap_congr fun worker listed => loaded worker (List.mem_range.mp listed)
  rw [workerSum, found, ← List.sum_eq_foldl]
  rfl

end Places

/-- The workers have these words in an array per worker. -/
structure Tallies (map : Map) (workers length : Nat) (values : Nat → Nat → Word) : Prop where
  content : map.content = .perWorkerArray workers length
  values : ∀ worker < workers, ∀ index < length,
    map.cell? (worker * length + index) = some (.ofWord (values worker index))

namespace Tallies

variable {workers length worker index : Nat} {values : Nat → Nat → Word}

theorem ofSchema (name : String) (length workers : Nat) :
    (Map.ofSchema name (.perWorkerArray 8 length) workers).Tallies workers length
      fun _ _ => 0 where
  content := rfl
  values worker early index inside := by
    simp [Map.cell?, Map.ofSchema, Schema.perWorkerArray, place_lt early inside]
    rfl

/-- A worker finds its own value of the index. -/
theorem find
    (tallies : map.Tallies workers length values) (key : Bytes) (early : worker < workers)
    (inside : indexOfKey key < length) :
    (findCell key worker).run map = (.ok (some (worker * length + indexOfKey key)), map) := by
  rw [findCell, Stateful.run_bind, Stateful.run_get]
  dsimp only
  rw [tallies.content]
  dsimp only
  rw [workerCell?, tallies.content]
  dsimp only
  rw [if_pos ⟨early, inside⟩]
  rfl

/-- The sum over the workers is taken from all their values of the index. -/
theorem sum (tallies : map.Tallies workers length values) (inside : index < length) :
    map.workerSum index 0 = ∑ worker ∈ Finset.range workers, values worker index := by
  refine workerSum_eq (by rw [workers?, tallies.content]) fun worker early => ?_
  have covered : (Cell.ofWord (values worker index)).covers 0 8 = true :=
    Bytes.covers_iff.mpr (Cell.ofWord_size _).ge
  rw [workerValue?, workerCell?, tallies.content]
  dsimp only
  rw [if_pos ⟨early, inside⟩, Option.bind_some, tallies.values worker early index inside,
    Option.bind_some, Cell.load?, covered]
  exact congrArg some (Cell.integerAt_ofWord _)

/-- A worker has counted one more. -/
theorem count
    (tallies : map.Tallies workers length values) (early : worker < workers)
    (inside : index < length) :
    (map.setCell (worker * length + index) (.ofWord (values worker index + 1))).Tallies workers
        length fun worker' index' =>
          values worker' index' + if worker' = worker ∧ index' = index then 1 else 0 where
  content := tallies.content
  values worker' early' index' inside' := by
    have old := tallies.values worker' early' index' inside'
    have there := (Array.getElem?_eq_some_iff.mp (tallies.values worker early index inside)).1
    by_cases same : worker' = worker ∧ index' = index
    · rcases same with ⟨rfl, rfl⟩
      simp [Map.cell?, Map.setCell, there]
    · have differs : worker * length + index ≠ worker' * length + index' := fun equal =>
        same ((place_inj inside inside' equal).imp Eq.symm Eq.symm)
      rw [if_neg same, add_zero, ← old]
      simp [Map.cell?, Map.setCell, differs]

end Tallies

end Map

/-! ## Maps of a store -/

namespace Store

/-- The map of a number is good. -/
def Has (store : Store) (id : MapId) (good : Map → Prop) : Prop :=
  ∃ map, store.map? id = some map ∧ good map

variable {store : Store} {id other : MapId} {good good' : Map → Prop} {map changed : Map}

theorem setMap_self (there : store.map? id = some map) : store.setMap id map = store := by
  rcases Array.getElem?_eq_some_iff.mp there with ⟨inside, held⟩
  rw [setMap, ← held, Array.setIfInBounds, dif_pos inside, Array.set_getElem_self]

namespace Has

theorem set (has : store.Has id good) (better : good' changed) :
    (store.setMap id changed).Has id good' := by
  rcases has with ⟨map, there, _⟩
  exact ⟨changed, (map?_setMap there).trans (if_pos rfl), better⟩

/-- Another map has been changed. -/
theorem apart (has : store.Has id good) (differs : other ≠ id) :
    (store.setMap other changed).Has id good := by
  rcases has with ⟨map, there, fine⟩
  refine ⟨map, ?_, fine⟩
  rw [Store.map?, Store.setMap, Array.getElem?_setIfInBounds, if_neg differs]
  exact there

end Has

end Store

end PacketFilter
