import Mathlib.Data.Finmap
import PacketFilter.Proofs.Recency
import PacketFilter.Proofs.ShardedTable

/-!
# Hash maps, as finite maps

What a hash map is for: a finite map that has room for a number of keys.  A key
that is there can always be given another value; a new one is refused exactly
when the map is full.  A hash map gives the answers of the finite map, whatever
shards its keys belong to and whatever sizes they have.

Values lie in cells, and a key that is given another value is given another
cell.  So whoever has looked up a cell keeps the value that it held.
-/

namespace PacketFilter

/-! ## Finite maps -/

/-- A finite map that has room for so many keys. -/
structure BoundedMap (ν : Type) where
  capacity : Nat
  entries : Finmap fun _ : Bytes => ν := ∅

namespace BoundedMap

variable {ν : Type}

def size (map : BoundedMap ν) : Nat :=
  map.entries.keys.card

/-- Put a value under a key, whether there is room or not. -/
def insert (map : BoundedMap ν) (key : Bytes) (value : ν) : BoundedMap ν :=
  { map with entries := map.entries.insert key value }

/-- Remove a key, if it is there. -/
def erase (map : BoundedMap ν) (key : Bytes) : BoundedMap ν :=
  { map with entries := map.entries.erase key }

/-- The value under a key; looking changes nothing. -/
def lookup (map : BoundedMap ν) (key : Bytes) : Option ν × BoundedMap ν :=
  (map.entries.lookup key, map)

/-- Put a value under a key, as far as the mode and the capacity let. -/
def update (map : BoundedMap ν) (key : Bytes) (value : ν) (mode : UpdateMode) :
    Except MapError Unit × BoundedMap ν :=
  if key ∈ map.entries then
    if mode = .createOnly then (.error .keyExists, map) else (.ok (), map.insert key value)
  else if mode = .replaceOnly then
    (.error .keyMissing, map)
  else if map.size = map.capacity then
    (.error .full, map)
  else
    (.ok (), map.insert key value)

/-- Remove a key and hand out its value. -/
def take (map : BoundedMap ν) (key : Bytes) : Option ν × BoundedMap ν :=
  (map.entries.lookup key, map.erase key)

/-- The answer to a call, and the map after it. -/
def handle (map : BoundedMap ν) (call : RecencyCall ν) : RecencyAnswer ν × BoundedMap ν :=
  call.serve lookup update take map

/-- No call changes how many entries a bounded map may hold. -/
theorem handle_capacity (map : BoundedMap ν) (call : RecencyCall ν) :
    (map.handle call).2.capacity = map.capacity := by
  cases call with
  | lookup key => rfl
  | update key value mode =>
      show (map.update key value mode).2.capacity = map.capacity
      rw [update]
      split_ifs <;> rfl
  | delete key => rfl
  | take key => rfl

end BoundedMap

/-! ## Calls on the contents of a map -/

namespace Map

/-- What lies in the cell that has been found. -/
def bytesFound (outcome : Except MapError (Option Nat) × Map) : Option Bytes × Map :=
  ((outcome.1.toOption.join.bind outcome.2.cell?).map Cell.bytes, outcome.2)

/-- Serve a call on the contents of a map, whatever the sizes of keys and values. -/
def handle (map : Map) (call : RecencyCall Bytes) : RecencyAnswer Bytes × Map :=
  call.serve (fun map key => bytesFound ((findCell key 0).run map))
    (fun map key value mode => (putValue key value mode).run map)
    (fun map key => bytesFound ((removeKey key).run map)) map

/-- A hash map holds what the finite map holds: its table leads to cells that are there, each key
to a cell of its own. -/
structure Shows {ν : Type} (map : Map) (encode : ν → Bytes) (table : Table Nat)
    (bounded : BoundedMap ν) : Prop where
  content : map.content = .hash table
  wellFormed : table.WellFormed
  inside : ∀ {key : Bytes} {number : Nat}, table.find? key = some number →
    number < map.cells.size
  apart : ∀ {key other : Bytes} {number : Nat}, table.find? key = some number →
    table.find? other = some number → key = other
  values : ∀ key : Bytes, ((table.find? key).bind map.cell?).map Cell.bytes =
    (bounded.entries.lookup key).map encode
  capacity : table.capacity = bounded.capacity
  roomy : table.count ≤ table.capacity

namespace Shows

variable {ν : Type} {map : Map} {encode : ν → Bytes} {table : Table Nat}
variable {bounded : BoundedMap ν} {key : Bytes} {value : ν} {number : Nat}

theorem ofSchema (name : String) (keySize valueSize capacity workers : Nat) (encode : ν → Bytes) :
    (Map.ofSchema name (.hash keySize valueSize capacity) workers).Shows encode { capacity }
      { capacity } where
  content := rfl
  wellFormed := .empty capacity
  inside found := by simp at found
  apart found := by simp at found
  values key := by simp
  capacity := rfl
  roomy := Nat.zero_le _

/-- A key is in both or in neither. -/
theorem isSome_find? (shows : map.Shows encode table bounded) (key : Bytes) :
    (table.find? key).isSome ↔ key ∈ bounded.entries := by
  have values := shows.values key
  rw [← Finmap.lookup_isSome]
  rcases found : table.find? key with _ | number
  · rw [found, Option.bind_none, Option.map_none, eq_comm, Option.map_eq_none_iff] at values
    simp [values]
  · have inside := shows.inside found
    have there : map.cell? number = some map.cells[number] := Array.getElem?_eq_getElem inside
    rw [found, Option.bind_some, there, Option.map_some, eq_comm] at values
    rcases Option.map_eq_some_iff.mp values with ⟨value, held, _⟩
    simp [held]

/-- The table and the finite map have the same keys. -/
theorem keys (shows : map.Shows encode table bounded) :
    table.keys.toFinset = bounded.entries.keys := by
  ext key
  rw [List.mem_toFinset, shows.wellFormed.mem_keys, Finmap.mem_keys]
  exact shows.isSome_find? key

theorem size (shows : map.Shows encode table bounded) : map.size = bounded.size := by
  rw [Map.size, shows.content]
  exact shows.wellFormed.counted.trans (congrArg Finset.card shows.keys)

/-- A map that shows a bounded one never holds more entries than its capacity. -/
theorem size_le (shows : map.Shows encode table bounded) : bounded.size ≤ bounded.capacity := by
  rw [← shows.size, ← shows.capacity, Map.size, shows.content]
  exact shows.roomy

theorem keys_eq (shows : map.Shows encode table bounded) : map.keys = table.keys := by
  rw [Map.keys, shows.content]

/-- The cell of a key gets other bytes in its place. -/
theorem setCell
    (shows : map.Shows encode table bounded) (found : table.find? key = some number)
    (value : ν) :
    (map.setCell number ⟨encode value⟩).Shows encode table (bounded.insert key value) where
  content := shows.content
  wellFormed := shows.wellFormed
  inside found := by simpa [Map.setCell] using shows.inside found
  apart := shows.apart
  values other := by
    by_cases same : other = key
    · subst same
      have inside := shows.inside found
      simp [found, Map.cell?, Map.setCell, inside, BoundedMap.insert]
    · rw [BoundedMap.insert, Finmap.lookup_insert_of_ne _ same, ← shows.values other]
      rcases found' : table.find? other with _ | number'
      · rfl
      · have apart : number ≠ number' := by
          rintro rfl
          exact same (shows.apart found' found)
        simp [Map.cell?, Map.setCell, apart]
  capacity := shows.capacity
  roomy := shows.roomy

/-- A key gets a fresh cell. -/
theorem addCell
    {changed : Table Nat}
    (shows : map.Shows encode table bounded) (wellFormed : changed.WellFormed)
    (finds : ∀ other, changed.find? other =
      if other = key then some map.cells.size else table.find? other)
    (capacity : changed.capacity = table.capacity) (roomy : changed.count ≤ changed.capacity) :
    ((map.addCell (encode value)).setContent (.hash changed)).Shows encode changed
      (bounded.insert key value) where
  content := rfl
  wellFormed := wellFormed
  inside {other number} found := by
    rw [finds] at found
    show number < (map.cells.push ⟨encode value⟩).size
    rw [Array.size_push]
    split at found
    · cases found
      exact Nat.lt_succ_self _
    · exact Nat.lt_succ_of_lt (shows.inside found)
  apart {first second number} found found' := by
    rw [finds] at found found'
    split at found
    case isTrue here =>
      cases found
      split at found'
      case isTrue here' => exact here.trans here'.symm
      case isFalse => exact absurd (shows.inside found') (Nat.lt_irrefl _)
    case isFalse =>
      split at found'
      case isTrue here' =>
        cases found'
        exact absurd (shows.inside found) (Nat.lt_irrefl _)
      case isFalse => exact shows.apart found found'
  values other := by
    rw [finds]
    by_cases same : other = key
    · subst same
      simp [Map.cell?, Map.addCell, Map.setContent, BoundedMap.insert]
    · rw [if_neg same, BoundedMap.insert, Finmap.lookup_insert_of_ne _ same, ← shows.values other]
      rcases found : table.find? other with _ | number
      · rfl
      · have old := Nat.ne_of_lt (shows.inside found)
        simp [Map.cell?, Map.addCell, Map.setContent, Array.getElem?_push, old]
  capacity := capacity.trans shows.capacity
  roomy := roomy

/-- An update has the outcome that the bounded map gives it, and the map shows what the bounded map
then holds. -/
theorem update (shows : map.Shows encode table bounded) (key : Bytes) (value : ν)
    (mode : UpdateMode) :
    ((putValue key (encode value) mode).run map).1 = (bounded.update key value mode).1 ∧
      ∃ changed, ((putValue key (encode value) mode).run map).2.Shows encode changed
        (bounded.update key value mode).2 := by
  have run : (putValue key (encode value) mode).run map =
      (keepUpdated .hash (encode value) (table.update key map.cells.size mode)).run map := by
    rw [putValue, Stateful.run_bind, Stateful.run_get]
    dsimp only
    rw [shows.content]
  have present := shows.isSome_find? key
  rw [run, Table.update, BoundedMap.update]
  rcases found : table.find? key with _ | number
  · rw [found] at present
    have absent : key ∉ bounded.entries := by simpa using present
    dsimp only
    rw [if_neg absent]
    by_cases replaces : mode = .replaceOnly
    · rw [if_pos replaces, if_pos replaces]
      exact ⟨rfl, table, shows⟩
    · have count : bounded.size = table.count := by
        rw [← shows.size, Map.size, shows.content]
        rfl
      rw [if_neg replaces, if_neg replaces, Table.isFull, count, ← shows.capacity]
      by_cases full : table.count = table.capacity
      · rw [if_pos (decide_eq_true (Nat.le_of_eq full.symm)), if_pos full]
        exact ⟨rfl, table, shows⟩
      · have room : table.count < table.capacity := Nat.lt_of_le_of_ne shows.roomy full
        rw [if_neg (by simpa using room), if_neg full]
        exact ⟨rfl, _, shows.addCell (shows.wellFormed.insert found)
          (fun other => Table.find?_insert) rfl room⟩
  · rw [found] at present
    have there : key ∈ bounded.entries := by simpa using present
    have held : (table.find? key).isSome := by simp [found]
    dsimp only
    rw [if_pos there]
    by_cases creates : mode = .createOnly
    · simp only [if_pos creates]
      exact ⟨rfl, table, shows⟩
    · simp only [if_neg creates]
      exact ⟨rfl, _, shows.addCell (shows.wellFormed.replace held)
        (fun other => Table.find?_replace held) rfl shows.roomy⟩

/-- A lookup finds the cell that the table gives the key, and changes nothing. -/
theorem find (shows : map.Shows encode table bounded) (key : Bytes) (worker : Nat) :
    (findCell key worker).run map = (.ok (table.find? key), map) := by
  rw [findCell, Stateful.run_bind, Stateful.run_get]
  dsimp only
  rw [shows.content]
  rfl

theorem lookup (shows : map.Shows encode table bounded) (key : Bytes) :
    (bytesFound ((findCell key 0).run map)).1 = (bounded.lookup key).1.map encode ∧
      (bytesFound ((findCell key 0).run map)).2 = map := by
  rw [shows.find]
  exact ⟨shows.values key, rfl⟩

/-- A removal answers the value that the bounded map held, and takes it from the map. -/
theorem take (shows : map.Shows encode table bounded) (key : Bytes) :
    (bytesFound ((removeKey key).run map)).1 = (bounded.take key).1.map encode ∧
      ∃ changed, (bytesFound ((removeKey key).run map)).2.Shows encode changed
        (bounded.take key).2 := by
  have run : (removeKey key).run map = (keepFound .hash (table.take key)).run map := by
    rw [removeKey, Stateful.run_bind, Stateful.run_get]
    dsimp only
    rw [shows.content]
  have values := shows.values key
  rw [run, Table.take]
  rcases found : table.find? key with _ | number
  · have absent : key ∉ bounded.entries := by
      rw [← shows.isSome_find? key, found]
      exact Bool.false_ne_true
    have erased : bounded.entries.erase key = bounded.entries := by
      refine Finmap.ext_lookup fun other => ?_
      by_cases same : other = key
      · rw [same, Finmap.lookup_erase, Finmap.lookup_eq_none.mpr absent]
      · rw [Finmap.lookup_erase_ne same]
    rw [found] at values
    refine ⟨values, table, ?_⟩
    show (map.setContent (.hash table)).Shows encode table (bounded.erase key)
    rw [BoundedMap.erase, erased]
    exact { shows with content := rfl }
  · have held : (table.find? key).isSome := by simp [found]
    rw [found] at values
    refine ⟨values, table.erase key, ?_⟩
    exact
      { content := rfl
        wellFormed := shows.wellFormed.erase held
        inside := fun {other number} found => by
          rw [Table.find?_erase] at found
          split at found
          · cases found
          · exact shows.inside found
        apart := fun {first second number} found found' => by
          rw [Table.find?_erase] at found found'
          split at found
          · cases found
          · split at found'
            · cases found'
            · exact shows.apart found found'
        values := fun other => by
          rw [Table.find?_erase]
          by_cases same : other = key
          · subst same
            simp [bytesFound, BoundedMap.take, BoundedMap.erase]
          · rw [if_neg same]
            show _ = ((bounded.entries.erase key).lookup other).map encode
            rw [Finmap.lookup_erase_ne same]
            exact shows.values other
        capacity := shows.capacity
        roomy := (Nat.sub_le _ _).trans shows.roomy }

/-- Both answer a call alike. -/
theorem handle
    {bounded : BoundedMap Bytes}
    (shows : map.Shows id table bounded) (call : RecencyCall Bytes) :
    (map.handle call).1 = (bounded.handle call).1 ∧
      ∃ changed, (map.handle call).2.Shows id changed (bounded.handle call).2 := by
  cases call with
  | lookup key =>
      rcases shows.lookup key with ⟨same, still⟩
      rw [Option.map_id] at same
      exact ⟨congrArg RecencyAnswer.value same, table, still.symm ▸ shows⟩
  | update key value mode =>
      rcases shows.update key value mode with ⟨same, follows⟩
      exact ⟨congrArg RecencyAnswer.done same, follows⟩
  | delete key =>
      rcases shows.take key with ⟨same, follows⟩
      rw [Option.map_id] at same
      exact ⟨congrArg (fun value? : Option Bytes => RecencyAnswer.done
        (if value?.isSome then .ok () else .error .keyMissing)) same, follows⟩
  | take key =>
      rcases shows.take key with ⟨same, follows⟩
      rw [Option.map_id] at same
      exact ⟨congrArg RecencyAnswer.value same, follows⟩

end Shows

/-! ## Cells that have been handed out -/

/-- The cells of a map are still there, as they were. -/
def Preserves (before after : Map) : Prop :=
  ∀ (number : Nat) (cell : Cell), before.cell? number = some cell → after.cell? number = some cell

theorem Preserves.refl (map : Map) : map.Preserves map :=
  fun _ _ there => there

theorem Preserves.trans
    {first second third : Map}
    (earlier : first.Preserves second) (later : second.Preserves third) : first.Preserves third :=
  fun number cell there => later number cell (earlier number cell there)

/-- An update of the content leaves the map's name and its sizes alone, whatever its outcome. -/
theorem preserves_keepUpdated
    {τ : Type} (map : Map) (content : τ → MapContent) (value : Bytes)
    (outcome : Except MapError Unit × τ) :
    map.Preserves ((keepUpdated content value outcome).run map).2 := by
  rcases outcome with ⟨error | _, table⟩
  · exact .refl map
  · intro number cell there
    have inside : number < map.cells.size := (Array.getElem?_eq_some_iff.mp there).1
    show (map.cells.push ⟨value⟩)[number]? = some cell
    rw [Array.getElem?_push, if_neg (Nat.ne_of_lt inside)]
    exact there

/-- No call on a hash map touches a cell that is there. -/
theorem Shows.preserves
    {map : Map} {table : Table Nat} {bounded : BoundedMap Bytes}
    (shows : map.Shows id table bounded) (call : RecencyCall Bytes) :
    map.Preserves (map.handle call).2 := by
  have taken (key : Bytes) : map.Preserves (bytesFound ((removeKey key).run map)).2 := by
    rw [removeKey, Stateful.run_bind, Stateful.run_get]
    dsimp only
    rw [shows.content]
    exact .refl map
  cases call with
  | lookup key => exact (shows.lookup key).2.symm ▸ .refl map
  | update key value mode =>
      show map.Preserves ((putValue key value mode).run map).2
      rw [putValue, Stateful.run_bind, Stateful.run_get]
      dsimp only
      rw [shows.content]
      exact preserves_keepUpdated map _ value _
  | delete key => exact taken key
  | take key => exact taken key

/-- The answers of a map to a series of calls on its contents, and what becomes of the map. -/
def serve (map : Map) (calls : List (RecencyCall Bytes)) : List (RecencyAnswer Bytes) × Map :=
  answerAll (fun call map => handle map call) calls map

/-- A map that serves calls keeps its name and its sizes. -/
theorem Shows.serve_preserves (calls : List (RecencyCall Bytes)) :
    ∀ {map : Map} {table : Table Nat} {bounded : BoundedMap Bytes},
      map.Shows id table bounded → map.Preserves (map.serve calls).2 := by
  induction calls with
  | nil => exact fun shows => .refl _
  | cons call calls continues =>
      intro map table bounded shows
      rcases shows.handle call with ⟨_, changed, shows'⟩
      exact (shows.preserves call).trans (continues shows')

/-- The cell that has been found goes on holding the value of the key. -/
theorem Shows.found_later
    {map : Map} {table : Table Nat} {bounded : BoundedMap Bytes}
    (shows : map.Shows id table bounded) (later : List (RecencyCall Bytes)) (key : Bytes)
    (worker : Nat) :
    (((findCell key worker).run map).1.toOption.join.bind (map.serve later).2.cell?).map
      Cell.bytes = bounded.entries.lookup key := by
  have values := shows.values key
  rw [Option.map_id] at values
  rw [shows.find]
  rcases found : table.find? key with _ | number
  · rw [found] at values
    exact values
  · have inside := shows.inside found
    have there : map.cell? number = some map.cells[number] := Array.getElem?_eq_getElem inside
    have still := shows.serve_preserves later number _ there
    rw [found, Option.bind_some, there] at values
    show ((map.serve later).2.cell? number).map Cell.bytes = _
    rw [still]
    exact values

end Map

/-- The answers of an empty finite map to a series of calls, and what becomes of it. -/
def BoundedMap.serve {ν : Type} (capacity : Nat) (calls : List (RecencyCall ν)) :
    List (RecencyAnswer ν) × BoundedMap ν :=
  answerAll (fun call map => handle map call) calls { capacity }

/-- A hash map is a finite map with room for so many keys.  Whatever is called, it gives the
answers of the finite map, has as many keys, and lists each of them once.  The cell that it finds
for a key goes on holding, whatever is called later, what the key had when the cell was found. -/
theorem hashMap_follows_finiteMap
    (name : String) (keySize valueSize capacity workers : Nat)
    (calls later : List (RecencyCall Bytes)) (worker : Nat) (key : Bytes) :
    let map := (Map.ofSchema name (.hash keySize valueSize capacity) workers).serve calls
    let finite := BoundedMap.serve capacity calls
    let found := ((Map.findCell key worker).run map.2).1
    map.1 = finite.1 ∧ map.2.size = finite.2.size ∧ finite.2.size ≤ capacity ∧
      map.2.keys.Nodup ∧ map.2.keys.toFinset = finite.2.entries.keys ∧
      (found.toOption.join.bind (map.2.serve later).2.cell?).map Cell.bytes =
        finite.2.entries.lookup key := by
  have related : ∀ (call : RecencyCall Bytes) (map : Map) (finite : BoundedMap Bytes),
      (finite.capacity = capacity ∧ ∃ table, map.Shows id table finite) →
        (map.handle call).1 = (finite.handle call).1 ∧
          (finite.handle call).2.capacity = capacity ∧
            ∃ table, (map.handle call).2.Shows id table (finite.handle call).2 := by
    rintro call map finite ⟨same, table, shows⟩
    rcases shows.handle call with ⟨answer, shows'⟩
    exact ⟨answer, (BoundedMap.handle_capacity finite call).trans same, shows'⟩
  have begins := Map.Shows.ofSchema name keySize valueSize capacity workers (id : Bytes → Bytes)
  rcases answerAll_simulates related calls ⟨rfl, _, begins⟩ with ⟨answers, same, table, shows⟩
  refine ⟨answers, shows.size, shows.size_le.trans_eq same, ?_, ?_,
    shows.found_later later key worker⟩
  · exact shows.keys_eq ▸ shows.wellFormed.keys_nodup
  · exact shows.keys_eq ▸ shows.keys

end PacketFilter
