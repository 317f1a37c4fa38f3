import PacketFilter.Proofs.Contents
import PacketFilter.Proofs.PackedCells
import PacketFilter.Proofs.Refusals

/-!
# Values of workers

In an array per worker, calls on the map and calls on cells that have been looked
up are mixed in any order, and a cell may be kept for as long as one likes.  Each
of them changes what it names and nothing else: a worker's value at an index, or
with an update from the control plane the values of all workers there.

A lookup merges the values at an index.  Its lanes of eight bytes are sums over
the workers as they are at that time, and what is left over comes from the first
worker.
-/

namespace PacketFilter

/-! ## Calls on maps and on cells -/

/-- A cell that has been looked up, with what it was looked up for. -/
structure HeldCell where
  key : Bytes
  worker : Nat
  number : Nat
  deriving Repr

/-- A map, and the cells of it that have been looked up so far. -/
structure WorkerSession where
  map : Map
  held : List HeldCell := []
  deriving Repr

/-- A call on the map, or on a cell that has been looked up before. -/
inductive WorkerCall where
  | onMap (call : MapCall)
  | onCell (place : Nat) (call : CellCall)

namespace WorkerSession

/-- The cell that a lookup of one has found. -/
def found : MapCall → Except MapError MapAnswer → List HeldCell
  | .lookupCell key worker, .ok (.cell (some number)) => [⟨key, worker, number⟩]
  | _, _ => []

/-- The map and the cells that have been handed out, after a call. -/
def perform (session : WorkerSession) : WorkerCall → WorkerSession
  | .onMap call =>
    let (answer, map) := call.serve session.map
    { map, held := session.held ++ found call answer }
  | .onCell place call =>
    match session.held[place]? with
    | none => session
    | some held =>
      match session.map.cell? held.number with
      | none => session
      | some cell => { session with map := session.map.setCell held.number (call.onCell cell).2 }

/-- What calls make of a map, to begin with no cell looked up. -/
def ofCalls (map : Map) (calls : List WorkerCall) : WorkerSession :=
  calls.foldl perform { map }

/-- The key is one of an index. -/
def Names (key : Bytes) (index : Nat) : Prop :=
  key.size = 4 ∧ Map.indexOfKey key = index

/-- The call is on the value of a worker at an index, or on the values of all workers there. -/
def Concerns (session : WorkerSession) (worker index : Nat) : WorkerCall → Prop
  | .onMap (.update key _ _) => Names key index
  | .onMap (.updateFromWorker key _ _ worker') => worker' = worker ∧ Names key index
  | .onMap _ => False
  | .onCell place _ => ∃ held, session.held[place]? = some held ∧
    held.worker = worker ∧ Names held.key index

end WorkerSession

/-! ## The cells of workers -/

namespace Map

/-- The map is an array for each of that many workers, of values of one size. -/
structure Spread (map : Map) (workers length size : Nat) : Prop where
  schema : map.schema = .perWorkerArray size length
  content : map.content = .perWorkerArray workers length
  cells : map.cells.size = workers * length
  sized : ∀ cell ∈ map.cells, cell.size = size

namespace Spread

variable {map : Map} {workers length size worker index : Nat}

theorem ofSchema (name : String) (workers length size : Nat) :
    (Map.ofSchema name (.perWorkerArray size length) workers).Spread workers length size where
  schema := rfl
  content := rfl
  cells := Array.size_replicate
  sized cell listed := by
    rw [(Array.mem_replicate.mp listed).2]
    exact Array.size_replicate

theorem workerCell? (spread : map.Spread workers length size) (worker index : Nat) :
    map.workerCell? worker index =
      if worker < workers ∧ index < length then some (worker * length + index) else none := by
  rw [Map.workerCell?, spread.content]

/-- Every worker has a value at every index. -/
theorem exists_workerValue?
    (spread : map.Spread workers length size) (early : worker < workers) (inside : index < length) :
    ∃ cell, map.workerValue? worker index = some cell ∧ cell.size = size := by
  have short : worker * length + index < map.cells.size :=
    spread.cells.symm ▸ place_lt early inside
  refine ⟨map.cells[worker * length + index], ?_, spread.sized _ (Array.getElem_mem short)⟩
  rw [workerValue?, spread.workerCell?, if_pos ⟨early, inside⟩, Option.bind_some, cell?,
    Array.getElem?_eq_getElem short]

theorem setCell
    {cell : Cell} (spread : map.Spread workers length size) (number : Nat)
    (sized : cell.size = size) :
    (map.setCell number cell).Spread workers length size where
  schema := spread.schema
  content := spread.content
  cells := Array.size_setIfInBounds.trans spread.cells
  sized other listed := by
    rcases Array.mem_or_eq_of_mem_setIfInBounds listed with old | rfl
    · exact spread.sized other old
    · exact sized

/-- The cell of a worker at an index is of no other worker and of no other index. -/
theorem workerValue?_setCell
    (spread : map.Spread workers length size) (cell : Cell) (inside : index < length)
    {worker' index' : Nat} (elsewhere : ¬ (worker' = worker ∧ index' = index)) :
    (map.setCell (worker * length + index) cell).workerValue? worker' index' =
      map.workerValue? worker' index' := by
  have content : (map.setCell (worker * length + index) cell).workerCell? worker' index' =
      map.workerCell? worker' index' := rfl
  rw [workerValue?, workerValue?, content, spread.workerCell?]
  split
  case isTrue there =>
    have differs : worker * length + index ≠ worker' * length + index' := fun same =>
      elsewhere ((place_inj inside there.2 same).imp Eq.symm Eq.symm)
    rw [Option.bind_some, Option.bind_some, cell?, cell?, Map.setCell,
      Array.getElem?_setIfInBounds_ne differs]
  case isFalse => rfl

end Spread

/-- Give each of these workers a cell at an index. -/
def setCells (map : Map) (length index : Nat) (cell : Cell) (workers : List Nat) : Map :=
  workers.foldl (fun map worker => map.setCell (worker * length + index) cell) map

/-- Values that are named, of workers and at indices that there are, may have been replaced; no
others have. -/
structure Rewritten
    (map after : Map) (workers length size : Nat) (named : Nat → Nat → Prop) : Prop where
  spread : after.Spread workers length size
  others : ∀ worker index, ¬ named worker index →
    after.workerValue? worker index = map.workerValue? worker index
  unnamed : (∀ worker < workers, ∀ index < length, ¬ named worker index) → after = map

namespace Rewritten

variable {map : Map} {workers length size worker index : Nat} {named : Nat → Nat → Prop}

theorem same
    (spread : map.Spread workers length size) :
    map.Rewritten map workers length size named :=
  ⟨spread, fun _ _ _ => rfl, fun _ => rfl⟩

theorem setCell
    {cell : Cell} (spread : map.Spread workers length size) (sized : cell.size = size)
    (early : worker < workers) (inside : index < length) (names : named worker index) :
    map.Rewritten (map.setCell (worker * length + index) cell) workers length size named where
  spread := spread.setCell _ sized
  others worker' index' unnamed := by
    apply spread.workerValue?_setCell cell inside
    rintro ⟨rfl, rfl⟩
    exact unnamed names
  unnamed none := absurd names (none worker early index inside)

/-- The workers are given the cell one after the other; each time the values at other indices
stay. -/
theorem setCells
    {cell : Cell} (spread : map.Spread workers length size) (sized : cell.size = size)
    (positive : 0 < workers) (inside : index < length) (names : ∀ worker, named worker index)
    (turns : List Nat) :
    map.Rewritten (map.setCells length index cell turns) workers length size named := by
  have kept : (map.setCells length index cell turns).Spread workers length size ∧
      ∀ worker' index', index' ≠ index →
        (map.setCells length index cell turns).workerValue? worker' index' =
          map.workerValue? worker' index' := by
    induction turns generalizing map with
    | nil => exact ⟨spread, fun _ _ _ => rfl⟩
    | cons turn rest continues =>
        obtain ⟨spread', others⟩ := continues (spread.setCell (turn * length + index) sized)
        refine ⟨spread', fun worker' index' elsewhere => ?_⟩
        exact (others worker' index' elsewhere).trans
          (spread.workerValue?_setCell cell inside fun same => elsewhere same.2)
  refine ⟨kept.1, fun worker' index' unnamed => ?_, fun none => ?_⟩
  · apply kept.2 worker' index'
    rintro rfl
    exact unnamed (names worker')
  · exact absurd (names 0) (none 0 positive index inside)

end Rewritten

/-! ## Calls on the map -/

namespace Spread

variable {map : Map} {workers length size : Nat} {key value : Bytes} {mode : UpdateMode}

theorem run_forM_updateIndex
    {index : Nat} (done : ∀ first map, (Map.updateIndex first length index value mode).run map =
      (.ok (), map.setCell (first + index) ⟨value⟩)) (turns : List Nat) :
    ∀ map : Map, (turns.forM fun worker =>
        Map.updateIndex (worker * length) length index value mode).run map =
      (.ok (), map.setCells length index ⟨value⟩ turns) := by
  induction turns with
  | nil => exact fun _ => rfl
  | cons turn rest continues =>
      intro map
      rw [List.forM, Stateful.run_bind, done]
      exact continues _

/-- What follows a check of a key is done if the key has four bytes. -/
theorem run_checkKey_bind
    {α : Type} {next : Unit → MapAction α} (spread : map.Spread workers length size) :
    (checkKey key >>= next).run map =
      if key.size = 4 then (next ()).run map else (.error (.keySize 4 key.size), map) := by
  rw [checkKey, Stateful.run_bind, Stateful.run_bind, Stateful.run_get]
  dsimp only
  rw [spread.schema]
  by_cases sized : key.size = 4 <;> simp [Schema.perWorkerArray, sized]

theorem run_checkValue_bind
    {α : Type} {next : Unit → MapAction α} (spread : map.Spread workers length size) :
    (checkValue value >>= next).run map =
      if value.size = size then (next ()).run map
      else (.error (.valueSize size value.size), map) := by
  rw [checkValue, Stateful.run_bind, Stateful.run_bind, Stateful.run_get]
  dsimp only
  rw [spread.schema]
  by_cases sized : value.size = size <;> simp [Schema.perWorkerArray, sized]

/-- An update that is not refused gives every worker the value at the index. -/
theorem run_update
    (spread : map.Spread workers length size) (key value : Bytes) (mode : UpdateMode) :
    ((Map.update key value mode).run map).2 = map ∨
      key.size = 4 ∧ value.size = size ∧ indexOfKey key < length ∧
        ((Map.update key value mode).run map).2 =
          map.setCells length (indexOfKey key) ⟨value⟩ (List.range workers) := by
  rw [Map.update, spread.run_checkKey_bind]
  by_cases keySized : key.size = 4
  case neg => exact .inl (by rw [if_neg keySized])
  rw [if_pos keySized, spread.run_checkValue_bind]
  by_cases valueSized : value.size = size
  case neg => exact .inl (by rw [if_neg valueSized])
  rw [if_pos valueSized, putValue, Stateful.run_bind, Stateful.run_get]
  dsimp only
  rw [spread.content]
  dsimp only
  rcases MapAction.Settles.updateIndex_run length (indexOfKey key) value mode with
    ⟨error, refused⟩ | ⟨inside, done⟩
  · refine .inl ?_
    -- The first worker to be given the value refuses it already.
    cases List.range workers with
    | nil => rfl
    | cons turn rest => rw [List.forM, Stateful.run_bind, refused]
  · exact .inr ⟨keySized, valueSized, inside, by rw [run_forM_updateIndex done]⟩

/-- An update on behalf of a worker that is not refused gives this worker the value. -/
theorem run_updateFromWorker
    (spread : map.Spread workers length size) (key value : Bytes) (mode : UpdateMode)
    (worker : Nat) :
    ((Map.updateFromWorker key value mode worker).run map).2 = map ∨
      key.size = 4 ∧ value.size = size ∧ worker < workers ∧ indexOfKey key < length ∧
        ((Map.updateFromWorker key value mode worker).run map).2 =
          map.setCell (worker * length + indexOfKey key) ⟨value⟩ := by
  rw [Map.updateFromWorker, Stateful.run_bind, Stateful.run_get]
  dsimp only
  rw [spread.content]
  dsimp only
  rw [spread.run_checkKey_bind]
  by_cases keySized : key.size = 4
  case neg => exact .inl (by rw [if_neg keySized])
  rw [if_pos keySized, spread.run_checkValue_bind]
  by_cases valueSized : value.size = size
  case neg => exact .inl (by rw [if_neg valueSized])
  rw [if_pos valueSized]
  by_cases early : worker < workers
  case neg => exact .inl (by simp [early])
  rcases MapAction.Settles.updateIndex_run length (indexOfKey key) value mode with
    ⟨error, refused⟩ | ⟨inside, done⟩
  · exact .inl (by simp [early, refused])
  · exact .inr ⟨keySized, valueSized, early, inside, by simp [early, done]⟩

theorem run_lookupCell
    (spread : map.Spread workers length size) (key : Bytes) (worker : Nat) :
    (Map.lookupCell key worker).run map =
      if key.size = 4 then
        (.ok (if worker < workers ∧ indexOfKey key < length then
          some (worker * length + indexOfKey key) else none), map)
      else
        (.error (.keySize 4 key.size), map) := by
  rw [Map.lookupCell, spread.run_checkKey_bind, findCell, Stateful.run_bind, Stateful.run_get]
  dsimp only
  rw [spread.content]
  dsimp only
  rw [spread.workerCell?]
  rfl

theorem run_lookup
    (spread : map.Spread workers length size) (key : Bytes) :
    (Map.lookup key).run map =
      if key.size = 4 then (.ok (map.merged? (indexOfKey key)), map)
      else (.error (.keySize 4 key.size), map) := by
  rw [Map.lookup, Stateful.run_bind, Stateful.run_get]
  dsimp only
  rw [spread.content]
  dsimp only
  rw [spread.run_checkKey_bind]
  rfl

/-- There is nothing to remove. -/
theorem run_takeCell
    (spread : map.Spread workers length size) (key : Bytes) :
    ∃ error, (Map.takeCell key).run map = (.error error, map) := by
  rw [Map.takeCell, spread.run_checkKey_bind]
  split
  case isTrue =>
    rw [removeKey, Stateful.run_bind, Stateful.run_get]
    dsimp only
    rw [spread.content]
    exact ⟨.unsupported map.kind "delete", rfl⟩
  case isFalse => exact ⟨_, rfl⟩

end Spread

end Map

/-- Only the operation of a call decides what becomes of the map, not its answer. -/
theorem MapAction.run_answer
    {α β : Type} (action : MapAction α) (answer : α → β) (map : Map) :
    ((do return answer (← action) : MapAction β).run map).2 = (action.run map).2 := by
  rw [Stateful.run_bind]
  rcases action.run map with ⟨_ | _, _⟩ <;> rfl

/-- A call on the map replaces what it concerns and nothing else. -/
theorem MapCall.rewritten
    {map : Map} {workers length size : Nat} (spread : map.Spread workers length size)
    (positive : 0 < workers) (session : WorkerSession) (call : MapCall) :
    map.Rewritten (call.serve map).2 workers length size
      fun worker index => session.Concerns worker index (.onMap call) := by
  have unchanged {named : Nat → Nat → Prop} {after : Map} (same : after = map) :
      map.Rewritten after workers length size named :=
    same.symm ▸ .same spread
  cases call with
  | lookupCell key worker =>
      refine unchanged ((MapAction.run_answer _ _ _).trans ?_)
      rw [spread.run_lookupCell]
      split <;> rfl
  | lookup key =>
      refine unchanged ((MapAction.run_answer _ _ _).trans ?_)
      rw [spread.run_lookup]
      split <;> rfl
  | update key value mode =>
      rw [serve, action, MapAction.run_answer]
      rcases spread.run_update key value mode with same | ⟨keySized, valueSized, inside, changed⟩
      · exact unchanged same
      · rw [changed]
        exact .setCells spread valueSized positive inside (fun _ => ⟨keySized, rfl⟩) _
  | updateFromWorker key value mode worker =>
      rw [serve, action, MapAction.run_answer]
      rcases spread.run_updateFromWorker key value mode worker with
        same | ⟨keySized, valueSized, early, inside, changed⟩
      · exact unchanged same
      · rw [changed]
        exact .setCell spread valueSized early inside ⟨rfl, keySized, rfl⟩
  | delete key =>
      obtain ⟨error, refused⟩ := spread.run_takeCell key
      refine unchanged ((MapAction.run_answer _ _ _).trans ?_)
      rw [Map.delete, Stateful.run_bind, refused]
  | take key =>
      obtain ⟨error, refused⟩ := spread.run_takeCell key
      refine unchanged ((MapAction.run_answer _ _ _).trans ?_)
      rw [Map.take, Stateful.run_bind, refused]

/-! ## Calls on cells -/

theorem CellCall.onCell_size (call : CellCall) (cell : Cell) :
    (call.onCell cell).2.size = cell.size := by
  cases call with
  | load | read | toBytes => rfl
  | store offset length value =>
      rw [onCell, Cell.store?_eq_ite]
      split
      · exact cell.withInteger_size _ _ _
      · rfl
  | update offset length change =>
      rw [onCell, Cell.update?_eq_ite]
      split
      · exact cell.withInteger_size _ _ _
      · rfl
  | write offset data =>
      rw [onCell, Cell.write?_eq_ite]
      split
      · exact Bytes.overwrite_size _ _ _
      · rfl

namespace WorkerSession

variable {session : WorkerSession} {workers length size : Nat}

/-- The map is an array for each worker, and every cell that is held is that of the worker and the
index it was looked up for. -/
structure Sound (session : WorkerSession) (workers length size : Nat) : Prop where
  spread : session.map.Spread workers length size
  held : ∀ held ∈ session.held, held.key.size = 4 ∧ held.worker < workers ∧
    Map.indexOfKey held.key < length ∧
      held.number = held.worker * length + Map.indexOfKey held.key

theorem Sound.found
    (sound : session.Sound workers length size) (call : MapCall) {held : HeldCell}
    (listed : held ∈ found call (call.serve session.map).1) :
    held.key.size = 4 ∧ held.worker < workers ∧ Map.indexOfKey held.key < length ∧
      held.number = held.worker * length + Map.indexOfKey held.key := by
  cases call with
  | lookupCell key worker =>
      rw [MapCall.serve, MapCall.action, Stateful.run_bind, sound.spread.run_lookupCell] at listed
      by_cases keySized : key.size = 4
      case neg =>
        rw [if_neg keySized] at listed
        cases listed
      rw [if_pos keySized] at listed
      by_cases there : worker < workers ∧ Map.indexOfKey key < length
      case neg =>
        rw [if_neg there] at listed
        cases listed
      rw [if_pos there] at listed
      obtain rfl := List.mem_singleton.mp listed
      exact ⟨keySized, there.1, there.2, rfl⟩
  | lookup | update | updateFromWorker | delete | take => cases listed

/-- One call keeps all that, and replaces only what it concerns. -/
theorem Sound.perform
    (sound : session.Sound workers length size) (positive : 0 < workers) (call : WorkerCall) :
    (session.perform call).Sound workers length size ∧
      session.map.Rewritten (session.perform call).map workers length size
        fun worker index => session.Concerns worker index call := by
  cases call with
  | onMap call =>
      have rewritten := call.rewritten sound.spread positive session
      refine ⟨⟨rewritten.spread, fun held listed => ?_⟩, rewritten⟩
      rcases List.mem_append.mp listed with before | new
      · exact sound.held held before
      · exact sound.found call new
  | onCell place call =>
      rw [WorkerSession.perform]
      split
      case h_1 => exact ⟨sound, .same sound.spread⟩
      case h_2 held there =>
        obtain ⟨keySized, early, inside, number⟩ := sound.held held (List.mem_of_getElem? there)
        split
        case h_1 => exact ⟨sound, .same sound.spread⟩
        case h_2 cell kept =>
          have sized : (call.onCell cell).2.size = size :=
            (call.onCell_size cell).trans (sound.spread.sized cell (Array.mem_of_getElem? kept))
          refine ⟨⟨sound.spread.setCell _ sized, sound.held⟩, ?_⟩
          rw [number]
          exact .setCell sound.spread sized early inside ⟨held, there, rfl, keySized, rfl⟩

theorem Sound.foldl
    (sound : session.Sound workers length size) (positive : 0 < workers) (calls : List WorkerCall) :
    (calls.foldl WorkerSession.perform session).Sound workers length size := by
  induction calls generalizing session with
  | nil => exact sound
  | cons call calls continues => exact continues (sound.perform positive call).1

theorem ofCalls_sound
    (name : String) (positive : 0 < workers) (calls : List WorkerCall) :
    (ofCalls (Map.ofSchema name (.perWorkerArray size length) workers) calls).Sound
      workers length size := by
  apply Sound.foldl ?_ positive
  exact ⟨.ofSchema name workers length size, fun _ listed => (by cases listed)⟩

end WorkerSession

/-! ## Merged values -/

namespace Word

theorem ofBytes_toBytes (word : Word) : ofBytes (word.toBytes 8) = word := by
  rw [← Memory.layOut_eq_toBytes (Nat.le_refl 8), Memory.ofBytes_layOut]

theorem toNat_sum (words : Nat → Word) (count : Nat) :
    (∑ index ∈ Finset.range count, words index).toNat =
      (∑ index ∈ Finset.range count, (words index).toNat) % 2 ^ 64 := by
  induction count with
  | zero => rfl
  | succ count continues =>
      rw [Finset.sum_range_succ, Finset.sum_range_succ, BitVec.toNat_add, continues,
        Nat.mod_add_mod]

end Word

namespace Bytes

/-- Write words into the first lanes of eight bytes. -/
def overwriteLanes (bytes : Bytes) (words : Nat → Word) (count : Nat) : Bytes :=
  ((List.range count).map (· * 8)).foldl
    (fun bytes offset => bytes.overwrite offset ((words offset).toBytes 8)) bytes

theorem overwriteLanes_succ (bytes : Bytes) (words : Nat → Word) (count : Nat) :
    bytes.overwriteLanes words (count + 1) =
      (bytes.overwriteLanes words count).overwrite (count * 8)
        ((words (count * 8)).toBytes 8) := by
  rw [overwriteLanes, overwriteLanes, List.range_succ, List.map_append, List.foldl_append,
    List.map_singleton, List.foldl_cons, List.foldl_nil]

/-- What the lanes and the bytes after them are. -/
structure HasLanes (bytes after : Bytes) (words : Nat → Word) (count : Nat) : Prop where
  size : after.size = bytes.size
  lanes : ∀ lane < count, Word.ofBytes (after.slice (lane * 8) 8) = words (lane * 8)
  rest : ∀ index, count * 8 ≤ index → after[index]? = bytes[index]?

/-- Lanes that are written one after the other all stay, and nothing is written after them. -/
theorem hasLanes_overwriteLanes
    {bytes : Bytes} (words : Nat → Word) {count : Nat} (inside : count * 8 ≤ bytes.size) :
    bytes.HasLanes (bytes.overwriteLanes words count) words count := by
  induction count with
  | zero => exact ⟨rfl, fun lane none => absurd none (Nat.not_lt_zero lane), fun _ _ => rfl⟩
  | succ count continues =>
      have earlier := continues (by omega)
      have length := Word.toBytes_length (words (count * 8)) 8
      have size := earlier.size
      rw [overwriteLanes_succ]
      refine ⟨(overwrite_size _ _ _).trans size, fun lane early => ?_, fun index beyond => ?_⟩
      · rcases Nat.lt_or_eq_of_le (Nat.le_of_lt_succ early) with before | rfl
        · rw [slice_overwrite_apart (.inr (by omega)), earlier.lanes lane before]
        · have fits : lane * 8 + ((words (lane * 8)).toBytes 8).length ≤
              (bytes.overwriteLanes words lane).size := by omega
          have written := slice_overwrite fits
          rw [length] at written
          rw [written, Word.ofBytes_toBytes]
      · rw [overwrite_getElem?, if_neg (by omega), earlier.rest index (by omega)]

end Bytes

namespace Map

/-- What a worker has in a lane of the value at an index. -/
def workerLane (map : Map) (worker index lane : Nat) : Word :=
  (map.workerValue? worker index).elim 0 fun cell => Word.ofBytes (cell.bytes.slice (lane * 8) 8)

/-- The value has the sums over the workers in its lanes of eight bytes, and after them what the
first worker has. -/
structure Merges (map : Map) (workers index : Nat) (value : Bytes) : Prop where
  lanes : ∀ lane, (lane + 1) * 8 ≤ value.size →
    (Word.ofBytes (value.slice (lane * 8) 8)).toNat =
      (∑ worker ∈ Finset.range workers, (map.workerLane worker index lane).toNat) % 2 ^ 64
  rest : ∃ first, map.workerValue? 0 index = some first ∧
    ∀ offset, value.size / 8 * 8 ≤ offset → value[offset]? = first.bytes[offset]?

namespace Spread

variable {map : Map} {workers length size index : Nat}

theorem workerSum
    (spread : map.Spread workers length size) (inside : index < length) {lane : Nat}
    (whole : (lane + 1) * 8 ≤ size) :
    map.workerSum index (lane * 8) =
      ∑ worker ∈ Finset.range workers, map.workerLane worker index lane := by
  refine workerSum_eq (by rw [workers?, spread.content]) fun worker early => ?_
  obtain ⟨cell, there, sized⟩ := spread.exists_workerValue? early inside
  have covered : lane * 8 + 8 ≤ cell.size ∧ 8 ≤ 8 := ⟨by omega, Nat.le_refl 8⟩
  rw [workerLane, there, Option.bind_some, Cell.load?_eq_ite, if_pos covered, Cell.integerAt,
    Cell.reach_of_dvd (Nat.dvd_refl 8)]
  rfl

/-- A lookup merges the values of the workers. -/
theorem exists_merged?
    (spread : map.Spread workers length size) (positive : 0 < workers) (inside : index < length) :
    ∃ value, map.merged? index = some value ∧ value.size = size ∧
      map.Merges workers index value := by
  obtain ⟨first, there, sized⟩ := spread.exists_workerValue? positive inside
  have fits : size / 8 * 8 ≤ first.bytes.size := by
    rw [show first.bytes.size = size from sized]
    exact Nat.div_mul_le_self size 8
  have written := Bytes.hasLanes_overwriteLanes (map.workerSum index) fits
  have size' := written.size.trans sized
  refine ⟨_, by rw [merged?, there, spread.schema]; rfl, size', fun lane whole => ?_, first, there,
    fun offset beyond => ?_⟩
  · rw [size'] at whole
    rw [written.lanes lane (by omega), spread.workerSum inside whole, Word.toNat_sum]
  · rw [size'] at beyond
    exact written.rest offset beyond

end Spread

end Map

/-- In an array for each of some workers, whatever has been called on it and on its cells: every
worker has a value at every index; a call changes the values it concerns and no others, and nothing
at all if there are none; and a lookup merges the values of the workers at an index. -/
theorem workers_stay_apart
    (name : String) (size length : Nat) {workers : Nat} (positive : 0 < workers)
    (calls : List WorkerCall) :
    let session := WorkerSession.ofCalls
      (Map.ofSchema name (.perWorkerArray size length) workers) calls
    (∀ worker < workers, ∀ index < length, ∃ cell,
      session.map.workerValue? worker index = some cell ∧ cell.size = size) ∧
    (∀ call worker index, ¬ session.Concerns worker index call →
      (session.perform call).map.workerValue? worker index =
        session.map.workerValue? worker index) ∧
    (∀ call, (∀ worker < workers, ∀ index < length, ¬ session.Concerns worker index call) →
      (session.perform call).map = session.map) ∧
    ∀ key : Bytes, key.size = 4 →
      (length ≤ Map.indexOfKey key →
        (Map.lookup key).run session.map = (.ok none, session.map)) ∧
      (Map.indexOfKey key < length → ∃ value,
        (Map.lookup key).run session.map = (.ok (some value), session.map) ∧
          value.size = size ∧ session.map.Merges workers (Map.indexOfKey key) value) := by
  intro session
  have sound : session.Sound workers length size := WorkerSession.ofCalls_sound name positive calls
  have rewritten (call : WorkerCall) := (sound.perform positive call).2
  refine ⟨fun worker early index inside => sound.spread.exists_workerValue? early inside,
    fun call => (rewritten call).others, fun call => (rewritten call).unnamed, fun key sized => ?_⟩
  rw [sound.spread.run_lookup, if_pos sized]
  constructor
  · intro outside
    rw [Map.merged?, Map.workerValue?, sound.spread.workerCell?,
      if_neg fun there => Nat.not_lt_of_le outside there.2]
    rfl
  · intro inside
    obtain ⟨value, merged, valueSized, merges⟩ := sound.spread.exists_merged? positive inside
    exact ⟨value, by rw [merged], valueSized, merges⟩

/-- Two workers are given five and four bytes that are left over; then one of them stores the
greatest word in its lane, so that the sum wraps around, and changes the bytes that are left
over. -/
theorem workers_stay_apart_two :
    let calls : List WorkerCall :=
      [.onMap (.update #[1, 0, 0, 0] #[5, 0, 0, 0, 0, 0, 0, 0, 1, 2, 3, 4] .createOrReplace),
        .onMap (.lookupCell #[1, 0, 0, 0] 1), .onCell 0 (.store 0 8 0xffffffffffffffff)]
    let session := WorkerSession.ofCalls
      (Map.ofSchema "sums" (.perWorkerArray 12 2) 2) calls
    let call : WorkerCall := .onCell 0 (.write 8 [9, 9, 9, 9])
    (¬ session.Concerns 0 1 call ∧
      (session.perform call).map.workerValue? 0 1 = session.map.workerValue? 0 1) ∧
    ((Map.lookup #[1, 0, 0, 0]).run (session.perform call).map).1 =
      .ok (some #[4, 0, 0, 0, 0, 0, 0, 0, 1, 2, 3, 4]) := by
  intro calls session call
  have apart : ¬ session.Concerns 0 1 call := by
    rintro ⟨held, there, worker, _⟩
    have found : session.held[0]? = some ⟨#[1, 0, 0, 0], 1, 3⟩ := by rfl
    obtain rfl := Option.some.inj (found.symm.trans there)
    cases worker
  exact ⟨⟨apart, (workers_stay_apart "sums" 12 2 (by decide) calls).2.1 call 0 1 apart⟩,
    by decide +kernel⟩

end PacketFilter
