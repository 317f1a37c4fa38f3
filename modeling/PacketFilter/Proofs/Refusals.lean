import PacketFilter.Proofs.Maps
import PacketFilter.Proofs.Recency

/-!
# Refused operations on maps

An operation on a map either does what it is for or is refused, and then the
map is as it was: its keys and their order of use, their number, and what every
worker has under them.  The checks of sizes come before all changes, a table
that refuses a key has not touched its entries, and an index which is refused
for one worker is refused for the first of them already.

Beside that, every key of a map has the size that its schema declares.  Both
are kept call by call, so they hold after any series of calls.
-/

namespace PacketFilter

/-! ## Calls -/

/-- What can be asked of a map of any kind. -/
inductive MapCall where
  | lookupCell (key : Bytes) (worker : Nat)
  | lookup (key : Bytes)
  | update (key value : Bytes) (mode : UpdateMode)
  | updateFromWorker (key value : Bytes) (mode : UpdateMode) (worker : Nat)
  | delete (key : Bytes)
  | take (key : Bytes)
  deriving Repr

/-- What a map answers when it serves a call. -/
inductive MapAnswer where
  | cell (number? : Option Nat)
  | value (bytes? : Option Bytes)
  | done
  deriving DecidableEq, Repr

namespace MapCall

/-- The call as the map carries it out. -/
def action : MapCall → MapAction MapAnswer
  | lookupCell key worker => do return .cell (← Map.lookupCell key worker)
  | lookup key => do return .value (← Map.lookup key)
  | update key value mode => do
    Map.update key value mode
    return .done
  | updateFromWorker key value mode worker => do
    Map.updateFromWorker key value mode worker
    return .done
  | delete key => do
    Map.delete key
    return .done
  | take key => do return .value (← Map.take key)

/-- The answer or the error, and the map after the call. -/
def serve (call : MapCall) (map : Map) : Except MapError MapAnswer × Map :=
  call.action.run map

end MapCall

/-! ## Keys of one size -/

namespace RecencyList

variable {α : Type} {list : RecencyList α} {key other : Bytes} {value : α}

/-- A value that is found stands in an entry of the list. -/
theorem mem_of_find? (found : list.find? key = some value) : (key, value) ∈ list.entries := by
  rcases List.lookup_eq_some_iff.mp found with ⟨before, after, split, _⟩
  rw [split]
  exact List.mem_append_right before List.mem_cons_self

theorem find?_of_mem_keys (listed : key ∈ list.keys) : ∃ value, list.find? key = some value := by
  rcases List.mem_map.mp listed with ⟨entry, there, rfl⟩
  exact Option.isSome_iff_exists.mp (List.lookup_isSome_iff.mpr ⟨entry, there, beq_self_eq_true _⟩)

theorem entries_without : (list.without key).entries ⊆ list.entries :=
  List.filter_sublist.subset

theorem entries_lookup : (list.lookup key).2.entries ⊆ list.entries := by
  rw [lookup]
  split
  · exact List.Subset.refl _
  · rename_i found
    exact List.cons_subset.mpr ⟨mem_of_find? found, entries_without⟩

/-- An update brings in no entry but its own. -/
theorem entries_update
    {mode : UpdateMode} :
    (list.update key value mode).2.entries ⊆ (key, value) :: list.entries := by
  have old : list.entries ⊆ (key, value) :: list.entries := List.subset_cons_self _ _
  rw [update]
  split
  · split
    · exact old
    · exact List.cons_subset_cons _ entries_without
  · split
    · exact old
    · rw [insert]
      split
      · exact List.cons_subset_cons _ (List.dropLast_subset _)
      · exact List.Subset.refl _

theorem entries_take : (list.take key).2.entries ⊆ list.entries := by
  rw [take]
  split
  · exact List.Subset.refl _
  · exact entries_without

theorem mem_keys_lookup (listed : other ∈ (list.lookup key).2.keys) : other ∈ list.keys :=
  List.map_subset _ entries_lookup listed

/-- An update brings in no key but its own. -/
theorem mem_keys_update
    {mode : UpdateMode} (listed : other ∈ (list.update key value mode).2.keys) :
    other = key ∨ other ∈ list.keys :=
  List.mem_cons.mp (List.map_subset _ entries_update listed)

theorem mem_keys_take (listed : other ∈ (list.take key).2.keys) : other ∈ list.keys :=
  List.map_subset _ entries_take listed

end RecencyList

/-- The keys have that size.  Those of a table that forgets are the keys of the list it follows. -/
def MapContent.Keyed (content : MapContent) (size : Nat) : Prop :=
  match content with
  | .hash table => ∀ entry ∈ table.entries, entry.1.size = size
  | .recencyHash table =>
    ∃ spots list, table.Follows spots list ∧ ∀ key ∈ list.keys, key.size = size
  | .array _ | .perWorkerArray .. => size = 4
  | .ringBuffer _ => True

namespace Map

/-- The keys have the size that the schema declares. -/
def Keyed (map : Map) : Prop :=
  map.content.Keyed map.schema.keySize

theorem keyOfIndex_size (index : Nat) : (keyOfIndex index).size = 4 := by
  simp [keyOfIndex, Word.toBytes]

variable {map : Map}

theorem setContent_same {content : MapContent} (same : map.content = content) :
    map.setContent content = map := by
  rw [← same]
  rfl

/-- Every key of the map has the size that its schema gives keys. -/
theorem Keyed.keys (keyed : map.Keyed) : ∀ key ∈ map.keys, key.size = map.schema.keySize := by
  intro key listed
  rw [Map.keys] at listed
  rw [Keyed] at keyed
  split at listed
  case h_1 table isTable =>
    rw [isTable] at keyed
    rcases List.mem_map.mp listed with ⟨entry, among, rfl⟩
    exact keyed entry among
  case h_2 table isTable =>
    rw [isTable] at keyed
    rcases keyed with ⟨spots, list, follows, sized⟩
    rw [follows.holds.keys, ← follows.keys] at listed
    exact sized key listed
  case h_3 length isArray =>
    rw [isArray] at keyed
    rcases List.mem_map.mp listed with ⟨index, _, rfl⟩
    exact (keyOfIndex_size index).trans keyed.symm
  case h_4 workers length isArray =>
    rw [isArray] at keyed
    rcases List.mem_map.mp listed with ⟨index, _, rfl⟩
    exact (keyOfIndex_size index).trans keyed.symm
  case h_5 => cases listed

theorem ofSchema_keyed
    {schema : Schema} (sound : schema.problem? = none) (name : String) (workers : Nat) :
    (ofSchema name schema workers).Keyed := by
  have positive : 0 < schema.capacity := by
    simp only [Schema.problem?] at sound
    split at sound
    · cases sound
    · omega
  have keySize : schema.keyProblem? = none := by
    simp only [Schema.problem?] at sound
    split at sound
    · cases sound
    · split at sound
      · cases sound
      · exact sound
  rw [Schema.keyProblem?] at keySize
  rw [ofSchema]
  split
  case h_1 => simp [Keyed, MapContent.Keyed]
  case h_2 =>
    refine ⟨[], { capacity := schema.capacity }, .create positive, fun key listed => ?_⟩
    cases listed
  case h_3 kind =>
    simp only [kind] at keySize
    split at keySize
    case isTrue four => exact four
    case isFalse => cases keySize
  case h_4 kind =>
    simp only [kind] at keySize
    split at keySize
    case isTrue four => exact four
    case isFalse => cases keySize
  case h_5 => trivial

end Map

/-! ## Operations -/

/-- The operation leaves keys of one size, and the map as it was if it is refused. -/
structure MapAction.Settles {α : Type} (action : MapAction α) (map : Map) : Prop where
  keyed : (action.run map).2.Keyed
  unchanged : ∀ error, (action.run map).1 = .error error → (action.run map).2 = map

namespace MapAction.Settles

variable {α β : Type} {map : Map} {key value : Bytes}

/-- A call that changes nothing settles. -/
theorem of_same
    {action : MapAction α} (keyed : map.Keyed) (same : (action.run map).2 = map) :
    action.Settles map :=
  ⟨same.symm ▸ keyed, fun _ _ => same⟩

/-- A call that is done settles, if the keys keep their size. -/
theorem of_done
    {action : MapAction α} {result : α} {after : Map}
    (done : action.run map = (.ok result, after)) (keyed : after.Keyed) : action.Settles map := by
  refine ⟨done.symm ▸ keyed, fun error refused => ?_⟩
  rw [done] at refused
  cases refused

/-- What follows may be refused only if the first part has left the map as it was. -/
theorem bind
    {action : MapAction α} {next : α → MapAction β}
    (first : action.Settles map)
    (later : ∀ result after, action.run map = (.ok result, after) →
      (next result).Settles after ∧ ∀ error, ((next result).run after).1 = .error error →
        after = map) :
    MapAction.Settles (action >>= next) map := by
  rcases ran : action.run map with ⟨error | result, after⟩
  · have same := first.unchanged error (congrArg Prod.fst ran)
    refine of_same (same ▸ first.keyed) ?_
    rw [ran] at same
    rw [Stateful.run_bind, ran]
    exact same
  · rcases later result after ran with ⟨settles, untouched⟩
    have run : (action >>= next).run map = (next result).run after := by
      rw [Stateful.run_bind, ran]
    refine ⟨run.symm ▸ settles.keyed, fun error refused => ?_⟩
    rw [run] at refused ⊢
    exact (settles.unchanged error refused).trans (untouched error refused)

/-- What follows cannot be refused. -/
theorem bind_done
    {action : MapAction α} {next : α → MapAction β} {read : α → Map → β}
    (first : action.Settles map)
    (done : ∀ result after, (next result).run after = (.ok (read result after), after)) :
    MapAction.Settles (action >>= next) map := by
  refine first.bind fun result after ran => ⟨?_, fun error refused => ?_⟩
  · have keyed := first.keyed
    rw [ran] at keyed
    exact of_done (done result after) keyed
  · rw [done] at refused
    cases refused

theorem get_bind
    {next : Map → MapAction β} (later : (next map).Settles map) :
    MapAction.Settles (get >>= next) map := by
  have run : (get >>= next).run map = (next map).run map := by
    rw [Stateful.run_bind, Stateful.run_get]
  exact ⟨run.symm ▸ later.keyed, run.symm ▸ later.unchanged⟩

theorem checkKey_bind
    {next : Unit → MapAction β} (keyed : map.Keyed)
    (later : key.size = map.schema.keySize → (next ()).Settles map) :
    MapAction.Settles (Map.checkKey key >>= next) map := by
  by_cases sized : key.size = map.schema.keySize
  · have run : (Map.checkKey key >>= next).run map = (next ()).run map := by
      simp [Map.checkKey, sized]
    exact ⟨run.symm ▸ (later sized).keyed, run.symm ▸ (later sized).unchanged⟩
  · exact of_same keyed (by simp [Map.checkKey, sized])

theorem checkValue_bind
    {next : Unit → MapAction β} (keyed : map.Keyed) (later : (next ()).Settles map) :
    MapAction.Settles (Map.checkValue value >>= next) map := by
  by_cases sized : value.size = map.schema.valueSize
  · have run : (Map.checkValue value >>= next).run map = (next ()).run map := by
      simp [Map.checkValue, sized]
    exact ⟨run.symm ▸ later.keyed, run.symm ▸ later.unchanged⟩
  · exact of_same keyed (by simp [Map.checkValue, sized])

/-- Finding a cell settles, whatever its outcome. -/
theorem findCell (keyed : map.Keyed) (key : Bytes) (worker : Nat) :
    (Map.findCell key worker).Settles map := by
  refine get_bind ?_
  split
  case h_1 => exact of_same keyed rfl
  case h_2 table isTable =>
    refine of_done rfl ?_
    rw [Map.Keyed, isTable] at keyed
    rcases keyed with ⟨spots, list, follows, sized⟩
    rcases (follows.lookup key).2 with ⟨spots', follows'⟩
    exact ⟨spots', _, follows', fun other listed =>
      sized other (RecencyList.mem_keys_lookup listed)⟩
  case h_3 => exact of_same keyed rfl
  case h_4 => exact of_same keyed rfl
  case h_5 => exact of_same keyed rfl

theorem lookupCell (keyed : map.Keyed) (key : Bytes) (worker : Nat) :
    (Map.lookupCell key worker).Settles map :=
  checkKey_bind keyed fun _ => findCell keyed key worker

theorem lookup (keyed : map.Keyed) (key : Bytes) : (Map.lookup key).Settles map := by
  refine get_bind ?_
  split
  · exact checkKey_bind keyed fun _ => of_same keyed rfl
  · exact (lookupCell keyed key 0).bind_done fun _ _ => rfl

/-- Whether an index is refused depends neither on the map nor on the worker. -/
theorem updateIndex_run (length index : Nat) (value : Bytes) (mode : UpdateMode) :
    (∃ error, ∀ first map, (Map.updateIndex first length index value mode).run map =
        (.error error, map)) ∨
      index < length ∧ ∀ first map, (Map.updateIndex first length index value mode).run map =
        (.ok (), map.setCell (first + index) ⟨value⟩) := by
  by_cases inside : index < length
  · by_cases creates : mode = .createOnly
    · exact .inl ⟨.keyExists, fun first map => by simp [Map.updateIndex, inside, creates]⟩
    · exact .inr ⟨inside, fun first map => by simp [Map.updateIndex, inside, creates]⟩
  · exact .inl ⟨.indexOutOfRange index length, fun first map => by
      simp [Map.updateIndex, inside]⟩

/-- An update by index settles, whatever its outcome. -/
theorem updateIndex
    (keyed : map.Keyed) (first length index : Nat) (value : Bytes) (mode : UpdateMode) :
    (Map.updateIndex first length index value mode).Settles map := by
  rcases updateIndex_run length index value mode with ⟨error, refused⟩ | ⟨_, done⟩
  · exact of_same keyed (congrArg Prod.snd (refused first map))
  · exact of_done (done first map) keyed

/-- An index that is refused is refused for the first worker already; otherwise it is refused for
none of them. -/
theorem updateEveryWorker
    (keyed : map.Keyed) (length index : Nat) (value : Bytes) (mode : UpdateMode)
    (turns : List Nat) :
    MapAction.Settles (turns.forM fun worker =>
      Map.updateIndex (worker * length) length index value mode) map := by
  rcases updateIndex_run length index value mode with ⟨error, refused⟩ | ⟨_, done⟩
  · cases turns with
    | nil => exact of_same keyed rfl
    | cons turn rest =>
        refine of_same keyed ?_
        rw [List.forM, Stateful.run_bind, refused]
  · have completes : ∀ map : Map, map.Keyed → ∃ after : Map, after.Keyed ∧
        (turns.forM fun worker =>
          Map.updateIndex (worker * length) length index value mode).run map =
            (.ok (), after) := by
      induction turns with
      | nil => exact fun map keyed => ⟨map, keyed, rfl⟩
      | cons turn rest continues =>
          intro map keyed
          rcases continues (map.setCell (turn * length + index) ⟨value⟩) keyed with
            ⟨after, keyed', ran⟩
          refine ⟨after, keyed', ?_⟩
          rw [List.forM, Stateful.run_bind, done]
          exact ran
    rcases completes map keyed with ⟨after, keyed', ran⟩
    exact of_done ran keyed'

/-- A table that has been given a fresh cell keeps it; one that has refused it has not changed. -/
theorem keepUpdated
    {τ : Type} {content : τ → MapContent} {outcome : Except MapError Unit × τ}
    (keyed : map.Keyed) (keyed' : (content outcome.2).Keyed map.schema.keySize) :
    (Map.keepUpdated content value outcome).Settles map := by
  rcases outcome with ⟨error | _, table⟩
  · exact of_same keyed rfl
  · exact of_done rfl keyed'

/-- Putting a value settles under a key of the right size. -/
theorem putValue
    (keyed : map.Keyed) (sized : key.size = map.schema.keySize) (value : Bytes)
    (mode : UpdateMode) :
    (Map.putValue key value mode).Settles map := by
  have held := keyed
  rw [Map.Keyed] at held
  refine get_bind ?_
  split
  case h_1 table isTable =>
    rw [isTable] at held
    refine keepUpdated keyed fun entry listed => ?_
    rcases Table.mem_of_mem_update listed with rfl | old
    · exact sized
    · exact held entry old
  case h_2 table isTable =>
    rw [isTable] at held
    rcases held with ⟨spots, list, follows, held⟩
    rcases (follows.update key map.cells.size mode).2 with ⟨spots', follows'⟩
    refine keepUpdated keyed ⟨spots', _, follows', fun other listed => ?_⟩
    rcases RecencyList.mem_keys_update listed with rfl | old
    · exact sized
    · exact held other old
  case h_3 => exact updateIndex keyed _ _ _ _ mode
  case h_4 => exact updateEveryWorker keyed _ _ _ mode _
  case h_5 => exact of_same keyed rfl

theorem update (keyed : map.Keyed) (key value : Bytes) (mode : UpdateMode) :
    (Map.update key value mode).Settles map :=
  checkKey_bind keyed fun sized => checkValue_bind keyed (putValue keyed sized value mode)

theorem updateFromWorker
    (keyed : map.Keyed) (key value : Bytes) (mode : UpdateMode) (worker : Nat) :
    (Map.updateFromWorker key value mode worker).Settles map := by
  refine get_bind ?_
  split
  case h_1 workers length _ =>
    refine checkKey_bind keyed fun _ => checkValue_bind keyed ?_
    by_cases known : worker < workers
    · simpa [known] using updateIndex keyed _ _ _ value mode
    · exact of_same keyed (by simp [known])
  case h_2 => exact update keyed key value mode

/-- Removing a key settles, whatever its outcome. -/
theorem removeKey (keyed : map.Keyed) (key : Bytes) : (Map.removeKey key).Settles map := by
  have held := keyed
  rw [Map.Keyed] at held
  refine get_bind ?_
  split
  case h_1 table isTable =>
    rw [isTable] at held
    exact of_done rfl fun entry listed => held entry (Table.mem_of_mem_take listed)
  case h_2 table isTable =>
    rw [isTable] at held
    rcases held with ⟨spots, list, follows, held⟩
    rcases (follows.take key).2 with ⟨spots', follows'⟩
    exact of_done rfl
      ⟨spots', _, follows', fun other listed => held other (RecencyList.mem_keys_take listed)⟩
  case h_3 => exact of_same keyed rfl

theorem takeCell (keyed : map.Keyed) (key : Bytes) : (Map.takeCell key).Settles map :=
  checkKey_bind keyed fun _ => removeKey keyed key

theorem take (keyed : map.Keyed) (key : Bytes) : (Map.take key).Settles map :=
  (takeCell keyed key).bind_done fun _ _ => rfl

/-- Taking a key that is not there takes nothing away.  In a table that forgets, a key of the index
always leads to an entry. -/
theorem takeCell_absent
    {after : Map} (keyed : map.Keyed) (ran : (Map.takeCell key).run map = (.ok none, after)) :
    after = map := by
  rw [Map.Keyed] at keyed
  by_cases sized : key.size = map.schema.keySize
  · simp only [Map.takeCell, Map.checkKey, Map.removeKey, Stateful.run_bind, Stateful.run_get,
      Stateful.run_pure, if_pos sized] at ran
    split at ran
    case h_1 table isTable =>
      rcases Prod.mk.inj ran with ⟨absent, rfl⟩
      rw [Table.take] at absent ⊢
      split at absent
      case h_1 => exact Map.setContent_same isTable
      case h_2 => cases absent
    case h_2 table isTable =>
      rw [isTable] at keyed
      rcases keyed with ⟨spots, list, follows, _⟩
      rcases Prod.mk.inj ran with ⟨absent, rfl⟩
      rcases follows.find key with ⟨missing, _⟩ | ⟨front, spot, back, rfl, rfl, found, _⟩
      · rw [RecencyTable.take, missing]
        exact Map.setContent_same isTable
      · have taken := follows.holds.remove.1
        rw [RecencyTable.take, found] at absent
        cases taken.symm.trans (Except.ok.inj absent)
    case h_3 => exact absurd (congrArg Prod.fst ran) (by simp [Map.refuse])
  · exact absurd (congrArg Prod.fst ran) (by simp [Map.takeCell, Map.checkKey, sized])

theorem delete (keyed : map.Keyed) (key : Bytes) : (Map.delete key).Settles map := by
  have taken := takeCell keyed key
  refine taken.bind fun found? after ran => ?_
  have keyed' := taken.keyed
  rw [ran] at keyed'
  cases found? with
  | none => exact ⟨of_same keyed' rfl, fun _ _ => takeCell_absent keyed ran⟩
  | some number => exact ⟨of_same keyed' rfl, fun _ refused => (by cases refused)⟩

end MapAction.Settles

namespace MapCall

variable {map : Map}

/-- Every call settles on a map whose keys have their size. -/
theorem settles (keyed : map.Keyed) (call : MapCall) : call.action.Settles map := by
  cases call with
  | lookupCell key worker =>
      exact (MapAction.Settles.lookupCell keyed key worker).bind_done fun _ _ => rfl
  | lookup key => exact (MapAction.Settles.lookup keyed key).bind_done fun _ _ => rfl
  | update key value mode =>
      exact (MapAction.Settles.update keyed key value mode).bind_done fun _ _ => rfl
  | updateFromWorker key value mode worker =>
      refine MapAction.Settles.bind_done ?_ fun _ _ => rfl
      exact MapAction.Settles.updateFromWorker keyed key value mode worker
  | delete key => exact (MapAction.Settles.delete keyed key).bind_done fun _ _ => rfl
  | take key => exact (MapAction.Settles.take keyed key).bind_done fun _ _ => rfl

theorem keeps (call : MapCall) : call.action.Keeps := by
  cases call with
  | lookupCell key worker =>
      exact (MapAction.Keeps.lookupCell key worker).bind fun _ => .pure _
  | lookup key => exact (MapAction.Keeps.lookup key).bind fun _ => .pure _
  | update key value mode => exact (MapAction.Keeps.update key value mode).bind fun _ => .pure _
  | updateFromWorker key value mode worker =>
      exact (MapAction.Keeps.updateFromWorker key value mode worker).bind fun _ => .pure _
  | delete key => exact (MapAction.Keeps.delete key).bind fun _ => .pure _
  | take key => exact (MapAction.Keeps.take key).bind fun _ => .pure _

end MapCall

/-- A map of any admissible schema, after whatever has been called on it, holds keys and values of
the sizes that the schema declares, in ring slots too; and whatever is called next, if it is
refused, has left the map as it was. -/
theorem map_calls_settle
    {schema : Schema} (sound : schema.problem? = none) (name : String) (workers : Nat)
    (calls : List MapCall) :
    ∃ map, Map.create name schema workers = .ok map ∧
      let after := (answerAll MapCall.serve calls map).2
      after.schema = schema ∧
        (∀ key ∈ after.keys, key.size = schema.keySize) ∧
        (∀ cell ∈ after.cells, cell.size = schema.valueSize) ∧
        (∀ ring, after.ring? = some ring → ∀ slot ∈ ring.slots,
          slot.cell.size = schema.valueSize) ∧
        ∀ (call : MapCall) (error : MapError), (call.serve after).1 = .error error →
          (call.serve after).2 = after := by
  have created : Map.create name schema workers =
      .ok (Map.ofSchema name schema (max 1 workers)) := by rw [Map.create, sound]
  generalize begins : Map.ofSchema name schema (max 1 workers) = map at created
  have schemaIs : map.schema = schema := by
    rw [← begins, Map.ofSchema]
    split <;> rfl
  have keeps : ∀ (call : MapCall) (other : Map), other.Keyed ∧ map.Kept other →
      (call.serve other).2.Keyed ∧ map.Kept (call.serve other).2 := by
    rintro call other ⟨keyed, kept⟩
    exact ⟨(call.settles keyed).keyed, kept.trans (call.keeps other kept.wellFormed)⟩
  rcases answerAll_keeps keeps calls ⟨begins ▸ Map.ofSchema_keyed sound name _,
    .refl (Map.create_wellFormed created)⟩ with ⟨keyed, kept⟩
  have same := kept.schema.trans schemaIs
  refine ⟨map, created, same, ?_, ?_, fun ring isRing => ?_, fun call => ?_⟩
  · exact same ▸ keyed.keys
  · exact same ▸ kept.wellFormed.cells
  · have records := kept.wellFormed.ring isRing
    intro slot listed
    rw [records.2.cells slot listed, records.1, same]
  · exact (call.settles keyed).unchanged

/-- A table with room for one key refuses a second one, and still has the first. -/
theorem full_map_settles :
    (Schema.hash 1 2 1).problem? = none ∧
      let after := (answerAll MapCall.serve [.update #[7] #[1, 0] .createOrReplace]
        (Map.ofSchema "table" (Schema.hash 1 2 1) 1)).2
      let refused := (MapCall.update #[8] #[2, 0] .createOrReplace).serve after
      after.keys = [#[7]] ∧ refused.1 = .error .full ∧ refused.2 = after := by
  rcases map_calls_settle (show (Schema.hash 1 2 1).problem? = none by decide) "table" 1
    [.update #[7] #[1, 0] .createOrReplace] with ⟨map, created, _, _, _, _, unchanged⟩
  have same : Map.ofSchema "table" (Schema.hash 1 2 1) 1 = map := Except.ok.inj created
  subst same
  have refused : ((MapCall.update #[8] #[2, 0] .createOrReplace).serve
      (answerAll MapCall.serve [.update #[7] #[1, 0] .createOrReplace]
        (Map.ofSchema "table" (Schema.hash 1 2 1) 1)).2).1 = .error .full := by
    decide +kernel
  exact ⟨by decide, by decide +kernel, refused, unchanged _ _ refused⟩

end PacketFilter
