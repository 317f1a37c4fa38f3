import PacketFilter.Map.Store
import PacketFilter.Proofs.Bytes
import PacketFilter.Proofs.RecencyTable
import PacketFilter.Proofs.Stateful

/-!
# Well-formed maps

A map made by `Map.create` has an admissible schema, cells of the size of its
values, and contents of the kind of its schema that lead to cells which are
there.  Every operation keeps this, and none takes a cell away or changes the
schema.  So the number of a cell, once handed out, goes on leading to a value
of the same size.

`WellFormed` is that property and `Kept` what an operation does to a map that
has it; both are lifted to stores.
-/

namespace PacketFilter

/-! ## Cells and rings -/

namespace Cell

theorem covers_iff {cell : Cell} {offset length : Nat} :
    cell.covers offset length = true ↔ offset + length ≤ cell.size :=
  Bytes.covers_iff

@[simp]
theorem withInteger_size (cell : Cell) (offset length : Nat) (value : Word) :
    (cell.withInteger offset length value).size = cell.size :=
  Bytes.overwrite_size _ _ _

end Cell

namespace Ring

/-- There are slots, and each holds a cell of the size of the records. -/
structure WellFormed (ring : Ring) : Prop where
  nonempty : 0 < ring.slots.size
  cells : ∀ slot ∈ ring.slots, slot.cell.size = ring.recordSize

/-- A change that keeps the records' size, the number of slots and the size of their cells. -/
structure Kept (before after : Ring) : Prop where
  wellFormed : after.WellFormed
  recordSize : after.recordSize = before.recordSize
  slots : after.slots.size = before.slots.size

theorem Kept.refl
    {ring : Ring}
    (wellFormed : ring.WellFormed) :
    ring.Kept ring :=
  ⟨wellFormed, rfl, rfl⟩

theorem Kept.trans
    {first second third : Ring}
    (earlier : first.Kept second) (later : second.Kept third) :
    first.Kept third :=
  ⟨later.wellFormed, later.recordSize.trans earlier.recordSize, later.slots.trans earlier.slots⟩

theorem create_wellFormed
    {recordSize slots : Nat}
    (positive : 0 < slots) :
    (create recordSize slots).WellFormed := by
  constructor
  · simpa [create] using positive
  · intro slot found
    simp only [create, Array.mem_map] at found
    obtain ⟨sequence, _, rfl⟩ := found
    simp [create, Cell.zeroed, Cell.size]

/-- The slot of any position is one of the ring's. -/
theorem WellFormed.slot_mem
    {ring : Ring}
    (wellFormed : ring.WellFormed) (position : Nat) :
    ring.slot position ∈ ring.slots := by
  have inside : position % ring.capacity < ring.slots.size :=
    Nat.mod_lt position wellFormed.nonempty
  rw [slot, Array.getElem?_eq_getElem inside, Option.getD_some]
  exact Array.getElem_mem inside

theorem WellFormed.cell_size
    {ring : Ring}
    (wellFormed : ring.WellFormed) (position : Nat) :
    (ring.cell position).size = ring.recordSize :=
  wellFormed.cells _ (wellFormed.slot_mem position)

/-- Changing a slot without changing the size of its cell. -/
theorem WellFormed.modifySlot
    {ring : Ring} {change : RingSlot → RingSlot}
    (wellFormed : ring.WellFormed) (position : Nat)
    (sized : ∀ slot ∈ ring.slots, (change slot).cell.size = ring.recordSize) :
    ring.Kept (ring.modifySlot position change) := by
  refine ⟨⟨?_, ?_⟩, rfl, ?_⟩
  · simpa [Ring.modifySlot] using wellFormed.nonempty
  · intro slot found
    simp only [Ring.modifySlot] at found
    obtain ⟨index, inside, rfl⟩ := Array.mem_iff_getElem.mp found
    rw [Array.getElem_modify]
    have member := @Array.getElem_mem _ ring.slots index (by simpa using inside)
    split
    · exact sized _ member
    · exact wellFormed.cells _ member
  · simp [Ring.modifySlot]

theorem WellFormed.reserve
    {ring : Ring}
    (wellFormed : ring.WellFormed) (length : Nat) :
    ring.Kept (ring.reserve length).2 := by
  have claimed :
      ring.Kept (ring.modifySlot ring.tail fun slot =>
        { slot with
          length, cell := ⟨Bytes.overwrite slot.cell.bytes 0 (List.replicate length 0)⟩ }) := by
    apply wellFormed.modifySlot
    intro slot found
    exact (Bytes.overwrite_size _ _ _).trans (wellFormed.cells slot found)
  simp only [Ring.reserve]
  split
  · exact Kept.refl wellFormed
  · split
    · exact ⟨⟨claimed.wellFormed.nonempty, claimed.wellFormed.cells⟩, rfl, claimed.slots⟩
    · split
      · exact ⟨⟨wellFormed.nonempty, wellFormed.cells⟩, rfl, rfl⟩
      · exact Kept.refl wellFormed

/-- A record that has been claimed fits the slots. -/
theorem length_of_reserve
    {ring : Ring} {length : Nat} {reservation : Reservation}
    (claimed : (ring.reserve length).1 = some reservation) :
    reservation.length = length ∧ length ≤ ring.recordSize := by
  simp only [Ring.reserve] at claimed
  split at claimed
  · cases claimed
  · split at claimed
    · cases claimed
      exact ⟨rfl, by omega⟩
    · split at claimed <;> cases claimed

theorem WellFormed.setCell
    {ring : Ring} {cell : Cell}
    (wellFormed : ring.WellFormed) (position : Nat) (sized : cell.size = ring.recordSize) :
    ring.Kept (ring.setCell position cell) :=
  wellFormed.modifySlot position fun _ _ => sized

theorem WellFormed.complete
    {ring : Ring}
    (wellFormed : ring.WellFormed) (position : Nat) (isDiscarded : Bool) :
    ring.Kept (ring.complete position isDiscarded) :=
  wellFormed.modifySlot position wellFormed.cells

theorem WellFormed.release
    {ring : Ring}
    (wellFormed : ring.WellFormed) :
    ring.Kept ring.release := by
  have freed :
      ring.Kept (ring.modifySlot ring.head fun slot =>
        { slot with sequence := ring.head + ring.capacity }) :=
    wellFormed.modifySlot ring.head wellFormed.cells
  exact ⟨⟨freed.wellFormed.nonempty, freed.wellFormed.cells⟩, rfl, freed.slots⟩

theorem WellFormed.write
    {ring written : Ring} {reservation : Reservation} {offset : Nat} {data : Bytes}
    (wellFormed : ring.WellFormed)
    (done : ring.write? reservation offset data = some written) :
    ring.Kept written := by
  simp only [Ring.write?] at done
  split at done
  · cases done
  · rcases Option.map_eq_some_iff.mp done with ⟨cell, stored, rfl⟩
    apply wellFormed.setCell
    simp only [Cell.write?, Bytes.write?] at stored
    split at stored
    · cases stored
      exact (Bytes.overwrite_size _ _ _).trans (wellFormed.cell_size _)
    · cases stored

theorem WellFormed.output
    {ring : Ring}
    (wellFormed : ring.WellFormed) (data : Bytes) :
    ring.Kept (ring.output? data).2 := by
  have claimed := wellFormed.reserve data.size
  simp only [Ring.output?]
  split
  case h_1 refused equation =>
    rw [equation] at claimed
    exact claimed
  case h_2 reservation claimedRing equation =>
    rw [equation] at claimed
    apply claimed.trans
    cases done : claimedRing.write? reservation 0 data with
    | none => exact claimed.wellFormed.complete _ _
    | some written =>
        have filled := claimed.wellFormed.write done
        exact filled.trans (filled.wellFormed.complete _ _)

theorem WellFormed.pollWithin
    (skips : Nat) :
    ∀ {ring : Ring}, ring.WellFormed → ring.Kept (ring.pollWithin skips).2 := by
  induction skips with
  | zero => exact fun wellFormed => Kept.refl wellFormed
  | succ skips hypothesis =>
      intro ring wellFormed
      simp only [Ring.pollWithin]
      split
      · exact Kept.refl wellFormed
      · split
        · have freed := wellFormed.release
          exact freed.trans (hypothesis freed.wellFormed)
        · exact wellFormed.release

theorem WellFormed.poll
    {ring : Ring}
    (wellFormed : ring.WellFormed) :
    ring.Kept ring.poll.2 :=
  WellFormed.pollWithin _ wellFormed

end Ring

/-! ## Maps -/

@[simp]
theorem Table.entries_empty {α : Type} (capacity : Nat) :
    ({ capacity } : Table α).entries = [] := by
  simp [Table.entries]

/-- The contents are of the kind of the schema and lead to none but the given number of cells. -/
def MapContent.Fits (content : MapContent) (schema : Schema) (cells : Nat) : Prop :=
  match content with
  | .hash table => schema.kind = .hash ∧ ∀ entry ∈ table.entries, entry.2 < cells
  | .recencyHash table => schema.kind = .recencyHash ∧ table.All (· < cells)
  | .array length => schema.kind = .array ∧ length ≤ cells
  | .perWorkerArray workers length =>
    schema.kind = .perWorkerArray ∧ workers * length ≤ cells
  | .ringBuffer ring =>
    schema.kind = .ringBuffer ∧ ring.recordSize = schema.valueSize ∧ ring.WellFormed

/-- More cells do no harm. -/
theorem MapContent.Fits.mono
    {content : MapContent} {schema : Schema} {cells cells' : Nat}
    (fits : content.Fits schema cells) (grown : cells ≤ cells') :
    content.Fits schema cells' := by
  cases content with
  | hash table => exact ⟨fits.1, fun entry found => (fits.2 entry found).trans_le grown⟩
  | recencyHash table => exact ⟨fits.1, fits.2.mono fun _ inside => inside.trans_le grown⟩
  | array length => exact ⟨fits.1, fits.2.trans grown⟩
  | perWorkerArray workers length => exact ⟨fits.1, fits.2.trans grown⟩
  | ringBuffer ring => exact fits

namespace Map

/-- What holds of every map that is made by `Map.create` and changed by operations. -/
structure WellFormed (map : Map) : Prop where
  schema : map.schema.problem? = none
  cells : ∀ cell ∈ map.cells, cell.size = map.schema.valueSize
  content : map.content.Fits map.schema map.cells.size

/-- What an operation keeps of a map: its schema, and the cells it has. -/
structure Kept (before after : Map) : Prop where
  wellFormed : after.WellFormed
  schema : after.schema = before.schema
  cells : before.cells.size ≤ after.cells.size

theorem Kept.refl
    {map : Map}
    (wellFormed : map.WellFormed) :
    map.Kept map :=
  ⟨wellFormed, rfl, Nat.le_refl _⟩

theorem Kept.trans
    {first second third : Map}
    (earlier : first.Kept second) (later : second.Kept third) :
    first.Kept third :=
  ⟨later.wellFormed, later.schema.trans earlier.schema, earlier.cells.trans later.cells⟩

theorem create_wellFormed
    {name : String} {schema : Schema} {workers : Nat} {map : Map}
    (created : Map.create name schema workers = .ok map) :
    map.WellFormed := by
  simp only [Map.create] at created
  split at created
  · cases created
  · rename_i sound
    cases created
    have positive : 0 < schema.capacity := by
      simp only [Schema.problem?] at sound
      split at sound
      · cases sound
      · omega
    have sized (count : Nat) :
        ∀ cell ∈ Array.replicate count (Cell.zeroed schema.valueSize),
          cell.size = schema.valueSize := by
      intro cell found
      rw [(Array.mem_replicate.mp found).2]
      simp [Cell.zeroed, Cell.size]
    simp only [Map.ofSchema]
    split
    case h_1 kind => exact ⟨sound, by simp, kind, by simp⟩
    case h_2 kind => exact ⟨sound, by simp, kind, RecencyTable.All.empty schema.capacity⟩
    case h_3 kind => exact ⟨sound, sized _, kind, by simp⟩
    case h_4 kind => exact ⟨sound, sized _, kind, by simp⟩
    case h_5 kind => exact ⟨sound, by simp, kind, rfl, Ring.create_wellFormed positive⟩

theorem WellFormed.setCell
    {map : Map} {cell : Cell}
    (wellFormed : map.WellFormed) (number : Nat) (sized : cell.size = map.schema.valueSize) :
    map.Kept (map.setCell number cell) := by
  refine ⟨⟨wellFormed.schema, ?_, ?_⟩, rfl, ?_⟩
  · intro other found
    rcases Array.mem_or_eq_of_mem_setIfInBounds found with old | new
    · exact wellFormed.cells other old
    · rw [new]
      exact sized
  · simpa [Map.setCell] using wellFormed.content
  · simp [Map.setCell]

theorem WellFormed.setContent
    {map : Map} {content : MapContent}
    (wellFormed : map.WellFormed) (fits : content.Fits map.schema map.cells.size) :
    map.Kept (map.setContent content) :=
  ⟨⟨wellFormed.schema, wellFormed.cells, fits⟩, rfl, Nat.le_refl _⟩

theorem WellFormed.addCell
    {map : Map} {value : Bytes}
    (wellFormed : map.WellFormed) (sized : value.size = map.schema.valueSize) :
    map.Kept (map.addCell value) := by
  refine ⟨⟨wellFormed.schema, ?_, ?_⟩, rfl, ?_⟩
  · intro cell found
    rcases Array.mem_push.mp found with old | new
    · exact wellFormed.cells cell old
    · rw [new]
      exact sized
  · apply wellFormed.content.mono
    simp [Map.addCell]
  · simp [Map.addCell]

/-- A change of the ring of a ring buffer. -/
theorem WellFormed.onRing
    {map : Map} {α : Type} {change : Ring → α × Ring}
    (wellFormed : map.WellFormed)
    (keeps : ∀ {ring : Ring}, map.ring? = some ring → ring.WellFormed →
      ring.Kept (change ring).2) :
    map.Kept (map.onRing change).2 := by
  have content := wellFormed.content
  simp only [Map.onRing]
  split
  case h_1 ring isRing =>
    rw [isRing] at content
    have kept := keeps (by rw [Map.ring?, isRing]) content.2.2
    exact wellFormed.setContent ⟨content.1, kept.recordSize.trans content.2.1, kept.wellFormed⟩
  case h_2 => exact Kept.refl wellFormed

end Map

/-! ## Operations on maps -/

namespace Table

variable {α : Type} {table : Table α} {key : Bytes} {value : α}

theorem mem_entries {entry : Bytes × α} :
    entry ∈ table.entries ↔
      ∃ (index : Nat) (inside : index < shardCount), entry ∈ table.shards[index] := by
  simp only [entries, List.mem_flatten, Vector.mem_toList_iff, Vector.mem_iff_getElem]
  constructor
  · rintro ⟨_, ⟨index, inside, rfl⟩, listed⟩
    exact ⟨index, inside, listed⟩
  · rintro ⟨index, inside, listed⟩
    exact ⟨_, ⟨index, inside, rfl⟩, listed⟩

theorem mem_of_mem_shard {entry : Bytes × α} (listed : entry ∈ table.shard key) :
    entry ∈ table.entries :=
  mem_entries.mpr ⟨_, (shardOf key).isLt, listed⟩

theorem mem_of_find (found : table.find? key = some value) : (key, value) ∈ table.entries := by
  rcases List.lookup_eq_some_iff.mp found with ⟨before, after, split, _⟩
  have listed : (key, value) ∈ table.shard key := by
    rw [split]
    exact List.mem_append_right _ List.mem_cons_self
  exact mem_of_mem_shard listed

/-- Setting a shard brings in nothing but its new entries. -/
theorem mem_of_mem_setShard
    {changed : List (Bytes × α)} {entry : Bytes × α}
    (listed : entry ∈ (table.setShard key changed).entries) :
    entry ∈ changed ∨ entry ∈ table.entries := by
  rcases mem_entries.mp listed with ⟨index, inside, among⟩
  simp only [setShard, Vector.getElem_set] at among
  split at among
  · exact .inl among
  · exact .inr (mem_entries.mpr ⟨index, inside, among⟩)

theorem mem_of_mem_update
    {mode : UpdateMode} {entry : Bytes × α}
    (listed : entry ∈ (table.update key value mode).2.entries) :
    entry = (key, value) ∨ entry ∈ table.entries := by
  rw [update] at listed
  split at listed
  · split at listed
    · exact .inr listed
    · rcases mem_of_mem_setShard listed with changed | old
      · rcases List.mem_map.mp changed with ⟨before, among, same⟩
        split at same
        · exact .inl same.symm
        · exact .inr (mem_of_mem_shard (same ▸ among))
      · exact .inr old
  · split at listed
    · exact .inr listed
    · split at listed
      · exact .inr listed
      · have among :
          entry ∈ (table.setShard key ((key, value) :: table.shard key)).entries := listed
        rcases mem_of_mem_setShard among with changed | old
        · rcases List.mem_cons.mp changed with new | among
          · exact .inl new
          · exact .inr (mem_of_mem_shard among)
        · exact .inr old

theorem mem_of_mem_take
    {entry : Bytes × α} (listed : entry ∈ (table.take key).2.entries) :
    entry ∈ table.entries := by
  rw [take] at listed
  split at listed
  · exact listed
  · have among : entry ∈ (table.setShard key ((table.shard key).filter (·.1 ≠ key))).entries :=
      listed
    rcases mem_of_mem_setShard among with changed | old
    · exact mem_of_mem_shard (List.mem_filter.mp changed).1
    · exact old

end Table

/-- The operation keeps every well-formed map. -/
def MapAction.Keeps {α : Type} (action : MapAction α) : Prop :=
  ∀ map : Map, map.WellFormed → map.Kept (action.run map).2

namespace MapAction.Keeps

variable {α β : Type}

theorem pure (result : α) : MapAction.Keeps (Pure.pure result) :=
  fun _ wellFormed => Map.Kept.refl wellFormed

theorem throw (error : MapError) : MapAction.Keeps (MonadExcept.throw error : MapAction α) :=
  fun _ wellFormed => Map.Kept.refl wellFormed

theorem bind
    {action : MapAction α} {next : α → MapAction β}
    (first : action.Keeps) (later : ∀ result, (next result).Keeps) :
    MapAction.Keeps (action >>= next) := by
  intro map wellFormed
  have kept := first map wellFormed
  rw [Stateful.run_bind]
  split
  case h_1 result after equation =>
    rw [equation] at kept
    exact kept.trans (later result after kept.wellFormed)
  case h_2 error after equation =>
    rw [equation] at kept
    exact kept

/-- What follows may depend on the map as it is. -/
theorem get_bind
    {next : Map → MapAction β}
    (later : ∀ map : Map, map.WellFormed → map.Kept ((next map).run map).2) :
    MapAction.Keeps (get >>= next) := by
  intro map wellFormed
  rw [Stateful.run_bind, Stateful.run_get]
  exact later map wellFormed

theorem checkKey (key : Bytes) : (Map.checkKey key).Keeps := by
  apply get_bind
  intro map wellFormed
  dsimp only
  split
  · exact pure _ map wellFormed
  · exact throw _ map wellFormed

/-- What follows a check of a value may rely on its size. -/
theorem checkValue_bind
    {value : Bytes} {next : Unit → MapAction β}
    (later : ∀ map : Map, map.WellFormed → value.size = map.schema.valueSize →
      map.Kept ((next ()).run map).2) :
    MapAction.Keeps (Map.checkValue value >>= next) := by
  intro map wellFormed
  by_cases sized : value.size = map.schema.valueSize
  · simpa [Map.checkValue, sized] using later map wellFormed sized
  · simpa [Map.checkValue, sized] using Map.Kept.refl wellFormed

theorem refuse (operation : String) : (Map.refuse operation : MapAction α).Keeps :=
  get_bind fun map wellFormed => throw _ map wellFormed

theorem findCell (key : Bytes) (worker : Nat) : (Map.findCell key worker).Keeps := by
  apply get_bind
  intro map wellFormed
  have content := wellFormed.content
  split
  case h_1 => exact pure _ map wellFormed
  case h_2 table isTable =>
    rw [isTable] at content
    exact wellFormed.setContent ⟨content.1, (content.2.lookup key).2⟩
  case h_3 => exact pure _ map wellFormed
  case h_4 => exact pure _ map wellFormed
  case h_5 => exact refuse _ map wellFormed

theorem lookupCell (key : Bytes) (worker : Nat) : (Map.lookupCell key worker).Keeps :=
  bind (checkKey key) fun _ => findCell key worker

theorem lookup (key : Bytes) : (Map.lookup key).Keeps := by
  apply get_bind
  intro map wellFormed
  split
  · apply bind (checkKey key) (fun _ => ?_) map wellFormed
    exact get_bind fun map wellFormed => pure _ map wellFormed
  · apply bind (lookupCell key 0) (fun _ => ?_) map wellFormed
    exact get_bind fun map wellFormed => pure _ map wellFormed

theorem updateIndex
    {value : Bytes} {map : Map}
    (wellFormed : map.WellFormed) (sized : value.size = map.schema.valueSize)
    (first length index : Nat) (mode : UpdateMode) :
    map.Kept ((Map.updateIndex first length index value mode).run map).2 := by
  by_cases inside : index < length
  · by_cases taken : mode = .createOnly
    · simpa [Map.updateIndex, inside, taken] using Map.Kept.refl wellFormed
    · simpa [Map.updateIndex, inside, taken] using wellFormed.setCell _ sized
  · simpa [Map.updateIndex, inside] using Map.Kept.refl wellFormed

/-- A fresh cell under a key of a table. -/
theorem install
    {map : Map} {value : Bytes} {content : MapContent}
    (wellFormed : map.WellFormed) (sized : value.size = map.schema.valueSize)
    (fits : content.Fits map.schema (map.cells.size + 1)) :
    map.Kept ((map.addCell value).setContent content) := by
  have grown := wellFormed.addCell sized
  apply grown.trans
  apply grown.wellFormed.setContent
  simpa [Map.addCell] using fits

/-- A table has been given a fresh cell, or has refused it. -/
theorem keepUpdated
    {map : Map} {value : Bytes} {τ : Type} {content : τ → MapContent}
    {outcome : Except MapError Unit × τ}
    (wellFormed : map.WellFormed) (sized : value.size = map.schema.valueSize)
    (fits : (content outcome.2).Fits map.schema (map.cells.size + 1)) :
    map.Kept ((Map.keepUpdated content value outcome).run map).2 := by
  rcases outcome with ⟨error | _, table⟩
  · exact Map.Kept.refl wellFormed
  · exact install wellFormed sized fits

/-- The entries of a table lead to cells that are there, a fresh one included. -/
theorem fits_update
    {schema : Schema} {cells : Nat} {table : Table Nat}
    (fits : (MapContent.hash table).Fits schema cells) (key : Bytes) (mode : UpdateMode) :
    (MapContent.hash (table.update key cells mode).2).Fits schema (cells + 1) := by
  refine ⟨fits.1, fun entry listed => ?_⟩
  rcases Table.mem_of_mem_update listed with rfl | old
  · exact Nat.lt_succ_self _
  · exact Nat.lt_succ_of_lt (fits.2 entry old)

/-- One worker's array after the other.  The size of the value has been checked against the schema,
which no worker's turn changes. -/
theorem updateEveryWorker
    {value : Bytes} {map : Map} (length index : Nat) (mode : UpdateMode) (turns : List Nat)
    (sized : value.size = map.schema.valueSize) :
    ∀ current : Map, map.Kept current →
      map.Kept ((turns.forM fun worker =>
        Map.updateIndex (worker * length) length index value mode).run current).2 := by
  induction turns with
  | nil => exact fun current kept => kept
  | cons turn rest hypothesis =>
      intro current kept
      have turned := updateIndex kept.wellFormed (sized.trans (by rw [kept.schema]))
        (turn * length) length index mode
      rw [List.forM, Stateful.run_bind]
      split
      case h_1 result after equation =>
        rw [equation] at turned
        exact hypothesis after (kept.trans turned)
      case h_2 error after equation =>
        rw [equation] at turned
        exact kept.trans turned

theorem putValue
    {map : Map} {value : Bytes}
    (wellFormed : map.WellFormed) (sized : value.size = map.schema.valueSize)
    (key : Bytes) (mode : UpdateMode) :
    map.Kept ((Map.putValue key value mode).run map).2 := by
  have content := wellFormed.content
  rw [Map.putValue, Stateful.run_bind, Stateful.run_get]
  dsimp only
  split
  case h_1 table isTable =>
    rw [isTable] at content
    exact keepUpdated wellFormed sized (fits_update content key mode)
  case h_2 table isTable =>
    rw [isTable] at content
    have grown := content.2.mono fun _ inside => Nat.lt_succ_of_lt inside
    exact keepUpdated wellFormed sized ⟨content.1, grown.update key (Nat.lt_succ_self _) mode⟩
  case h_3 => exact updateIndex wellFormed sized _ _ _ mode
  case h_4 workers length isArray =>
    exact updateEveryWorker length _ mode _ sized map (Map.Kept.refl wellFormed)
  case h_5 => exact refuse _ map wellFormed

theorem update (key value : Bytes) (mode : UpdateMode) : (Map.update key value mode).Keeps :=
  bind (checkKey key) fun _ => checkValue_bind fun _ wellFormed sized =>
    putValue wellFormed sized key mode

theorem updateFromWorker (key value : Bytes) (mode : UpdateMode) (worker : Nat) :
    (Map.updateFromWorker key value mode worker).Keeps := by
  apply get_bind
  intro map wellFormed
  split
  case h_1 workers length isArray =>
    apply bind (checkKey key) (fun _ => ?_) map wellFormed
    apply checkValue_bind
    intro map wellFormed sized
    by_cases known : worker < workers
    · simpa [known] using updateIndex wellFormed sized _ _ _ mode
    · simpa [known] using Map.Kept.refl wellFormed
  case h_2 => exact update key value mode map wellFormed

theorem removeKey (key : Bytes) : (Map.removeKey key).Keeps := by
  apply get_bind
  intro map wellFormed
  have content := wellFormed.content
  split
  case h_1 table isTable =>
    rw [isTable] at content
    exact wellFormed.setContent
      ⟨content.1, fun entry listed => content.2 entry (Table.mem_of_mem_take listed)⟩
  case h_2 table isTable =>
    rw [isTable] at content
    exact wellFormed.setContent ⟨content.1, content.2.take key⟩
  case h_3 => exact refuse _ map wellFormed

theorem takeCell (key : Bytes) : (Map.takeCell key).Keeps :=
  bind (checkKey key) fun _ => removeKey key

theorem take (key : Bytes) : (Map.take key).Keeps := by
  apply bind (takeCell key)
  intro found?
  exact get_bind fun map wellFormed => pure _ map wellFormed

theorem delete (key : Bytes) : (Map.delete key).Keeps := by
  apply bind (takeCell key)
  intro found?
  split
  · exact throw _
  · exact pure _

end MapAction.Keeps

/-- A cell that a lookup finds is one of the map's. -/
theorem Map.WellFormed.lookupCell_lt
    {map after : Map} {key : Bytes} {worker number : Nat}
    (wellFormed : map.WellFormed)
    (found : (Map.lookupCell key worker).run map = (.ok (some number), after)) :
    number < after.cells.size := by
  have content := wellFormed.content
  by_cases sized : key.size = map.schema.keySize
  · simp only [Map.lookupCell, Map.findCell, Map.checkKey, Stateful.run_bind, Stateful.run_get,
      Stateful.run_pure, if_pos sized] at found
    split at found
    case h_1 table isTable =>
      rw [isTable] at content
      rcases Prod.mk.inj found with ⟨result, rfl⟩
      exact content.2 _ (Table.mem_of_find (Except.ok.inj result))
    case h_2 table isTable =>
      rw [isTable] at content
      rcases Prod.mk.inj found with ⟨result, rfl⟩
      exact (content.2.lookup key).1 number (Except.ok.inj result)
    case h_3 length isArray =>
      rw [isArray] at content
      rcases Prod.mk.inj found with ⟨result, rfl⟩
      have inside := Option.filter_eq_some_iff.mp (Except.ok.inj result)
      have below := of_decide_eq_true inside.2
      exact below.trans_le content.2
    case h_4 workers length isArray =>
      rw [isArray] at content
      rcases Prod.mk.inj found with ⟨result, rfl⟩
      have inside := Except.ok.inj result
      simp only [Map.workerCell?, isArray] at inside
      split at inside
      case isTrue within =>
        cases inside
        have row := Nat.mul_le_mul_right length (Nat.succ_le_of_lt within.1)
        rw [Nat.succ_mul] at row
        exact Nat.lt_of_lt_of_le (by omega) (row.trans content.2)
      case isFalse => cases inside
    case h_5 => exact absurd (congrArg Prod.fst found) (by simp [Map.refuse])
  · exact absurd (congrArg Prod.fst found) (by simp [Map.lookupCell, Map.checkKey, sized])

/-- A map of the kind of ring buffers has a ring. -/
theorem Map.WellFormed.ring_isSome
    {map : Map}
    (wellFormed : map.WellFormed) (ringed : map.schema.kind = .ringBuffer) :
    map.ring?.isSome = true := by
  have content := wellFormed.content
  rw [Map.ring?]
  cases held : map.content with
  | ringBuffer ring => rfl
  | hash table =>
      rw [held] at content
      rw [content.1] at ringed
      cases ringed
  | recencyHash table =>
      rw [held] at content
      rw [content.1] at ringed
      cases ringed
  | array length =>
      rw [held] at content
      rw [content.1] at ringed
      cases ringed
  | perWorkerArray workers length =>
      rw [held] at content
      rw [content.1] at ringed
      cases ringed

/-- The ring of a ring buffer holds records of the size of the values. -/
theorem Map.WellFormed.ring
    {map : Map} {ring : Ring} (wellFormed : map.WellFormed) (isRing : map.ring? = some ring) :
    ring.recordSize = map.schema.valueSize ∧ ring.WellFormed := by
  have content := wellFormed.content
  rw [Map.ring?] at isRing
  split at isRing
  case h_1 found held =>
    rw [held] at content
    cases isRing
    exact content.2
  case h_2 => cases isRing

/-! ## Stores -/

namespace Store

/-- Every map is well formed. -/
def WellFormed (store : Store) : Prop :=
  ∀ (id : MapId) (map : Map), store.map? id = some map → map.WellFormed

/-- Every map is still there, well formed and with its schema and its cells. -/
def Kept (before after : Store) : Prop :=
  after.WellFormed ∧
    ∀ (id : MapId) (map : Map), before.map? id = some map →
      ∃ map', after.map? id = some map' ∧ map.Kept map'

theorem Kept.refl
    {store : Store}
    (wellFormed : store.WellFormed) :
    store.Kept store :=
  ⟨wellFormed, fun id map there => ⟨map, there, Map.Kept.refl (wellFormed id map there)⟩⟩

theorem Kept.trans
    {first second third : Store}
    (earlier : first.Kept second) (later : second.Kept third) :
    first.Kept third := by
  refine ⟨later.1, fun id map there => ?_⟩
  rcases earlier.2 id map there with ⟨map', there', kept⟩
  rcases later.2 id map' there' with ⟨map'', there'', kept'⟩
  exact ⟨map'', there'', kept.trans kept'⟩

theorem map?_setMap
    {store : Store} {id other : MapId} {map changed : Map}
    (there : store.map? id = some map) :
    (store.setMap id changed).map? other =
      if id = other then some changed else store.map? other := by
  have inside : id < store.maps.size := (Array.getElem?_eq_some_iff.mp there).1
  simp only [Store.map?, Store.setMap, Array.getElem?_setIfInBounds, inside, if_true]

theorem WellFormed.setMap
    {store : Store} {id : MapId} {map changed : Map}
    (wellFormed : store.WellFormed) (there : store.map? id = some map)
    (kept : map.Kept changed) :
    store.Kept (store.setMap id changed) := by
  constructor
  · intro other found lookup
    rw [map?_setMap there] at lookup
    split at lookup
    · cases lookup
      exact kept.wellFormed
    · exact wellFormed other found lookup
  · intro other found lookup
    rw [map?_setMap there]
    split
    · rename_i same
      subst same
      rw [there] at lookup
      cases lookup
      exact ⟨changed, rfl, kept⟩
    · exact ⟨found, lookup, Map.Kept.refl (wellFormed other found lookup)⟩

theorem WellFormed.onMap
    {store : Store} {α : Type} {action : MapAction α}
    (wellFormed : store.WellFormed) (keeps : action.Keeps) (id : MapId) :
    store.Kept ((Store.onMap id action).run store).2 := by
  simp only [Store.onMap, Stateful.run_bind, Stateful.run_get]
  cases there : store.map? id with
  | none => exact Kept.refl wellFormed
  | some map =>
      exact wellFormed.setMap there (keeps map (wellFormed id map there))

theorem WellFormed.onRing
    {store : Store} {α : Type} {change : Ring → α × Ring}
    (wellFormed : store.WellFormed)
    (id : MapId)
    (keeps : ∀ {ring : Ring}, store.ring? id = some ring → ring.WellFormed →
      ring.Kept (change ring).2) :
    store.Kept (store.onRing id change).2 := by
  simp only [Store.onRing]
  split
  case h_1 => exact Kept.refl wellFormed
  case h_2 map there =>
    apply wellFormed.setMap there
    apply (wellFormed id map there).onRing
    intro ring isRing
    exact keeps (by rw [Store.ring?, there, Option.bind_some, isRing])

theorem WellFormed.modifyRing
    {store : Store} {change : Ring → Ring}
    (wellFormed : store.WellFormed) (id : MapId)
    (keeps : ∀ {ring : Ring}, store.ring? id = some ring → ring.WellFormed →
      ring.Kept (change ring)) :
    store.Kept (store.modifyRing id change) :=
  wellFormed.onRing id keeps

theorem onRing_fst
    {α : Type} (store : Store) (id : MapId) (change : Ring → α × Ring) :
    (store.onRing id change).1 = (store.ring? id).map fun ring => (change ring).1 := by
  simp only [Store.onRing, Store.ring?]
  cases store.map? id with
  | none => rfl
  | some map =>
      simp only [Map.onRing, Map.ring?, Option.bind_some]
      cases map.content <;> rfl

theorem run_onMap
    {store : Store} {id : MapId} {map : Map} {α : Type}
    (action : MapAction α) (there : store.map? id = some map) :
    (Store.onMap id action).run store =
      ((action.run map).1, store.setMap id (action.run map).2) := by
  simp only [Store.onMap, Stateful.run_bind, Stateful.run_get, there]
  rfl

/-- A cell is changed by changing its map. -/
theorem setCell_eq
    {store : Store} {id : CellId} {map : Map}
    (there : store.map? id.map = some map) (changed : Cell) :
    store.setCell id changed = store.setMap id.map (map.setCell id.number changed) := by
  have inside : id.map < store.maps.size := (Array.getElem?_eq_some_iff.mp there).1
  have entries :
      store.maps.modify id.map (·.setCell id.number changed) =
        store.maps.setIfInBounds id.map (map.setCell id.number changed) := by
    apply Array.ext_getElem?
    intro index
    rw [Array.getElem?_modify, Array.getElem?_setIfInBounds]
    by_cases here : id.map = index
    · subst here
      rw [if_pos rfl, if_pos rfl, if_pos inside, show store.maps[id.map]? = some map from there]
      rfl
    · rw [if_neg here, if_neg here]
  rw [Store.setCell, entries, Store.setMap]

/-- Putting a cell of the same size in the place of another. -/
theorem WellFormed.setCell
    {store : Store} {id : CellId} {cell changed : Cell}
    (wellFormed : store.WellFormed) (there : store.cell? id = some cell)
    (sized : changed.size = cell.size) :
    store.Kept (store.setCell id changed) := by
  rcases Option.bind_eq_some_iff.mp there with ⟨map, lookup, held⟩
  have well := wellFormed id.map map lookup
  rw [setCell_eq lookup]
  exact wellFormed.setMap lookup
    (well.setCell id.number (sized.trans (well.cells cell (Array.mem_of_getElem? held))))

theorem forWorkers_wellFormed (workers : Nat) : (forWorkers workers).WellFormed := by
  intro id map there
  simp [Store.map?, forWorkers] at there

/-- A new map is as well formed as the others. -/
theorem WellFormed.create
    {store : Store}
    (wellFormed : store.WellFormed) (name : String) (schema : Schema) :
    store.Kept ((Store.create name schema).run store).2 := by
  simp only [Store.create, Stateful.run_bind, Stateful.run_get]
  split
  · exact Kept.refl wellFormed
  · simp only [Stateful.run_pure, Stateful.run_bind, Stateful.run_mk_pure]
    cases created : Map.create name schema store.workers with
    | error problem => exact Kept.refl wellFormed
    | ok map =>
        simp only [Stateful.run_set]
        constructor
        · intro id found lookup
          simp only [Store.map?, Array.getElem?_push] at lookup
          split at lookup
          · cases lookup
            exact Map.create_wellFormed created
          · exact wellFormed id found lookup
        · intro id found lookup
          have old : id < store.maps.size := (Array.getElem?_eq_some_iff.mp lookup).1
          refine ⟨found, ?_, Map.Kept.refl (wellFormed id found lookup)⟩
          simp only [Store.map?, Array.getElem?_push, if_neg (Nat.ne_of_lt old)]
          exact lookup

/-- The numbers under which programs know maps outlive the names. -/
theorem WellFormed.destroy
    {store : Store}
    (wellFormed : store.WellFormed) (name : String) :
    store.Kept ((Store.destroy name).run store).2 := by
  simp only [Store.destroy, Stateful.run_bind, Stateful.run_get]
  split
  · exact Kept.refl wellFormed
  · exact Kept.refl wellFormed

end Store

end PacketFilter
